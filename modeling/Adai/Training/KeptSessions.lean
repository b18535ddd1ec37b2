import Mathlib.Data.List.Pairwise
import Adai.Training.LowestLoss

/-! # The sessions a trainer keeps

Whatever its passes record, a history consists of finished sessions, each with a
checkpoint of its own in the directory, and unfinished ones, in the order of
their ids (`KeptInv`). Dropping broken sessions and evicting old ones keep the
checkpoints of the others, since no two finished sessions share an id.
-/

namespace Adai.Training

/-- An entry of a session that finished, with whatever losses. -/
structure TrainingSession.Finished (session : TrainingSession) : Prop where
  path : session.checkpointPath = some (.checkpoint session.sessionId)
  trained : 0 < session.samplesTrained
  loss : ∀ loss, session.finalValidationLoss.measured = some loss → loss < floatMax

theorem TrainingSession.Unfinished.not_checkpoint {session : TrainingSession}
    (unfinished : session.Unfinished) (id : Nat) :
    session.checkpointPath ≠ some (.checkpoint id) := by
  rcases unfinished.path with none | ⟨auto, path⟩
  · simp [none]
  · simp [path]

theorem TrainingSession.Unfinished.not_finished {session : TrainingSession}
    (unfinished : session.Unfinished) : ¬ session.Finished :=
  fun finished => unfinished.not_checkpoint _ finished.path

theorem TrainingSession.Unfinished.measured {session : TrainingSession}
    (unfinished : session.Unfinished) : session.finalValidationLoss.measured = none := by
  rw [unfinished.losses.2]
  rfl

/-- Ids grow along a history, and no session shares the id of a finished one. -/
def Precedes (first second : TrainingSession) : Prop :=
  first.sessionId ≤ second.sessionId ∧ (first.Finished → first.sessionId < second.sessionId)

structure KeptInv (directory : Directory) (history : List TrainingSession) : Prop where
  entries : ∀ session ∈ history,
    session.Finished ∧ directory.Present session ∨ session.Unfinished
  order : history.Pairwise Precedes

/-- The sessions of a history come before the given id, or are unfinished at it. -/
def UpTo (next : Nat) (history : List TrainingSession) : Prop :=
  ∀ session ∈ history, session.sessionId ≤ next ∧ (session.Finished → session.sessionId < next)

theorem KeptInv.nil (directory : Directory) : KeptInv directory [] :=
  ⟨fun _ member => absurd member List.not_mem_nil, .nil⟩

theorem KeptInv.sublist {directory other : Directory} {history part : List TrainingSession}
    (inv : KeptInv directory history) (sub : part.Sublist history)
    (kept : ∀ session ∈ part, session.Finished → directory.Present session →
      other.Present session) : KeptInv other part := by
  refine ⟨fun session member => ?_, inv.order.sublist sub⟩
  rcases inv.entries session (sub.subset member) with ⟨finished, present⟩ | unfinished
  · exact .inl ⟨finished, kept session member finished present⟩
  · exact .inr unfinished

theorem KeptInv.covers {directory other : Directory} {history : List TrainingSession}
    (inv : KeptInv directory history) (covers : other.Covers directory) :
    KeptInv other history :=
  inv.sublist (.refl _) fun session _ _ present => covers (.checkpoint session.sessionId) present

theorem KeptInv.filter {directory : Directory} {history : List TrainingSession}
    (inv : KeptInv directory history) : KeptInv directory (history.filter (·.reads)) :=
  inv.sublist List.filter_sublist fun _ _ _ present => present

/-- A session at the next id may follow. -/
theorem KeptInv.snoc {directory : Directory} {next : Nat} {history : List TrainingSession}
    (inv : KeptInv directory history) (upTo : UpTo next history) {session : TrainingSession}
    (entry : session.Finished ∧ directory.Present session ∨ session.Unfinished)
    (id : session.sessionId = next) : KeptInv directory (history ++ [session]) := by
  constructor
  · intro other member
    rcases List.mem_append.mp member with early | late
    · exact inv.entries other early
    · obtain rfl := List.mem_singleton.mp late
      exact entry
  · refine List.pairwise_append.mpr ⟨inv.order, List.pairwise_singleton _ _, ?_⟩
    intro first early other last
    obtain rfl := List.mem_singleton.mp last
    obtain ⟨le, lt⟩ := upTo first early
    exact ⟨id.symm ▸ le, fun finished => id.symm ▸ lt finished⟩

theorem UpTo.snoc_unfinished {next : Nat} {history : List TrainingSession}
    (upTo : UpTo next history) {session : TrainingSession} (unfinished : session.Unfinished)
    (id : session.sessionId = next) : UpTo next (history ++ [session]) := by
  intro other member
  rcases List.mem_append.mp member with early | late
  · exact upTo other early
  · obtain rfl := List.mem_singleton.mp late
    exact ⟨id.le, fun finished => absurd finished unfinished.not_finished⟩

theorem UpTo.succ {next : Nat} {history : List TrainingSession} (upTo : UpTo next history)
    {session : TrainingSession} (id : session.sessionId = next) :
    UpTo (next + 1) (history ++ [session]) := by
  intro other member
  rcases List.mem_append.mp member with early | late
  · exact ⟨Nat.le_succ_of_le (upTo other early).1, fun finished =>
      Nat.lt_succ_of_lt ((upTo other early).2 finished)⟩
  · obtain rfl := List.mem_singleton.mp late
    exact ⟨id ▸ Nat.le_succ _, fun _ => id ▸ Nat.lt_succ_self _⟩

theorem UpTo.sublist {next : Nat} {history part : List TrainingSession}
    (upTo : UpTo next history) (sub : part.Sublist history) : UpTo next part :=
  fun session member => upTo session (sub.subset member)

/-- Numbering on from a history. -/
theorem UpTo.nextId (history : List TrainingSession) : UpTo (nextId history) history := by
  have past : ∀ (history : List TrainingSession) (current : Nat),
      current ≤ history.foldl
        (fun current session =>
          if current ≤ session.sessionId then session.sessionId + 1 else current) current ∧
      ∀ session ∈ history, session.sessionId < history.foldl
        (fun current session =>
          if current ≤ session.sessionId then session.sessionId + 1 else current) current := by
    intro history
    induction history with
    | nil => exact fun _ => ⟨Nat.le_refl _, fun _ member => absurd member List.not_mem_nil⟩
    | cons session rest ih =>
        intro current
        rw [List.foldl_cons]
        by_cases behind : current ≤ session.sessionId
        · rw [if_pos behind]
          obtain ⟨grows, later⟩ := ih (session.sessionId + 1)
          refine ⟨by omega, fun other member => ?_⟩
          rcases List.mem_cons.mp member with rfl | member
          · exact grows
          · exact later other member
        · rw [if_neg behind]
          obtain ⟨grows, later⟩ := ih current
          refine ⟨grows, fun other member => ?_⟩
          rcases List.mem_cons.mp member with rfl | member
          · omega
          · exact later other member
  intro session member
  have before := (past history 0).2 session member
  exact ⟨before.le, fun _ => before⟩

/-! ## Checkpoints of other sessions -/

theorem TrainingSession.Finished.measures {directory : Directory} {session : TrainingSession}
    (finished : session.Finished) (present : directory.Present session) :
    directory.Measures session := by
  intro loss measured
  refine ⟨finished.loss loss measured, ?_⟩
  have has : session.hasValidationLoss = true := by
    unfold TrainingSession.hasValidationLoss
    cases recorded : session.finalValidationLoss with
    | notFinite => simp [recorded, Loss.measured] at measured
    | finite value =>
        by_cases positive : 0 < value
        · exact decide_eq_true positive
        · simp [recorded, Loss.measured, positive] at measured
  unfold Directory.isSaneCheckpointCandidate Directory.checkpointFilesExist
  rw [finished.path]
  simp [finished.trained, has, show (directory.models _).isSome = true from present]

theorem TrainingSession.Unfinished.measures {directory : Directory} {session : TrainingSession}
    (unfinished : session.Unfinished) : directory.Measures session := by
  intro loss measured
  rw [unfinished.measured] at measured
  cases measured

theorem KeptInv.measures {directory : Directory} {history : List TrainingSession}
    (inv : KeptInv directory history) : ∀ session ∈ history, directory.Measures session := by
  intro session member
  rcases inv.entries session member with ⟨finished, present⟩ | unfinished
  · exact finished.measures present
  · exact unfinished.measures

/-- No later session shares the checkpoint of an earlier one. -/
theorem KeptInv.checkpoint_ne {directory : Directory} {old remaining : List TrainingSession}
    (inv : KeptInv directory (old ++ remaining)) {session other : TrainingSession}
    (early : other ∈ old) (late : session ∈ remaining) :
    other.checkpointPath ≠ some (.checkpoint session.sessionId) := by
  rcases inv.entries other (List.mem_append_left _ early) with ⟨done, -⟩ | unfinished
  · intro same
    have before := ((List.pairwise_append.mp inv.order).2.2 other early session late).2 done
    rw [done.path] at same
    injection same with same
    injection same with same
    omega
  · exact unfinished.not_checkpoint _

theorem KeptInv.outlives {directory : Directory} {old remaining : List TrainingSession}
    (inv : KeptInv directory (old ++ remaining)) :
    ∀ session ∈ remaining, ∀ other ∈ old, session.Outlives other := by
  intro session late other early measured
  rcases inv.entries session (List.mem_append_right _ late) with ⟨finished, -⟩ | unfinished
  · exact ⟨session.sessionId, finished.path, inv.checkpoint_ne early late⟩
  · rw [unfinished.measured] at measured
    cases measured

/-- Deleting other files leaves a session as sane as it was. -/
theorem sane_removeModelFiles {directory : Directory} {session : TrainingSession}
    {path : Option Base}
    (entry : session.Finished ∧ path ≠ some (.checkpoint session.sessionId) ∨
      session.Unfinished) :
    (directory.removeModelFiles path).isSaneCheckpointCandidate session =
      directory.isSaneCheckpointCandidate session := by
  rcases entry with ⟨finished, other⟩ | unfinished
  · unfold Directory.isSaneCheckpointCandidate Directory.checkpointFilesExist
    rw [finished.path]
    dsimp only
    rw [Directory.removeModelFiles_models_of_ne other]
  · rw [unfinished.not_sane, unfinished.not_sane]

/-- What dropping broken sessions keeps. -/
theorem dropBroken_kept (history : List TrainingSession) :
    ∀ directory : Directory, KeptInv directory history →
      (∀ session, session ∈ (directory.dropBroken history).2 ↔
        session ∈ history ∧ directory.isSaneCheckpointCandidate session = true) ∧
      (directory.dropBroken history).2.Sublist history ∧
      ∀ id, (∀ session ∈ history, session.checkpointPath = some (.checkpoint id) →
          directory.isSaneCheckpointCandidate session = true) →
        (directory.dropBroken history).1.models (.checkpoint id) =
          directory.models (.checkpoint id) := by
  induction history with
  | nil =>
      intro directory _
      exact ⟨by simp [Directory.dropBroken], .slnil, fun _ _ => rfl⟩
  | cons session rest ih =>
      intro directory inv
      have restInv : KeptInv directory rest :=
        inv.sublist (List.sublist_cons_self _ _) fun _ _ _ present => present
      have whole : KeptInv directory ([session] ++ rest) := inv
      unfold Directory.dropBroken
      by_cases sane : directory.isSaneCheckpointCandidate session = true
      · rw [if_pos sane]
        obtain ⟨members, sub, files⟩ := ih directory restInv
        refine ⟨fun other => ?_, sub.cons_cons session, fun id good => ?_⟩
        · rw [List.mem_cons, List.mem_cons, members other]
          constructor
          · rintro (rfl | ⟨member, good⟩)
            · exact ⟨.inl rfl, sane⟩
            · exact ⟨.inr member, good⟩
          · rintro ⟨rfl | member, good⟩
            · exact .inl rfl
            · exact .inr ⟨member, good⟩
        · exact files id fun other member => good other (List.mem_cons_of_mem _ member)
      · rw [if_neg sane]
        have others : ∀ other ∈ rest, other.Finished ∧
            session.checkpointPath ≠ some (.checkpoint other.sessionId) ∨ other.Unfinished := by
          intro other member
          rcases restInv.entries other member with ⟨finished, -⟩ | unfinished
          · exact .inl ⟨finished,
              whole.checkpoint_ne (List.mem_singleton_self session) member⟩
          · exact .inr unfinished
        have same : ∀ other ∈ rest,
            (directory.removeModelFiles session.checkpointPath).isSaneCheckpointCandidate other =
              directory.isSaneCheckpointCandidate other :=
          fun other member => sane_removeModelFiles (others other member)
        have shrunk : KeptInv (directory.removeModelFiles session.checkpointPath) rest :=
          restInv.sublist (.refl _) fun other member _ present => by
            rw [Directory.Present, Directory.removeModelFiles_models_of_ne
              (whole.checkpoint_ne (List.mem_singleton_self session) member)]
            exact present
        obtain ⟨members, sub, files⟩ := ih _ shrunk
        refine ⟨fun other => ?_, sub.cons session, fun id good => ?_⟩
        · rw [members other, List.mem_cons]
          constructor
          · rintro ⟨member, good⟩
            exact ⟨.inr member, same other member ▸ good⟩
          · rintro ⟨rfl | member, good⟩
            · exact absurd good sane
            · exact ⟨member, (same other member).trans good⟩
        · rw [files id fun other member path =>
            (same other member).trans (good other (List.mem_cons_of_mem _ member) path)]
          refine Directory.removeModelFiles_models_of_ne fun path => ?_
          exact sane (good session (List.mem_cons_self ..) path)

/-! ## What a constructor keeps -/

/-- A trainer between its steps: its history and its best checkpoint. -/
structure Trainer.Kept (directory : Directory) (best : Best) (trainer : Trainer) : Prop where
  history : KeptInv directory trainer.sessionHistory
  upTo : UpTo trainer.currentSessionId trainer.sessionHistory
  best : best.Lowest trainer.sessionHistory
  pending : trainer.pendingVocabBuild = true →
    trainer.sessionHistory = [] ∧ directory.history = none
  built : trainer.pendingVocabBuild = false → directory.vocabulary = true

/-- Finished sessions are told apart by their ids. -/
theorem KeptInv.eq_of_id {directory : Directory} {history : List TrainingSession}
    (inv : KeptInv directory history) {session other : TrainingSession}
    (member : session ∈ history) (otherMember : other ∈ history) (finished : session.Finished)
    (path : other.checkpointPath = some (.checkpoint session.sessionId)) : other = session := by
  have otherFinished : other.Finished := by
    rcases inv.entries other otherMember with ⟨done, -⟩ | unfinished
    · exact done
    · exact absurd path (unfinished.not_checkpoint _)
  let Apart (first second : TrainingSession) : Prop :=
    first.Finished → second.Finished → first.sessionId ≠ second.sessionId
  have symmetric : Std.Symm Apart :=
    ⟨fun _ _ apart done done' same => apart done' done same.symm⟩
  have distinct : history.Pairwise Apart :=
    inv.order.imp fun precedes done _ => (precedes.2 done).ne
  by_contra differs
  have apart := distinct.forall otherMember member differs
  rw [otherFinished.path] at path
  injection path with path
  injection path with path
  exact apart otherFinished finished path

/-- What cleaning up keeps of a history. -/
theorem cleanupDeadSessions_kept {directory : Directory} {trainer : Trainer}
    (inv : KeptInv directory trainer.sessionHistory) :
    KeptInv (cleanupDeadSessions directory trainer).1
        (cleanupDeadSessions directory trainer).2.sessionHistory ∧
      (cleanupDeadSessions directory trainer).2.sessionHistory.Sublist
        trainer.sessionHistory ∧
      ∀ session : TrainingSession, session.finalValidationLoss.measured.isSome →
        (session ∈ (cleanupDeadSessions directory trainer).2.sessionHistory ↔
          session ∈ trainer.sessionHistory) := by
  have alive : KeptInv (directory.removeWhere (directory.isDead trainer))
      trainer.sessionHistory :=
    inv.sublist (.refl _) fun session member finished present => by
      rw [Directory.Present,
        (removeWhere_of_not_dead (isDead_checkpoint member finished.path present)).1]
      exact present
  obtain ⟨members, sub, files⟩ := dropBroken_kept trainer.sessionHistory _ alive
  refine ⟨alive.sublist sub fun session member finished present => ?_, sub, fun session some => ?_⟩
  · obtain ⟨listed, sane⟩ := (members session).mp member
    rw [Directory.Present, (cleanupDeadSessions_files directory trainer _).1,
      files session.sessionId fun other there path => ?_]
    · exact present
    · exact alive.eq_of_id listed there finished path ▸ sane
  · refine (members session).trans (and_iff_left_of_imp fun listed => ?_)
    obtain ⟨loss, measured⟩ := Option.isSome_iff_exists.mp some
    exact (alive.measures session listed loss measured).2

end Adai.Training
