import Adai.Training.TrainerRuns

/-! # What the history of sessions says

The history of a session directory lists completed sessions, each with a
checkpoint of its own, and unfinished ones, which have an auto-save or nothing
yet (`HistoryInv`). The entries a reader accepts, the sessions that
`cleanup_dead_sessions` drops and those that `cleanup_old_sessions` evicts are
read off that shape.
-/

namespace Adai.Training

/-- The session a base name belongs to. -/
def Base.id : Base → Nat
  | .checkpoint id => id
  | .best id => id
  | .autoSave id => id

def Base.isAutoSave : Base → Bool
  | .autoSave _ => true
  | _ => false

/-- An entry of a completed session whose losses can be used. -/
structure TrainingSession.Completed (session : TrainingSession) : Prop where
  path : session.checkpointPath = some (.checkpoint session.sessionId)
  trained : 0 < session.samplesTrained
  finite : session.finalLoss.isFinite = true ∧ session.finalValidationLoss.isFinite = true
  usable : session.finalValidationLoss = kNoValidationLoss ∨ session.hasValidationLoss = true

/-- An entry of a session that has not completed: no path yet, or an auto-save. -/
structure TrainingSession.Unfinished (session : TrainingSession) : Prop where
  path : session.checkpointPath = none ∨ ∃ id, session.checkpointPath = some (.autoSave id)
  losses : session.finalLoss = .finite 0 ∧ session.finalValidationLoss = .finite 0

theorem TrainingSession.Unfinished.not_completed {session : TrainingSession}
    (unfinished : session.Unfinished) : ¬ session.Completed := by
  intro completed
  rcases unfinished.path with none | ⟨id, auto⟩
  · rw [completed.path] at none
    cases none
  · rw [completed.path] at auto
    cases auto

/-- The checkpoint of a completed session is in the directory. -/
def Directory.Present (directory : Directory) (session : TrainingSession) : Prop :=
  (directory.models (.checkpoint session.sessionId)).isSome

theorem TrainingSession.Completed.sane {directory : Directory} {session : TrainingSession}
    (completed : session.Completed) (present : directory.Present session) :
    directory.isSaneCheckpointCandidate session = true := by
  unfold Directory.isSaneCheckpointCandidate Directory.checkpointFilesExist
  rw [completed.path]
  rcases completed.usable with unmeasured | measured
  · simp [completed.trained, unmeasured, show (directory.models _).isSome = true from present]
  · simp [completed.trained, measured, show (directory.models _).isSome = true from present]

theorem TrainingSession.Unfinished.not_sane {directory : Directory} {session : TrainingSession}
    (unfinished : session.Unfinished) :
    directory.isSaneCheckpointCandidate session = false := by
  have unmeasured : (session.finalValidationLoss == kNoValidationLoss ||
      session.hasValidationLoss) = false := by
    rw [TrainingSession.hasValidationLoss, unfinished.losses.2]
    rfl
  simp [Directory.isSaneCheckpointCandidate, unmeasured]

theorem TrainingSession.Completed.reads {session : TrainingSession}
    (completed : session.Completed) : session.reads = true := by
  simp [TrainingSession.reads, completed.finite.1, completed.finite.2, completed.path]

theorem TrainingSession.Unfinished.reads_iff {session : TrainingSession}
    (unfinished : session.Unfinished) :
    session.reads = true ↔ ∃ id, session.checkpointPath = some (.autoSave id) := by
  rcases unfinished.path with none | ⟨id, auto⟩
  · simp [TrainingSession.reads, none]
  · simp [TrainingSession.reads, auto, unfinished.losses, Loss.isFinite]

/-- Completed sessions stand in the order of their ids. -/
def InOrder (first second : TrainingSession) : Prop :=
  first.Completed → second.Completed → first.sessionId < second.sessionId

/-- The sessions of a history come before the given id, or are unfinished at it;
those that completed have their checkpoints and stand in the order of their ids. -/
structure HistoryInv (directory : Directory) (next : Nat) (history : List TrainingSession) :
    Prop where
  entries : ∀ session ∈ history,
    session.Completed ∧ directory.Present session ∧ session.sessionId < next ∨
      session.Unfinished ∧ session.sessionId ≤ next
  order : history.Pairwise InOrder

theorem HistoryInv.nil (directory : Directory) (next : Nat) : HistoryInv directory next [] :=
  ⟨fun _ member => absurd member List.not_mem_nil, .nil⟩

/-- Part of a history is one, where the checkpoints it names are still there. -/
theorem HistoryInv.sublist {directory other : Directory} {next : Nat}
    {history part : List TrainingSession} (inv : HistoryInv directory next history)
    (sub : part.Sublist history)
    (kept : ∀ session ∈ part, session.Completed → directory.Present session →
      other.Present session) : HistoryInv other next part := by
  refine ⟨fun session member => ?_, inv.order.sublist sub⟩
  rcases inv.entries session (sub.subset member) with ⟨completed, present, before⟩ | unfinished
  · exact .inl ⟨completed, kept session member completed present, before⟩
  · exact .inr unfinished

theorem HistoryInv.mono {directory : Directory} {next later : Nat}
    {history : List TrainingSession} (inv : HistoryInv directory next history)
    (le : next ≤ later) : HistoryInv directory later history := by
  refine ⟨fun session member => ?_, inv.order⟩
  rcases inv.entries session member with ⟨completed, present, before⟩ | ⟨unfinished, upTo⟩
  · exact .inl ⟨completed, present, Nat.lt_of_lt_of_le before le⟩
  · exact .inr ⟨unfinished, Nat.le_trans upTo le⟩

/-- An unfinished session at the next id may follow. -/
theorem HistoryInv.snoc_unfinished {directory : Directory} {next : Nat}
    {history : List TrainingSession} (inv : HistoryInv directory next history)
    {session : TrainingSession} (unfinished : session.Unfinished)
    (id : session.sessionId = next) : HistoryInv directory next (history ++ [session]) := by
  constructor
  · intro other member
    rcases List.mem_append.mp member with early | late
    · exact inv.entries other early
    · obtain rfl := List.mem_singleton.mp late
      exact .inr ⟨unfinished, Nat.le_of_eq id⟩
  · refine List.pairwise_append.mpr ⟨inv.order, List.pairwise_singleton _ _, ?_⟩
    intro first _ other last _ completed
    obtain rfl := List.mem_singleton.mp last
    exact absurd completed unfinished.not_completed

/-- The session at the next id may complete. -/
theorem HistoryInv.snoc_completed {directory : Directory} {next : Nat}
    {history : List TrainingSession} (inv : HistoryInv directory next history)
    {session : TrainingSession} (completed : session.Completed)
    (id : session.sessionId = next) (present : directory.Present session) :
    HistoryInv directory (next + 1) (history ++ [session]) := by
  constructor
  · intro other member
    rcases List.mem_append.mp member with early | late
    · exact (inv.mono (Nat.le_succ next)).entries other early
    · obtain rfl := List.mem_singleton.mp late
      exact .inl ⟨completed, present, id ▸ Nat.lt_succ_self _⟩
  · refine List.pairwise_append.mpr ⟨inv.order, List.pairwise_singleton _ _, ?_⟩
    intro first early other last firstCompleted _
    obtain rfl := List.mem_singleton.mp last
    rcases inv.entries first early with ⟨-, -, before⟩ | ⟨unfinished, -⟩
    · exact id ▸ before
    · exact absurd firstCompleted unfinished.not_completed

/-! ## Ids -/

/-- `load_session_history` numbers on from the largest id. -/
theorem nextId_le {history : List TrainingSession} {bound : Nat}
    (ids : ∀ session ∈ history, session.sessionId < bound) :
    ∀ current, current ≤ bound →
      history.foldl
        (fun current session =>
          if current ≤ session.sessionId then session.sessionId + 1 else current) current ≤
        bound := by
  induction history with
  | nil => exact fun current le => le
  | cons session rest ih =>
      intro current le
      refine ih (fun other member => ids other (List.mem_cons_of_mem _ member)) _ ?_
      dsimp only
      split
      · exact ids session (List.mem_cons_self ..)
      · exact le

theorem nextId_of_last {front : List TrainingSession} {last : TrainingSession}
    (ids : ∀ session ∈ front, session.sessionId ≤ last.sessionId) :
    (front ++ [last]).foldl
        (fun current session =>
          if current ≤ session.sessionId then session.sessionId + 1 else current) 0 =
      last.sessionId + 1 := by
  have before := nextId_le (fun session member => Nat.lt_succ_of_le (ids session member)) 0
    (Nat.zero_le _)
  rw [List.foldl_append, List.foldl_cons, List.foldl_nil]
  split
  · rfl
  · omega

/-! ## Dropping broken sessions -/

theorem Directory.removeModelFiles_models_of_ne {directory : Directory} {path : Option Base}
    {base : Base} (ne : path ≠ some base) :
    (directory.removeModelFiles path).models base = directory.models base := by
  have other : (some base == path) = false := beq_eq_false_iff_ne.mpr (Ne.symm ne)
  simp only [Directory.removeModelFiles, Directory.removeWhere, other, Bool.false_eq_true,
    if_false]

theorem Directory.removeModelFiles_states_of_ne {directory : Directory} {path : Option Base}
    {base : Base} (ne : path ≠ some base) :
    (directory.removeModelFiles path).states base = directory.states base := by
  have other : (some base == path) = false := beq_eq_false_iff_ne.mpr (Ne.symm ne)
  simp only [Directory.removeModelFiles, Directory.removeWhere, other, Bool.false_eq_true,
    if_false]

/-- Dropping the broken sessions of a history keeps the completed ones, and the
files of every base that is no unfinished session's auto-save. -/
theorem dropBroken_spec {next : Nat} (history : List TrainingSession) :
    ∀ directory : Directory, HistoryInv directory next history →
      (∀ session, session ∈ (directory.dropBroken history).2 ↔
        session ∈ history ∧ session.Completed) ∧
      (directory.dropBroken history).2.Sublist history ∧
      ∀ base, (∀ session ∈ history, session.Unfinished → session.checkpointPath ≠ some base) →
        (directory.dropBroken history).1.models base = directory.models base ∧
          (directory.dropBroken history).1.states base = directory.states base := by
  induction history with
  | nil =>
      intro directory _
      exact ⟨by simp [Directory.dropBroken], .slnil, fun _ _ => ⟨rfl, rfl⟩⟩
  | cons session rest ih =>
      intro directory inv
      have restInv : HistoryInv directory next rest :=
        inv.sublist (List.sublist_cons_self _ _) fun _ _ _ present => present
      unfold Directory.dropBroken
      rcases inv.entries session (List.mem_cons_self ..) with ⟨completed, present, -⟩ | ⟨unfinished, -⟩
      · rw [if_pos (completed.sane present)]
        obtain ⟨kept, sub, files⟩ := ih directory restInv
        refine ⟨fun other => ?_, sub.cons_cons session, fun base away => ?_⟩
        · rw [List.mem_cons, List.mem_cons, kept other]
          constructor
          · rintro (rfl | ⟨member, done⟩)
            · exact ⟨.inl rfl, completed⟩
            · exact ⟨.inr member, done⟩
          · rintro ⟨rfl | member, done⟩
            · exact .inl rfl
            · exact .inr ⟨member, done⟩
        · exact files base fun other member => away other (List.mem_cons_of_mem _ member)
      · rw [if_neg (by simp [unfinished.not_sane])]
        have stays : ∀ other : TrainingSession, session.checkpointPath ≠
            some (.checkpoint other.sessionId) := by
          intro other same
          rcases unfinished.path with none | ⟨id, auto⟩
          · rw [none] at same
            cases same
          · rw [auto] at same
            cases same
        have shrunk : HistoryInv (directory.removeModelFiles session.checkpointPath) next rest :=
          restInv.sublist (.refl _) fun other _ _ present => by
            rw [Directory.Present, Directory.removeModelFiles_models_of_ne (stays other)]
            exact present
        obtain ⟨kept, sub, files⟩ := ih _ shrunk
        refine ⟨fun other => ?_, sub.cons session, fun base away => ?_⟩
        · rw [kept other, List.mem_cons]
          constructor
          · rintro ⟨member, done⟩
            exact ⟨.inr member, done⟩
          · rintro ⟨rfl | member, done⟩
            · exact absurd done unfinished.not_completed
            · exact ⟨member, done⟩
        · obtain ⟨models, states⟩ := files base fun other member =>
            away other (List.mem_cons_of_mem _ member)
          have own := away session (List.mem_cons_self ..) unfinished
          rw [models, states, Directory.removeModelFiles_models_of_ne own,
            Directory.removeModelFiles_states_of_ne own]
          exact ⟨rfl, rfl⟩

/-- Nothing is dropped from a history of completed sessions. -/
theorem dropBroken_of_completed {directory : Directory} {history : List TrainingSession}
    (completed : ∀ session ∈ history, session.Completed ∧ directory.Present session) :
    directory.dropBroken history = (directory, history) := by
  induction history with
  | nil => rfl
  | cons session rest ih =>
      obtain ⟨done, present⟩ := completed session (List.mem_cons_self ..)
      unfold Directory.dropBroken
      rw [if_pos (done.sane present), ih fun other member =>
        completed other (List.mem_cons_of_mem _ member)]

end Adai.Training
