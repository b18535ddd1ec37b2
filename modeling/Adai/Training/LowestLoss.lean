import Adai.Training.BestCheckpoint
import Adai.Training.ResumesNewest

/-! # The lowest loss of a history

A trainer's best checkpoint is right for a history when it belongs to a session
with the lowest validation loss of those measured (`Best.Lowest`).
`retireAll_lowest` shows that it stays right while old sessions are evicted, and
`updateBestCheckpoint_lowest` that it is right again after the session that ends
is compared with it.
-/

namespace Adai.Training

/-- The best of a history: no measured loss is lower, and a session has it unless
nothing was measured. -/
structure Best.Lowest (best : Best) (history : List TrainingSession) : Prop where
  below : ∀ session ∈ history, ∀ loss, session.finalValidationLoss.measured = some loss →
    best.validationLoss ≤ loss
  attained : best.validationLoss = floatMax ∨ ∃ session ∈ history,
    session.finalValidationLoss.measured = some best.validationLoss ∧
      best.checkpointPath = session.checkpointPath

theorem Best.Lowest.nil : Best.initial.Lowest [] :=
  ⟨fun _ member => absurd member List.not_mem_nil, .inl rfl⟩

/-- Sessions without a measured loss do not matter. -/
theorem Best.Lowest.congr {best : Best} {history other : List TrainingSession}
    (lowest : best.Lowest history)
    (same : ∀ session : TrainingSession, session.finalValidationLoss.measured.isSome →
      (session ∈ other ↔ session ∈ history)) : best.Lowest other := by
  constructor
  · intro session member loss measured
    exact lowest.below session ((same session (by rw [measured]; rfl)).mp member) loss measured
  · refine lowest.attained.imp_right ?_
    rintro ⟨session, member, measured, path⟩
    exact ⟨session, (same session (by rw [measured]; rfl)).mpr member, measured, path⟩

/-- Measured losses below the largest float, of sessions that can be resumed. -/
def Directory.Measures (directory : Directory) (session : TrainingSession) : Prop :=
  ∀ loss, session.finalValidationLoss.measured = some loss →
    loss < floatMax ∧ directory.isSaneCheckpointCandidate session = true

theorem Directory.compareBest_lowest {directory : Directory} {best : Best}
    {history : List TrainingSession} (lowest : best.Lowest history) {session : TrainingSession}
    (measures : directory.Measures session) :
    (directory.compareBest best session).Lowest (history ++ [session]) := by
  unfold Directory.compareBest
  cases measured : session.finalValidationLoss.measured with
  | none =>
      refine lowest.congr fun other some => ?_
      simp only [List.mem_append, List.mem_singleton, or_iff_left_iff_imp]
      rintro rfl
      rw [measured] at some
      cases some
  | some loss =>
      dsimp only
      rw [(measures loss measured).2, Bool.true_and]
      by_cases lower : loss < best.validationLoss
      · rw [if_pos (decide_eq_true lower)]
        refine ⟨fun other member value otherMeasured => ?_,
          .inr ⟨session, by simp, measured, rfl⟩⟩
        rcases List.mem_append.mp member with early | late
        · exact (lower.le).trans (lowest.below other early value otherMeasured)
        · obtain rfl := List.mem_singleton.mp late
          exact (Option.some.inj (measured.symm.trans otherMeasured)).le
      · rw [if_neg (by simpa using lower)]
        refine ⟨fun other member value otherMeasured => ?_, lowest.attained.imp_right ?_⟩
        · rcases List.mem_append.mp member with early | late
          · exact lowest.below other early value otherMeasured
          · obtain rfl := List.mem_singleton.mp late
            obtain rfl := Option.some.inj (measured.symm.trans otherMeasured)
            exact not_lt.mp lower
        · rintro ⟨other, member, rest⟩
          exact ⟨other, List.mem_append_left _ member, rest⟩

/-- Looking through a history finds its best. -/
theorem Directory.bestOf_lowest {directory : Directory} {history : List TrainingSession}
    (measures : ∀ session ∈ history, directory.Measures session) :
    (directory.bestOf history).Lowest history := by
  have after : ∀ (later earlier : List TrainingSession) (best : Best), best.Lowest earlier →
      (∀ session ∈ later, directory.Measures session) →
      (later.foldl directory.compareBest best).Lowest (earlier ++ later) := by
    intro later
    induction later with
    | nil =>
        intro earlier best lowest _
        rwa [List.append_nil]
    | cons session rest ih =>
        intro earlier best lowest sane
        have next := ih (earlier ++ [session]) _
          (directory.compareBest_lowest lowest (sane session (List.mem_cons_self ..)))
          fun other member => sane other (List.mem_cons_of_mem _ member)
        rwa [List.append_assoc, List.singleton_append] at next
  exact after history [] .initial .nil measures

/-! ## The session that ends -/

theorem Best.Lowest.snoc_unmeasured {best : Best} {history : List TrainingSession}
    (lowest : best.Lowest history) {session : TrainingSession}
    (unmeasured : session.finalValidationLoss.measured = none) :
    best.Lowest (history ++ [session]) := by
  refine lowest.congr fun other some => ?_
  simp only [List.mem_append, List.mem_singleton, or_iff_left_iff_imp]
  rintro rfl
  rw [unmeasured] at some
  cases some

theorem Best.Lowest.front {best : Best} {front : List TrainingSession}
    {session : TrainingSession} (lowest : best.Lowest (front ++ [session]))
    (unmeasured : session.finalValidationLoss.measured = none) : best.Lowest front := by
  refine lowest.congr fun other some => ?_
  rw [List.mem_append, List.mem_singleton]
  refine (or_iff_left ?_).symm
  rintro rfl
  rw [unmeasured] at some
  cases some

/-- A session with the lowest loss yet. -/
theorem Best.Lowest.snoc_lower {best : Best} {history : List TrainingSession}
    (lowest : best.Lowest history) {session : TrainingSession} {loss : Rat} {path : Base}
    (measured : session.finalValidationLoss.measured = some loss)
    (checkpoint : session.checkpointPath = some path) (lower : loss ≤ best.validationLoss) :
    Best.Lowest ⟨loss, some path⟩ (history ++ [session]) := by
  refine ⟨fun other member value otherMeasured => ?_,
    .inr ⟨session, by simp, measured, checkpoint.symm⟩⟩
  rcases List.mem_append.mp member with early | late
  · exact lower.trans (lowest.below other early value otherMeasured)
  · obtain rfl := List.mem_singleton.mp late
    exact (Option.some.inj (measured.symm.trans otherMeasured)).le

/-- A session whose loss is not lower. -/
theorem Best.Lowest.snoc_higher {best : Best} {history : List TrainingSession}
    (lowest : best.Lowest history) {session : TrainingSession} {loss : Rat}
    (measured : session.finalValidationLoss.measured = some loss)
    (higher : best.validationLoss ≤ loss) : best.Lowest (history ++ [session]) := by
  refine ⟨fun other member value otherMeasured => ?_, lowest.attained.imp_right ?_⟩
  · rcases List.mem_append.mp member with early | late
    · exact lowest.below other early value otherMeasured
    · obtain rfl := List.mem_singleton.mp late
      obtain rfl := Option.some.inj (measured.symm.trans otherMeasured)
      exact higher
  · rintro ⟨other, member, rest⟩
    exact ⟨other, List.mem_append_left _ member, rest⟩

/-- `update_best_checkpoint` with a loss that it cannot miss. -/
theorem updateBestCheckpoint_lowest {best : Best} {front : List TrainingSession}
    (lowest : best.Lowest front)
    (paths : ∀ session ∈ front, session.finalValidationLoss.measured.isSome →
      session.checkpointPath ≠ none)
    {session : TrainingSession} {path : Base} (checkpoint : session.checkpointPath = some path)
    {symlinks : Bool}
    (seen : ∀ loss, session.finalValidationLoss.measured = some loss →
      loss < floatMax ∧ (symlinks = false → best.validationLoss ≤ loss)) :
    (updateBestCheckpoint symlinks (front.length + 1) session.finalValidationLoss path
      best).Lowest (front ++ [session]) := by
  unfold updateBestCheckpoint
  cases measured : session.finalValidationLoss.measured with
  | none =>
      have kept := lowest.snoc_unmeasured measured
      cases symlinks with
      | false => exact kept
      | true =>
          by_cases missing : best.checkpointPath.isNone
          · -- a path is only missing while no loss has been measured
            rw [Bool.not_true, if_neg Bool.false_ne_true, if_pos missing]
            refine ⟨kept.below, .inl ?_⟩
            refine lowest.attained.resolve_right ?_
            rintro ⟨other, member, otherMeasured, same⟩
            refine paths other member (by rw [otherMeasured]; rfl) ?_
            rw [← same]
            exact Option.isNone_iff_eq_none.mp missing
          · rw [Bool.not_true, if_neg Bool.false_ne_true, if_neg missing]
            exact kept
  | some loss =>
      obtain ⟨finite, unlinked⟩ := seen loss measured
      cases symlinks with
      | false => exact lowest.snoc_higher measured (unlinked rfl)
      | true =>
          rw [Bool.not_true, if_neg Bool.false_ne_true]
          dsimp only
          by_cases lower : loss < best.validationLoss
          · rw [if_pos (by simp [lower])]
            exact lowest.snoc_lower measured checkpoint lower.le
          · by_cases first : front.length + 1 ≤ 1
            · -- the first session is always best
              rw [if_pos (by simp [first])]
              obtain rfl := List.eq_nil_of_length_eq_zero (Nat.le_zero.mp (Nat.le_of_succ_le_succ first))
              have start : best.validationLoss = floatMax := by
                refine lowest.attained.resolve_right ?_
                rintro ⟨other, member, -⟩
                exact List.not_mem_nil member
              exact absurd (start ▸ finite) lower
            · rw [if_neg (by simp [lower, first])]
              exact lowest.snoc_higher measured (not_lt.mp lower)

/-! ## Evicted sessions -/

/-- A session other than the one that holds the best leaves. -/
theorem Best.Lowest.tail {best : Best} {session : TrainingSession}
    {history : List TrainingSession} (lowest : best.Lowest (session :: history))
    (other : session.checkpointPath ≠ best.checkpointPath) : best.Lowest history := by
  refine ⟨fun member there => lowest.below member (List.mem_cons_of_mem _ there),
    lowest.attained.imp_right ?_⟩
  rintro ⟨holder, member, measured, path⟩
  refine ⟨holder, (List.mem_cons.mp member).resolve_left ?_, measured, path⟩
  rintro rfl
  exact other path.symm

/-- A measured session keeps its checkpoint when another one leaves. -/
def TrainingSession.Outlives (session other : TrainingSession) : Prop :=
  session.finalValidationLoss.measured.isSome → ∃ id,
    session.checkpointPath = some (.checkpoint id) ∧
      other.checkpointPath ≠ some (.checkpoint id)

theorem Directory.Measures.retire {directory : Directory} {session other : TrainingSession}
    (measures : directory.Measures session) (outlives : session.Outlives other) :
    (directory.retire other).Measures session := by
  intro loss measured
  obtain ⟨finite, sane⟩ := measures loss measured
  obtain ⟨id, path, differs⟩ := outlives (by rw [measured]; rfl)
  refine ⟨finite, ?_⟩
  unfold Directory.isSaneCheckpointCandidate Directory.checkpointFilesExist at sane ⊢
  rw [path] at sane ⊢
  dsimp only at sane ⊢
  rwa [(directory.retire_checkpoint differs).1]

/-- When all the old sessions are gone, the best is one of those that remain. -/
theorem retireAll_lowest {remaining : List TrainingSession} (old : List TrainingSession) :
    ∀ (directory : Directory) (best : Best),
      best.Lowest (old ++ remaining) ∨ best.Lowest remaining →
      (∀ session ∈ remaining, directory.Measures session) →
      (∀ session ∈ remaining, ∀ other ∈ old, session.Outlives other) →
      (old.foldl (retireTracking remaining) (directory, best)).2.Lowest remaining := by
  induction old with
  | nil => exact fun directory best lowest _ _ => lowest.elim id id
  | cons session rest ih =>
      intro directory best lowest measures outlives
      have later : ∀ other ∈ remaining, (directory.retire session).Measures other :=
        fun other member => (measures other member).retire
          (outlives other member session (List.mem_cons_self ..))
      rw [List.foldl_cons]
      refine ih _ _ ?_ later fun other member gone there =>
        outlives other member gone (List.mem_cons_of_mem _ there)
      by_cases deleted : session.checkpointPath = best.checkpointPath
      · rw [if_pos (beq_iff_eq.mpr deleted)]
        exact .inr (Directory.bestOf_lowest later)
      · rw [if_neg (by simpa using deleted)]
        exact lowest.imp_left fun whole => whole.tail deleted

end Adai.Training
