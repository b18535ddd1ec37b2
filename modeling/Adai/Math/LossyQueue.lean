import Mathlib.Data.List.Count
import Mathlib.Logic.Relation
import Mathlib.Order.Nat

/-! # A queue that can lose entries

Entries are numbered as they arrive. They wait in a queue from which some are lost, and the
first one waiting is taken out. However they are lost, they are taken in the order of
arrival, each at most once, and each that arrived is taken, waiting or lost
(`LossyQueue.Sound`). An entry that waits comes closer to the front with each one taken
(`LossyQueue.ahead_take`).
-/

structure LossyQueue where
  /-- How many entries arrived. -/
  issued : ℕ
  waiting : List ℕ
  taken : List ℕ
  lost : List ℕ

namespace LossyQueue

inductive Move : LossyQueue → LossyQueue → Prop
  | arrive (issued : ℕ) (waiting taken lost : List ℕ) :
      Move ⟨issued, waiting, taken, lost⟩ ⟨issued + 1, waiting ++ [issued], taken, lost⟩
  | refuse (issued : ℕ) (waiting taken lost : List ℕ) :
      Move ⟨issued, waiting, taken, lost⟩ ⟨issued + 1, waiting, taken, lost ++ [issued]⟩
  | lose (issued : ℕ) {waiting kept gone : List ℕ} (taken lost : List ℕ)
      (sublist : kept.Sublist waiting) (rest : ∀ i ∈ waiting, i ∈ kept ∨ i ∈ gone) :
      Move ⟨issued, waiting, taken, lost⟩ ⟨issued, kept, taken, lost ++ gone⟩
  | take (issued i : ℕ) (waiting taken lost : List ℕ) :
      Move ⟨issued, i :: waiting, taken, lost⟩ ⟨issued, waiting, taken ++ [i], lost⟩

structure Sound (queue : LossyQueue) : Prop where
  ordered : (queue.taken ++ queue.waiting).Pairwise (· < ·)
  issued : ∀ i ∈ queue.taken ++ queue.waiting, i < queue.issued
  accounted : ∀ i < queue.issued, i ∈ queue.taken ∨ i ∈ queue.waiting ∨ i ∈ queue.lost

theorem sound_empty : Sound ⟨0, [], [], []⟩ where
  ordered := .nil
  issued i member := by cases member
  accounted i before := absurd before (Nat.not_lt_zero i)

variable {queue queue' : LossyQueue}

theorem Move.sound (move : Move queue queue') (sound : queue.Sound) : queue'.Sound := by
  obtain ⟨ordered, below, accounted⟩ := sound
  cases move with
  | arrive issued waiting taken lost =>
      dsimp only at ordered below accounted
      refine ⟨?_, fun i member => ?_, fun i before => ?_⟩
      · dsimp only
        rw [← List.append_assoc]
        refine List.pairwise_append.mpr ⟨ordered, List.pairwise_singleton .., fun i member j new => ?_⟩
        exact (below i member).trans_eq (List.mem_singleton.mp new).symm
      · rw [← List.append_assoc] at member
        rcases List.mem_append.mp member with earlier | new
        · exact Nat.lt_succ_of_lt (below i earlier)
        · exact (List.mem_singleton.mp new).trans_lt (Nat.lt_succ_self issued)
      · dsimp only
        rcases Nat.lt_succ_iff_lt_or_eq.mp before with earlier | rfl
        · exact (accounted i earlier).imp_right (.imp_left (List.mem_append_left _))
        · exact .inr (.inl (List.mem_append_right _ (List.mem_singleton_self _)))
  | refuse issued waiting taken lost =>
      refine ⟨ordered, fun i member => Nat.lt_succ_of_lt (below i member), fun i before => ?_⟩
      dsimp only
      rcases Nat.lt_succ_iff_lt_or_eq.mp before with earlier | rfl
      · exact (accounted i earlier).imp_right (.imp_right (List.mem_append_left _))
      · exact .inr (.inr (List.mem_append_right _ (List.mem_singleton_self _)))
  | @lose issued waiting kept gone taken lost sublist rest =>
      have both : (taken ++ kept).Sublist (taken ++ waiting) := (List.Sublist.refl taken).append sublist
      refine ⟨ordered.sublist both, fun i member => below i (both.subset member), fun i before => ?_⟩
      rcases accounted i before with isTaken | isWaiting | isLost
      · exact .inl isTaken
      · exact .inr ((rest i isWaiting).imp_right (List.mem_append_right _))
      · exact .inr (.inr (List.mem_append_left _ isLost))
  | take issued i waiting taken lost =>
      have same : taken ++ [i] ++ waiting = taken ++ i :: waiting := by simp
      refine ⟨same ▸ ordered, fun j member => below j (same ▸ member), fun j before => ?_⟩
      dsimp only
      rcases accounted j before with isTaken | isWaiting | isLost
      · exact .inl (List.mem_append_left _ isTaken)
      · rcases List.mem_cons.mp isWaiting with rfl | later
        · exact .inl (List.mem_append_right _ (List.mem_singleton_self _))
        · exact .inr (.inl later)
      · exact .inr (.inr isLost)

theorem sound_of_moves (moves : Relation.ReflTransGen Move queue queue') (sound : queue.Sound) :
    queue'.Sound := by
  induction moves with
  | refl => exact sound
  | tail _ move ih => exact move.sound ih

/-! ## Waiting for one's turn -/

/-- How many of those waiting come no later than `i`. -/
def ahead (queue : LossyQueue) (i : ℕ) : ℕ :=
  queue.waiting.countP (· ≤ i)

theorem ahead_le (queue : LossyQueue) (i : ℕ) : queue.ahead i ≤ queue.waiting.length :=
  List.countP_le_length

theorem Move.ahead_le (move : Move queue queue') {i : ℕ} (arrived : i < queue.issued) :
    queue'.ahead i ≤ queue.ahead i := by
  cases move with
  | arrive issued waiting taken lost =>
      have later : ¬ issued ≤ i := Nat.not_le_of_lt arrived
      simp [ahead, later]
  | refuse => exact le_rfl
  | lose _ _ _ sublist => exact sublist.countP_le
  | take _ first waiting => exact (List.sublist_cons_self first waiting).countP_le

theorem Move.issued_le (move : Move queue queue') : queue.issued ≤ queue'.issued := by
  cases move with
  | arrive => exact Nat.le_succ _
  | refuse => exact Nat.le_succ _
  | lose => exact le_rfl
  | take => exact le_rfl

theorem issued_le_of_moves (moves : Relation.ReflTransGen Move queue queue') :
    queue.issued ≤ queue'.issued := by
  induction moves with
  | refl => exact le_rfl
  | tail _ move ih => exact ih.trans move.issued_le

theorem ahead_le_of_moves (moves : Relation.ReflTransGen Move queue queue') {i : ℕ}
    (arrived : i < queue.issued) : queue'.ahead i ≤ queue.ahead i := by
  induction moves with
  | refl => exact le_rfl
  | tail earlier move ih =>
      exact (move.ahead_le (arrived.trans_le (issued_le_of_moves earlier))).trans ih

/-- Taking the first entry brings each one that waits closer. -/
theorem ahead_take {issued first : ℕ} {waiting taken lost : List ℕ}
    (sound : Sound ⟨issued, first :: waiting, taken, lost⟩) {i : ℕ} (member : i ∈ first :: waiting) :
    ahead ⟨issued, waiting, taken ++ [first], lost⟩ i + 1 =
      ahead ⟨issued, first :: waiting, taken, lost⟩ i := by
  have increasing := (List.pairwise_append.mp sound.ordered).2.1
  have notAfter : first ≤ i := by
    rcases List.mem_cons.mp member with rfl | later
    · exact le_rfl
    · exact (List.rel_of_pairwise_cons increasing later).le
  simp [ahead, notAfter]

end LossyQueue
