import Mathlib.Data.Finset.Card
import Mathlib.Data.Finset.Range
import Mathlib.Data.Set.Basic
import Mathlib.Logic.Function.Basic

/-! # Resources in a pool

Holders take resources out of a pool, one at a time, and give them back. A move keeps
the resources conserved (`ResourcePool.Move.conserves`): none is with two holders or both
held and in the pool, and those that are never lost are always at one of these places.

Numbered holders each hold at most one thing, and a counter for each thing is to equal
the number of its holders. The counters follow the holders when a holder takes a thing
(`SlotCounts.Exact.take`), gives it back (`SlotCounts.Exact.giveBack`), or arrives
(`SlotCounts.Exact.arrive`).
-/

namespace ResourcePool

variable {ι α : Type*} [DecidableEq ι]

structure Pool (ι α : Type*) where
  free : Set α
  holds : ι → Option α

/-- One move; only resources in `fragile` can be lost. -/
inductive Move (fragile : Set α) : Pool ι α → Pool ι α → Prop
  | take {free : Set α} {holds : ι → Option α} (i : ι) (a : α) (available : a ∈ free)
      (empty : holds i = none) :
      Move fragile ⟨free, holds⟩ ⟨{b | b ∈ free ∧ b ≠ a}, Function.update holds i (some a)⟩
  | giveBack {free : Set α} {holds : ι → Option α} (i : ι) (a : α) (held : holds i = some a) :
      Move fragile ⟨free, holds⟩ ⟨{b | b = a ∨ b ∈ free}, Function.update holds i none⟩
  | lose {free : Set α} {holds : ι → Option α} (a : α) (isFragile : a ∈ fragile) :
      Move fragile ⟨free, holds⟩ ⟨{b | b ∈ free ∧ b ≠ a}, holds⟩

/-- What is conserved, with the resources that are never lost. -/
structure Conserved (kept : Set α) (pool : Pool ι α) : Prop where
  apart : ∀ a i, pool.holds i = some a → a ∉ pool.free
  single : ∀ a i j, pool.holds i = some a → pool.holds j = some a → i = j
  present : ∀ a ∈ kept, a ∈ pool.free ∨ ∃ i, pool.holds i = some a

omit [DecidableEq ι] in
/-- At the start all resources are in the pool. -/
theorem conserved_of_free {kept free : Set α} (all : ∀ a ∈ kept, a ∈ free) :
    Conserved kept (⟨free, fun _ : ι => none⟩ : Pool ι α) where
  apart _ _ held := by cases held
  single _ _ _ held := by cases held
  present a member := .inl (all a member)

variable {kept fragile : Set α} {pool pool' : Pool ι α}

theorem Move.conserves (move : Move fragile pool pool') (conserved : Conserved kept pool)
    (lasting : ∀ a ∈ kept, a ∉ fragile) : Conserved kept pool' := by
  obtain ⟨apart, single, present⟩ := conserved
  cases move with
  | @take free holds i a available empty =>
      have unheld (j : ι) : holds j ≠ some a := fun held => apart a j held available
      refine ⟨fun b j held member => ?_, fun b j k first second => ?_, fun b member => ?_⟩
      · dsimp only at held
        by_cases same : j = i
        · rw [same, Function.update_self] at held
          exact member.2 (Option.some.inj held).symm
        · rw [Function.update_of_ne same] at held
          exact apart b j held member.1
      · dsimp only at first second
        by_cases isJ : j = i
        · by_cases isK : k = i
          · exact isJ.trans isK.symm
          · rw [isJ, Function.update_self] at first
            rw [Function.update_of_ne isK, ← first] at second
            exact absurd second (unheld k)
        · rw [Function.update_of_ne isJ] at first
          by_cases isK : k = i
          · rw [isK, Function.update_self] at second
            rw [← second] at first
            exact absurd first (unheld j)
          · rw [Function.update_of_ne isK] at second
            exact single b j k first second
      · by_cases same : b = a
        · exact .inr ⟨i, (Function.update_self ..).trans (congrArg some same.symm)⟩
        · rcases present b member with free_ | ⟨j, held⟩
          · exact .inl ⟨free_, same⟩
          · have other : j ≠ i := by
              rintro rfl
              cases empty.symm.trans held
            exact .inr ⟨j, (Function.update_of_ne other ..).trans held⟩
  | @giveBack free holds i a held =>
      have kept_ {b : α} {j : ι} (later : Function.update holds i none j = some b) :
          j ≠ i ∧ holds j = some b := by
        by_cases same : j = i
        · rw [same, Function.update_self] at later
          cases later
        · rw [Function.update_of_ne same] at later
          exact ⟨same, later⟩
      refine ⟨fun b j later member => ?_, fun b j k first second => ?_, fun b member => ?_⟩
      · obtain ⟨other, before⟩ := kept_ later
        rcases member with rfl | free_
        · exact other (single b j i before held)
        · exact apart b j before free_
      · exact single b j k (kept_ first).2 (kept_ second).2
      · rcases present b member with free_ | ⟨j, before⟩
        · exact .inl (.inr free_)
        · by_cases same : j = i
          · rw [same] at before
            exact .inl (.inl (Option.some.inj (before.symm.trans held)))
          · exact .inr ⟨j, (Function.update_of_ne same ..).trans before⟩
  | @lose free holds a isFragile =>
      refine ⟨fun b j held member => apart b j held member.1, single, fun b member => ?_⟩
      refine (present b member).imp_left fun free_ => ⟨free_, ?_⟩
      rintro rfl
      exact lasting b member isFragile

omit [DecidableEq ι] in
/-- A resource that is conserved is free, or with one holder. -/
theorem Conserved.free_or_held (conserved : Conserved kept pool) {a : α} (member : a ∈ kept) :
    (a ∈ pool.free ∧ ∀ i, pool.holds i ≠ some a) ∨
      (a ∉ pool.free ∧ ∃! i, pool.holds i = some a) := by
  rcases conserved.present a member with free_ | ⟨i, held⟩
  · exact .inl ⟨free_, fun i held => conserved.apart a i held free_⟩
  · exact .inr ⟨conserved.apart a i held, i, held, fun j other => conserved.single a j i other held⟩

end ResourcePool

namespace SlotCounts

variable {α : Type*} [DecidableEq α]

/-- How many of the first `n` holders hold `a`. -/
def holders (holds : ℕ → Option α) (n : ℕ) (a : α) : ℕ :=
  ((Finset.range n).filter fun i => holds i = some a).card

def Exact (counts : α → ℕ) (holds : ℕ → Option α) (n : ℕ) : Prop :=
  ∀ a, counts a = holders holds n a

variable {counts : α → ℕ} {holds : ℕ → Option α} {n i : ℕ} {a : α}

theorem exact_initial (holds : ℕ → Option α) : Exact (fun _ => 0) holds 0 := fun _ => rfl

theorem holders_update_of_ne {new : Option α} {b : α} (before : holds i ≠ some b)
    (after : new ≠ some b) : holders (Function.update holds i new) n b = holders holds n b := by
  refine congrArg Finset.card (Finset.filter_congr fun j _ => ?_)
  by_cases same : j = i
  · rw [same, Function.update_self]
    exact iff_of_false after before
  · rw [Function.update_of_ne same]

theorem holders_take (isHolder : i < n) (empty : holds i ≠ some a) :
    holders (Function.update holds i (some a)) n a = holders holds n a + 1 := by
  have more : (Finset.range n).filter (fun j => Function.update holds i (some a) j = some a) =
      insert i ((Finset.range n).filter fun j => holds j = some a) := by
    ext j
    rw [Finset.mem_filter, Finset.mem_insert, Finset.mem_filter, Finset.mem_range]
    by_cases same : j = i
    · subst same
      rw [Function.update_self]
      exact iff_of_true ⟨isHolder, rfl⟩ (.inl rfl)
    · rw [Function.update_of_ne same, or_iff_right same]
  rw [holders, more, Finset.card_insert_of_notMem]
  · rfl
  · exact fun member => empty (Finset.mem_filter.mp member).2

theorem holders_giveBack (isHolder : i < n) (held : holds i = some a) :
    holders (Function.update holds i none) n a = holders holds n a - 1 := by
  have unheld : Function.update holds i none i ≠ some a := by
    rw [Function.update_self]
    exact nofun
  have taken := holders_take isHolder unheld
  rw [Function.update_idem, ← held, Function.update_eq_self] at taken
  rw [taken, Nat.add_sub_cancel]

theorem Exact.take (exact_ : Exact counts holds n) (isHolder : i < n) (empty : holds i = none) :
    Exact (Function.update counts a (counts a + 1)) (Function.update holds i (some a)) n := by
  have unheld (b : α) : holds i ≠ some b := by
    rw [empty]
    exact nofun
  intro b
  by_cases same : b = a
  · rw [same, Function.update_self, holders_take isHolder (unheld a), exact_ a]
  · rw [Function.update_of_ne same, holders_update_of_ne (unheld b), exact_ b]
    exact fun other => same (Option.some.inj other).symm

theorem Exact.giveBack (exact_ : Exact counts holds n) (isHolder : i < n)
    (held : holds i = some a) :
    Exact (Function.update counts a (counts a - 1)) (Function.update holds i none) n := by
  intro b
  by_cases same : b = a
  · rw [same, Function.update_self, holders_giveBack isHolder held, exact_ a]
  · have apart : holds i ≠ some b := by
      rw [held]
      exact fun other => same (Option.some.inj other).symm
    rw [Function.update_of_ne same, holders_update_of_ne apart (by exact nofun), exact_ b]

/-- A holder that arrives holds nothing. -/
theorem Exact.arrive (exact_ : Exact counts holds n) (empty : holds n = none) :
    Exact counts holds (n + 1) := by
  intro b
  have absent : ¬ holds n = some b := by
    rw [empty]
    exact nofun
  rw [holders, Finset.range_add_one, Finset.filter_insert, if_neg absent]
  exact exact_ b

end SlotCounts
