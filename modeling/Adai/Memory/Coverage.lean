import Mathlib.Algebra.Order.BigOperators.Group.List
import Mathlib.Algebra.Order.Field.Basic
import Adai.Memory.HippocampalMemory
import Adai.Math.TransitionSystem

/-! # Shape, coverage and association

The slots, the coverages and the association table keep one size, which is at most the
capacity. While attention weights and decay factors are between 0 and 1, coverages stay
between 0 and the limit of their decay, and associations form an affinity
(`MemoryInvariant.step`).
-/

namespace Adai.Memory

open SquareTable TransitionSystem

section LeastUsed

variable {K : Type} [LinearOrder K]

theorem leastUsedFrom_lt {i evictIdx : ℕ} (before : evictIdx < i) (minCov : K) (rest : List K) :
    leastUsedFrom i evictIdx minCov rest < i + rest.length := by
  induction rest generalizing i evictIdx minCov with
  | nil => exact before
  | cons c rest ih =>
      rw [leastUsedFrom, List.length_cons]
      split
      · have found := ih (lt_add_one i) c
        omega
      · have found := ih (before.trans (lt_add_one i)) minCov
        omega

theorem leastUsed_lt {coverage : List K} (some_ : 0 < coverage.length) :
    leastUsed coverage < coverage.length := by
  cases coverage with
  | nil => cases some_
  | cons c rest =>
      have found := leastUsedFrom_lt Nat.zero_lt_one c rest
      rw [List.length_cons]
      change leastUsedFrom 1 0 c rest < rest.length + 1
      omega

end LeastUsed

/-! ## Shape -/

variable {K : Type} [Field K] [LinearOrder K] {d : ℕ} {bits : CellBits K}

/-- The slots, the coverages and the associations have one size. -/
structure Sized (m : HippocampalMemory K d) (n : ℕ) : Prop where
  slots : m.slots.length = n
  coverage : m.coverage.length = n
  association : IsSquare m.association n

omit [Field K] in
theorem Sized.evict {s : Hippocampus K d} {n : ℕ} (sized : Sized s.memory (n + 1)) :
    Sized (evictLeastUsed s).memory n := by
  have inside : leastUsed s.memory.coverage < n + 1 := by
    have nonempty : 0 < s.memory.coverage.length := by
      rw [sized.coverage]
      omega
    have found := leastUsed_lt nonempty
    rwa [sized.coverage] at found
  exact
    { slots := by
        change (s.memory.slots.eraseIdx _).length = n
        rw [List.length_eraseIdx_of_lt (by rwa [sized.slots]), sized.slots, Nat.add_sub_cancel]
      coverage := by
        change (s.memory.coverage.eraseIdx _).length = n
        rw [List.length_eraseIdx_of_lt (by rwa [sized.coverage]), sized.coverage,
          Nat.add_sub_cancel]
      association := sized.association.erase inside }

omit [LinearOrder K] in
theorem Sized.append {m : HippocampalMemory K d} {n : ℕ} (sized : Sized m n) (slot : Slot K d) :
    Sized (appendSlot m slot) (n + 1) where
  slots := by
    change (m.slots ++ [slot]).length = n + 1
    rw [List.length_append, sized.slots, List.length_singleton]
  coverage := by
    change (m.coverage ++ [meanCoverage m.coverage]).length = n + 1
    rw [List.length_append, sized.coverage, List.length_singleton]
  association := by
    change IsSquare (grow (m.slots.length + 1) m.association) (n + 1)
    rw [sized.slots]
    exact sized.association.grow

/-! ## Associations -/

theorem strengthenRow_square {table : List (List K)} {n : ℕ} (square : IsSquare table n)
    (weights : AnyMatrix K) (nSlots a : ℕ) :
    IsSquare (strengthenRow weights nSlots table a) n := by
  unfold strengthenRow
  generalize List.range' (a + 1) (nSlots - (a + 1)) = columns
  induction columns generalizing table with
  | nil => exact square
  | cons b rest ih =>
      apply ih
      unfold strengthen
      split
      · exact square.bump a b _
      · exact square

theorem foldl_strengthenRow_square {table : List (List K)} {n : ℕ} (square : IsSquare table n)
    (weights : AnyMatrix K) (nSlots : ℕ) (rows : List ℕ) :
    IsSquare (rows.foldl (strengthenRow weights nSlots) table) n := by
  induction rows generalizing table with
  | nil => exact square
  | cons a rest ih => exact ih (strengthenRow_square square weights nSlots a)

theorem Sized.commit {m : HippocampalMemory K d} {n : ℕ} (sized : Sized m n)
    (weights : AnyMatrix K) (repetitionDecay associationDecay : K) :
    Sized (commitAttention m weights repetitionDecay associationDecay) n := by
  unfold commitAttention
  dsimp only
  split
  · exact sized
  · exact
      { slots := sized.slots
        coverage := by
          change ((m.coverage.map _).mapIdx _).length = n
          rw [List.length_mapIdx, List.length_map, sized.coverage]
        association := foldl_strengthenRow_square (sized.association.scale _) weights _ _ }

/-! ## Bounds -/

variable [IsStrictOrderedRing K]

/-- Weights of attention. -/
def AnyMatrix.IsAttention (weights : AnyMatrix K) : Prop :=
  ∀ i slot, 0 ≤ weights.entries i slot ∧ weights.entries i slot ≤ 1

theorem AnyMatrix.IsAttention.weight {weights : AnyMatrix K} (attention : weights.IsAttention)
    (i slot : ℕ) : 0 ≤ weights.weight i slot ∧ weights.weight i slot ≤ 1 := by
  unfold AnyMatrix.weight
  split
  · exact attention _ _
  · exact ⟨le_refl 0, zero_le_one⟩

theorem AnyMatrix.invRows_nonneg (weights : AnyMatrix K) : 0 ≤ weights.invRows :=
  one_div_nonneg.mpr (Nat.cast_nonneg _)

theorem AnyMatrix.IsAttention.mean {weights : AnyMatrix K} (attention : weights.IsAttention)
    (slot : ℕ) : 0 ≤ weights.columnSum slot * weights.invRows ∧
      weights.columnSum slot * weights.invRows ≤ 1 := by
  have nonneg : 0 ≤ weights.columnSum slot := by
    refine List.sum_nonneg fun v member => ?_
    obtain ⟨i, -, rfl⟩ := List.mem_map.mp member
    exact (attention.weight i slot).1
  have bounded : weights.columnSum slot ≤ weights.rows := by
    have each := List.sum_le_card_nsmul ((List.range weights.rows).map fun i => weights.weight i slot)
      1 fun v member => by
        obtain ⟨i, -, rfl⟩ := List.mem_map.mp member
        exact (attention.weight i slot).2
    rwa [List.length_map, List.length_range, nsmul_one] at each
  refine ⟨mul_nonneg nonneg weights.invRows_nonneg, ?_⟩
  calc weights.columnSum slot * weights.invRows
      ≤ weights.rows * weights.invRows := mul_le_mul_of_nonneg_right bounded weights.invRows_nonneg
    _ ≤ 1 := by
        rw [AnyMatrix.invRows, mul_one_div]
        exact div_self_le_one _

theorem AnyMatrix.IsAttention.coactivation {weights : AnyMatrix K}
    (attention : weights.IsAttention) (a b : ℕ) : 0 ≤ weights.coactivation a b := by
  refine mul_nonneg (List.sum_nonneg fun v member => ?_) weights.invRows_nonneg
  obtain ⟨i, -, rfl⟩ := List.mem_map.mp member
  exact mul_nonneg (attention.weight i a).1 (attention.weight i b).1

theorem strengthenRow_affinity {table : List (List K)} {n a : ℕ} (affinity : Affinity table)
    (square : IsSquare table n) {weights : AnyMatrix K} (attention : weights.IsAttention) :
    Affinity (strengthenRow weights n table a) := by
  have inside (b : ℕ) (member : b ∈ List.range' (a + 1) (n - (a + 1))) : a < b ∧ b < n := by
    rw [List.mem_range'_1] at member
    omega
  unfold strengthenRow
  revert inside
  generalize List.range' (a + 1) (n - (a + 1)) = columns
  intro inside
  induction columns generalizing table with
  | nil => exact affinity
  | cons b rest ih =>
      obtain ⟨apart, bound⟩ := inside b List.mem_cons_self
      have later := fun c member => inside c (List.mem_cons_of_mem _ member)
      rw [List.foldl_cons]
      unfold strengthen
      split
      · exact ih (affinity.bump square apart bound (attention.coactivation a b)) (square.bump a b _)
          later
      · exact ih affinity square later

theorem foldl_strengthenRow_affinity {table : List (List K)} {n : ℕ} (affinity : Affinity table)
    (square : IsSquare table n) {weights : AnyMatrix K} (attention : weights.IsAttention)
    (rows : List ℕ) : Affinity (rows.foldl (strengthenRow weights n) table) := by
  induction rows generalizing table with
  | nil => exact affinity
  | cons a rest ih =>
      exact ih (strengthenRow_affinity affinity square attention)
        (strengthenRow_square square weights n a)

/-- Coverages between 0 and the bound. -/
def Covered (bound : K) (coverage : List K) : Prop := ∀ c ∈ coverage, 0 ≤ c ∧ c ≤ bound

theorem Covered.mean {bound : K} {coverage : List K} (covered : Covered bound coverage)
    (nonneg : 0 ≤ bound) : 0 ≤ meanCoverage coverage ∧ meanCoverage coverage ≤ bound := by
  unfold meanCoverage
  split
  · exact ⟨le_refl 0, nonneg⟩
  · rename_i some_
    have length : (0 : K) < coverage.length := by
      rw [List.isEmpty_iff] at some_
      exact Nat.cast_pos.mpr (List.length_pos_iff.mpr some_)
    refine ⟨div_nonneg (List.sum_nonneg fun c member => (covered c member).1) length.le, ?_⟩
    rw [div_le_iff₀ length, mul_comm, ← nsmul_eq_mul]
    exact List.sum_le_card_nsmul coverage bound fun c member => (covered c member).2

/-- The limit that a coverage cannot exceed. -/
def coverageLimit (decay : K) : K := 1 / (1 - decay)

theorem coverageLimit_nonneg {decay : K} (decays : decay < 1) : 0 ≤ coverageLimit decay :=
  one_div_nonneg.mpr (sub_nonneg.mpr decays.le)

theorem Covered.commit {decay repetitionDecay : K} {coverage : List K}
    (covered : Covered (coverageLimit decay) coverage) (decays : decay < 1)
    (nonneg : 0 ≤ repetitionDecay) (below : repetitionDecay ≤ decay) {weights : AnyMatrix K}
    (attention : weights.IsAttention) :
    Covered (coverageLimit decay)
      ((coverage.map fun c => c * repetitionDecay).mapIdx fun slot c =>
        c + weights.columnSum slot * weights.invRows) := by
  intro c member
  obtain ⟨slot, inside, rfl⟩ := List.mem_mapIdx.mp member
  rw [List.getElem_map]
  have inside' : slot < coverage.length := by rwa [List.length_map] at inside
  obtain ⟨above, under⟩ := covered coverage[slot] (List.getElem_mem inside')
  obtain ⟨some_, atMost⟩ := attention.mean slot
  refine ⟨add_nonneg (mul_nonneg above nonneg) some_, ?_⟩
  have limit : coverageLimit decay * decay + 1 = coverageLimit decay := by
    have positive : (1 : K) - decay ≠ 0 := (sub_pos.mpr decays).ne'
    rw [coverageLimit, one_div]
    calc (1 - decay)⁻¹ * decay + 1
        = (1 - decay)⁻¹ * decay + (1 - decay)⁻¹ * (1 - decay) := by rw [inv_mul_cancel₀ positive]
      _ = (1 - decay)⁻¹ := by rw [← mul_add, add_sub_cancel, mul_one]
  calc coverage[slot] * repetitionDecay + weights.columnSum slot * weights.invRows
      ≤ coverageLimit decay * decay + 1 :=
        add_le_add (mul_le_mul under below nonneg (coverageLimit_nonneg decays)) atMost
    _ = coverageLimit decay := limit

/-! ## The invariant -/

structure MemoryInvariant (decay : K) (m : HippocampalMemory K d) : Prop where
  sized : Sized m m.slots.length
  bounded : m.slots.length ≤ m.capacity
  some_ : 0 < m.capacity
  affinity : Affinity m.association
  covered : Covered (coverageLimit decay) m.coverage

/-- What a call gives to the memory: decay factors and attention weights. -/
def Moderate (decay : K) (_ : Hippocampus K d) : MemoryCall K → Prop
  | .decayCoverage gamma => 0 ≤ gamma ∧ gamma < 1
  | .decayAssociations gamma => 0 ≤ gamma ∧ gamma < 1
  | .commitAttention weights repetitionDecay associationDecay =>
      weights.IsAttention ∧ 0 ≤ repetitionDecay ∧ repetitionDecay ≤ decay ∧
        0 ≤ associationDecay ∧ associationDecay < 1
  | _ => True

variable {decay : K} {s s' : Hippocampus K d} {m : HippocampalMemory K d}

theorem MemoryInvariant.append (sized : Sized m m.slots.length)
    (room : m.slots.length < m.capacity) (affinity : Affinity m.association)
    (covered : Covered (coverageLimit decay) m.coverage) (decays : decay < 1) (slot : Slot K d) :
    MemoryInvariant decay (appendSlot m slot) where
  sized := by
    have grown := sized.append slot
    rwa [← grown.slots] at grown
  bounded := by
    rw [(sized.append slot).slots]
    exact room
  some_ := (Nat.zero_le _).trans_lt room
  affinity := affinity.grow _
  covered c member := by
    rcases List.mem_append.mp member with old | new
    · exact covered c old
    · rw [List.mem_singleton.mp new]
      exact covered.mean (coverageLimit_nonneg decays)

theorem MemoryInvariant.insertSlot (holds : MemoryInvariant decay m) (decays : decay < 1)
    (file : Option (List (Cell K))) (slot : Slot K d) :
    MemoryInvariant decay (insertSlot ⟨m, file⟩ slot).memory := by
  unfold Memory.insertSlot
  dsimp only
  split
  · rename_i full
    obtain ⟨n, length⟩ : ∃ n, m.slots.length = n + 1 :=
      Nat.exists_eq_succ_of_ne_zero (by have := holds.some_; omega)
    have sized := holds.sized
    rw [length] at sized
    have evicted : Sized (evictLeastUsed
        ⟨{ m with revision := m.revision + 1 }, file⟩).memory n :=
      Sized.evict ⟨sized.slots, sized.coverage, sized.association⟩
    refine .append (by rw [evicted.slots]; exact evicted) ?_ (holds.affinity.erase _) ?_ decays slot
    · rw [evicted.slots]
      have := holds.bounded
      change n < m.capacity
      omega
    · exact fun c member => holds.covered c (List.mem_of_mem_eraseIdx member)
  · rename_i room
    have sized : Sized { m with revision := m.revision + 1 } m.slots.length :=
      ⟨rfl, holds.sized.coverage, holds.sized.association⟩
    exact .append sized (not_le.mp room) holds.affinity holds.covered decays slot

theorem MemoryInvariant.decayCoverage (holds : MemoryInvariant decay m) {gamma : K}
    (nonneg : 0 ≤ gamma) (below : gamma < 1) :
    MemoryInvariant decay (decayCoverage m gamma) where
  sized := ⟨rfl, by
    change (m.coverage.map _).length = m.slots.length
    rw [List.length_map, holds.sized.coverage], holds.sized.association⟩
  bounded := holds.bounded
  some_ := holds.some_
  affinity := holds.affinity
  covered c member := by
    obtain ⟨before, inside, rfl⟩ := List.mem_map.mp member
    obtain ⟨above, under⟩ := holds.covered before inside
    exact ⟨mul_nonneg above nonneg, (mul_le_of_le_one_right above below.le).trans under⟩

theorem MemoryInvariant.commit (holds : MemoryInvariant decay m) (decays : decay < 1)
    {weights : AnyMatrix K} (attention : weights.IsAttention) {repetitionDecay associationDecay : K}
    (nonneg : 0 ≤ repetitionDecay) (below : repetitionDecay ≤ decay) (fades : 0 ≤ associationDecay) :
    MemoryInvariant decay (commitAttention m weights repetitionDecay associationDecay) := by
  have sized := holds.sized.commit weights repetitionDecay associationDecay
  unfold commitAttention at sized ⊢
  dsimp only at sized ⊢
  split at sized
  · rw [if_pos ‹_›]
    exact holds
  · rw [if_neg ‹_›]
    exact
      { sized
        bounded := holds.bounded
        some_ := holds.some_
        affinity := foldl_strengthenRow_affinity (holds.affinity.scale fades)
          (holds.sized.association.scale _) attention _
        covered := holds.covered.commit decays nonneg below attention }

/-- **Step.** Every call keeps the invariant. -/
theorem MemoryInvariant.step (holds : MemoryInvariant decay s.memory) (decays : decay < 1)
    {call : MemoryCall K} (moderate : Moderate decay s call) :
    MemoryInvariant decay (s.after bits call).memory := by
  cases call with
  | write key value =>
      change MemoryInvariant decay ((Memory.write s key value).toOption.getD s).memory
      unfold Memory.write
      split
      · exact holds
      · exact holds
      · exact holds.insertSlot decays s.swapFile _
  | decayCoverage gamma => exact holds.decayCoverage moderate.1 moderate.2
  | decayAssociations gamma =>
      exact ⟨⟨rfl, holds.sized.coverage, holds.sized.association.scale gamma⟩, holds.bounded,
        holds.some_, holds.affinity.scale moderate.1, holds.covered⟩
  | commitAttention weights repetitionDecay associationDecay =>
      obtain ⟨attention, nonneg, below, fades, -⟩ := moderate
      exact holds.commit decays attention nonneg below fades
  | recallFromSwap =>
      rcases recallFromSwap_cases bits s with none | ⟨header, records, -, -, -, recalled⟩
      · rw [Hippocampus.after, none]
        exact holds
      · rw [Hippocampus.after, recalled]
        exact holds.insertSlot decays _ _
  | clear =>
      exact ⟨⟨rfl, rfl, rfl, fun _ member => nomatch member⟩, Nat.zero_le _, holds.some_,
        affinity_nil, fun _ member => nomatch member⟩

omit [Field K] [LinearOrder K] [IsStrictOrderedRing K] in
theorem create_eq_ok {dModel capacity : Int} {path : String}
    {memory : HippocampalMemory K dModel.toNat}
    (created : HippocampalMemory.create K dModel capacity path = .ok memory) :
    0 < capacity ∧ memory = { capacity := capacity.toNat, swapFilepath := path } := by
  unfold HippocampalMemory.create requirePositive at created
  by_cases few : capacity ≤ 0
  · rw [if_pos few] at created
    cases created
  · rw [if_neg few] at created
    by_cases flat : dModel ≤ 0
    · rw [if_pos flat] at created
      cases created
    · rw [if_neg flat] at created
      exact ⟨not_le.mp few, (Except.ok.inj created).symm⟩

omit [IsStrictOrderedRing K] in
theorem memoryInvariant_create {dModel capacity : Int} {path : String}
    {memory : HippocampalMemory K dModel.toNat}
    (created : HippocampalMemory.create K dModel capacity path = .ok memory) :
    MemoryInvariant decay memory := by
  obtain ⟨positive, rfl⟩ := create_eq_ok created
  exact ⟨⟨rfl, rfl, rfl, fun _ member => nomatch member⟩, Nat.zero_le _, by
    change 0 < capacity.toNat
    omega, affinity_nil, fun _ member => nomatch member⟩

end Adai.Memory
