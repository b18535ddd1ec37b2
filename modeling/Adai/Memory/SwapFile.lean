import Mathlib.Algebra.Field.Rat
import Mathlib.Algebra.Order.Group.Multiset
import Mathlib.Algebra.Order.Ring.Rat
import Adai.Memory.Coverage

/-! # The swap file

A swap file that instances of one dimension wrote is a header and records behind it, or
empty, or missing. Appending adds a record and recalling takes the last one, so no item
is lost or doubled between the memory and the file (`stored_after`). Over every run the
memory keeps its invariant, and up to its next clearing it holds, together with the file,
what it held and what was written (`memory_invariants`).
-/

namespace Adai.Memory

open SquareTable TransitionSystem

variable {K : Type} [Field K] [LinearOrder K] {d : ℕ} (bits : CellBits K)

/-! ## Records -/

/-- The items in the file. -/
def swapSlots (d : ℕ) : Option (List (Cell K)) → List (Slot K d)
  | none => []
  | some cells =>
      (List.range (numRecords d cells)).map fun i => slotAt bits cells (1 + i * recordSize d)

abbrev Record (K : Type) (d : ℕ) := Slot K d × K

/-- The cells of a file with the records. -/
def swapCells (records : List (Record K d)) : List (Cell K) :=
  .integer d :: records.flatMap fun record => recordCells record.1 record.2

/-- A file that instances of this dimension wrote. -/
def IsSwap (d : ℕ) (file : Option (List (Cell K))) : Prop :=
  file = none ∨ file = some [] ∨ ∃ records : List (Record K d), file = some (swapCells records)

omit [Field K] [LinearOrder K] in
theorem length_recordCells (slot : Slot K d) (coverage : K) :
    (recordCells slot coverage).length = recordSize d := by
  simp only [recordCells, List.length_append, List.length_map, List.length_ofFn,
    List.length_singleton, recordSize]
  omega

omit [Field K] [LinearOrder K] in
theorem length_swapCells (records : List (Record K d)) :
    (swapCells records).length = 1 + records.length * recordSize d := by
  rw [swapCells, List.length_cons, Nat.add_comm]
  congr 1
  induction records with
  | nil => rw [List.flatMap_nil, List.length_nil, List.length_nil, Nat.zero_mul]
  | cons record rest ih =>
      rw [List.flatMap_cons, List.length_append, ih, length_recordCells, List.length_cons,
        Nat.succ_mul, Nat.add_comm]

omit [Field K] [LinearOrder K] in
theorem swapCells_append (front back : List (Record K d)) :
    swapCells (front ++ back) =
      swapCells front ++ back.flatMap fun record => recordCells record.1 record.2 := by
  rw [swapCells, List.flatMap_append, swapCells, List.cons_append]

omit [Field K] [LinearOrder K] in
theorem numRecords_swapCells (records : List (Record K d)) :
    numRecords d (swapCells records) = records.length := by
  have some_ : 0 < recordSize d := by
    rw [recordSize]
    omega
  rw [numRecords, length_swapCells, Nat.add_sub_cancel_left, Nat.mul_div_cancel _ some_]

omit [LinearOrder K] in
/-- A record is read back from its place. -/
theorem slotAt_append (front back : List (Cell K)) (slot : Slot K d) (coverage : K) :
    slotAt bits (front ++ (recordCells slot coverage ++ back)) front.length = slot := by
  have keyAt (j : Fin d) : numberAt bits (front ++ (recordCells slot coverage ++ back))
      (front.length + j) = slot.key j := by
    rw [numberAt, List.getElem?_append_right (Nat.le_add_right _ _), Nat.add_sub_cancel_left,
      recordCells, List.append_assoc, List.getElem?_append_left (by simp)]
    simp [Cell.asNumber]
  have valueAt (j : Fin d) : numberAt bits (front ++ (recordCells slot coverage ++ back))
      (front.length + d + j) = slot.value j := by
    rw [numberAt, Nat.add_assoc, List.getElem?_append_right (Nat.le_add_right _ _),
      Nat.add_sub_cancel_left, recordCells, List.append_assoc,
      List.getElem?_append_right (by simp), List.append_assoc,
      List.getElem?_append_left (by simp)]
    simp [Cell.asNumber]
  cases slot with
  | mk key value =>
      rw [slotAt]
      congr 1
      · exact funext keyAt
      · exact funext valueAt

omit [LinearOrder K] in
theorem swapSlots_swapCells (records : List (Record K d)) :
    swapSlots bits d (some (swapCells records)) = records.map Prod.fst := by
  rw [swapSlots, numRecords_swapCells]
  refine List.ext_getElem (by simp) fun i inside inside' => ?_
  rw [List.length_map] at inside'
  rw [List.getElem_map, List.getElem_range, List.getElem_map]
  have cells : swapCells records = swapCells (records.take i) ++
      (recordCells records[i].1 records[i].2 ++
        (records.drop (i + 1)).flatMap fun record => recordCells record.1 record.2) :=
    calc swapCells records
        = swapCells (records.take i ++ records[i] :: records.drop (i + 1)) := by
          rw [List.getElem_cons_drop, List.take_append_drop]
      _ = _ := by rw [swapCells_append, List.flatMap_cons]
  have place : (swapCells (records.take i)).length = 1 + i * recordSize d := by
    rw [length_swapCells, List.length_take, Nat.min_eq_left inside'.le]
  rw [cells, ← place]
  exact slotAt_append bits _ _ _ _

omit [Field K] [LinearOrder K] in
theorem IsSwap.cases {file : Option (List (Cell K))} (swap : IsSwap d file) :
    file.getD [] = [] ∨ ∃ records : List (Record K d), file = some (swapCells records) := by
  rcases swap with rfl | rfl | records
  · exact .inl rfl
  · exact .inl rfl
  · exact .inr records

omit [LinearOrder K] in
theorem swapSlots_of_empty {file : Option (List (Cell K))} (empty : file.getD [] = []) :
    swapSlots bits d file = [] := by
  cases file with
  | none => rfl
  | some cells =>
      obtain rfl : cells = [] := empty
      simp [swapSlots, numRecords]

omit [LinearOrder K] in
/-- An appended record is the last item. -/
theorem swapSlots_append {file : Option (List (Cell K))} (swap : IsSwap d file) (slot : Slot K d)
    (coverage : K) :
    IsSwap d (some (appendToSwap file slot coverage)) ∧
      swapSlots bits d (some (appendToSwap file slot coverage)) = swapSlots bits d file ++ [slot] := by
  rcases swap.cases with empty | ⟨records, rfl⟩
  · have cells : appendToSwap file slot coverage = swapCells [(slot, coverage)] := by
      rw [appendToSwap, empty]
      exact congrArg (Cell.integer (d : Int) :: ·) (List.append_nil _).symm
    rw [cells, swapSlots_swapCells, swapSlots_of_empty bits empty]
    exact ⟨.inr (.inr ⟨_, rfl⟩), rfl⟩
  · have cells : appendToSwap (some (swapCells records)) slot coverage =
        swapCells (records ++ [(slot, coverage)]) := by
      rw [swapCells_append, List.flatMap_cons, List.flatMap_nil, List.append_nil]
      rfl
    rw [cells, swapSlots_swapCells, swapSlots_swapCells, List.map_append]
    exact ⟨.inr (.inr ⟨_, rfl⟩), rfl⟩

omit [LinearOrder K] in
/-- The last record is the one that is recalled, and the others stay. -/
theorem swapSlots_recall {cells : List (Cell K)} (swap : IsSwap d (some cells))
    (some_ : 0 < numRecords d cells) :
    let lastOffset := 1 + (numRecords d cells - 1) * recordSize d
    IsSwap d (some (cells.take lastOffset)) ∧
      swapSlots bits d (some cells) =
        swapSlots bits d (some (cells.take lastOffset)) ++ [slotAt bits cells lastOffset] := by
  rcases swap.cases with empty | ⟨records, found⟩
  · obtain rfl : cells = [] := empty
    rw [numRecords, List.length_nil, Nat.zero_sub, Nat.zero_div] at some_
    cases some_
  · obtain rfl := Option.some.inj found
    rw [numRecords_swapCells] at some_
    obtain ⟨front, record, rfl⟩ : ∃ front record, records = front ++ [record] :=
      ⟨records.dropLast, records.getLast (List.ne_nil_of_length_pos some_),
        (List.dropLast_append_getLast _).symm⟩
    have cells : swapCells (front ++ [record]) =
        swapCells front ++ (recordCells record.1 record.2 ++ []) := by
      rw [swapCells_append, List.flatMap_cons, List.flatMap_nil]
    have place : 1 + (numRecords d (swapCells (front ++ [record])) - 1) * recordSize d =
        (swapCells front).length := by
      rw [numRecords_swapCells, length_swapCells, List.length_append, List.length_singleton,
        Nat.add_sub_cancel]
    dsimp only
    rw [place, swapSlots_swapCells, List.map_append, cells, List.take_left, slotAt_append,
      swapSlots_swapCells]
    exact ⟨.inr (.inr ⟨front, rfl⟩), rfl⟩

/-! ## Items -/

/-- The items in the memory and in its file. -/
def stored (s : Hippocampus K d) : Multiset (Slot K d) :=
  ↑(s.memory.slots ++ swapSlots bits d s.swapFile)

/-- The items that a call writes. -/
def written (d : ℕ) : MemoryCall K → Multiset (Slot K d)
  | .write key value =>
      match key.row d, value.row d with
      | some key, some value => {⟨key, value⟩}
      | _, _ => 0
  | _ => 0

/-- The memory swaps, and its file is one of its dimension. -/
structure Swaps (s : Hippocampus K d) : Prop where
  enabled : s.memory.swapFilepath.isEmpty = false
  file : IsSwap d s.swapFile

variable {s s' : Hippocampus K d}

theorem stored_evict {n : ℕ} (swaps : Swaps s) (sized : Sized s.memory (n + 1)) :
    Swaps (evictLeastUsed s) ∧ stored bits (evictLeastUsed s) = stored bits s := by
  have inside : leastUsed s.memory.coverage < s.memory.coverage.length :=
    leastUsed_lt (by rw [sized.coverage]; omega)
  have inside' : leastUsed s.memory.coverage < s.memory.slots.length := by
    rwa [sized.slots, ← sized.coverage]
  obtain ⟨isSwap, items⟩ := swapSlots_append bits swaps.file
    s.memory.slots[leastUsed s.memory.coverage] s.memory.coverage[leastUsed s.memory.coverage]
  have file : (evictLeastUsed s).swapFile = some (appendToSwap s.swapFile
      s.memory.slots[leastUsed s.memory.coverage]
      s.memory.coverage[leastUsed s.memory.coverage]) := by
    unfold evictLeastUsed
    dsimp only
    rw [List.getElem?_eq_getElem inside', List.getElem?_eq_getElem inside]
    dsimp only
    rw [swaps.enabled]
    rfl
  have slots : (evictLeastUsed s).memory.slots =
      s.memory.slots.eraseIdx (leastUsed s.memory.coverage) := rfl
  refine ⟨⟨swaps.enabled, by rwa [file]⟩, ?_⟩
  rw [stored, file, items, stored, slots]
  refine Multiset.coe_eq_coe.mpr ?_
  have moved := (List.getElem_cons_eraseIdx_perm inside').append_right (swapSlots bits d s.swapFile)
  refine List.Perm.trans ?_ moved
  rw [← List.append_assoc]
  exact List.perm_append_singleton _ _

omit [LinearOrder K] in
theorem stored_append (slot : Slot K d) :
    stored bits { s with memory := appendSlot s.memory slot } = stored bits s + {slot} := by
  have slots : (appendSlot s.memory slot).slots = s.memory.slots ++ [slot] := rfl
  rw [stored, slots, stored]
  refine Multiset.coe_eq_coe.mpr ?_
  rw [List.append_assoc, List.append_assoc]
  exact List.Perm.append_left _ List.perm_append_comm

theorem stored_insertSlot (swaps : Swaps s) (sized : Sized s.memory s.memory.slots.length)
    (some_ : 0 < s.memory.capacity) (slot : Slot K d) :
    Swaps (insertSlot s slot) ∧ stored bits (insertSlot s slot) = stored bits s + {slot} := by
  unfold insertSlot
  dsimp only
  split
  · rename_i full
    obtain ⟨n, length⟩ : ∃ n, s.memory.slots.length = n + 1 :=
      Nat.exists_eq_succ_of_ne_zero (by omega)
    rw [length] at sized
    obtain ⟨swaps', same⟩ := stored_evict bits
      (s := ⟨{ s.memory with revision := s.memory.revision + 1 }, s.swapFile⟩)
      ⟨swaps.enabled, swaps.file⟩ ⟨sized.slots, sized.coverage, sized.association⟩
    exact ⟨⟨swaps'.enabled, swaps'.file⟩, (stored_append bits slot).trans (congrArg (· + _) same)⟩
  · exact ⟨⟨swaps.enabled, swaps.file⟩, stored_append bits slot⟩

/-- **Items.** What a call leaves stored. -/
theorem stored_after (swaps : Swaps s) (sized : Sized s.memory s.memory.slots.length)
    (some_ : 0 < s.memory.capacity) (call : MemoryCall K) :
    Swaps (s.after bits call) ∧
      stored bits (s.after bits call) = match call with
        | .clear => ↑(swapSlots bits d s.swapFile)
        | _ => stored bits s + written d call := by
  cases call with
  | write key value =>
      change Swaps ((write s key value).toOption.getD s) ∧
        stored bits ((write s key value).toOption.getD s) =
          stored bits s + written d (.write key value)
      unfold write written
      dsimp only
      cases key.row d with
      | none => exact ⟨swaps, (add_zero _).symm⟩
      | some key =>
          cases value.row d with
          | none => exact ⟨swaps, (add_zero _).symm⟩
          | some value => exact stored_insertSlot bits swaps sized some_ ⟨key, value⟩
  | decayCoverage gamma => exact ⟨⟨swaps.enabled, swaps.file⟩, (add_zero _).symm⟩
  | decayAssociations gamma => exact ⟨⟨swaps.enabled, swaps.file⟩, (add_zero _).symm⟩
  | commitAttention weights repetitionDecay associationDecay =>
      have same : (commitAttention s.memory weights repetitionDecay associationDecay).slots =
          s.memory.slots ∧
        (commitAttention s.memory weights repetitionDecay associationDecay).swapFilepath =
          s.memory.swapFilepath := by
        unfold commitAttention
        dsimp only
        split
        · exact ⟨rfl, rfl⟩
        · exact ⟨rfl, rfl⟩
      refine ⟨⟨same.2 ▸ swaps.enabled, swaps.file⟩, ?_⟩
      rw [stored, Hippocampus.after, same.1]
      exact (add_zero _).symm
  | recallFromSwap =>
      rcases recallFromSwap_cases bits s with none | ⟨header, records, file, -, some', recalled⟩
      · rw [Hippocampus.after, none]
        exact ⟨swaps, (add_zero _).symm⟩
      · obtain ⟨isSwap, items⟩ := swapSlots_recall bits (file ▸ swaps.file) some'
        obtain ⟨swaps', same⟩ := stored_insertSlot bits (s := ⟨s.memory, some ((header :: records).take
            (1 + (numRecords d (header :: records) - 1) * recordSize d))⟩)
          ⟨swaps.enabled, isSwap⟩ sized some_ (slotAt bits (header :: records)
            (1 + (numRecords d (header :: records) - 1) * recordSize d))
        rw [Hippocampus.after, recalled]
        refine ⟨swaps', same.trans ?_⟩
        change _ = stored bits s + 0
        rw [add_zero, stored, stored, file, items, ← List.append_assoc]
        rfl
  | clear => exact ⟨⟨swaps.enabled, swaps.file⟩, rfl⟩

/-! ## Runs -/

omit [Field K] [LinearOrder K] in
theorem mem_clear_cons {call : MemoryCall K} {rest : List (MemoryCall K)}
    (kept : .clear ∉ call :: rest) : call ≠ .clear ∧ .clear ∉ rest :=
  ⟨fun clears => kept (clears ▸ List.mem_cons_self), fun later => kept (List.mem_cons_of_mem _ later)⟩

theorem insertSlot_settings (s : Hippocampus K d) (slot : Slot K d) :
    (insertSlot s slot).memory.capacity = s.memory.capacity ∧
      (insertSlot s slot).memory.swapFilepath = s.memory.swapFilepath := by
  unfold insertSlot
  dsimp only
  split
  · exact ⟨rfl, rfl⟩
  · exact ⟨rfl, rfl⟩

/-- No call changes the capacity. -/
theorem capacity_after (s : Hippocampus K d) (call : MemoryCall K) :
    (s.after bits call).memory.capacity = s.memory.capacity := by
  cases call with
  | write key value =>
      change ((write s key value).toOption.getD s).memory.capacity = s.memory.capacity
      unfold write
      split
      · rfl
      · rfl
      · exact (insertSlot_settings s _).1
  | decayCoverage gamma => rfl
  | decayAssociations gamma => rfl
  | commitAttention weights repetitionDecay associationDecay =>
      change (commitAttention s.memory _ _ _).capacity = s.memory.capacity
      unfold commitAttention
      dsimp only
      split
      · rfl
      · rfl
  | recallFromSwap =>
      rcases recallFromSwap_cases bits s with none | ⟨header, records, -, -, -, recalled⟩
      · rw [Hippocampus.after, none]
      · rw [Hippocampus.after, recalled]
        exact (insertSlot_settings _ _).1
  | clear => rfl

variable [IsStrictOrderedRing K] {bits} {decay : K} {calls : List (MemoryCall K)}

/-- Up to the next clearing, what is stored grows by what is written. -/
theorem stored_run (run : Run (Restrict (MemoryStep bits) (Moderate decay)) s calls s')
    (decays : decay < 1) (holds : MemoryInvariant decay s.memory) (swaps : Swaps s)
    (kept : .clear ∉ calls) :
    stored bits s' = stored bits s + (calls.map (written d)).sum := by
  induction run with
  | refl s => exact (add_zero _).symm
  | @cons first middle last call rest step later ih =>
      obtain ⟨rfl, moderate⟩ := step
      obtain ⟨notClear, kept'⟩ := mem_clear_cons kept
      obtain ⟨swaps', items⟩ := stored_after bits swaps holds.sized holds.some_ call
      rw [ih (holds.step decays moderate) swaps' kept', List.map_cons, List.sum_cons, ← add_assoc]
      congr 1
      cases call with
      | clear => exact absurd rfl notClear
      | write key value => exact items
      | decayCoverage gamma => exact items
      | decayAssociations gamma => exact items
      | commitAttention weights repetitionDecay associationDecay => exact items
      | recallFromSwap => exact items

structure MemoryReached (decay : K) (capacity : ℕ) (s : Hippocampus K d) : Prop where
  invariant : MemoryInvariant decay s.memory
  capacity_eq : s.memory.capacity = capacity

theorem memoryReached_run {capacity : ℕ}
    (run : Run (Restrict (MemoryStep bits) (Moderate decay)) s calls s') (decays : decay < 1)
    (start : MemoryReached decay capacity s) : MemoryReached decay capacity s' := by
  refine run.invariant (MemoryReached decay capacity) (fun s call s' holds step => ?_) start
  obtain ⟨rfl, moderate⟩ := step
  exact ⟨holds.invariant.step decays moderate, (capacity_after bits s call).trans holds.capacity_eq⟩

theorem swaps_run (run : Run (Restrict (MemoryStep bits) (Moderate decay)) s calls s')
    (decays : decay < 1) (holds : MemoryInvariant decay s.memory) (swaps : Swaps s) : Swaps s' := by
  have both : MemoryInvariant decay s'.memory ∧ Swaps s' :=
    run.invariant (fun s => MemoryInvariant decay s.memory ∧ Swaps s) (fun s call s' holds step => by
      obtain ⟨rfl, moderate⟩ := step
      exact ⟨holds.1.step decays moderate,
        (stored_after bits holds.2 holds.1.sized holds.1.some_ call).1⟩) ⟨holds, swaps⟩
  exact both.2

/-- **Memory.** On every run, slots, coverages and associations have one size within the
capacity, associations form an affinity and coverages stay below their limit; with a swap
file, what is stored grows up to the next clearing by exactly what is written. -/
theorem memory_invariants {dModel capacity : Int} {path : String}
    {memory : HippocampalMemory K dModel.toNat}
    (created : HippocampalMemory.create K dModel capacity path = .ok memory)
    (file : Option (List (Cell K))) (decays : decay < 1) {s : Hippocampus K dModel.toNat}
    (run : Run (Restrict (MemoryStep bits) (Moderate decay)) ⟨memory, file⟩ calls s) :
    (s.memory.coverage.length = s.memory.slots.length ∧
      IsSquare s.memory.association s.memory.slots.length ∧
      (s.memory.slots.length : Int) ≤ capacity ∧ Affinity s.memory.association ∧
      ∀ c ∈ s.memory.coverage, 0 ≤ c ∧ c ≤ 1 / (1 - decay)) ∧
    (path ≠ "" → IsSwap dModel.toNat file → ∀ later s',
      Run (Restrict (MemoryStep bits) (Moderate decay)) s later s' → .clear ∉ later →
        stored bits s' = stored bits s + (later.map (written dModel.toNat)).sum) := by
  have start : MemoryInvariant decay memory := memoryInvariant_create created
  obtain ⟨positive, rfl⟩ := create_eq_ok created
  obtain ⟨holds, same⟩ := memoryReached_run run decays ⟨start, rfl⟩
  refine ⟨⟨holds.sized.coverage, holds.sized.association, ?_, holds.affinity, holds.covered⟩, ?_⟩
  · have bounded := holds.bounded
    rw [same] at bounded
    change _ ≤ capacity.toNat at bounded
    omega
  · intro named isSwap later s' more kept
    have enabled : path.isEmpty = false := by
      rw [Bool.eq_false_iff]
      exact fun empty => named (String.isEmpty_iff.mp empty)
    exact stored_run more decays holds (swaps_run run decays start ⟨enabled, isSwap⟩) kept

omit [IsStrictOrderedRing K] in
/-- The calls one after the other. -/
theorem run_foldl (s : Hippocampus K d) (moderate : ∀ call ∈ calls, ∀ s : Hippocampus K d,
    Moderate decay s call) :
    Run (Restrict (MemoryStep bits) (Moderate decay)) s calls (calls.foldl (Hippocampus.after bits) s) := by
  induction calls generalizing s with
  | nil => exact .refl s
  | cons call rest ih =>
      exact .cons ⟨rfl, moderate call List.mem_cons_self s⟩
        (ih _ fun other member => moderate other (List.mem_cons_of_mem _ member))

/-! ## A memory with one slot -/

def rationalBits : CellBits ℚ := ⟨fun n => n, fun x => x.num⟩

def single (x : ℚ) : AnyMatrix ℚ := ⟨1, 1, fun _ _ => x⟩

/-- A second item evicts the first, which is recalled. -/
def evictingCalls : List (MemoryCall ℚ) :=
  [.write (single 1) (single 1), .commitAttention (single 1) 0 0, .write (single 0) (single 0),
    .recallFromSwap]

theorem evictingCalls_moderate : ∀ call ∈ evictingCalls, ∀ s : Hippocampus ℚ 1,
    Moderate 0 s call := by
  intro call member s
  have attention : (single 1).IsAttention := fun _ _ => ⟨zero_le_one, le_refl 1⟩
  simp only [evictingCalls, List.mem_cons, List.not_mem_nil, or_false] at member
  rcases member with rfl | rfl | rfl | rfl
  · exact trivial
  · exact ⟨attention, le_refl 0, le_refl 0, le_refl 0, zero_lt_one⟩
  · exact trivial
  · exact trivial

theorem memory_invariants_single :
    let start : Hippocampus ℚ 1 := ⟨{ capacity := 1, swapFilepath := "episodes.swap" }, none⟩
    stored rationalBits (evictingCalls.foldl (Hippocampus.after rationalBits) start) =
      stored rationalBits start + (evictingCalls.map (written 1)).sum := by
  intro start
  have created : HippocampalMemory.create ℚ 1 1 "episodes.swap" = .ok start.memory := rfl
  have idle : Run (Restrict (MemoryStep rationalBits) (Moderate 0)) start [] start := .refl _
  have all := memory_invariants created none zero_lt_one idle
  exact all.2 (by decide) (.inl rfl) _ _ (run_foldl start evictingCalls_moderate)
    (by simp [evictingCalls])

/-- Without a swap file an evicted item is lost. -/
theorem evicted_item_lost :
    ¬ ∀ (bits : CellBits ℚ) (dModel capacity : Int) (path : String)
      (memory : HippocampalMemory ℚ dModel.toNat),
      HippocampalMemory.create ℚ dModel capacity path = .ok memory → ∀ calls s,
        Run (Restrict (MemoryStep bits) (Moderate 0)) ⟨memory, none⟩ calls s → .clear ∉ calls →
          stored bits s = stored bits ⟨memory, none⟩ + (calls.map (written dModel.toNat)).sum := by
  intro claim
  have items := claim rationalBits 1 1 "" { capacity := 1, swapFilepath := "" } rfl evictingCalls _
    (run_foldl _ evictingCalls_moderate) (by simp [evictingCalls])
  have count := congrArg Multiset.card items
  revert count
  decide

end Adai.Memory
