import Mathlib.Algebra.Field.Defs
import Mathlib.Algebra.Order.Ring.Defs
import Adai.Math.SquareTable

/-! # The hippocampal memory

A bounded buffer of keys and values. Each slot has a coverage, and each pair of slots an
association; a full buffer evicts the slot of least coverage, to the swap file when there
is one, and the last one evicted can be recalled. Numbers are exact. The swap file is a
sequence of 4-byte cells, each an integer or a number; what a cell of one kind reads as
when it is read as the other is a parameter.
-/

namespace Adai.Memory

open SquareTable

/-! ## Data -/

/-- A matrix whose shape is checked when it is used. -/
structure AnyMatrix (K : Type) where
  rows : ℕ
  cols : ℕ
  entries : Fin rows → Fin cols → K

structure Slot (K : Type) (d : ℕ) where
  key : Fin d → K
  value : Fin d → K

inductive Cell (K : Type)
  | integer (n : Int)
  | number (x : K)

/-- The number with the bits of an integer, and the integer with those of a number. -/
structure CellBits (K : Type) where
  number : Int → K
  integer : K → Int

namespace Cell

variable {K : Type} (bits : CellBits K)

def asNumber : Cell K → K
  | integer n => bits.number n
  | number x => x

def asInteger : Cell K → Int
  | integer n => n
  | number x => bits.integer x

end Cell

inductive MemoryError
  | invalidArgument (text : String)
  | runtime (text : String)
  deriving DecidableEq, Repr

structure HippocampalMemory (K : Type) (d : ℕ) where
  capacity : ℕ
  swapFilepath : String
  slots : List (Slot K d) := []
  coverage : List K := []
  association : List (List K) := []
  committedSteps : ℕ := 0
  revision : ℕ := 0

/-- A memory and its swap file, if the file exists. -/
structure Hippocampus (K : Type) (d : ℕ) where
  memory : HippocampalMemory K d
  swapFile : Option (List (Cell K))

def requirePositive (value : Int) (name : String) : Except MemoryError Unit :=
  if value ≤ 0 then .error (.invalidArgument ("HippocampalMemory: " ++ name ++ " must be positive"))
  else .ok ()

/-- The constructor. -/
def HippocampalMemory.create (K : Type) (dModel capacity : Int) (swapFilepath : String) :
    Except MemoryError (HippocampalMemory K dModel.toNat) := do
  requirePositive capacity "capacity"
  requirePositive dModel "d_model"
  return { capacity := capacity.toNat, swapFilepath }

section Operations

variable {K : Type} [Field K] [LinearOrder K] {d : ℕ} (bits : CellBits K)

/-! ## The swap file -/

def recordCells (slot : Slot K d) (coverage : K) : List (Cell K) :=
  (List.ofFn slot.key).map .number ++ ((List.ofFn slot.value).map .number ++ [.number coverage])

/-- The header is written to a file that does not exist or is empty. -/
def appendToSwap (file : Option (List (Cell K))) (slot : Slot K d) (coverage : K) :
    List (Cell K) :=
  let content := file.getD []
  (if content.isEmpty then [.integer d] else content) ++ recordCells slot coverage

def numberAt (cells : List (Cell K)) (i : ℕ) : K := (cells[i]?).elim 0 (Cell.asNumber bits)

/-- The key and the value of the record at the offset. -/
def slotAt (cells : List (Cell K)) (offset : ℕ) : Slot K d where
  key j := numberAt bits cells (offset + j)
  value j := numberAt bits cells (offset + d + j)

/-- The cells of a record. -/
def recordSize (d : ℕ) : ℕ := 2 * d + 1

def numRecords (d : ℕ) (cells : List (Cell K)) : ℕ := (cells.length - 1) / recordSize d

/-! ## Eviction and insertion -/

def leastUsedFrom (i evictIdx : ℕ) (minCov : K) : List K → ℕ
  | [] => evictIdx
  | c :: rest =>
      if c < minCov then leastUsedFrom (i + 1) i c rest
      else leastUsedFrom (i + 1) evictIdx minCov rest

/-- The first of the lowest coverages. -/
def leastUsed : List K → ℕ
  | [] => 0
  | c :: rest => leastUsedFrom 1 0 c rest

def evictLeastUsed (s : Hippocampus K d) : Hippocampus K d :=
  let evictIdx := leastUsed s.memory.coverage
  let swapFile :=
    match s.memory.slots[evictIdx]?, s.memory.coverage[evictIdx]? with
    | some slot, some coverage =>
        if s.memory.swapFilepath.isEmpty then s.swapFile
        else some (appendToSwap s.swapFile slot coverage)
    | _, _ => s.swapFile
  { memory := { s.memory with
      slots := s.memory.slots.eraseIdx evictIdx
      coverage := s.memory.coverage.eraseIdx evictIdx
      association := erase evictIdx s.memory.association }
    swapFile }

/-- The coverage a new slot starts at. -/
def meanCoverage (coverage : List K) : K :=
  if coverage.isEmpty then 0 else coverage.sum / coverage.length

def appendSlot (m : HippocampalMemory K d) (slot : Slot K d) : HippocampalMemory K d :=
  { m with
    slots := m.slots ++ [slot]
    coverage := m.coverage ++ [meanCoverage m.coverage]
    association := grow (m.slots.length + 1) m.association }

def insertSlot (s : Hippocampus K d) (slot : Slot K d) : Hippocampus K d :=
  let noted := { s with memory := { s.memory with revision := s.memory.revision + 1 } }
  let room := if s.memory.capacity ≤ s.memory.slots.length then evictLeastUsed noted else noted
  { room with memory := appendSlot room.memory slot }

/-! ## Operations -/

/-- The row of a `1 × d` matrix. -/
def AnyMatrix.row (m : AnyMatrix K) (d : ℕ) : Option (Fin d → K) :=
  if shape : m.rows = 1 ∧ m.cols = d then
    some fun j => m.entries ⟨0, by omega⟩ (j.cast shape.2.symm)
  else none

def write (s : Hippocampus K d) (key value : AnyMatrix K) :
    Except MemoryError (Hippocampus K d) :=
  match key.row d, value.row d with
  | none, _ =>
      .error (.invalidArgument "HippocampalMemory::write: key must be [1, d_model]")
  | some _, none =>
      .error (.invalidArgument "HippocampalMemory::write: value must be [1, d_model]")
  | some key, some value => .ok (insertSlot s ⟨key, value⟩)

def decayCoverage (m : HippocampalMemory K d) (gamma : K) : HippocampalMemory K d :=
  { m with coverage := m.coverage.map fun c => c * gamma, revision := m.revision + 1 }

def decayAssociations (m : HippocampalMemory K d) (gamma : K) : HippocampalMemory K d :=
  { m with association := scale gamma m.association, revision := m.revision + 1 }

def clear (m : HippocampalMemory K d) : HippocampalMemory K d :=
  { m with slots := [], coverage := [], association := [], revision := m.revision + 1 }

def recallFromSwap (s : Hippocampus K d) : Except MemoryError (Bool × Hippocampus K d) :=
  match s.swapFile with
  | none => .ok (false, s)
  | some [] => .ok (false, s)
  | some (header :: records) =>
      if s.memory.swapFilepath.isEmpty then .ok (false, s)
      else if header.asInteger bits ≠ d then
        .error (.runtime ("HippocampalMemory: swap file dimension mismatch: saved d_model=" ++
          toString (header.asInteger bits) ++ " vs current d_model=" ++ toString d))
      else
        let cells := header :: records
        if numRecords d cells = 0 then .ok (false, s)
        else
          let lastOffset := 1 + (numRecords d cells - 1) * recordSize d
          .ok (true, insertSlot { s with swapFile := some (cells.take lastOffset) }
            (slotAt bits cells lastOffset))

/-- What can be recalled: nothing, or the last record. -/
theorem recallFromSwap_cases (s : Hippocampus K d) :
    ((recallFromSwap bits s).toOption.map Prod.snd).getD s = s ∨
      ∃ header records,
        let cells := header :: records
        let lastOffset := 1 + (numRecords d cells - 1) * recordSize d
        s.swapFile = some cells ∧ s.memory.swapFilepath.isEmpty = false ∧ 0 < numRecords d cells ∧
          ((recallFromSwap bits s).toOption.map Prod.snd).getD s =
            insertSlot { s with swapFile := some (cells.take lastOffset) }
              (slotAt bits cells lastOffset) := by
  unfold recallFromSwap
  split
  · exact .inl rfl
  · exact .inl rfl
  · rename_i header records file
    by_cases off : s.memory.swapFilepath.isEmpty = true
    · rw [if_pos off]
      exact .inl rfl
    · rw [if_neg off]
      by_cases other : header.asInteger bits ≠ d
      · rw [if_pos other]
        exact .inl rfl
      · rw [if_neg other]
        dsimp only
        by_cases none : numRecords d (header :: records) = 0
        · rw [if_pos none]
          exact .inl rfl
        · rw [if_neg none]
          exact .inr ⟨header, records, file, Bool.eq_false_iff.mpr off, Nat.pos_of_ne_zero none, rfl⟩

/-! ## Attention -/

/-- The weight, with 0 outside of the matrix. -/
def AnyMatrix.weight (m : AnyMatrix K) (i slot : ℕ) : K :=
  if inside : i < m.rows ∧ slot < m.cols then m.entries ⟨i, inside.1⟩ ⟨slot, inside.2⟩ else 0

def AnyMatrix.invRows (m : AnyMatrix K) : K := 1 / (m.rows : K)

/-- The weight of a slot, summed over the query rows. -/
def AnyMatrix.columnSum (m : AnyMatrix K) (slot : ℕ) : K :=
  ((List.range m.rows).map fun i => m.weight i slot).sum

/-- What two slots were attended to in the same rows. -/
def AnyMatrix.coactivation (m : AnyMatrix K) (a b : ℕ) : K :=
  ((List.range m.rows).map fun i => m.weight i a * m.weight i b).sum * m.invRows

def strengthen (weights : AnyMatrix K) (a : ℕ) (table : List (List K)) (b : ℕ) : List (List K) :=
  if weights.coactivation a b ≠ 0 then bump a b (weights.coactivation a b) table else table

/-- The pairs with `a`, for each `b` behind it. -/
def strengthenRow (weights : AnyMatrix K) (nSlots : ℕ) (table : List (List K)) (a : ℕ) :
    List (List K) :=
  (List.range' (a + 1) (nSlots - (a + 1))).foldl (strengthen weights a) table

def commitAttention (m : HippocampalMemory K d) (weights : AnyMatrix K)
    (repetitionDecay associationDecay : K) : HippocampalMemory K d :=
  let nSlots := m.slots.length
  if nSlots = 0 ∨ weights.rows = 0 ∨ weights.cols ≠ nSlots then m
  else
    let decayed := decayCoverage { m with committedSteps := m.committedSteps + 1 } repetitionDecay
    let covered := { decayed with
      coverage := decayed.coverage.mapIdx fun slot c =>
        c + weights.columnSum slot * weights.invRows }
    let faded := decayAssociations covered associationDecay
    { faded with
      association := (List.range nSlots).foldl (strengthenRow weights nSlots) faded.association }

end Operations

/-! ## Calls -/

inductive MemoryCall (K : Type)
  | write (key value : AnyMatrix K)
  | decayCoverage (gamma : K)
  | decayAssociations (gamma : K)
  | commitAttention (weights : AnyMatrix K) (repetitionDecay associationDecay : K)
  | recallFromSwap
  | clear

section Calls

variable {K : Type} [Field K] [LinearOrder K] {d : ℕ} (bits : CellBits K)

/-- A call that throws leaves the memory and the file as they were. -/
def Hippocampus.after (s : Hippocampus K d) : MemoryCall K → Hippocampus K d
  | .write key value => ((write s key value).toOption).getD s
  | .decayCoverage gamma => { s with memory := decayCoverage s.memory gamma }
  | .decayAssociations gamma => { s with memory := decayAssociations s.memory gamma }
  | .commitAttention weights repetitionDecay associationDecay =>
      { s with memory := commitAttention s.memory weights repetitionDecay associationDecay }
  | .recallFromSwap => ((recallFromSwap bits s).toOption.map Prod.snd).getD s
  | .clear => { s with memory := clear s.memory }

def MemoryStep (s : Hippocampus K d) (call : MemoryCall K) (s' : Hippocampus K d) : Prop :=
  s.after bits call = s'

end Calls

end Adai.Memory
