import Mathlib.Data.List.Forall2
import Mathlib.Data.List.Nodup

/-! # Pending entries, trained records and the units they name

The registry keeps two lists: the pending queue and the trained records. An
entry of either names a *unit*: a whole file, or a row range of one. Any
negative `segmentStart` means the whole file, so units are compared through
`unitOf`, and the source's two identity checks decide equality of units
(`Adai.Registry.segmentMatches_iff`, `Adai.Registry.trainedMatches_iff`).

Strings are Unicode strings, as the JSON library hands them over; the `int` and
`long long` fields are integers.
-/

namespace Adai.Registry

/-- A record of the trained registry. -/
structure DataVersion where
  dataFile : String
  checksum : String := ""
  numSamples : Int := 0
  trained : Bool := false
  modelId : String := ""
  addedUtc : String := ""
  source : String := ""
  segmentStart : Int := -1
  segmentCount : Int := -1
  deriving DecidableEq, Repr

/-- An entry of the pending queue. -/
structure PendingEntry where
  path : String
  runId : String := ""
  modelName : String := ""
  source : String := ""
  addedUtc : String := ""
  sizeBytes : Nat := 0
  numEntries : Int := -1
  checksum : String := ""
  segmentStart : Int := -1
  segmentCount : Int := -1
  claimedUnix : Int := 0
  deriving DecidableEq, Repr

/-- One element of an explicit list of segment targets. -/
structure SegmentTarget where
  path : String
  segmentStart : Int := -1
  segmentCount : Int := -1
  deriving DecidableEq, Repr

/-- A unit handed to a trainer: a file, or a row range of it. -/
structure PendingFileRange where
  path : String
  segmentStart : Int := -1
  segmentCount : Int := -1
  deriving DecidableEq, Repr

/-- The identity check for a pending entry. -/
def segmentMatches (e : PendingEntry) (path : String) (segmentStart segmentCount : Int) : Bool :=
  if e.path ≠ path then false
  else if segmentStart < 0 then decide (e.segmentStart < 0)
  else decide (e.segmentStart = segmentStart) && decide (e.segmentCount = segmentCount)

/-- The identity check for a trained record. -/
def trainedMatches (dv : DataVersion) (path : String) (segmentStart segmentCount : Int) : Bool :=
  if dv.dataFile ≠ path then false
  else if segmentStart < 0 then decide (dv.segmentStart < 0)
  else decide (dv.segmentStart = segmentStart) && decide (dv.segmentCount = segmentCount)

/-- A whole file (`none`) or the row range starting at a nonnegative index. -/
structure DatasetUnit where
  path : String
  segment : Option (Int × Int)
  deriving DecidableEq, Repr

/-- The unit that a path with a segment range names. -/
def unitOf (path : String) (segmentStart segmentCount : Int) : DatasetUnit :=
  ⟨path, if segmentStart < 0 then none else some (segmentStart, segmentCount)⟩

def PendingEntry.unit (e : PendingEntry) : DatasetUnit :=
  unitOf e.path e.segmentStart e.segmentCount

def DataVersion.unit (dv : DataVersion) : DatasetUnit :=
  unitOf dv.dataFile dv.segmentStart dv.segmentCount

def SegmentTarget.unit (t : SegmentTarget) : DatasetUnit :=
  unitOf t.path t.segmentStart t.segmentCount

def PendingFileRange.unit (u : PendingFileRange) : DatasetUnit :=
  unitOf u.path u.segmentStart u.segmentCount

/-- Two range spellings name one unit exactly when the source's checks say so. -/
theorem unitOf_eq_iff (path path' : String) (start count start' count' : Int) :
    unitOf path start count = unitOf path' start' count' ↔
      path = path' ∧ (if start' < 0 then start < 0 else start = start' ∧ count = count') := by
  unfold unitOf
  by_cases whole : start < 0
  · by_cases whole' : start' < 0
    · simp [whole, whole']
    · simp only [whole, whole', ↓reduceIte, DatasetUnit.mk.injEq, reduceCtorEq, and_false,
        false_iff, not_and]
      intro _ equal
      omega
  · by_cases whole' : start' < 0
    · simp [whole, whole']
    · simp [whole, whole']

theorem segmentMatches_iff (e : PendingEntry) (path : String) (start count : Int) :
    segmentMatches e path start count = true ↔ e.unit = unitOf path start count := by
  unfold PendingEntry.unit
  rw [unitOf_eq_iff]
  unfold segmentMatches
  by_cases same : e.path = path
  · by_cases whole : start < 0 <;> simp [same, whole]
  · simp [same]

theorem trainedMatches_iff (dv : DataVersion) (path : String) (start count : Int) :
    trainedMatches dv path start count = true ↔ dv.unit = unitOf path start count := by
  unfold DataVersion.unit
  rw [unitOf_eq_iff]
  unfold trainedMatches
  by_cases same : dv.dataFile = path
  · by_cases whole : start < 0 <;> simp [same, whole]
  · simp [same]

@[simp] theorem unitOf_path (path : String) (start count : Int) :
    (unitOf path start count).path = path := rfl

@[simp] theorem PendingEntry.unit_path (e : PendingEntry) : e.unit.path = e.path := rfl

@[simp] theorem DataVersion.unit_path (dv : DataVersion) : dv.unit.path = dv.dataFile := rfl

theorem unitOf_segment_none_iff (path : String) (start count : Int) :
    (unitOf path start count).segment = none ↔ start < 0 := by
  unfold unitOf
  by_cases whole : start < 0 <;> simp [whole]

/-- The two files of a transport's data directory, as a load returns them. -/
structure Disk where
  registry : List DataVersion
  pending : List PendingEntry
  deriving DecidableEq, Repr

/-- A save writes a temporary file and renames it over the old one: it either
replaces the list or leaves it as it was. -/
def Disk.saveRegistry (d : Disk) (saved : Bool) (entries : List DataVersion) : Disk :=
  if saved then { d with registry := entries } else d

def Disk.savePending (d : Disk) (saved : Bool) (entries : List PendingEntry) : Disk :=
  if saved then { d with pending := entries } else d

section Save

variable (d : Disk) (saved : Bool) (registry : List DataVersion) (pending : List PendingEntry)

@[simp] theorem Disk.saveRegistry_pending : (d.saveRegistry saved registry).pending = d.pending := by
  cases saved <;> rfl

@[simp] theorem Disk.savePending_registry : (d.savePending saved pending).registry = d.registry := by
  cases saved <;> rfl

@[simp] theorem Disk.saveRegistry_true : (d.saveRegistry true registry).registry = registry := rfl

@[simp] theorem Disk.saveRegistry_false : d.saveRegistry false registry = d := rfl

@[simp] theorem Disk.savePending_true : (d.savePending true pending).pending = pending := rfl

@[simp] theorem Disk.savePending_false : d.savePending false pending = d := rfl

end Save

end Adai.Registry
