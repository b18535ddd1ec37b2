import Mathlib.Data.List.DropRight
import Mathlib.Data.List.SplitLengths
import Adai.Samples.SampleLine

/-! # Segments of a conversation file

A training file is JSONL, one sample a line, or the legacy text of `INPUT:` and
`RESPONSE:` lines; its first line that is not blank tells which. A range of a JSONL file
counts the samples that parse, so consecutive segments partition it. A legacy file
cannot be cut: every range of it is the whole file (`segments_partition`,
`legacy_segments_repeat`).
-/

namespace Adai.Samples

open Tokenizer

structure ConversationPair where
  input : Bytes
  response : Bytes
  info : SampleMeta := {}
  deriving DecidableEq, Repr

def isBlank (c : UInt8) : Bool := c == 0x20 || c == 0x09 || c == 0x0D || c == 0x0A

/-- The first line that is not blank, without the blanks before its text. -/
def firstLine : List Bytes → Bytes
  | [] => []
  | line :: rest =>
      match line.dropWhile isBlank with
      | [] => firstLine rest
      | c :: text => c :: text

def isJsonl (lines : List Bytes) : Bool := decide ((firstLine lines).head? = some 0x7B)

/-! ## JSONL -/

/-- The sample on a line, if it starts like an object and has an input. -/
def jsonlPair (stof : Bytes → Option UInt32) (line : Bytes) : Option ConversationPair :=
  if line.head? ≠ some 0x7B then none
  else
    let sample := parseJsonlSample stof line {}
    if sample.found then some ⟨sample.input, sample.response, sample.info⟩ else none

/-- The loop over the lines; `seen` counts the samples before the current line. -/
def loadJsonl (stof : Bytes → Option UInt32) (range : Option (Int × Int)) :
    List Bytes → Int → List ConversationPair
  | [], _ => []
  | line :: rest, seen =>
      match jsonlPair stof line with
      | none => loadJsonl stof range rest seen
      | some pair =>
          match range with
          | none => pair :: loadJsonl stof range rest (seen + 1)
          | some (start, count) =>
              if seen < start then loadJsonl stof range rest (seen + 1)
              else if start + count ≤ seen then []
              else pair :: loadJsonl stof range rest (seen + 1)

/-! ## The legacy text -/

/-- The pairs found so far and the one being read. -/
structure LegacyState where
  pairs : List ConversationPair := []
  currentInput : Bytes := []
  currentResponse : Bytes := []
  deriving DecidableEq, Repr

/-- A pair with both halves is complete. -/
def LegacyState.flush (st : LegacyState) : LegacyState :=
  if st.currentInput ≠ [] ∧ st.currentResponse ≠ [] then
    { pairs := st.pairs ++ [{ input := st.currentInput, response := st.currentResponse }] }
  else st

def legacyLine (st : LegacyState) (raw : Bytes) : LegacyState :=
  let line := (raw.dropWhile isBlank).rdropWhile isBlank
  let field (length : Nat) := (line.drop length).dropWhile fun c => c == 0x20 || c == 0x09
  if line = [] then st.flush
  else if line.take 6 = ascii "INPUT:" then { st.flush with currentInput := field 6 }
  else if line.take 9 = ascii "RESPONSE:" then { st with currentResponse := field 9 }
  else st

def loadLegacy (lines : List Bytes) : List ConversationPair :=
  (lines.foldl legacyLine {}).flush.pairs

/-! ## Loading -/

/-- What a load finds; a file that cannot be opened has no content. A negative start asks
for the whole file. -/
def foundPairs (stof : Bytes → Option UInt32) (content : Option Bytes)
    (segmentStart segmentCount : Int) : List ConversationPair :=
  match content with
  | none => []
  | some content =>
      let lines := getlines content
      if isJsonl lines then
        loadJsonl stof (if 0 ≤ segmentStart then some (segmentStart, segmentCount) else none)
          lines 0
      else loadLegacy lines

/-- The pairs found are appended to the caller's and counted. -/
def loadConversationPairs (stof : Bytes → Option UInt32) (content : Option Bytes)
    (pairs : List ConversationPair) (segmentStart segmentCount : Int) :
    List ConversationPair × Nat :=
  let found := foundPairs stof content segmentStart segmentCount
  (pairs ++ found, found.length)

/-- Consecutive segments of the given lengths: start and count of each. -/
def segmentsFrom (start : Nat) : List Nat → List (Nat × Nat)
  | [] => []
  | count :: counts => (start, count) :: segmentsFrom (start + count) counts

/-- What loading the segments one after the other gives. -/
def loadSegments (stof : Bytes → Option UInt32) (content : Option Bytes)
    (segments : List (Nat × Nat)) : List ConversationPair :=
  segments.flatMap fun segment => (loadConversationPairs stof content [] segment.1 segment.2).1

/-! ## Ranges -/

section Ranges

variable {stof : Bytes → Option UInt32}

theorem loadJsonl_whole (lines : List Bytes) (seen : Int) :
    loadJsonl stof none lines seen = lines.filterMap (jsonlPair stof) := by
  induction lines generalizing seen with
  | nil => rfl
  | cons line rest ih =>
      cases found : jsonlPair stof line with
      | none => rw [List.filterMap_cons_none found, loadJsonl, found, ih]
      | some pair =>
          rw [List.filterMap_cons_some found, loadJsonl, found]
          exact congrArg (pair :: ·) (ih (seen + 1))

/-- From a line on, the range takes what lies between its ends. -/
theorem loadJsonl_range (start count : Int) (lines : List Bytes) (seen : Int) :
    loadJsonl stof (some (start, count)) lines seen =
      ((lines.filterMap (jsonlPair stof)).drop (start - seen).toNat).take
        (start + count - max start seen).toNat := by
  induction lines generalizing seen with
  | nil => rw [loadJsonl, List.filterMap_nil, List.drop_nil, List.take_nil]
  | cons line rest ih =>
      cases found : jsonlPair stof line with
      | none => rw [List.filterMap_cons_none found, loadJsonl, found, ih]
      | some pair =>
          rw [List.filterMap_cons_some found, loadJsonl, found]
          by_cases before : seen < start
          · have skipped : (start - seen).toNat = (start - (seen + 1)).toNat + 1 := by omega
            have next : max start seen = max start (seen + 1) := by omega
            simp only [before, ↓reduceIte]
            rw [ih, skipped, next, List.drop_succ_cons]
          · have reached : (start - seen).toNat = 0 := by omega
            have reachedNext : (start - (seen + 1)).toNat = 0 := by omega
            by_cases behind : start + count ≤ seen
            · have nothing : (start + count - max start seen).toNat = 0 := by omega
              simp only [before, behind, ↓reduceIte]
              rw [nothing, List.take_zero]
            · have more : (start + count - max start seen).toNat =
                  (start + count - max start (seen + 1)).toNat + 1 := by omega
              simp only [before, behind, ↓reduceIte]
              rw [ih, reached, reachedNext, more, List.drop_zero, List.drop_zero,
                List.take_succ_cons]

variable {content : Bytes}

theorem foundPairs_whole (jsonl : isJsonl (getlines content) = true) :
    foundPairs stof (some content) (-1) (-1) =
      (getlines content).filterMap (jsonlPair stof) := by
  have unranged : ¬(0 : Int) ≤ -1 := by omega
  simp only [foundPairs, jsonl, unranged, ↓reduceIte]
  exact loadJsonl_whole ..

/-- A range drops `start` pairs of the whole load and takes `count`. -/
theorem foundPairs_range (jsonl : isJsonl (getlines content) = true) {start : Int}
    (ranged : 0 ≤ start) (count : Int) :
    foundPairs stof (some content) start count =
      ((foundPairs stof (some content) (-1) (-1)).drop start.toNat).take count.toNat := by
  have inside : start + count - max start 0 = count := by omega
  rw [foundPairs_whole jsonl]
  simp only [foundPairs, jsonl, ranged, ↓reduceIte]
  rw [loadJsonl_range, inside, Int.sub_zero]

theorem foundPairs_legacy (legacy : isJsonl (getlines content) = false) (start count : Int) :
    foundPairs stof (some content) start count = loadLegacy (getlines content) := by
  simp only [foundPairs, legacy, Bool.false_eq_true, ↓reduceIte]

/-- Cutting at consecutive segments is cutting by their lengths. -/
theorem map_segmentsFrom {α : Type*} (whole : List α) (counts : List Nat) (start : Nat) :
    (segmentsFrom start counts).map (fun segment => (whole.drop segment.1).take segment.2) =
      counts.splitLengths (whole.drop start) := by
  induction counts generalizing start with
  | nil => rfl
  | cons count counts ih =>
      rw [segmentsFrom, List.map_cons, ih, List.splitLengths_cons, List.drop_drop]

end Ranges

/-! ## The result -/

/-- **Segments partition a JSONL file.** For a JSONL file a range is `start` pairs of the
whole load dropped and `count` taken, and the loads of consecutive segments that cover the
file make up the whole load. A legacy file is loaded whole for every range, and a file
that cannot be opened has no pairs. -/
theorem segments_partition (stof : Bytes → Option UInt32) (content : Option Bytes) :
    let load := fun start count => (loadConversationPairs stof content [] start count).1
    let whole := load (-1) (-1)
    if content.all (fun bytes => isJsonl (getlines bytes)) then
      (∀ start count : Int, 0 ≤ start →
        load start count = (whole.drop start.toNat).take count.toNat) ∧
      ∀ counts : List Nat, counts.sum = whole.length →
        loadSegments stof content (segmentsFrom 0 counts) = whole
    else ∀ start count : Int, load start count = whole := by
  intro load whole
  have ranges (jsonl : content.all (fun bytes => isJsonl (getlines bytes)) = true)
      (start count : Int) (ranged : 0 ≤ start) :
      load start count = (whole.drop start.toNat).take count.toNat := by
    cases content with
    | none => simp [load, whole, loadConversationPairs, foundPairs]
    | some bytes => exact foundPairs_range jsonl ranged count
  split
  · rename_i jsonl
    refine ⟨ranges jsonl, fun counts covers => ?_⟩
    have cut : loadSegments stof content (segmentsFrom 0 counts) =
        ((segmentsFrom 0 counts).map fun segment =>
          (whole.drop segment.1).take segment.2).flatten := by
      rw [loadSegments, List.flatMap_def]
      congr 1
      apply List.map_congr_left
      intro segment _
      exact ranges jsonl segment.1 segment.2 (Int.natCast_nonneg _)
    rw [cut, map_segmentsFrom, List.drop_zero]
    exact List.flatten_splitLengths _ _ (Nat.le_of_eq covers.symm)
  · rename_i legacy
    intro start count
    cases content with
    | none => rfl
    | some bytes =>
        have text : isJsonl (getlines bytes) = false := Bool.eq_false_iff.mpr legacy
        exact (foundPairs_legacy text start count).trans (foundPairs_legacy text (-1) (-1)).symm

/-- A legacy file of two pairs. -/
def twoLegacyPairs : Bytes := ascii "INPUT: a\nRESPONSE: b\n\nINPUT: c\nRESPONSE: d\n"

/-- Its two segments of one pair load both pairs twice. -/
theorem legacy_segments_repeat :
    ¬ ∀ (stof : Bytes → Option UInt32) (content : Option Bytes) (counts : List Nat),
      counts.sum = (loadConversationPairs stof content [] (-1) (-1)).2 →
        loadSegments stof content (segmentsFrom 0 counts) =
          (loadConversationPairs stof content [] (-1) (-1)).1 := by
  intro claim
  have same := claim (fun _ => none) (some twoLegacyPairs) [1, 1] (by decide)
  exact absurd (congrArg List.length same) (by decide)

end Adai.Samples
