import Adai.Fetching.HfConversion
import Adai.Math.Slices

/-! # Consecutive slices of a dataset

A slice counts lines, and the cursor counts rows. A slice that ends within a dialog
leaves the cursor behind it, so that the rest of the dialog is never served; and a slice
that starts within the dataset detects the fields anew. The slices of every sequence of
budgets compose exactly for the datasets whose rows give at most one line each and are
read the same after a line as they are from the first row
(`Adai.Fetching.hf_slices_compose_iff`).
-/

namespace Adai.Fetching

open Tokenizer Slices

/-! ## The lines of every row -/

/-- The lines of each row when nothing limits them. -/
def portions (fields : Fields) (first : Bool) : List Bytes → List (List Bytes)
  | [] => []
  | row :: rows =>
      let (lines, fields) := readRow none fields first row
      lines :: portions fields (first && lines.isEmpty) rows

theorem length_portions (fields : Fields) (first : Bool) (rows : List Bytes) :
    (portions fields first rows).length = rows.length := by
  induction rows generalizing fields first with
  | nil => rfl
  | cons row rows hypothesis => rw [portions, List.length_cons, hypothesis, List.length_cons]

theorem dialogLines_some (n : Nat) (turns : List Bytes) :
    dialogLines (some n) turns = (dialogLines none turns).take n := by
  induction turns using List.twoStepInduction generalizing n with
  | nil => simp [dialogLines]
  | singleton turn => simp [dialogLines]
  | cons_cons turn answer turns hypothesis =>
    by_cases ended : n = 0
    · simp [dialogLines, ended]
    obtain ⟨n, rfl⟩ := Nat.exists_eq_succ_of_ne_zero ended
    by_cases spoken : turn ≠ [] ∧ answer ≠ []
    · simp [dialogLines, spoken, Budget.spend, hypothesis]
    · simp [dialogLines, spoken, hypothesis]

theorem length_singleText (field row : Bytes) : (singleText field row).length ≤ 1 := by
  unfold singleText
  cases midSplit (hfExtractString row field) <;> simp

theorem length_keyValue (fields : Fields) (row : Bytes) : (keyValue fields row).length ≤ 1 := by
  unfold keyValue
  simp only
  split_ifs <;> simp

theorem length_lastResort (fields : Fields) (row : Bytes) :
    (lastResort fields row).1.length ≤ 1 := by
  unfold lastResort
  split
  · exact Nat.zero_le 1
  · exact length_singleText _ row

/-- A budget cuts the lines of a row short and changes nothing else. -/
theorem readRow_some {n : Nat} (some_ : 0 < n) (fields : Fields) (first : Bool) (row : Bytes) :
    readRow (some n) fields first row =
      ((readRow none fields first row).1.take n, (readRow none fields first row).2) := by
  have short {lines : List Bytes} (one : lines.length ≤ 1) : lines.take n = lines :=
    List.take_of_length_le (one.trans some_)
  unfold readRow
  by_cases both : (detect fields row).both
  · by_cases single : (detect fields row).input = (detect fields row).output
    · simp [both, single, short (length_singleText _ row)]
    · simp [both, single, short (length_keyValue _ row)]
  · cases dialogTurns row with
    | some turns => simp [both, dialogLines_some]
    | none =>
      cases first with
      | true => simp [both, short (length_lastResort _ row)]
      | false => simp [both]

/-- A conversion gives the first lines of the rows. -/
theorem convertRows_some (n : Nat) (fields : Fields) (first : Bool) (index : Nat)
    (rows : List Bytes) :
    convertRows (some n) fields first index rows =
      ((label index (portions fields first rows)).take n, taken n (portions fields first rows)) := by
  induction rows generalizing n fields first index with
  | nil => simp [convertRows, portions, label, taken]
  | cons row rows hypothesis =>
    by_cases ended : n = 0
    · simp [convertRows, ended]
    have some_ := Nat.pos_of_ne_zero ended
    generalize read : readRow none fields first row = row_
    obtain ⟨lines, fields'⟩ := row_
    have empty : (lines.take n).isEmpty = lines.isEmpty := by
      cases lines with
      | nil => rw [List.take_nil]
      | cons line lines =>
        obtain ⟨n, rfl⟩ := Nat.exists_eq_succ_of_ne_zero ended
        rfl
    have spent : Budget.spend (some n) (lines.take n).length = some (n - lines.length) := by
      rw [Budget.spend, Option.map_some, List.length_take]
      congr 1
      omega
    rw [convertRows, if_neg (by simpa using ended), readRow_some some_, read]
    simp only [empty, spent, hypothesis, portions, read, label, taken, ended, if_false,
      List.take_append, List.length_map, List.map_take]

theorem convertRows_none (fields : Fields) (first : Bool) (index : Nat) (rows : List Bytes) :
    convertRows none fields first index rows =
      (label index (portions fields first rows), rows.length) := by
  induction rows generalizing fields first index with
  | nil => rfl
  | cons row rows hypothesis =>
    rw [convertRows, if_neg (by simp)]
    simp only [Budget.spend, Option.map_none, hypothesis, portions, label, List.length_cons]

/-! ## Slices -/

section Dataset

variable (inputField outputField : Bytes) (rows : List Bytes)

/-- The lines of each row from a cursor on, when the conversion starts there. -/
def linesFrom (cursor : Nat) : List (List Bytes) :=
  portions { input := inputField, output := outputField } true (rows.drop cursor)

theorem length_linesFrom (cursor : Nat) :
    (linesFrom inputField outputField rows cursor).length = rows.length - cursor := by
  rw [linesFrom, length_portions, List.length_drop]

theorem convert_some (n cursor : Nat) :
    convertHfToTrainingData inputField outputField rows (some n) cursor =
      ((output (linesFrom inputField outputField rows) cursor).take n,
        taken n (linesFrom inputField outputField rows cursor)) :=
  convertRows_some n _ true cursor _

theorem convert_none (cursor : Nat) :
    (convertHfToTrainingData inputField outputField rows none cursor).1 =
      output (linesFrom inputField outputField rows) cursor := by
  rw [convertHfToTrainingData, convertRows_none]
  rfl

/-- A slice that need not wrap around is a slice of the source. -/
theorem slice_of_length {n cursor : Nat}
    (enough : (convertHfToTrainingData inputField outputField rows (some n) cursor).1.length = n) :
    convertHuggingfaceSlice inputField outputField rows cursor n =
      ((output (linesFrom inputField outputField rows) cursor).take n, n,
        cursor + taken n (linesFrom inputField outputField rows cursor)) := by
  rw [convert_some] at enough
  rw [convertHuggingfaceSlice, convert_some]
  simp only [enough, lt_irrefl, if_false]

theorem slices_eq_served {budgets : List Nat} {cursor : Nat}
    (none_ : NoneWraps inputField outputField rows cursor budgets) :
    slices inputField outputField rows cursor budgets =
      served (linesFrom inputField outputField rows) cursor budgets := by
  induction budgets generalizing cursor with
  | nil => rfl
  | cons n budgets hypothesis =>
    obtain ⟨enough, later⟩ := none_
    have slice := slice_of_length inputField outputField rows enough
    rw [slice] at later
    rw [slices, slice, served]
    simp only [hypothesis later]

theorem noneWraps_iff_lasts (cursor : Nat) (budgets : List Nat) :
    NoneWraps inputField outputField rows cursor budgets ↔
      Lasts (linesFrom inputField outputField rows) cursor budgets := by
  induction budgets generalizing cursor with
  | nil => exact Iff.rfl
  | cons n budgets hypothesis =>
    have filled : (convertHfToTrainingData inputField outputField rows (some n) cursor).1.length = n ↔
        n ≤ (output (linesFrom inputField outputField rows) cursor).length := by
      rw [convert_some, List.length_take]
      exact min_eq_left_iff
    constructor
    · intro none_
      have slice := slice_of_length inputField outputField rows none_.1
      refine ⟨filled.mp none_.1, (hypothesis _).mp ?_⟩
      simpa only [slice] using none_.2
    · intro lasts
      have slice := slice_of_length inputField outputField rows (filled.mpr lasts.1)
      refine ⟨filled.mpr lasts.1, ?_⟩
      rw [slice]
      exact (hypothesis _).mpr lasts.2

/-- The slices of every sequence of budgets and what they leave are the whole conversion, line
by line with the rows they come from. -/
def SlicesCompose : Prop :=
  ∀ budgets, NoneWraps inputField outputField rows 0 budgets →
    (slices inputField outputField rows 0 budgets).1 ++
      (convertHfToTrainingData inputField outputField rows none
        (slices inputField outputField rows 0 budgets).2).1 =
    (convertHfToTrainingData inputField outputField rows none 0).1

theorem slicesCompose_iff_steady :
    SlicesCompose inputField outputField rows ↔ Steady (linesFrom inputField outputField rows) := by
  refine Iff.trans ?_ (compose_iff_steady (length_linesFrom inputField outputField rows))
  constructor
  · intro composes budgets lasts
    have none_ := (noneWraps_iff_lasts inputField outputField rows 0 budgets).mpr lasts
    have whole := composes budgets none_
    rw [slices_eq_served inputField outputField rows none_, convert_none, convert_none] at whole
    exact whole
  · intro composes budgets none_
    rw [slices_eq_served inputField outputField rows none_, convert_none, convert_none]
    exact composes budgets ((noneWraps_iff_lasts inputField outputField rows 0 budgets).mp none_)

/-- Slices compose exactly when every row gives at most one line and, behind a row that gives
one, the later rows give the same lines to a conversion that starts there as to the one that
starts at the first row. -/
theorem hf_slices_compose_iff :
    SlicesCompose inputField outputField rows ↔
      (∀ lines ∈ linesFrom inputField outputField rows 0, lines.length ≤ 1) ∧
      ∀ front lines back, linesFrom inputField outputField rows 0 = front ++ lines :: back →
        lines ≠ [] → linesFrom inputField outputField rows (front.length + 1) = back :=
  slicesCompose_iff_steady inputField outputField rows

/-! ## Rows with fields -/

/-- What a row with fixed fields gives. -/
def readBy (fields : Fields) (row : Bytes) : List Bytes :=
  if fields.input = fields.output then singleText fields.input row else keyValue fields row

theorem length_readBy (fields : Fields) (row : Bytes) : (readBy fields row).length ≤ 1 := by
  unfold readBy
  split
  · exact length_singleText _ row
  · exact length_keyValue fields row

theorem readRow_of_detect {fields found : Fields} {row : Bytes} (both : found.both = true)
    (detected : detect fields row = found) (left : Budget) (first : Bool) :
    readRow left fields first row = (readBy found row, found) := by
  unfold readRow readBy
  rw [detected]
  by_cases single : found.input = found.output
  · simp [both, single]
  · simp [both, single]

/-- Fields that are known are kept. -/
theorem detect_of_both {fields : Fields} (both : fields.both = true) (row : Bytes) :
    detect fields row = fields := by
  cases empty : fields.input.isEmpty with
  | true => simp [Fields.both, empty] at both
  | false => rw [detect, empty, if_neg Bool.false_ne_true]

theorem portions_of_both {fields : Fields} (both : fields.both = true) (first : Bool) :
    portions fields first rows = rows.map (readBy fields) := by
  induction rows generalizing first with
  | nil => rfl
  | cons row rows hypothesis =>
    rw [portions, readRow_of_detect both (detect_of_both both row), List.map_cons]
    exact congrArg (readBy fields row :: ·) (hypothesis _)

variable {inputField outputField rows}

/-- Slices compose when the fields are given, or detected alike in every row. -/
theorem slicesCompose_of_detect {fields : Fields} (both : fields.both = true)
    (alike : ∀ row ∈ rows, detect { input := inputField, output := outputField } row = fields) :
    SlicesCompose inputField outputField rows := by
  have read (cursor : Nat) :
      linesFrom inputField outputField rows cursor = (rows.drop cursor).map (readBy fields) := by
    unfold linesFrom
    have left : ∀ row ∈ rows.drop cursor,
        detect { input := inputField, output := outputField } row = fields :=
      fun row member => alike row (List.mem_of_mem_drop member)
    cases rest : rows.drop cursor with
    | nil => rfl
    | cons row later =>
      have detected := left row (by rw [rest]; exact List.mem_cons_self)
      rw [portions, readRow_of_detect both detected, List.map_cons]
      exact congrArg (readBy fields row :: ·) (portions_of_both later both _)
  refine (slicesCompose_iff_steady inputField outputField rows).mpr ⟨?_, ?_⟩
  · rw [read]
    intro lines member
    obtain ⟨row, _, rfl⟩ := List.mem_map.mp member
    exact length_readBy fields row
  · intro front lines back whole _
    rw [read, List.drop_zero] at whole
    rw [read, List.map_drop, whole]
    simp

end Dataset

/-- A slice of one line out of a dialog of two. -/
theorem hf_slices_compose_fails :
    ¬∀ inputField outputField rows budgets, NoneWraps inputField outputField rows 0 budgets →
      ((slices inputField outputField rows 0 budgets).1 ++
        (convertHfToTrainingData inputField outputField rows none
          (slices inputField outputField rows 0 budgets).2).1).map Prod.snd =
      (convertHfToTrainingData inputField outputField rows none 0).1.map Prod.snd := by
  intro composes
  let rows := [ascii "\x7b\"dialog\":[\"a\",\"b\",\"c\",\"d\"]\x7d"]
  have whole := composes [] [] rows [1] ⟨by decide +kernel, trivial⟩
  have lengths := congrArg List.length whole
  exact absurd lengths (by decide +kernel)

end Adai.Fetching
