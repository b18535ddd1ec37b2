import Adai.Fetching.HfStrings
import Adai.Samples.SampleLine

/-! # Converting a downloaded dataset

The rows of a dataset become training lines. How a row is read depends on the fields:
they are given, or detected in the first row that has a known pair of them, or a field
with a long text stands for both. A row without fields may hold a dialog, which gives a
line for every two turns. The conversion starts at a row and stops when it has written
as many lines as were asked for; a slice that ran out of rows goes on at the first row.
-/

namespace Adai.Fetching

open Tokenizer Samples

/-! ## Fields -/

/-- The fields that are read, and the task type of their lines. -/
structure Fields where
  input : Bytes := []
  output : Bytes := []
  taskType : Bytes := []
  deriving DecidableEq, Repr

def Fields.both (fields : Fields) : Bool := !fields.input.isEmpty && !fields.output.isEmpty

def hfCandidates : List (Bytes × Bytes) :=
  [(ascii "instruction", ascii "output"), (ascii "instruction", ascii "response"),
    (ascii "question", ascii "answer"), (ascii "question", ascii "response"),
    (ascii "input", ascii "output"), (ascii "prompt", ascii "completion"),
    (ascii "prompt", ascii "response"), (ascii "context", ascii "response"),
    (ascii "source", ascii "target"), (ascii "text", ascii "label")]

/-- The first pair of fields that both hold a string in the row. -/
def hfDetectFields (row : Bytes) : Bytes × Bytes :=
  (hfCandidates.find? fun fields =>
    !(hfExtractString row fields.1).isEmpty && !(hfExtractString row fields.2).isEmpty).getD ([], [])

def hfTaskType (field : Bytes) : Bytes :=
  if field = ascii "instruction" then ascii "instruction"
  else if field = ascii "question" then ascii "qa"
  else if field = ascii "prompt" then ascii "completion"
  else ascii "instruction"

/-- Fields are looked for in every row as long as there are none. -/
def detect (fields : Fields) (row : Bytes) : Fields :=
  if fields.input.isEmpty then
    let (input, output) := hfDetectFields row
    { input := input, output := output,
      taskType := if input.isEmpty then [] else hfTaskType input }
  else fields

/-! ## Long texts -/

/-- `.`, `!` or `?` before a blank or a newline. -/
def endsSentence (text : Bytes) (pos : Nat) : Bool :=
  decide (pos < text.length - 1) &&
    (text.getD pos 0 == 0x2E || text.getD pos 0 == 0x21 || text.getD pos 0 == 0x3F) &&
    (text.getD (pos + 1) 0 == 0x20 || text.getD (pos + 1) 0 == 0x0A)

/-- The positions around the middle, nearest first. -/
def splitPositions (mid : Nat) : List Nat :=
  (List.range mid).flatMap fun radius => [mid + radius, mid - radius]

def isBlank (c : UInt8) : Bool := c == 0x20 || c == 0x0A || c == 0x09

/-- The text in two parts, split behind the sentence that ends nearest to its middle. -/
def midSplit (text : Bytes) : Option (Bytes × Bytes) :=
  if text.length < 40 then none
  else
    match (splitPositions (text.length / 2)).find? (endsSentence text) with
    | none => none
    | some pos =>
        if text.length - 5 ≤ pos + 1 then none
        else
          let left := text.take (pos + 1)
          let right := text.drop (pos + 1)
          let right := if right.all isBlank then right else right.dropWhile isBlank
          if left.isEmpty || right.isEmpty then none else some (left, right)

/-! ## Rows -/

def trainingLine (taskType : String) (pair : Bytes × Bytes) : Bytes :=
  sampleToJsonl pair.1 pair.2 { taskType := ascii taskType }

/-- A row of a dataset with one text field. -/
def singleText (field row : Bytes) : List Bytes :=
  ((midSplit (hfExtractString row field)).map (trainingLine "completion")).toList

/-- A row of a dataset with an input and an output field. -/
def keyValue (fields : Fields) (row : Bytes) : List Bytes :=
  let inputText := hfExtractString row fields.input
  let sub := hfExtractString row (ascii "input")
  let inputText :=
    if fields.input = ascii "instruction" ∧ sub ≠ [] then inputText ++ 0x0A :: sub else inputText
  let outputText := hfExtractString row fields.output
  if inputText ≠ [] ∧ outputText ≠ [] then
    [sampleToJsonl inputText outputText { taskType := fields.taskType }]
  else []

def dialogKeys : List Bytes :=
  [ascii "dialog", ascii "turns", ascii "utterances", ascii "conversations"]

/-- The turns under the first key that holds any. -/
def dialogTurns (row : Bytes) : Option (List Bytes) :=
  (dialogKeys.map (hfExtractStringArray row)).find? fun turns => !turns.isEmpty

/-- What is left of a budget; an unlimited one is never used up. -/
abbrev Budget := Option Nat

def Budget.spend (left : Budget) (lines : Nat) : Budget := left.map (· - lines)

/-- The lines of a dialog, turn by turn and answer by answer. -/
def dialogLines (left : Budget) : List Bytes → List Bytes
  | [] => []
  | [_] => []
  | turn :: answer :: turns =>
      if left = some 0 then []
      else if turn ≠ [] ∧ answer ≠ [] then
        trainingLine "chat" (turn, answer) :: dialogLines (left.spend 1) turns
      else dialogLines left turns

def textKeys : List Bytes := [ascii "text", ascii "content", ascii "document"]

/-- A long text under one of the usual keys makes the dataset one with a single text field. -/
def lastResort (fields : Fields) (row : Bytes) : List Bytes × Fields :=
  match textKeys.find? fun key => decide (40 ≤ (hfExtractString row key).length) with
  | none => ([], fields)
  | some key =>
      (singleText key row, { input := key, output := key, taskType := ascii "completion" })

/-- The lines of one row and the fields afterwards. The row is read with some budget left;
`first` says that the conversion has written no line yet. -/
def readRow (left : Budget) (fields : Fields) (first : Bool) (row : Bytes) :
    List Bytes × Fields :=
  let fields := detect fields row
  if fields.both then
    if fields.input = fields.output then (singleText fields.input row, fields)
    else (keyValue fields row, fields)
  else
    match dialogTurns row with
    | some turns => (dialogLines left turns, fields)
    | none => if first then lastResort fields row else ([], fields)

/-! ## Conversions -/

/-- The lines, each with the number of its row, and the number of rows consumed. -/
def convertRows (left : Budget) (fields : Fields) (first : Bool) (index : Nat) :
    List Bytes → List (Nat × Bytes) × Nat
  | [] => ([], 0)
  | row :: rows =>
      if left = some 0 then ([], 0)
      else
        let (lines, fields) := readRow left fields first row
        let (later, consumed) :=
          convertRows (left.spend lines.length) fields (first && lines.isEmpty) (index + 1) rows
        (lines.map (index, ·) ++ later, consumed + 1)

/-- The rows of a dataset are the lines that start an object. -/
def hfRows (jsonl : Bytes) : List Bytes :=
  (getlines jsonl).filter fun line => line.head? = some 0x7B

section Dataset

variable (inputField outputField : Bytes) (rows : List Bytes)

def convertHfToTrainingData (maxPairs : Budget) (offsetRows : Nat) : List (Nat × Bytes) × Nat :=
  convertRows maxPairs { input := inputField, output := outputField } true offsetRows
    (rows.drop offsetRows)

/-- The lines of a slice, their number, and the row behind it. -/
def convertHuggingfaceSlice (offsetRows numPairs : Nat) : List (Nat × Bytes) × Nat × Nat :=
  let (lines, consumed) := convertHfToTrainingData inputField outputField rows (some numPairs) offsetRows
  if lines.length < numPairs then
    let (more, again) := convertHfToTrainingData inputField outputField rows
      (some (numPairs - lines.length)) 0
    (lines ++ more, lines.length + more.length, again)
  else (lines, lines.length, offsetRows + consumed)

/-- The lines of consecutive slices, each from the cursor that the one before saved, and the
last cursor. -/
def slices (cursor : Nat) : List Nat → List (Nat × Bytes) × Nat
  | [] => ([], cursor)
  | numPairs :: budgets =>
      let (lines, _, next) := convertHuggingfaceSlice inputField outputField rows cursor numPairs
      let (later, last) := slices next budgets
      (lines ++ later, last)

/-- No slice has to wrap around. -/
def NoneWraps (cursor : Nat) : List Nat → Prop
  | [] => True
  | numPairs :: budgets =>
      (convertHfToTrainingData inputField outputField rows (some numPairs) cursor).1.length =
        numPairs ∧
      NoneWraps (convertHuggingfaceSlice inputField outputField rows cursor numPairs).2.2 budgets

end Dataset

end Adai.Fetching
