import Adai.Parquet.ColumnChunk
import Adai.Tokenizer.VocabText

/-! # The JSON line of a row

Every row becomes one object with a member for each column, in the columns' order.
Names and strings are escaped byte by byte: a control byte without a letter of its
own is written as `\u00xx`. No line holds a newline (`newline_notMem_rowText`), so
that the file's lines are the rows (`getlines_rowLines`).
-/

namespace Adai.Parquet

open Tokenizer (ascii decimal getlines fileText)

/-! ## Strings -/

def hexDigitText (n : UInt8) : UInt8 := (ascii "0123456789abcdef").getD n.toNat 0

def jsonEscapeByte (ch : UInt8) : Bytes :=
  if ch = 0x22 then ascii "\\\""
  else if ch = 0x5C then ascii "\\\\"
  else if ch = 0x0A then ascii "\\n"
  else if ch = 0x0D then ascii "\\r"
  else if ch = 0x09 then ascii "\\t"
  else if ch < 0x20 then ascii "\\u00" ++ [hexDigitText (ch >>> 4), hexDigitText (ch &&& 0x0F)]
  else [ch]

/-- What `json_escape_append` adds for `s`. -/
def jsonEscape (s : Bytes) : Bytes := s.flatMap jsonEscapeByte

def quoted (s : Bytes) : Bytes := 0x22 :: (jsonEscape s ++ [0x22])

/-! ## Rows -/

section Rows

-- how a stream writes the double with these bits
variable (doubleText : Nat → Bytes)

def cellJson : Cell → Bytes
  | none => ascii "null"
  | some (.string value) => quoted value
  | some (.int64 value) => decimal value
  | some (.double bits) => doubleText bits
  | some (.boolean value) => if value then ascii "true" else ascii "false"

/-- A column's name and the row's cell in it. -/
abbrev NamedCell := Bytes × Cell

def memberJson (column : NamedCell) : Bytes :=
  quoted column.1 ++ 0x3A :: cellJson doubleText column.2

/-- The row's object, without the newline behind it. -/
def rowText (row : List NamedCell) : Bytes :=
  0x7B :: ([0x2C].intercalate (row.map (memberJson doubleText)) ++ [0x7D])

def rowLine (row : List NamedCell) : Bytes := rowText doubleText row ++ [0x0A]

end Rows

theorem intercalate_cons {α : Type*} (joint front : List α) (rest : List (List α)) :
    joint.intercalate (front :: rest) = front ++ rest.flatMap fun piece => joint ++ piece := by
  induction rest generalizing front with
  | nil => simp
  | cons piece rest hypothesis =>
    rw [List.intercalate_cons_cons, hypothesis, List.flatMap_cons, List.append_assoc,
      List.append_assoc]

/-! ## Escaped text -/

@[simp] theorem jsonEscape_nil : jsonEscape [] = [] := rfl

@[simp] theorem jsonEscape_cons (c : UInt8) (s : Bytes) :
    jsonEscape (c :: s) = jsonEscapeByte c ++ jsonEscape s := List.flatMap_cons

/-- A byte that is written as a unicode escape. -/
def IsHidden (c : UInt8) : Prop := c < 0x20 ∧ c ≠ 0x0A ∧ c ≠ 0x0D ∧ c ≠ 0x09

instance (c : UInt8) : Decidable (IsHidden c) := inferInstanceAs (Decidable (_ ∧ _))

/-- A byte is escaped with a letter, or hidden, or left as it is. -/
theorem jsonEscapeByte_cases (c : UInt8) :
    (∃ letter, jsonEscapeByte c = [0x5C, letter] ∧
      (c, letter) ∈ [((0x22 : UInt8), (0x22 : UInt8)), (0x5C, 0x5C), (0x0A, 0x6E), (0x0D, 0x72),
        (0x09, 0x74)]) ∨
    (IsHidden c ∧ ∃ high low, jsonEscapeByte c = [0x5C, 0x75, 0x30, 0x30, high, low] ∧
      (high ≠ 0x22 ∧ high ≠ 0x5C) ∧ low ≠ 0x22 ∧ low ≠ 0x5C) ∨
    (¬IsHidden c ∧ jsonEscapeByte c = [c] ∧ c ≠ 0x22 ∧ c ≠ 0x5C) := by
  by_cases hidden : IsHidden c
  · have bytes : ∀ b : BitVec 8, IsHidden ⟨b⟩ →
        jsonEscapeByte ⟨b⟩ = [0x5C, 0x75, 0x30, 0x30, hexDigitText ((⟨b⟩ : UInt8) >>> 4),
          hexDigitText ((⟨b⟩ : UInt8) &&& 0x0F)] ∧
        (hexDigitText ((⟨b⟩ : UInt8) >>> 4) ≠ 0x22 ∧ hexDigitText ((⟨b⟩ : UInt8) >>> 4) ≠ 0x5C) ∧
        hexDigitText ((⟨b⟩ : UInt8) &&& 0x0F) ≠ 0x22 ∧ hexDigitText ((⟨b⟩ : UInt8) &&& 0x0F) ≠ 0x5C := by
      decide +kernel
    exact .inr (.inl ⟨hidden, _, _, bytes c.toBitVec hidden⟩)
  unfold jsonEscapeByte
  by_cases quote : c = 0x22
  · exact .inl ⟨0x22, by simp [quote, ascii], by simp [quote]⟩
  by_cases backslash : c = 0x5C
  · exact .inl ⟨0x5C, by simp [backslash, ascii], by simp [backslash]⟩
  by_cases newline : c = 0x0A
  · exact .inl ⟨0x6E, by simp [newline, ascii], by simp [newline]⟩
  by_cases carriage : c = 0x0D
  · exact .inl ⟨0x72, by simp [carriage, ascii], by simp [carriage]⟩
  by_cases tab : c = 0x09
  · exact .inl ⟨0x74, by simp [tab, ascii], by simp [tab]⟩
  have printable : ¬c < 0x20 := fun control => hidden ⟨control, newline, carriage, tab⟩
  exact .inr (.inr ⟨hidden, by
    rw [if_neg quote, if_neg backslash, if_neg newline, if_neg carriage, if_neg tab,
      if_neg printable], quote, backslash⟩)

theorem newline_notMem_jsonEscape (s : Bytes) : (0x0A : UInt8) ∉ jsonEscape s := by
  intro member
  obtain ⟨c, _, written⟩ := List.mem_flatMap.mp member
  have bytes : ∀ b : BitVec 8, (0x0A : UInt8) ∉ jsonEscapeByte ⟨b⟩ := by decide +kernel
  exact bytes c.toBitVec written

theorem newline_notMem_quoted (s : Bytes) : (0x0A : UInt8) ∉ quoted s := by
  simp [quoted, newline_notMem_jsonEscape]

theorem newline_notMem_decimal (value : Int) : (0x0A : UInt8) ∉ decimal value := by
  have digits_ (n : Nat) : (0x0A : UInt8) ∉ Tokenizer.digits n := by
    intro member
    exact absurd (Tokenizer.isDigit_of_mem_digits member) (by decide)
  cases value with
  | ofNat n => exact digits_ n
  | negSucc n => simp [decimal, digits_]

/-! ## The rows are the lines of the file -/

section Lines

variable {doubleText : Nat → Bytes} (oneLine : ∀ bits, (0x0A : UInt8) ∉ doubleText bits)

include oneLine

theorem newline_notMem_cellJson (cell : Cell) : (0x0A : UInt8) ∉ cellJson doubleText cell := by
  match cell with
  | none => simp [cellJson, ascii]
  | some (.string value) => exact newline_notMem_quoted value
  | some (.int64 value) => exact newline_notMem_decimal value
  | some (.double bits) => exact oneLine bits
  | some (.boolean true) => simp [cellJson, ascii]
  | some (.boolean false) => simp [cellJson, ascii]

theorem newline_notMem_rowText (row : List NamedCell) :
    (0x0A : UInt8) ∉ rowText doubleText row := by
  have member (column : NamedCell) : (0x0A : UInt8) ∉ memberJson doubleText column := by
    simp [memberJson, newline_notMem_quoted, newline_notMem_cellJson oneLine]
  cases row with
  | nil => simp [rowText]
  | cons column row => simp [rowText, intercalate_cons, member]

theorem getlines_rowLines (rows : List (List NamedCell)) :
    getlines (rows.flatMap (rowLine doubleText)) = rows.map (rowText doubleText) := by
  have lines : rows.flatMap (rowLine doubleText) = fileText (rows.map (rowText doubleText)) := by
    rw [fileText, List.flatMap_map]
    rfl
  rw [lines, Tokenizer.getlines_fileText]
  intro line member
  obtain ⟨row, _, rfl⟩ := List.mem_map.mp member
  exact newline_notMem_rowText oneLine row

end Lines

end Adai.Parquet
