import Adai.Fetching.HfStrings
import Adai.Parquet.RowText

/-! # Converted rows read back

The Parquet converter writes a row of strings as a JSON object, and the ingestion
finds a column's string in it by the column's name. Exactly the texts without hidden
control bytes come back through a column, provided that the name, looked for in quotes
anywhere in the line, is found where the column is
(`Adai.Fetching.cells_read_back_iff`).
-/

namespace Adai.Fetching

open Parquet FirstOccurrence
open Tokenizer (ascii isSpace)

/-! ## Unescaping what was escaped -/

/-- No byte of the text is written as a unicode escape. -/
def IsVisible (text : Bytes) : Prop := ∀ c ∈ text, ¬IsHidden c

/-- What is read for a byte. -/
def readByte (c : UInt8) : Bytes := if IsHidden c then jsonEscapeByte c else [c]

theorem hfUnescape_plain {c : UInt8} (other : c ≠ 0x5C) (rest : Bytes) :
    hfUnescape (c :: rest) = c :: hfUnescape rest := by
  cases rest with
  | nil => rfl
  | cons d rest => simp [hfUnescape, other]

theorem hfUnescape_jsonEscape (text : Bytes) :
    hfUnescape (jsonEscape text) = text.flatMap readByte := by
  induction text with
  | nil => rfl
  | cons c text hypothesis =>
    rw [jsonEscape_cons, List.flatMap_cons, ← hypothesis]
    obtain ⟨letter, spelt, listed⟩ | ⟨hidden, high, low, spelt, highs, lows⟩ | ⟨visible, spelt, _, other⟩ :=
      jsonEscapeByte_cases c
    · have visible : readByte c = hfUnescapeByte letter := by
        simp only [List.mem_cons, Prod.mk.injEq, List.not_mem_nil, or_false] at listed
        obtain ⟨rfl, rfl⟩ | ⟨rfl, rfl⟩ | ⟨rfl, rfl⟩ | ⟨rfl, rfl⟩ | ⟨rfl, rfl⟩ := listed <;> decide
      rw [spelt, visible]
      rfl
    · rw [spelt, readByte, if_pos hidden, spelt]
      have zero (rest : Bytes) : hfUnescape (0x30 :: rest) = 0x30 :: hfUnescape rest :=
        hfUnescape_plain (by decide) rest
      calc hfUnescape (0x5C :: 0x75 :: 0x30 :: 0x30 :: high :: low :: jsonEscape text)
          = 0x5C :: 0x75 :: hfUnescape (0x30 :: 0x30 :: high :: low :: jsonEscape text) := rfl
        _ = [0x5C, 0x75, 0x30, 0x30, high, low] ++ hfUnescape (jsonEscape text) := by
          rw [zero, zero, hfUnescape_plain highs.2, hfUnescape_plain lows.2]
          rfl
    · rw [spelt, readByte, if_neg visible]
      exact hfUnescape_plain other _

theorem length_le_length_flatMap_readByte (text : Bytes) :
    text.length ≤ (text.flatMap readByte).length := by
  induction text with
  | nil => exact Nat.le_refl 0
  | cons c text hypothesis =>
    have byte : 1 ≤ (readByte c).length := by
      unfold readByte
      split
      case isTrue hidden =>
        obtain ⟨letter, spelt, _⟩ | ⟨_, high, low, spelt, _⟩ | ⟨_, spelt, _⟩ := jsonEscapeByte_cases c
        all_goals simp [spelt]
      case isFalse => simp
    rw [List.flatMap_cons, List.length_append, List.length_cons]
    omega

/-- Exactly the visible texts survive escaping and unescaping. -/
theorem hfUnescape_jsonEscape_eq_iff (text : Bytes) :
    hfUnescape (jsonEscape text) = text ↔ IsVisible text := by
  rw [hfUnescape_jsonEscape]
  induction text with
  | nil => simp [IsVisible]
  | cons c text hypothesis =>
    rw [List.flatMap_cons, IsVisible, List.forall_mem_cons, ← IsVisible, ← hypothesis]
    by_cases hidden : IsHidden c
    · -- The escape is six bytes long, and no later byte makes up for it.
      have longer : 2 ≤ (readByte c).length := by
        obtain ⟨letter, spelt, _⟩ | ⟨_, high, low, spelt, _⟩ | ⟨visible, _⟩ := jsonEscapeByte_cases c
        · simp [readByte, hidden, spelt]
        · simp [readByte, hidden, spelt]
        · exact absurd hidden visible
      have rest := length_le_length_flatMap_readByte text
      constructor
      · intro same
        have lengths := congrArg List.length same
        rw [List.length_append, List.length_cons] at lengths
        omega
      · intro visible
        exact absurd hidden visible.1
    · simp [readByte, hidden]

/-- An escaped string ends at its closing quote. -/
theorem rawString_jsonEscape (text rest : Bytes) :
    rawString (jsonEscape text ++ 0x22 :: rest) = (jsonEscape text, rest) := by
  induction text with
  | nil => exact rawString_quote rest
  | cons c text hypothesis =>
    obtain ⟨letter, spelt, _⟩ | ⟨_, high, low, spelt, highs, lows⟩ | ⟨_, spelt, quote, other⟩ :=
      jsonEscapeByte_cases c
    · rw [jsonEscape_cons, spelt, List.append_assoc, List.cons_append, List.singleton_append,
        rawString_escape, hypothesis]
      rfl
    · have digits : ∀ d ∈ [0x30, 0x30, high, low], d ≠ 0x22 ∧ d ≠ 0x5C := by
        simp [highs, lows]
      calc rawString (jsonEscape (c :: text) ++ 0x22 :: rest)
          = rawString (0x5C :: 0x75 :: ([0x30, 0x30, high, low] ++
              (jsonEscape text ++ 0x22 :: rest))) := by
            rw [jsonEscape_cons, spelt, List.append_assoc]
            rfl
        _ = (jsonEscape (c :: text), rest) := by
            rw [rawString_escape, rawString_append digits, hypothesis, jsonEscape_cons, spelt]
            rfl
    · rw [jsonEscape_cons, spelt, List.append_assoc, List.singleton_append,
        rawString_plain quote other, hypothesis]
      rfl

/-! ## Rows of strings -/

section Rows

variable (doubleText : Nat → Bytes)

/-- A column's name and the row's text in it. -/
abbrev NamedText := Bytes × Bytes

/-- The line of a row of strings. -/
def textRow (row : List NamedText) : Bytes :=
  rowText doubleText (row.map fun column => (column.1, some (.string column.2)))

/-- The line up to the end of a column's name, after the earlier columns. -/
def lineBefore (earlier : List NamedText) (name : Bytes) : Bytes :=
  0x7B :: (earlier.flatMap (fun column =>
    quoted column.1 ++ 0x3A :: (quoted column.2 ++ [0x2C])) ++ quoted name)

/-- The first place where the name stands in quotes is followed by no colon before the
column's own. -/
def FoundInPlace (earlier : List NamedText) (name : Bytes) : Prop :=
  ∃ rest ∈ after (quotedKey name) (lineBefore earlier name), 0x3A ∉ rest

instance (earlier : List NamedText) (name : Bytes) : Decidable (FoundInPlace earlier name) :=
  inferInstanceAs (Decidable (∃ rest ∈ after (quotedKey name) (lineBefore earlier name), _ ∉ rest))

theorem intercalate_append_cons {α : Type*} (joint middle : List α) (front back : List (List α)) :
    joint.intercalate (front ++ middle :: back) =
      front.flatMap (fun piece => piece ++ joint) ++ middle ++
        back.flatMap fun piece => joint ++ piece := by
  induction front with
  | nil => exact intercalate_cons joint middle back
  | cons piece front hypothesis =>
    rw [List.cons_append, List.intercalate_cons_of_ne_nil (by simp), hypothesis]
    simp

/-- What stands around a column's text does not depend on it. -/
theorem textRow_eq (earlier later : List NamedText) (name : Bytes) :
    ∃ rest, ∀ text, textRow doubleText (earlier ++ (name, text) :: later) =
      lineBefore earlier name ++ 0x3A :: 0x22 :: (jsonEscape text ++ 0x22 :: rest) := by
  refine ⟨later.flatMap (fun column =>
    0x2C :: (quoted column.1 ++ 0x3A :: quoted column.2)) ++ [0x7D], fun text => ?_⟩
  simp only [textRow, rowText, List.map_append, List.map_cons, intercalate_append_cons,
    List.flatMap_map, memberJson, cellJson, lineBefore, List.cons_append, List.append_assoc,
    List.nil_append]
  rw [quoted.eq_def text]
  simp only [List.cons_append, List.append_assoc, List.nil_append]

/-! ## Reading a column -/

/-- Where the name is found in place, the column's own string is read. -/
theorem hfExtractString_of_foundInPlace {earlier : List NamedText} {name : Bytes}
    (place : FoundInPlace earlier name) (later : List NamedText) (text : Bytes) :
    hfExtractString (textRow doubleText (earlier ++ (name, text) :: later)) name =
      hfUnescape (jsonEscape text) := by
  obtain ⟨between, found, silent⟩ := place
  obtain ⟨rest, line⟩ := textRow_eq doubleText earlier later name
  have value : afterKey (textRow doubleText (earlier ++ (name, text) :: later)) name =
      some (0x22 :: (jsonEscape text ++ 0x22 :: rest)) := by
    rw [line, afterKey, after_append found, Option.bind_some, after_singleton_append silent]
  have quote : isSpace 0x22 = false := by decide
  simp only [hfExtractString, value, hfStringAt, List.dropWhile_cons, quote, Bool.false_eq_true,
    if_false, if_true, rawString_jsonEscape]

/-- A text that needs no escapes, of any length. -/
def plainText (n : Nat) : Bytes := List.replicate n 0x61

theorem isVisible_plainText (n : Nat) : IsVisible (plainText n) := by
  intro c member
  rw [List.eq_of_mem_replicate member]
  decide

theorem jsonEscape_plainText (n : Nat) : jsonEscape (plainText n) = plainText n := by
  induction n with
  | zero => rfl
  | succ n hypothesis =>
    rw [plainText, List.replicate_succ, jsonEscape_cons, ← plainText, hypothesis]
    rfl

/-- A key that is not seen before a plain text has its colon behind the text. -/
theorem length_le_of_after_colon {needle before rest between value : Bytes} {n : Nat}
    (absent : after needle before = none)
    (seen : after needle (before ++ 0x3A :: 0x22 :: (plainText n ++ 0x22 :: rest)) = some between)
    (follows : after [0x3A] between = some value) : value.length ≤ rest.length := by
  have shorter := length_lt_of_after_append absent seen
  let line := 0x22 :: (plainText n ++ [0x22])
  have silent : 0x3A ∉ line := by
    simp [line, plainText]
  have whole : before ++ 0x3A :: 0x22 :: (plainText n ++ 0x22 :: rest) =
      (before ++ [0x3A]) ++ (line ++ rest) := by
    simp [line]
  rw [whole] at seen
  have suffix : between <:+ (before ++ [0x3A]) ++ (line ++ rest) :=
    (List.suffix_append _ _).trans (suffix_of_after seen)
  have inside : between <:+ line ++ rest := by
    apply List.suffix_of_suffix_length_le suffix (List.suffix_append _ _)
    simp only [List.length_cons, List.length_append, line, List.length_nil] at shorter ⊢
    omega
  obtain within | ⟨front, split⟩ :=
    List.suffix_or_suffix_of_suffix inside (List.suffix_append line rest)
  · have colon := (suffix_of_after follows).length_le
    have smaller := within.length_le
    simp only [List.length_append, List.length_cons, List.length_nil] at colon
    omega
  · obtain ⟨unread, joined⟩ := inside
    rw [← split, ← List.append_assoc] at joined
    have cut := List.append_cancel_right joined
    have quiet : 0x3A ∉ front := by
      intro member
      exact silent (cut ▸ List.mem_append_right unread member)
    rw [← split] at follows
    exact (length_lt_of_after_singleton quiet follows).le

/-- What is read before the text of a column, or behind a plain one, is no longer than the
rest of the line. -/
theorem length_hfExtractString {before rest key : Bytes} {n : Nat}
    (misplaced : ¬∃ between ∈ after (quotedKey key) before, 0x3A ∉ between) :
    (hfExtractString (before ++ 0x3A :: 0x22 :: (plainText n ++ 0x22 :: rest)) key).length ≤
      before.length + rest.length := by
  cases found : after (quotedKey key) before with
  | some between =>
    have colon : 0x3A ∈ between := by
      by_contra silent
      exact misplaced ⟨between, found, silent⟩
    obtain ⟨tail, follows⟩ := exists_after_of_mem colon
    have shorter := (suffix_of_after found).length_le
    have behind := (suffix_of_after follows).length_le
    have bound := length_hfStringAt_append tail (plainText n ++ 0x22 :: rest)
    rw [hfExtractString, afterKey, after_append found, Option.bind_some, after_append follows]
    simp only [List.length_append, List.length_cons, List.length_nil] at shorter behind bound ⊢
    omega
  | none =>
    cases value : afterKey (before ++ 0x3A :: 0x22 :: (plainText n ++ 0x22 :: rest)) key with
    | none => simp [hfExtractString, value]
    | some value_ =>
      obtain ⟨between, seen, follows⟩ := Option.bind_eq_some_iff.mp value
      have bound := length_hfStringAt value_
      have short : value_.length ≤ rest.length :=
        length_le_of_after_colon found seen follows
      simp only [hfExtractString, value]
      omega

/-- Where a column's name is found in place, exactly the visible texts come back through it;
where it is not, some visible text does not come back. -/
theorem cells_read_back_iff (earlier later : List NamedText) (name : Bytes) :
    (FoundInPlace earlier name → ∀ text,
      hfExtractString (textRow doubleText (earlier ++ (name, text) :: later)) name = text ↔
        IsVisible text) ∧
    (¬FoundInPlace earlier name → ∃ text, IsVisible text ∧
      hfExtractString (textRow doubleText (earlier ++ (name, text) :: later)) name ≠ text) := by
  refine ⟨fun place text => ?_, fun misplaced => ?_⟩
  · rw [hfExtractString_of_foundInPlace doubleText place later text]
    exact hfUnescape_jsonEscape_eq_iff text
  · obtain ⟨rest, line⟩ := textRow_eq doubleText earlier later name
    -- A text longer than the rest of the line cannot be read off the rest.
    let n := (lineBefore earlier name).length + rest.length + 1
    refine ⟨plainText n, isVisible_plainText n, fun same => ?_⟩
    have bound : (hfExtractString (lineBefore earlier name ++
        0x3A :: 0x22 :: (plainText n ++ 0x22 :: rest)) name).length ≤
        (lineBefore earlier name).length + rest.length := length_hfExtractString misplaced
    rw [line, jsonEscape_plainText] at same
    rw [same, plainText, List.length_replicate] at bound
    omega

end Rows

/-- A text that is another column's name: the title is read for the label. -/
theorem cells_read_back_fails :
    ¬∀ row : List NamedText, (row.map Prod.fst).Nodup → ∀ column ∈ row,
      hfExtractString (textRow (fun _ => []) row) column.1 = column.2 := by
  intro all
  have read := all [(ascii "text", ascii "label"), (ascii "title", ascii "x"),
    (ascii "label", ascii "y")] (by decide) (ascii "label", ascii "y") (by decide)
  exact absurd read (by decide)

end Adai.Fetching
