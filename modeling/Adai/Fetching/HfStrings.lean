import Adai.Math.FirstOccurrence
import Adai.Tokenizer.PreTokenize

/-! # The strings of a downloaded row

The rows of a dataset are scanned by hand: a key is looked for in quotes anywhere in
the row, and what is read is the string behind the next colon, or the strings of the
array behind the next bracket.
-/

namespace Adai.Fetching

open Tokenizer FirstOccurrence

/-! ## Strings -/

def hfUnescapeByte (c : UInt8) : Bytes :=
  if c = 0x6E then [0x0A]
  else if c = 0x74 then [0x09]
  else if c = 0x72 then [0x0D]
  else if c = 0x22 then [0x22]
  else if c = 0x5C then [0x5C]
  else if c = 0x2F then [0x2F]
  else if c = 0x62 then [0x08]
  else if c = 0x66 then [0x0C]
  else [0x5C, c]

def hfUnescape : Bytes → Bytes
  | [] => []
  | [c] => [c]
  | c :: next :: rest =>
      if c = 0x5C then hfUnescapeByte next ++ hfUnescape rest else c :: hfUnescape (next :: rest)

/-- What stands before the closing quote, and what follows it. A backslash takes the next
byte with it. -/
def rawString : Bytes → Bytes × Bytes
  | [] => ([], [])
  | [c] => if c = 0x22 then ([], []) else ([c], [])
  | c :: next :: rest =>
      if c = 0x22 then ([], next :: rest)
      else if c = 0x5C then
        let (raw, after) := rawString rest
        (c :: next :: raw, after)
      else
        let (raw, after) := rawString (next :: rest)
        (c :: raw, after)

def quotedKey (key : Bytes) : Bytes := 0x22 :: (key ++ [0x22])

/-- What follows the first colon behind the first place where the key stands in quotes. -/
def afterKey (json key : Bytes) : Option Bytes :=
  (after (quotedKey key) json).bind fun rest => after [0x3A] rest

/-- The string at the start of `value`, or nothing. -/
def hfStringAt (value : Bytes) : Bytes :=
  match value.dropWhile isSpace with
  | [] => []
  | c :: rest => if c = 0x22 then hfUnescape (rawString rest).1 else []

def hfExtractString (json key : Bytes) : Bytes :=
  match afterKey json key with
  | none => []
  | some value => hfStringAt value

/-! ## Arrays of strings -/

/-- Where the scan for the end of an array is. -/
inductive ScanPlace
  | between
  | inString
  | escaped
  deriving DecidableEq, Repr

/-- The text before the bracket that closes the array; `depth` brackets are open. -/
def arrayText : ScanPlace → Nat → Bytes → Option Bytes
  | _, _, [] => none
  | .escaped, depth, c :: rest => (arrayText .inString depth rest).map (c :: ·)
  | .inString, depth, c :: rest =>
      let place := if c = 0x22 then .between else if c = 0x5C then .escaped else .inString
      (arrayText place depth rest).map (c :: ·)
  | .between, depth, c :: rest =>
      if c = 0x5D then
        if depth = 1 then some [] else (arrayText .between (depth - 1) rest).map (c :: ·)
      else
        let place := if c = 0x22 then .inString else .between
        let depth := if c = 0x5B then depth + 1 else depth
        (arrayText place depth rest).map (c :: ·)

/-- The strings in the text of an array; `fuel` is the number of bytes left. -/
def arrayStrings : Nat → Bytes → List Bytes
  | 0, _ => []
  | _ + 1, [] => []
  | fuel + 1, c :: rest =>
      if c = 0x22 then
        let (raw, after) := rawString rest
        hfUnescape raw :: arrayStrings fuel after
      else arrayStrings fuel rest

def hfExtractStringArray (json key : Bytes) : List Bytes :=
  match (afterKey json key).bind fun value => after [0x5B] value with
  | none => []
  | some rest =>
      match arrayText .between 1 rest with
      | none => []
      | some text => arrayStrings text.length text

/-! ## Reading lengths -/

theorem length_hfUnescapeByte (c : UInt8) : (hfUnescapeByte c).length ≤ 2 := by
  unfold hfUnescapeByte
  split_ifs <;> simp

theorem length_hfUnescape (s : Bytes) : (hfUnescape s).length ≤ s.length := by
  fun_induction hfUnescape s with
  | case1 => simp
  | case2 => simp
  | case3 next rest hypothesis =>
    have front := length_hfUnescapeByte next
    simp only [List.length_append, List.length_cons]
    omega
  | case4 c next rest other hypothesis =>
    simp only [List.length_cons] at hypothesis ⊢
    omega

theorem rawString_quote (rest : Bytes) : rawString (0x22 :: rest) = ([], rest) := by
  cases rest with
  | nil => rfl
  | cons c rest => rfl

theorem rawString_escape (c : UInt8) (rest : Bytes) :
    rawString (0x5C :: c :: rest) = (0x5C :: c :: (rawString rest).1, (rawString rest).2) := rfl

theorem rawString_plain {c : UInt8} (quote : c ≠ 0x22) (backslash : c ≠ 0x5C) (rest : Bytes) :
    rawString (c :: rest) = (c :: (rawString rest).1, (rawString rest).2) := by
  cases rest with
  | nil => simp [rawString, quote]
  | cons d rest => simp [rawString, quote, backslash]

/-- Bytes that are neither quotes nor backslashes are read as they stand. -/
theorem rawString_append {piece : Bytes} (plain : ∀ c ∈ piece, c ≠ 0x22 ∧ c ≠ 0x5C)
    (rest : Bytes) :
    rawString (piece ++ rest) = (piece ++ (rawString rest).1, (rawString rest).2) := by
  induction piece with
  | nil => rfl
  | cons c piece hypothesis =>
    obtain ⟨first, plain⟩ := List.forall_mem_cons.mp plain
    rw [List.cons_append, rawString_plain first.1 first.2, hypothesis plain]
    rfl

theorem length_rawString (s : Bytes) : (rawString s).1.length ≤ s.length := by
  fun_induction rawString s with
  | case1 => simp
  | case2 => simp
  | case3 => simp
  | case4 => simp
  | case5 next rest raw after read other hypothesis =>
    simp only [read, List.length_cons] at hypothesis ⊢
    omega
  | case6 c next rest quote other raw after read hypothesis =>
    simp only [read, List.length_cons] at hypothesis ⊢
    omega

/-- A quote that no backslash precedes ends every string that is open before it. -/
theorem length_rawString_append (front back : Bytes) {c : UInt8} (other : c ≠ 0x5C) :
    (rawString (front ++ c :: 0x22 :: back)).1.length ≤ front.length + 1 := by
  induction front using List.twoStepInduction with
  | nil =>
    by_cases quote : c = 0x22
    · simp [quote, rawString_quote]
    · simp [rawString_plain quote other, rawString_quote]
  | singleton d =>
    by_cases quote : d = 0x22
    · simp [quote, rawString_quote]
    by_cases backslash : d = 0x5C
    · simp [backslash, rawString_escape, rawString_quote]
    · rw [List.singleton_append, rawString_plain quote backslash]
      by_cases quote : c = 0x22
      · simp [quote, rawString_quote]
      · simp [rawString_plain quote other, rawString_quote]
  | cons_cons d e front hypothesis later =>
    by_cases quote : d = 0x22
    · simp [quote, rawString_quote]
    by_cases backslash : d = 0x5C
    · simpa [backslash, rawString_escape] using hypothesis
    · simpa [rawString_plain quote backslash] using later e

theorem length_hfStringAt (value : Bytes) : (hfStringAt value).length ≤ value.length := by
  have dropped := (List.dropWhile_suffix (p := isSpace) (l := value)).length_le
  unfold hfStringAt
  split
  case h_1 => simp
  case h_2 c rest start =>
    rw [start, List.length_cons] at dropped
    split
    · have raw := length_rawString rest
      have read := length_hfUnescape (rawString rest).1
      omega
    · simp

/-- A value that starts before a colon in front of a quote ends there at the latest. -/
theorem length_hfStringAt_append (front back : Bytes) :
    (hfStringAt (front ++ 0x3A :: 0x22 :: back)).length ≤ front.length := by
  have colon : isSpace 0x3A = false := by decide
  have dropped := (List.dropWhile_suffix (p := isSpace) (l := front)).length_le
  unfold hfStringAt
  rw [List.dropWhile_append]
  cases start : front.dropWhile isSpace with
  | nil => simp [colon]
  | cons c rest =>
    rw [start, List.length_cons] at dropped
    simp only [List.isEmpty_cons, Bool.false_eq_true, if_false, List.cons_append]
    split
    · have raw := length_rawString_append rest back (c := 0x3A) (by decide)
      have read := length_hfUnescape (rawString (rest ++ 0x3A :: 0x22 :: back)).1
      omega
    · simp

end Adai.Fetching
