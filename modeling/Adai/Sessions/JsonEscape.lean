import Mathlib.Tactic.IntervalCases
import Adai.Math.JsonStrings
import Adai.Tokenizer.Units

/-! # Strings in the replies

`ChatbotAPI::escape_json_string` writes a string of bytes into a JSON reply. It copies
well-formed UTF-8, escapes quotes, backslashes and control characters, and writes an
escape for U+FFFD in place of each byte that starts no well-formed sequence. In quotes
the result is a JSON string in UTF-8, whose value is the string with those bytes
replaced (`escapeJsonString_exact`).
-/

namespace Adai.Sessions

open Tokenizer (Bytes ascii)
open String (utf8EncodeChar)
open JsonStrings

/-! ## The escaper -/

def hexLetter (n : UInt8) : UInt8 := (ascii "0123456789abcdef").getD n.toNat 0

/-- What is written for a byte below `0x80`. -/
def escapeAscii (c : UInt8) : Bytes :=
  if c = 0x22 then ascii "\\\""
  else if c = 0x5C then ascii "\\\\"
  else if c = 0x0A then ascii "\\n"
  else if c = 0x0D then ascii "\\r"
  else if c = 0x09 then ascii "\\t"
  else if c = 0x08 then ascii "\\b"
  else if c = 0x0C then ascii "\\f"
  else if c < 0x20 then ascii "\\u00" ++ [hexLetter (c >>> 4), hexLetter (c &&& 0x0F)]
  else [c]

/-- The length that a first byte announces, and the bits of the code point it has. -/
def sequenceStart (c : UInt8) : Nat × Nat :=
  if c &&& 0xE0 = 0xC0 then (2, (c &&& 0x1F).toNat)
  else if c &&& 0xF0 = 0xE0 then (3, (c &&& 0x0F).toNat)
  else if c &&& 0xF8 = 0xF0 then (4, (c &&& 0x07).toNat)
  else (0, 0)

/-- The code point with the bits of the bytes that continue it. -/
def readContinuations (cp : Nat) : Bytes → Option Nat
  | [] => some cp
  | cc :: rest =>
    if cc &&& 0xC0 = 0x80 then readContinuations (cp <<< 6 ||| (cc &&& 0x3F).toNat) rest
    else none

/-- The length of the well-formed sequence that a byte starts. -/
def sequenceLength (c : UInt8) (rest : Bytes) : Option Nat :=
  let len := (sequenceStart c).1
  if 0 < len ∧ len ≤ rest.length + 1 then
    match readContinuations (sequenceStart c).2 (rest.take (len - 1)) with
    | some cp =>
      if ¬(len = 2 ∧ cp < 0x80) ∧ ¬(len = 3 ∧ cp < 0x800) ∧ ¬(len = 4 ∧ cp < 0x10000) ∧
          ¬(0xD800 ≤ cp ∧ cp ≤ 0xDFFF) ∧ cp ≤ 0x10FFFF then
        some len
      else none
    | none => none
  else none

/-- One round of the scanner for each character or ill-formed byte; `fuel` is the
number of bytes left. -/
def escapeFrom : Nat → Bytes → Bytes
  | 0, _ => []
  | _, [] => []
  | fuel + 1, c :: rest =>
    if c < 0x80 then escapeAscii c ++ escapeFrom fuel rest
    else
      match sequenceLength c rest with
      | some len => c :: rest.take (len - 1) ++ escapeFrom fuel (rest.drop (len - 1))
      | none => ascii "\\ufffd" ++ escapeFrom fuel rest

def escapeJsonString (s : Bytes) : Bytes := escapeFrom s.length s

/-! ## Well-formed sequences -/

/-- A byte that continues a sequence. -/
def continuation (digit : Nat) : UInt8 := UInt8.ofNat (digit + 0x80)

theorem sequenceStart_eq (c : UInt8) : sequenceStart c = (0, 0) ∨
    (∃ digit < 32, c = UInt8.ofNat (digit + 0xC0) ∧ sequenceStart c = (2, digit)) ∨
    (∃ digit < 16, c = UInt8.ofNat (digit + 0xE0) ∧ sequenceStart c = (3, digit)) ∨
    ∃ digit < 8, c = UInt8.ofNat (digit + 0xF0) ∧ sequenceStart c = (4, digit) := by
  have bytes : ∀ b : BitVec 8, sequenceStart ⟨b⟩ = (0, 0) ∨
      (∃ digit < 32, ⟨b⟩ = UInt8.ofNat (digit + 0xC0) ∧ sequenceStart ⟨b⟩ = (2, digit)) ∨
      (∃ digit < 16, ⟨b⟩ = UInt8.ofNat (digit + 0xE0) ∧ sequenceStart ⟨b⟩ = (3, digit)) ∨
      ∃ digit < 8, ⟨b⟩ = UInt8.ofNat (digit + 0xF0) ∧ sequenceStart ⟨b⟩ = (4, digit) := by
    decide +kernel
  exact bytes c.toBitVec

/-- The first bytes of the sequences of each length. -/
theorem sequenceStart_lead :
    (∀ digit < 32, sequenceStart (UInt8.ofNat (digit + 0xC0)) = (2, digit)) ∧
    (∀ digit < 16, sequenceStart (UInt8.ofNat (digit + 0xE0)) = (3, digit)) ∧
    ∀ digit < 8, sequenceStart (UInt8.ofNat (digit + 0xF0)) = (4, digit) := by
  decide +kernel

/-- The bytes with the bits of a continuation, and the digit that each holds. -/
theorem continuation_bytes :
    (∀ digit < 64,
      continuation digit &&& 0xC0 = 0x80 ∧ (continuation digit &&& 0x3F).toNat = digit) ∧
    ∀ b : BitVec 8, (⟨b⟩ : UInt8) &&& 0xC0 = 0x80 →
      ∃ digit < 64, (⟨b⟩ : UInt8) = continuation digit := by
  decide +kernel

theorem continuation_bits {digit : Nat} (small : digit < 64) :
    continuation digit &&& 0xC0 = 0x80 ∧ (continuation digit &&& 0x3F).toNat = digit :=
  continuation_bytes.1 digit small

theorem eq_continuation (cc : UInt8) (continues : cc &&& 0xC0 = 0x80) :
    ∃ digit < 64, cc = continuation digit :=
  continuation_bytes.2 cc.toBitVec continues

/-- Reading continuations reads digits in base 64. -/
theorem readContinuations_eq_some {cp value : Nat} {bytes : Bytes} :
    readContinuations cp bytes = some value ↔
      ∃ digits : List Nat, (∀ digit ∈ digits, digit < 64) ∧ bytes = digits.map continuation ∧
        value = digits.foldl (fun cp digit => cp * 64 + digit) cp := by
  have shift (cp digit : Nat) (bound : digit < 64) : cp <<< 6 ||| digit = cp * 64 + digit := by
    rw [← Nat.shiftLeft_add_eq_or_of_lt bound, Nat.shiftLeft_eq]
  induction bytes generalizing cp with
  | nil =>
      constructor
      · intro read
        exact ⟨[], by simp, rfl, (Option.some.inj read).symm⟩
      · rintro ⟨digits, _, none, rfl⟩
        rw [List.map_eq_nil_iff.mp none.symm]
        rfl
  | cons cc rest ih =>
      unfold readContinuations
      constructor
      · intro read
        split at read
        · rename_i continues
          obtain ⟨digit, small, rfl⟩ := eq_continuation cc continues
          obtain ⟨digits, bounds, rfl, rfl⟩ := ih.mp read
          refine ⟨digit :: digits, ?_, rfl, ?_⟩
          · intro other member
            rcases List.mem_cons.mp member with rfl | later
            · exact small
            · exact bounds other later
          · rw [(continuation_bits small).2, shift cp digit small]
            rfl
        · cases read
      · rintro ⟨digits, bounds, spells, rfl⟩
        cases digits with
        | nil => cases spells
        | cons digit digits =>
            obtain ⟨rfl, rfl⟩ := List.cons.inj spells
            have small := bounds digit List.mem_cons_self
            rw [if_pos (continuation_bits small).1, (continuation_bits small).2,
              shift cp digit small]
            exact ih.mpr ⟨digits, fun other member => bounds other (List.mem_cons_of_mem _ member),
              rfl, rfl⟩

theorem utf8EncodeChar_two {c : Char} (low : 0x80 ≤ c.toNat) (high : c.toNat ≤ 0x7FF) :
    utf8EncodeChar c =
      UInt8.ofNat (c.toNat / 64 + 0xC0) :: [c.toNat % 64].map continuation := by
  have value : c.val.toNat = c.toNat := rfl
  unfold utf8EncodeChar
  simp only [value]
  rw [if_neg (by omega), if_pos high, Nat.mod_eq_of_lt (by omega)]
  rfl

theorem utf8EncodeChar_three {c : Char} (low : 0x800 ≤ c.toNat) (high : c.toNat ≤ 0xFFFF) :
    utf8EncodeChar c = UInt8.ofNat (c.toNat / 4096 + 0xE0) ::
      [c.toNat / 64 % 64, c.toNat % 64].map continuation := by
  have value : c.val.toNat = c.toNat := rfl
  unfold utf8EncodeChar
  simp only [value]
  rw [if_neg (by omega), if_neg (by omega), if_pos high, Nat.mod_eq_of_lt (a := c.toNat / 4096) (by omega)]
  rfl

theorem utf8EncodeChar_four {c : Char} (low : 0x10000 ≤ c.toNat) :
    utf8EncodeChar c = UInt8.ofNat (c.toNat / 262144 + 0xF0) ::
      [c.toNat / 4096 % 64, c.toNat / 64 % 64, c.toNat % 64].map continuation := by
  have value : c.val.toNat = c.toNat := rfl
  have top : c.toNat ≤ 0x10FFFF := by
    rcases c.valid with small | large
    · exact (show c.toNat < 0xD800 from small).le.trans (by omega)
    · exact Nat.le_of_lt_succ large.2
  unfold utf8EncodeChar
  simp only [value]
  rw [if_neg (by omega), if_neg (by omega), if_neg (by omega),
    Nat.mod_eq_of_lt (a := c.toNat / 262144) (by omega)]
  rfl

theorem exists_char {n : Nat} (valid : n.isValidChar) : ∃ c : Char, c.toNat = n :=
  ⟨Char.ofNatAux n valid, rfl⟩

/-- The sequences that the scanner copies are characters above U+007F. -/
theorem char_of_sequenceLength {c : UInt8} {rest : Bytes} {len : Nat}
    (found : sequenceLength c rest = some len) :
    ∃ char : Char, 0x80 ≤ char.toNat ∧ utf8EncodeChar char = c :: rest.take (len - 1) := by
  unfold sequenceLength at found
  simp only at found
  split at found
  · rename_i fits
    split at found
    · rename_i cp read
      split at found
      · rename_i allowed
        obtain rfl := Option.some.inj found
        obtain ⟨digits, bounds, bytes, value⟩ := readContinuations_eq_some.mp read
        have count := congrArg List.length bytes
        rw [List.length_take, List.length_map] at count
        obtain ⟨char, rfl⟩ := exists_char (n := cp) (by simp only [Nat.isValidChar]; omega)
        refine ⟨char, ?_⟩
        rcases sequenceStart_eq c with none | ⟨digit, small, rfl, start⟩ |
          ⟨digit, small, rfl, start⟩ | ⟨digit, small, rfl, start⟩
        · rw [none] at fits
          omega
        · rw [start] at fits count value allowed
          obtain ⟨d, rfl⟩ := List.length_eq_one_iff.mp (show digits.length = 1 by omega)
          have := bounds d (by simp)
          simp only [List.foldl_cons, List.foldl_nil] at value
          refine ⟨by omega, ?_⟩
          rw [bytes, utf8EncodeChar_two (by omega) (by omega),
            show char.toNat / 64 = digit by omega, show char.toNat % 64 = d by omega]
        · rw [start] at fits count value allowed
          obtain ⟨d, e, rfl⟩ := List.length_eq_two.mp (show digits.length = 2 by omega)
          have := bounds d (by simp)
          have := bounds e (by simp)
          simp only [List.foldl_cons, List.foldl_nil] at value
          refine ⟨by omega, ?_⟩
          rw [bytes, utf8EncodeChar_three (by omega) (by omega),
            show char.toNat / 4096 = digit by omega, show char.toNat / 64 % 64 = d by omega,
            show char.toNat % 64 = e by omega]
        · rw [start] at fits count value allowed
          obtain ⟨d, e, f, rfl⟩ := List.length_eq_three.mp (show digits.length = 3 by omega)
          have := bounds d (by simp)
          have := bounds e (by simp)
          have := bounds f (by simp)
          simp only [List.foldl_cons, List.foldl_nil] at value
          refine ⟨by omega, ?_⟩
          rw [bytes, utf8EncodeChar_four (by omega), show char.toNat / 262144 = digit by omega,
            show char.toNat / 4096 % 64 = d by omega, show char.toNat / 64 % 64 = e by omega,
            show char.toNat % 64 = f by omega]
      · cases found
    · cases found
  · cases found

/-- The continuations of a character that the bytes start with are read. -/
theorem readContinuations_digits {cp : Nat} (digits : List Nat) (more : Bytes)
    (bounds : ∀ digit ∈ digits, digit < 64) :
    readContinuations cp ((digits.map continuation ++ more).take digits.length) =
      some (digits.foldl (fun cp digit => cp * 64 + digit) cp) := by
  rw [List.take_left' (by rw [List.length_map])]
  exact readContinuations_eq_some.mpr ⟨digits, bounds, rfl, rfl⟩

/-- Every character above U+007F is found. -/
theorem sequenceLength_char {char : Char} {c : UInt8} {rest more : Bytes}
    (large : 0x80 ≤ char.toNat) (starts : utf8EncodeChar char ++ more = c :: rest) :
    (sequenceLength c rest).isSome := by
  have valid : char.toNat < 0xD800 ∨ 0xDFFF < char.toNat ∧ char.toNat < 0x110000 := char.valid
  have found {len lead : Nat} (digits : List Nat) (start : sequenceStart c = (len, lead))
      (tail : rest = digits.map continuation ++ more) (length : len = digits.length + 1)
      (bounds : ∀ digit ∈ digits, digit < 64)
      (value : digits.foldl (fun cp digit => cp * 64 + digit) lead = char.toNat)
      (shortest : ¬(len = 2 ∧ char.toNat < 0x80) ∧ ¬(len = 3 ∧ char.toNat < 0x800) ∧
        ¬(len = 4 ∧ char.toNat < 0x10000)) :
      (sequenceLength c rest).isSome := by
    unfold sequenceLength
    simp only [start, length, tail, Nat.add_sub_cancel]
    rw [if_pos (by simp), readContinuations_digits digits more bounds, value]
    simp only
    rw [if_pos (by omega)]
    rfl
  by_cases two : char.toNat ≤ 0x7FF
  · rw [utf8EncodeChar_two large two] at starts
    obtain ⟨rfl, rfl⟩ := List.cons.inj starts
    exact found [char.toNat % 64] (sequenceStart_lead.1 _ (by omega)) rfl rfl (by simp; omega)
      (by simp only [List.foldl_cons, List.foldl_nil]; omega) (by omega)
  by_cases three : char.toNat ≤ 0xFFFF
  · rw [utf8EncodeChar_three (by omega) three] at starts
    obtain ⟨rfl, rfl⟩ := List.cons.inj starts
    exact found [char.toNat / 64 % 64, char.toNat % 64] (sequenceStart_lead.2.1 _ (by omega)) rfl rfl
      (by simp; omega) (by simp only [List.foldl_cons, List.foldl_nil]; omega) (by omega)
  · rw [utf8EncodeChar_four (by omega)] at starts
    obtain ⟨rfl, rfl⟩ := List.cons.inj starts
    exact found [char.toNat / 4096 % 64, char.toNat / 64 % 64, char.toNat % 64]
      (sequenceStart_lead.2.2 _ (by omega)) rfl rfl (by simp; omega)
      (by simp only [List.foldl_cons, List.foldl_nil]; omega) (by omega)

/-! ## What the scanner writes -/

theorem utf8EncodeChar_one {c : Char} (small : c.toNat < 0x80) :
    utf8EncodeChar c = [UInt8.ofNat c.toNat] :=
  if_pos (Nat.le_of_lt_succ small)

/-- A byte below `0x80` is written as a spelling of its character. -/
theorem escapeAscii_spells {c : UInt8} (small : c < 0x80) :
    ∃ char piece, utf8EncodeChar char = [c] ∧ escapeAscii c = utf8 piece ∧
      JsonChar piece char := by
  -- The three ways of RFC 8259 to write such a character, checked for each byte.
  have bytes : ∀ b : BitVec 8, (⟨b⟩ : UInt8) < 0x80 →
      let char := Char.ofNat b.toNat
      let piece := (escapeAscii ⟨b⟩).map fun byte => Char.ofNat byte.toNat
      (utf8EncodeChar char = [⟨b⟩] ∧ escapeAscii ⟨b⟩ = utf8 piece) ∧
        (piece = [char] ∧ 0x20 ≤ char.toNat ∧ char ≠ '"' ∧ char ≠ '\\' ∨
          piece = ['\\', piece.getD 1 'u'] ∧ (piece.getD 1 'u', char) ∈ escapes ∨
          piece = '\\' :: 'u' :: piece.drop 2 ∧ hex4 (piece.drop 2) = some char.toNat) := by
    decide +kernel
  obtain ⟨⟨isChar, written⟩, spelled⟩ := bytes c.toBitVec small
  refine ⟨_, _, isChar, written, ?_⟩
  rcases spelled with ⟨piece, printable, quote, backslash⟩ | ⟨piece, listed⟩ | ⟨piece, spells⟩
  · rw [piece]
    exact .unescaped printable quote backslash
  · rw [piece]
    exact .escape listed
  · rw [piece]
    exact .unicode spells

/-- The escape for an ill-formed byte stands for the replacement character. -/
theorem replacement_spells :
    ∃ piece, ascii "\\ufffd" = utf8 piece ∧ JsonChar piece replacement :=
  ⟨['\\', 'u', 'f', 'f', 'f', 'd'], rfl, .unicode rfl⟩

/-- The text written for a string of bytes spells the characters that repair it. -/
theorem escapeFrom_spells {fuel : Nat} {s : Bytes} (enough : s.length ≤ fuel) :
    ∃ pieces chars, escapeFrom fuel s = utf8 pieces.flatten ∧ List.Forall₂ JsonChar pieces chars ∧
      Repairs s chars := by
  induction fuel generalizing s with
  | zero =>
      obtain rfl : s = [] := List.eq_nil_of_length_eq_zero (Nat.le_zero.mp enough)
      exact ⟨[], [], rfl, .nil, .nil⟩
  | succ fuel ih =>
      cases s with
      | nil => exact ⟨[], [], rfl, .nil, .nil⟩
      | cons c rest =>
          have shorter (n : Nat) : (rest.drop n).length ≤ fuel := by
            simp only [List.length_cons, List.length_drop] at enough ⊢
            omega
          have joins (piece : List Char) (pieces : List (List Char)) :
              utf8 (piece :: pieces).flatten = utf8 piece ++ utf8 pieces.flatten := by
            rw [List.flatten_cons, utf8_append]
          unfold escapeFrom
          split
          · rename_i small
            obtain ⟨char, piece, isChar, written, spells⟩ := escapeAscii_spells small
            obtain ⟨pieces, chars, later, spelled, repairs⟩ := ih (shorter 0)
            refine ⟨piece :: pieces, char :: chars, ?_, .cons spells spelled, ?_⟩
            · rw [joins, written, ← later, List.drop_zero]
            · have := Repairs.char char repairs
              rwa [isChar] at this
          · rename_i large
            split
            · rename_i len found
              obtain ⟨char, above, isChar⟩ := char_of_sequenceLength found
              obtain ⟨pieces, chars, later, spelled, repairs⟩ := ih (shorter (len - 1))
              refine ⟨[char] :: pieces, char :: chars, ?_, .cons (.unescaped ?_ ?_ ?_) spelled, ?_⟩
              · rw [joins, utf8_cons, isChar, later]
                simp [utf8]
              · omega
              · rintro rfl
                simp at above
              · rintro rfl
                simp at above
              · have := Repairs.char char repairs
                rwa [isChar, List.cons_append, List.take_append_drop] at this
            · rename_i none
              obtain ⟨piece, written, spells⟩ := replacement_spells
              obtain ⟨pieces, chars, later, spelled, repairs⟩ := ih (shorter 0)
              refine ⟨piece :: pieces, replacement :: chars, ?_, .cons spells spelled,
                .bad c (fun char starts => ?_) repairs⟩
              · rw [joins, written, ← later, List.drop_zero]
              · obtain ⟨more, starts⟩ := starts
                by_cases single : char.toNat < 0x80
                · rw [utf8EncodeChar_one single] at starts
                  obtain ⟨rfl, _⟩ := List.cons.inj starts
                  exact large (by
                    rw [UInt8.lt_iff_toNat_lt, UInt8.toNat_ofNat_of_lt' (by simp only [UInt8.size]; omega)]
                    exact single)
                · have := sequenceLength_char (by omega) starts
                  rw [none] at this
                  cases this

/-- For every string of bytes, the escaped text in quotes is a JSON string in UTF-8. Its
value is the string with each byte that starts no well-formed sequence replaced, and the
string itself if that is valid UTF-8. -/
theorem escapeJsonString_exact (s : Bytes) :
    ∃ chars, Repairs s chars ∧
      (∀ value, Decodes (ascii "\"" ++ escapeJsonString s ++ ascii "\"") value ↔
        value = utf8 chars) ∧
      ((∃ text, s = utf8 text) → utf8 chars = s) := by
  obtain ⟨pieces, chars, written, spelled, repairs⟩ := escapeFrom_spells (Nat.le_refl s.length)
  have decodes : Decodes (ascii "\"" ++ escapeJsonString s ++ ascii "\"") (utf8 chars) := by
    refine ⟨'"' :: (pieces.flatten ++ ['"']), chars, ?_, ⟨pieces, rfl, spelled⟩, rfl⟩
    rw [escapeJsonString, written, utf8_cons, utf8_append, List.append_assoc]
    rfl
  refine ⟨chars, repairs, fun value => ⟨fun other => other.unique decodes, ?_⟩, ?_⟩
  · rintro rfl
    exact decodes
  · rintro ⟨text, rfl⟩
    rw [repairs.unique (repairs_utf8 text)]

end Adai.Sessions
