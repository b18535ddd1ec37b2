import Adai.Math.PairMerge

/-! # UTF-8 and JSON strings

UTF-8 as a prefix code (`utf8Code`), what remains of a string of bytes when each byte
that starts no well-formed sequence is replaced (`Repairs`), and the strings of RFC
8259 with the characters they stand for (`JsonString`). Each of the three is
unambiguous: a string of bytes is decoded (`Decodes`) and repaired in at most one way.
-/

namespace JsonStrings

open String (utf8EncodeChar)
open PairMerge (PrefixCode)

/-! ## UTF-8 -/

def utf8 (text : List Char) : List UInt8 := text.flatMap utf8EncodeChar

@[simp] theorem utf8_cons (c : Char) (text : List Char) :
    utf8 (c :: text) = utf8EncodeChar c ++ utf8 text := rfl

@[simp] theorem utf8_append (front back : List Char) :
    utf8 (front ++ back) = utf8 front ++ utf8 back := List.flatMap_append

theorem utf8EncodeChar_ne_nil (c : Char) : utf8EncodeChar c ≠ [] := by
  intro none
  have size := String.length_utf8EncodeChar c
  rw [none] at size
  exact absurd c.utf8Size_pos (by rw [← size]; exact Nat.lt_irrefl 0)

/-- Decoding tells which character a sequence is for. -/
theorem utf8EncodeChar_unique {c d : Char} {front back : List UInt8}
    (same : utf8EncodeChar c ++ front = utf8EncodeChar d ++ back) : c = d := by
  have decoded (c : Char) (rest : List UInt8) :
      (utf8EncodeChar c ++ rest).toByteArray.utf8DecodeChar? 0 = some c := by
    rw [List.toByteArray_append]
    exact ByteArray.utf8DecodeChar?_utf8EncodeChar_append
  have left := decoded c front
  rw [same, decoded d back] at left
  exact (Option.some.inj left).symm

theorem utf8Code : PrefixCode fun bytes => ∃ c, utf8EncodeChar c = bytes where
  ne_nil := by
    rintro _ ⟨c, rfl⟩
    exact utf8EncodeChar_ne_nil c
  unique := by
    rintro _ _ front back ⟨c, rfl⟩ ⟨d, rfl⟩ same
    rw [utf8EncodeChar_unique same]

theorem utf8_injective {front back : List Char} (same : utf8 front = utf8 back) :
    front = back := by
  have pieces := utf8Code.flatten_injective (f := front.map utf8EncodeChar)
    (g := back.map utf8EncodeChar) (by simp) (by simp) (by simpa only [utf8, List.flatMap_def] using same)
  refine List.map_injective_iff.mpr (fun c d same => ?_) pieces
  exact utf8EncodeChar_unique (congrArg (· ++ []) same)

/-! ## Replacing ill-formed bytes -/

/-- The replacement character. -/
def replacement : Char := '\uFFFD'

/-- Well-formed sequences stand for their characters, and each byte that starts none
for the replacement character. -/
inductive Repairs : List UInt8 → List Char → Prop
  | nil : Repairs [] []
  | char (c : Char) {rest : List UInt8} {text : List Char} (later : Repairs rest text) :
      Repairs (utf8EncodeChar c ++ rest) (c :: text)
  | bad (byte : UInt8) {rest : List UInt8} {text : List Char}
      (starts : ∀ c, ¬ (utf8EncodeChar c).IsPrefix (byte :: rest)) (later : Repairs rest text) :
      Repairs (byte :: rest) (replacement :: text)

/-- UTF-8 is left as it is. -/
theorem repairs_utf8 (text : List Char) : Repairs (utf8 text) text := by
  induction text with
  | nil => exact .nil
  | cons c text ih => exact .char c ih

theorem Repairs.unique {bytes : List UInt8} {first second : List Char}
    (left : Repairs bytes first) (right : Repairs bytes second) : first = second := by
  induction left generalizing second with
  | nil =>
      generalize none : ([] : List UInt8) = bytes at right
      cases right with
      | nil => rfl
      | char c => exact absurd (List.append_eq_nil_iff.mp none.symm).1 (utf8EncodeChar_ne_nil c)
      | bad => cases none
  | @char c rest text later ih =>
      generalize split : utf8EncodeChar c ++ rest = bytes at right
      cases right with
      | nil => exact absurd (List.append_eq_nil_iff.mp split).1 (utf8EncodeChar_ne_nil c)
      | char d other =>
          obtain rfl := utf8EncodeChar_unique split
          rw [ih (List.append_cancel_left split ▸ other)]
      | bad byte starts => exact absurd ⟨rest, split⟩ (starts c)
  | @bad byte rest text starts later ih =>
      generalize split : byte :: rest = bytes at right
      cases right with
      | nil => cases split
      | char d => exact absurd ⟨_, split.symm⟩ (starts d)
      | bad other _ later =>
          obtain ⟨rfl, rfl⟩ := List.cons.inj split
          rw [ih later]

/-! ## JSON strings -/

def hexDigit (c : Char) : Option Nat :=
  if '0' ≤ c ∧ c ≤ '9' then some (c.toNat - '0'.toNat)
  else if 'a' ≤ c ∧ c ≤ 'f' then some (c.toNat - 'a'.toNat + 10)
  else if 'A' ≤ c ∧ c ≤ 'F' then some (c.toNat - 'A'.toNat + 10)
  else none

/-- The number that four hexadecimal digits write. -/
def hex4 : List Char → Option Nat
  | [a, b, c, d] => do
    let a ← hexDigit a
    let b ← hexDigit b
    let c ← hexDigit c
    let d ← hexDigit d
    some (((a * 16 + b) * 16 + c) * 16 + d)
  | _ => none

/-- The letters that may follow a backslash, with what they stand for. -/
def escapes : List (Char × Char) :=
  [('"', '"'), ('\\', '\\'), ('/', '/'), ('b', '\x08'), ('f', '\x0C'), ('n', '\n'),
    ('r', '\r'), ('t', '\t')]

/-- A `char` of RFC 8259 and the character it stands for. A character above U+FFFF
may be written as a surrogate pair. -/
inductive JsonChar : List Char → Char → Prop
  | unescaped {c : Char} (printable : 0x20 ≤ c.toNat) (quote : c ≠ '"')
      (backslash : c ≠ '\\') : JsonChar [c] c
  | escape {letter c : Char} (listed : (letter, c) ∈ escapes) : JsonChar ['\\', letter] c
  | unicode {digits : List Char} {c : Char} (spells : hex4 digits = some c.toNat) :
      JsonChar ('\\' :: 'u' :: digits) c
  | pair {high low : List Char} {first second : Nat} {c : Char}
      (spells : hex4 high = some first) (follows : hex4 low = some second)
      (isHigh : 0xD800 ≤ first ∧ first < 0xDC00) (isLow : 0xDC00 ≤ second ∧ second < 0xE000)
      (value : c.toNat = 0x10000 + (first - 0xD800) * 0x400 + (second - 0xDC00)) :
      JsonChar ('\\' :: 'u' :: (high ++ '\\' :: 'u' :: low)) c

/-- A `string` of RFC 8259 and the characters it stands for. -/
def JsonString (text chars : List Char) : Prop :=
  ∃ pieces, text = '"' :: (pieces.flatten ++ ['"']) ∧ List.Forall₂ JsonChar pieces chars

theorem length_of_hex4 {digits : List Char} {n : Nat} (spells : hex4 digits = some n) :
    digits.length = 4 := by
  unfold hex4 at spells
  split at spells
  · rfl
  · cases spells

/-- No character is half a surrogate pair. -/
theorem not_surrogate (c : Char) : c.toNat < 0xD800 ∨ 0xE000 ≤ c.toNat := by
  rcases c.valid with low | high
  · exact .inl low
  · exact .inr (Nat.succ_le_of_lt high.1)

theorem escapes_unique {letter c d : Char} (left : (letter, c) ∈ escapes)
    (right : (letter, d) ∈ escapes) : c = d := by
  have functional : ∀ e ∈ escapes, ∀ f ∈ escapes, e.1 = f.1 → e = f := by decide
  exact congrArg Prod.snd (functional _ left _ right rfl)

theorem escapes_ne_u {letter c : Char} (listed : (letter, c) ∈ escapes) : letter ≠ 'u' := by
  have none : ∀ e ∈ escapes, e.1 ≠ 'u' := by decide
  exact none _ listed

/-- Two spellings by digits agree on the digits. -/
theorem hex4_unique {digits others x y : List Char} {m n : Nat} (left : hex4 digits = some m)
    (right : hex4 others = some n) (same : digits ++ x = others ++ y) :
    digits = others ∧ m = n ∧ x = y := by
  obtain ⟨rfl, rest⟩ := List.append_inj same
    ((length_of_hex4 left).trans (length_of_hex4 right).symm)
  exact ⟨rfl, Option.some.inj (left.symm.trans right), rest⟩

theorem second_of_cons {a b c d : Char} {front back : List Char}
    (same : a :: b :: front = c :: d :: back) : b = d ∧ front = back :=
  List.cons.inj (List.cons.inj same).2

/-- A `char` begins no other, and stands for one character. -/
theorem JsonChar.unique {u v x y : List Char} {c d : Char} (left : JsonChar u c)
    (right : JsonChar v d) (same : u ++ x = v ++ y) : u = v ∧ c = d := by
  cases left with
  | unescaped _ _ backslash =>
      cases right with
      | unescaped =>
          obtain ⟨rfl, _⟩ := List.cons.inj same
          exact ⟨rfl, rfl⟩
      | escape => exact absurd (List.cons.inj same).1 backslash
      | unicode => exact absurd (List.cons.inj same).1 backslash
      | pair => exact absurd (List.cons.inj same).1 backslash
  | escape listed =>
      cases right with
      | unescaped _ _ backslash => exact absurd (List.cons.inj same).1.symm backslash
      | escape other =>
          obtain ⟨rfl, _⟩ := second_of_cons same
          exact ⟨rfl, escapes_unique listed other⟩
      | unicode => exact absurd (second_of_cons same).1 (escapes_ne_u listed)
      | pair => exact absurd (second_of_cons same).1 (escapes_ne_u listed)
  | unicode spells =>
      cases right with
      | unescaped _ _ backslash => exact absurd (List.cons.inj same).1.symm backslash
      | escape other => exact absurd (second_of_cons same).1.symm (escapes_ne_u other)
      | unicode others =>
          obtain ⟨rfl, value, _⟩ := hex4_unique spells others (second_of_cons same).2
          exact ⟨rfl, Char.toNat_inj.mp value⟩
      | pair others _ isHigh =>
          simp only [List.cons_append, List.append_assoc] at same
          obtain ⟨_, value, _⟩ := hex4_unique spells others (second_of_cons same).2
          have := not_surrogate c
          omega
  | pair spells follows isHigh isLow value =>
      cases right with
      | unescaped _ _ backslash => exact absurd (List.cons.inj same).1.symm backslash
      | escape other => exact absurd (second_of_cons same).1.symm (escapes_ne_u other)
      | unicode others =>
          simp only [List.cons_append, List.append_assoc] at same
          obtain ⟨_, value, _⟩ := hex4_unique spells others (second_of_cons same).2
          have := not_surrogate d
          omega
      | pair others next _ _ otherValue =>
          simp only [List.cons_append, List.append_assoc] at same
          obtain ⟨rfl, rfl, rest⟩ := hex4_unique spells others (second_of_cons same).2
          obtain ⟨rfl, rfl, _⟩ := hex4_unique follows next (second_of_cons rest).2
          exact ⟨rfl, Char.toNat_inj.mp (value.trans otherValue.symm)⟩

theorem jsonCode : PrefixCode fun piece => ∃ c, JsonChar piece c where
  ne_nil := by
    rintro _ ⟨c, spells⟩
    cases spells <;> exact List.cons_ne_nil _ _
  unique := by
    rintro u v x y ⟨c, left⟩ ⟨d, right⟩ same
    exact (left.unique right same).1

/-- A list of spellings stands for one list of characters. -/
theorem forall₂_jsonChar_unique {pieces : List (List Char)} {first second : List Char}
    (left : List.Forall₂ JsonChar pieces first) (right : List.Forall₂ JsonChar pieces second) :
    first = second := by
  induction left generalizing second with
  | nil =>
      cases right
      rfl
  | cons spells _ ih =>
      cases right with
      | cons other later =>
          obtain ⟨_, rfl⟩ := spells.unique (x := []) (y := []) other rfl
          rw [ih later]

theorem JsonString.unique {text first second : List Char} (left : JsonString text first)
    (right : JsonString text second) : first = second := by
  obtain ⟨pieces, rfl, chars⟩ := left
  obtain ⟨others, same, otherChars⟩ := right
  have flat := List.append_cancel_right (List.cons.inj same).2
  have spelled {pieces : List (List Char)} {value : List Char}
      (chars : List.Forall₂ JsonChar pieces value) (piece : List Char) (member : piece ∈ pieces) :
      ∃ c, JsonChar piece c := by
    induction chars with
    | nil => cases member
    | cons spells _ ih =>
        rcases List.mem_cons.mp member with rfl | later
        · exact ⟨_, spells⟩
        · exact ih later
  obtain rfl := jsonCode.flatten_injective (spelled chars) (spelled otherChars) flat
  exact forall₂_jsonChar_unique chars otherChars

/-! ## Decoding -/

/-- The bytes are a JSON string in UTF-8, whose value has the given bytes. -/
def Decodes (bytes value : List UInt8) : Prop :=
  ∃ text chars, bytes = utf8 text ∧ JsonString text chars ∧ value = utf8 chars

theorem Decodes.unique {bytes first second : List UInt8} (left : Decodes bytes first)
    (right : Decodes bytes second) : first = second := by
  obtain ⟨text, chars, rfl, isString, rfl⟩ := left
  obtain ⟨other, value, same, isOther, rfl⟩ := right
  obtain rfl := utf8_injective same
  rw [isString.unique isOther]

end JsonStrings
