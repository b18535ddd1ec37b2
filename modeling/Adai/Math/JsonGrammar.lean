import Adai.Math.JsonStrings

/-! # JSON texts

The grammar of RFC 8259 as syntax trees. Each tree has a text in UTF-8, with the white
space that the grammar allows around its tokens, and a string stands for characters: two
escapes that are a surrogate pair for one, an escape that is half of a pair for U+FFFD.
The parts of the grammar share one inductive family (`JsonGrammar.Json`), so that an
induction over a text is an induction over one type.
-/

namespace JsonGrammar

open JsonStrings (escapes replacement utf8)
open String (utf8EncodeChar)

/-- A `ws` of the grammar. -/
structure Space where
  bytes : List UInt8
  blank : ∀ c ∈ bytes, c ∈ ([0x20, 0x09, 0x0A, 0x0D] : List UInt8)

/-! ## Strings -/

structure HexDigit where
  value : Fin 16
  upper : Bool

def HexDigit.byte (digit : HexDigit) : UInt8 :=
  if digit.value.val < 10 then UInt8.ofNat (0x30 + digit.value.val)
  else UInt8.ofNat ((if digit.upper then 0x41 else 0x61) + (digit.value.val - 10))

/-- The four digits behind `\u`. -/
structure HexDigits where
  first : HexDigit
  second : HexDigit
  third : HexDigit
  fourth : HexDigit

namespace HexDigits

def bytes (digits : HexDigits) : List UInt8 :=
  [digits.first.byte, digits.second.byte, digits.third.byte, digits.fourth.byte]

def value (digits : HexDigits) : Nat :=
  ((digits.first.value.val * 16 + digits.second.value.val) * 16 + digits.third.value.val) * 16 +
    digits.fourth.value.val

/-- The first half of a surrogate pair. -/
def IsHigh (digits : HexDigits) : Prop := 0xD800 ≤ digits.value ∧ digits.value < 0xDC00

/-- The second half of a surrogate pair. -/
def IsLow (digits : HexDigits) : Prop := 0xDC00 ≤ digits.value ∧ digits.value < 0xE000

instance (digits : HexDigits) : Decidable digits.IsHigh := inferInstanceAs (Decidable (_ ∧ _))
instance (digits : HexDigits) : Decidable digits.IsLow := inferInstanceAs (Decidable (_ ∧ _))

/-- The character of an escape that is in no pair. -/
def char (digits : HexDigits) : Char :=
  if digits.IsHigh ∨ digits.IsLow then replacement else Char.ofNat digits.value

/-- The character of a surrogate pair. -/
def pairChar (high low : HexDigits) : Char :=
  Char.ofNat (0x10000 + (high.value - 0xD800) * 0x400 + (low.value - 0xDC00))

end HexDigits

/-- A `char` of the grammar. -/
inductive Item
  | unescaped (c : Char) (printable : 0x20 ≤ c.toNat) (quote : c ≠ '"') (backslash : c ≠ '\\')
  | escape (letter c : Char) (listed : (letter, c) ∈ escapes)
  | unicode (digits : HexDigits)

def Item.text : Item → List UInt8
  | .unescaped c _ _ _ => utf8EncodeChar c
  | .escape letter _ _ => 0x5C :: utf8EncodeChar letter
  | .unicode digits => 0x5C :: 0x75 :: digits.bytes

/-- What stands between the quotes of a string. -/
def itemsText (items : List Item) : List UInt8 := items.flatMap Item.text

def stringText (items : List Item) : List UInt8 := 0x22 :: itemsText items ++ [0x22]

/-- The characters that a string stands for. -/
def chars : List Item → List Char
  | [] => []
  | .unescaped c _ _ _ :: rest => c :: chars rest
  | .escape _ c _ :: rest => c :: chars rest
  | .unicode high :: .unicode low :: rest =>
      if high.IsHigh ∧ low.IsLow then HexDigits.pairChar high low :: chars rest
      else high.char :: chars (.unicode low :: rest)
  | .unicode digits :: rest => digits.char :: chars rest

/-! ## Numbers and literals -/

def digitByte (digit : Fin 10) : UInt8 := UInt8.ofNat (0x30 + digit.val)

/-- An `int` of the grammar has no leading zero. -/
inductive IntPart
  | zero
  | digits (first : Fin 9) (rest : List (Fin 10))

def IntPart.text : IntPart → List UInt8
  | .zero => [0x30]
  | .digits first rest => UInt8.ofNat (0x31 + first.val) :: rest.map digitByte

structure Exponent where
  upper : Bool
  /-- The sign that is written, if any. -/
  negative : Option Bool
  digits : List (Fin 10)
  some_digit : digits ≠ []

def signText : Option Bool → List UInt8
  | none => []
  | some true => [0x2D]
  | some false => [0x2B]

def letterByte (upper : Bool) : UInt8 := if upper then 0x45 else 0x65

def Exponent.text (exp : Exponent) : List UInt8 :=
  letterByte exp.upper :: (signText exp.negative ++ exp.digits.map digitByte)

structure Number where
  negative : Bool
  int : IntPart
  /-- The digits behind the point; without any there is no point. -/
  frac : List (Fin 10)
  exp : Option Exponent

def Number.text (n : Number) : List UInt8 :=
  (if n.negative then [0x2D] else []) ++ n.int.text ++
    (if n.frac = [] then [] else 0x2E :: n.frac.map digitByte) ++
    (match n.exp with
      | none => []
      | some exp => exp.text)

inductive Literal
  | true
  | false
  | null

def Literal.text : Literal → List UInt8
  | .true => [0x74, 0x72, 0x75, 0x65]
  | .false => [0x66, 0x61, 0x6C, 0x73, 0x65]
  | .null => [0x6E, 0x75, 0x6C, 0x6C]

/-! ## Values -/

/-- What a tree is for: a value, or what stands between the brackets of a nonempty
array or object. -/
inductive Part
  | value
  | elements
  | members

inductive Json : Part → Type
  | string (items : List Item) : Json .value
  | number (n : Number) : Json .value
  | literal (name : Literal) : Json .value
  | emptyArray (space : Space) : Json .value
  | emptyObject (space : Space) : Json .value
  | array (elements : Json .elements) : Json .value
  | object (members : Json .members) : Json .value
  | lastElement (before : Space) (value : Json .value) (after : Space) : Json .elements
  | moreElements (before : Space) (value : Json .value) (after : Space)
      (rest : Json .elements) : Json .elements
  | lastMember (before : Space) (key : List Item) (beforeColon afterColon : Space)
      (value : Json .value) (after : Space) : Json .members
  | moreMembers (before : Space) (key : List Item) (beforeColon afterColon : Space)
      (value : Json .value) (after : Space) (rest : Json .members) : Json .members

namespace Json

def text : {part : Part} → Json part → List UInt8
  | _, .string items => stringText items
  | _, .number n => n.text
  | _, .literal name => name.text
  | _, .emptyArray space => 0x5B :: space.bytes ++ [0x5D]
  | _, .emptyObject space => 0x7B :: space.bytes ++ [0x7D]
  | _, .array elements => 0x5B :: elements.text ++ [0x5D]
  | _, .object members => 0x7B :: members.text ++ [0x7D]
  | _, .lastElement before value after => before.bytes ++ (value.text ++ after.bytes)
  | _, .moreElements before value after rest =>
      before.bytes ++ (value.text ++ (after.bytes ++ 0x2C :: rest.text))
  | _, .lastMember before key beforeColon afterColon value after =>
      before.bytes ++ (stringText key ++ (beforeColon.bytes ++ 0x3A ::
        (afterColon.bytes ++ (value.text ++ after.bytes))))
  | _, .moreMembers before key beforeColon afterColon value after rest =>
      before.bytes ++ (stringText key ++ (beforeColon.bytes ++ 0x3A ::
        (afterColon.bytes ++ (value.text ++ (after.bytes ++ 0x2C :: rest.text)))))

/-- The members of an object, in order, with the characters of their names; those of a
nested object are not among them. -/
def topMembers : {part : Part} → Json part → List (List Char × Json .value)
  | _, .object members => members.topMembers
  | _, .lastMember _ key _ _ value _ => [(chars key, value)]
  | _, .moreMembers _ key _ _ value _ rest => (chars key, value) :: rest.topMembers
  | _, _ => []

def isObject : {part : Part} → Json part → Bool
  | _, .emptyObject _ => true
  | _, .object _ => true
  | _, _ => false

end Json

/-- A text of the grammar whose value is an object. -/
structure ObjectText where
  before : Space
  json : Json .value
  isObject : json.isObject = true
  after : Space

def ObjectText.text (object : ObjectText) : List UInt8 :=
  object.before.bytes ++ (object.json.text ++ object.after.bytes)

/-! ## Bytes of tokens -/

/-- The bytes that numbers and literals are made of. -/
def wordBytes : List UInt8 :=
  [0x2B, 0x2D, 0x2E, 0x30, 0x31, 0x32, 0x33, 0x34, 0x35, 0x36, 0x37, 0x38, 0x39, 0x45, 0x61,
    0x65, 0x66, 0x6C, 0x6E, 0x72, 0x73, 0x74, 0x75]

theorem digitByte_mem_wordBytes (digit : Fin 10) : digitByte digit ∈ wordBytes := by
  revert digit
  decide

theorem map_digitByte_subset (digits : List (Fin 10)) : digits.map digitByte ⊆ wordBytes := by
  intro c member
  obtain ⟨digit, -, rfl⟩ := List.mem_map.mp member
  exact digitByte_mem_wordBytes digit

theorem IntPart.text_subset (int : IntPart) : int.text ⊆ wordBytes := by
  cases int with
  | zero => exact List.cons_subset.mpr ⟨digitByte_mem_wordBytes ⟨0, by omega⟩, List.nil_subset _⟩
  | digits first rest =>
      apply List.cons_subset.mpr
      constructor
      · revert first
        decide
      · exact map_digitByte_subset rest

theorem Exponent.text_subset (exp : Exponent) : exp.text ⊆ wordBytes := by
  have letter : ∀ upper, letterByte upper ∈ wordBytes := by decide
  have sign : ∀ negative, signText negative ⊆ wordBytes
    | none => List.nil_subset _
    | some true => List.cons_subset.mpr ⟨by decide, List.nil_subset _⟩
    | some false => List.cons_subset.mpr ⟨by decide, List.nil_subset _⟩
  apply List.cons_subset.mpr
  refine ⟨letter exp.upper, ?_⟩
  apply List.append_subset.mpr
  exact ⟨sign exp.negative, map_digitByte_subset exp.digits⟩

theorem Number.text_subset (n : Number) : n.text ⊆ wordBytes := by
  simp only [Number.text, List.append_subset]
  refine ⟨⟨⟨?_, n.int.text_subset⟩, ?_⟩, ?_⟩
  · split
    · exact List.cons_subset.mpr ⟨by decide, List.nil_subset _⟩
    · exact List.nil_subset _
  · split
    · exact List.nil_subset _
    · exact List.cons_subset.mpr ⟨by decide, map_digitByte_subset n.frac⟩
  · split
    · exact List.nil_subset _
    · exact Exponent.text_subset _

theorem IntPart.text_ne_nil (int : IntPart) : int.text ≠ [] := by
  cases int <;> exact List.cons_ne_nil _ _

theorem Number.text_ne_nil (n : Number) : n.text ≠ [] := by
  intro none
  simp only [Number.text, List.append_eq_nil_iff] at none
  exact n.int.text_ne_nil none.1.1.2

theorem Literal.text_subset (name : Literal) : name.text ⊆ wordBytes := by
  cases name <;> decide

theorem Literal.text_ne_nil (name : Literal) : name.text ≠ [] := by
  cases name <;> exact List.cons_ne_nil _ _

/-- A character is written with its byte, or with bytes from `0x80` on. -/
theorem utf8EncodeChar_bytes (c : Char) :
    c.toNat < 0x80 ∧ utf8EncodeChar c = [UInt8.ofNat c.toNat] ∨
      ∀ b ∈ utf8EncodeChar c, 0x80 ≤ b.toNat := by
  have value : c.val.toNat = c.toNat := rfl
  by_cases small : c.toNat ≤ 0x7F
  · exact .inl ⟨Nat.lt_succ_of_le small, if_pos small⟩
  · right
    intro b member
    unfold utf8EncodeChar at member
    simp only [value, if_neg small] at member
    split at member
    · simp only [List.mem_cons, List.not_mem_nil, or_false] at member
      rcases member with rfl | rfl <;> simp only [UInt8.toNat_ofNat'] <;> omega
    · split at member
      · simp only [List.mem_cons, List.not_mem_nil, or_false] at member
        rcases member with rfl | rfl | rfl <;> simp only [UInt8.toNat_ofNat'] <;> omega
      · simp only [List.mem_cons, List.not_mem_nil, or_false] at member
        rcases member with rfl | rfl | rfl | rfl <;> simp only [UInt8.toNat_ofNat'] <;> omega

/-- An unescaped character has neither a quote nor a backslash in its bytes. -/
theorem unescaped_bytes {c : Char} (quote : c ≠ '"') (backslash : c ≠ '\\') :
    ∀ b ∈ utf8EncodeChar c, b ≠ 0x22 ∧ b ≠ 0x5C := by
  intro b member
  rcases utf8EncodeChar_bytes c with ⟨small, single⟩ | large
  · rw [single, List.mem_singleton] at member
    have same {d : Char} (value : b.toNat = d.toNat) : c = d := by
      rw [member, UInt8.toNat_ofNat', Nat.mod_eq_of_lt (by omega)] at value
      exact Char.toNat_inj.mp value
    exact ⟨fun is => quote (same (congrArg UInt8.toNat is)),
      fun is => backslash (same (congrArg UInt8.toNat is))⟩
  · have := large b member
    constructor <;> rintro rfl
    · exact absurd this (by decide)
    · exact absurd this (by decide)

end JsonGrammar
