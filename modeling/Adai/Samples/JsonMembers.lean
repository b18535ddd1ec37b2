import Adai.Math.JsonGrammar
import Adai.Samples.JsonLine

/-! # The members of a JSON object

The reader of training lines on the texts of RFC 8259. A string is read as the UTF-8
of its characters, a nested value is skipped as a unit at any depth
(`Adai.Samples.skips_json`), and of an object the reader returns the members, in order
(`Adai.Samples.parse_object_members_exact`).
-/

namespace Adai.Samples

open Tokenizer
open JsonGrammar
open JsonStrings (escapes replacement utf8)
open String (utf8EncodeChar)

/-! ## Characters -/

/-- The bits that lead a byte and those of a code point do not overlap. -/
theorem or_eq_add (bits lead : Nat) {value : Nat} (small : value < 2 ^ bits) :
    2 ^ bits * lead ||| value = value + 2 ^ bits * lead := by
  rw [← Nat.two_pow_add_eq_or_of_lt small, Nat.add_comm]

theorem continuation_bits (n : Nat) : 0x80 ||| (n &&& 0x3F) = n % 64 + 0x80 := by
  rw [show (0x3F : Nat) = 2 ^ 6 - 1 from rfl, Nat.and_two_pow_sub_one_eq_mod]
  exact or_eq_add 6 2 (Nat.mod_lt _ (by omega))

theorem appendUtf8_toNat (c : Char) : appendUtf8 c.toNat = utf8EncodeChar c := by
  have value : c.val.toNat = c.toNat := rfl
  have top : c.toNat < 0x110000 := by
    rcases c.valid with small | large
    · exact Nat.lt_trans (show c.toNat < 0xD800 from small) (by omega)
    · exact large.2
  unfold appendUtf8 utf8EncodeChar
  simp only [value, continuation_bits, Nat.shiftRight_eq_div_pow]
  by_cases one : c.toNat < 0x80
  · rw [if_pos one, if_pos (Nat.le_of_lt_succ one)]
  have oneLe : ¬ c.toNat ≤ 0x7F := fun small => one (Nat.lt_succ_of_le small)
  by_cases two : c.toNat < 0x800
  · have lead : 0xC0 ||| c.toNat / 2 ^ 6 = c.toNat / 64 % 0x20 + 0xC0 := by
      rw [Nat.mod_eq_of_lt (by omega)]
      exact or_eq_add 6 3 (by omega)
    rw [if_neg one, if_pos two, if_neg oneLe, if_pos (Nat.le_of_lt_succ two), lead]
  have twoLe : ¬ c.toNat ≤ 0x7FF := fun small => two (Nat.lt_succ_of_le small)
  by_cases three : c.toNat < 0x10000
  · have lead : 0xE0 ||| c.toNat / 2 ^ 12 = c.toNat / 4096 % 0x10 + 0xE0 := by
      rw [Nat.mod_eq_of_lt (by omega)]
      exact or_eq_add 5 7 (by omega)
    rw [if_neg one, if_neg two, if_pos three, if_neg oneLe, if_neg twoLe,
      if_pos (Nat.le_of_lt_succ three), lead]
  · have lead : 0xF0 ||| c.toNat / 2 ^ 18 = c.toNat / 262144 % 0x08 + 0xF0 := by
      rw [Nat.mod_eq_of_lt (by omega)]
      exact or_eq_add 4 15 (by omega)
    rw [if_neg one, if_neg two, if_neg three, if_neg oneLe, if_neg twoLe,
      if_neg fun small => three (Nat.lt_succ_of_le small), lead]

theorem appendUtf8_ofNat {n : Nat} (valid : n.isValidChar) :
    appendUtf8 n = utf8EncodeChar (Char.ofNat n) := by
  have same : (Char.ofNat n).toNat = n := by
    rw [Char.ofNat, dif_pos valid]
    rfl
  rw [← appendUtf8_toNat, same]

/-! ## Escapes -/

theorem hexDigit_byte (digit : HexDigit) : hexDigit digit.byte = some digit.value.val := by
  have digits : ∀ value upper,
      hexDigit (HexDigit.byte ⟨value, upper⟩) = some value.val := by decide
  exact digits digit.value digit.upper

theorem readHex4_bytes (digits : HexDigits) (rest : Bytes) :
    readHex4 (digits.bytes ++ rest) = some digits.value := by
  simp only [HexDigits.bytes, List.cons_append, readHex4, hexDigit_byte, HexDigits.value]
  rfl

theorem parseEscape_listed {letter c : Char} (listed : (letter, c) ∈ escapes) :
    ∃ next, utf8EncodeChar letter = [next] ∧ next ≠ 0x75 ∧
      ∀ rest, parseEscape next rest = (utf8EncodeChar c, rest) := by
  simp only [escapes, List.mem_cons, Prod.mk.injEq, List.not_mem_nil, or_false] at listed
  rcases listed with ⟨rfl, rfl⟩ | ⟨rfl, rfl⟩ | ⟨rfl, rfl⟩ | ⟨rfl, rfl⟩ | ⟨rfl, rfl⟩ | ⟨rfl, rfl⟩ |
    ⟨rfl, rfl⟩ | ⟨rfl, rfl⟩ <;> exact ⟨_, rfl, by decide, fun _ => rfl⟩

/-- An escape is no second half of a pair when the item it starts is none. -/
theorem lowSurrogate_itemsText {items : List Item} (rest : Bytes)
    (other : ∀ low later, items = .unicode low :: later → ¬ low.IsLow) :
    lowSurrogate (itemsText items ++ 0x22 :: rest) = none := by
  cases items with
  | nil =>
      cases rest with
      | nil => rfl
      | cons c rest => rfl
  | cons item items =>
      rw [itemsText, List.flatMap_cons, List.append_assoc]
      cases item with
      | unescaped c printable quote backslash =>
          obtain ⟨b, bytes, encoded⟩ := List.exists_cons_of_ne_nil
            (JsonStrings.utf8EncodeChar_ne_nil c)
          have plain := (unescaped_bytes quote backslash b (by rw [encoded]; exact List.mem_cons_self)).2
          rw [Item.text, encoded, List.cons_append]
          unfold lowSurrogate
          split
          · rename_i first second later split
            rw [if_neg]
            rintro ⟨escape, -⟩
            exact plain ((List.cons.inj split).1.trans escape)
          · rfl
      | escape letter c listed =>
          obtain ⟨next, byte, noUnicode, _⟩ := parseEscape_listed listed
          rw [Item.text, byte, List.cons_append, List.singleton_append, lowSurrogate,
            if_neg fun both => noUnicode both.2]
      | unicode low =>
          rw [Item.text, List.cons_append, List.cons_append, lowSurrogate, if_pos ⟨rfl, rfl⟩,
            readHex4_bytes, Option.filter_some]
          have none : ¬ (0xDC00 ≤ low.value ∧ low.value ≤ 0xDFFF) := fun between =>
            other low items rfl ⟨between.1, Nat.lt_succ_of_le between.2⟩
          simp only [none, decide_false, Bool.false_eq_true, ↓reduceIte]

theorem parseEscape_unicode (rest : Bytes) : parseEscape 0x75 rest = parseUnicodeEscape rest := rfl

theorem unicode_append (digits : HexDigits) (rest : Bytes) :
    (Item.unicode digits).text ++ rest = 0x5C :: 0x75 :: (digits.bytes ++ rest) := rfl

/-- Two escapes that are a surrogate pair are read as one character. -/
theorem parseUnicodeEscape_pair {high low : HexDigits} (isHigh : high.IsHigh) (isLow : low.IsLow)
    (rest : Bytes) :
    parseUnicodeEscape (high.bytes ++ 0x5C :: 0x75 :: (low.bytes ++ rest)) =
      (utf8EncodeChar (HexDigits.pairChar high low), rest) := by
  obtain ⟨highLow, highTop⟩ := isHigh
  obtain ⟨lowLow, lowTop⟩ := isLow
  have second : lowSurrogate (0x5C :: 0x75 :: (low.bytes ++ rest)) = some low.value := by
    rw [lowSurrogate, if_pos ⟨rfl, rfl⟩, readHex4_bytes, Option.filter_some, if_pos]
    exact decide_eq_true ⟨lowLow, Nat.le_of_lt_succ lowTop⟩
  have behind (digits : HexDigits) (later : Bytes) : (digits.bytes ++ later).drop 4 = later :=
    List.drop_left' rfl
  have behindEscape : (0x5C :: 0x75 :: (low.bytes ++ rest)).drop 6 = rest := behind low rest
  have shifted : 0x10000 + ((high.value - 0xD800) <<< 10) + (low.value - 0xDC00) =
      0x10000 + (high.value - 0xD800) * 0x400 + (low.value - 0xDC00) := by
    rw [Nat.shiftLeft_eq]
  rw [parseUnicodeEscape, readHex4_bytes]
  simp only [behind, second, behindEscape, shifted]
  rw [if_pos ⟨highLow, Nat.le_of_lt_succ highTop⟩, appendUtf8_ofNat]
  · rfl
  · right
    constructor <;> omega

/-- An escape that is in no pair is read as its character, or as U+FFFD when it is half
of one. -/
theorem parseUnicodeEscape_alone {digits : HexDigits} {rest : Bytes}
    (alone : digits.IsHigh → lowSurrogate rest = none) :
    parseUnicodeEscape (digits.bytes ++ rest) = (utf8EncodeChar digits.char, rest) := by
  have behind : (digits.bytes ++ rest).drop 4 = rest := List.drop_left' rfl
  have lost : appendUtf8 0xFFFD = utf8EncodeChar replacement := appendUtf8_toNat replacement
  rw [parseUnicodeEscape, readHex4_bytes]
  simp only [behind]
  unfold HexDigits.char
  by_cases high : digits.IsHigh
  · rw [if_pos ⟨high.1, Nat.le_of_lt_succ high.2⟩, alone high, if_pos (.inl high), lost]
  · rw [if_neg fun between => high ⟨between.1, Nat.lt_succ_of_le between.2⟩]
    by_cases low : digits.IsLow
    · rw [if_pos ⟨low.1, Nat.le_of_lt_succ low.2⟩, if_pos (.inr low), lost]
    · rw [if_neg fun between => low ⟨between.1, Nat.lt_succ_of_le between.2⟩,
        if_neg (not_or.mpr ⟨high, low⟩), appendUtf8_ofNat]
      have first := digits.first.value.isLt
      have second := digits.second.value.isLt
      have third := digits.third.value.isLt
      have fourth := digits.fourth.value.isLt
      simp only [HexDigits.IsHigh, HexDigits.IsLow, HexDigits.value, Nat.isValidChar] at *
      omega

/-! ## Strings -/

/-- What is no quote and no backslash is copied. -/
theorem parseStringFrom_front (fuel : Nat) {front : Bytes}
    (plain : ∀ b ∈ front, b ≠ 0x22 ∧ b ≠ 0x5C) (rest : Bytes) :
    parseStringFrom (front.length + fuel) (front ++ rest) =
      (parseStringFrom fuel rest).map fun (out, after) => (front ++ out, after) := by
  induction front with
  | nil =>
      rw [List.length_nil, Nat.zero_add]
      exact Option.map_id'.symm
  | cons b front ih =>
      obtain ⟨quote, backslash⟩ := plain b List.mem_cons_self
      rw [List.length_cons, Nat.add_right_comm, List.cons_append,
        parseStringFrom_plain _ quote backslash,
        ih fun other member => plain other (List.mem_cons_of_mem _ member), Option.map_map]
      rfl

theorem itemsText_cons (item : Item) (items : List Item) :
    itemsText (item :: items) = item.text ++ itemsText items := List.flatMap_cons

theorem length_itemsText_cons (item : Item) (items : List Item) :
    (itemsText (item :: items)).length = item.text.length + (itemsText items).length := by
  rw [itemsText_cons, List.length_append]

theorem parseStringFrom_escaped {fuel : Nat} {next : UInt8} {rest front middle out after : Bytes}
    (left : 0 < fuel) (read : parseEscape next rest = (front, middle))
    (later : parseStringFrom (fuel - 1) middle = some (out, after)) :
    parseStringFrom fuel (0x5C :: next :: rest) = some (front ++ out, after) := by
  obtain ⟨fuel, rfl⟩ := Nat.exists_eq_add_one_of_ne_zero (Nat.ne_of_gt left)
  rw [parseStringFrom_escape, read]
  exact congrArg (Option.map _) later

/-- **Strings.** What stands before a closing quote is read as the UTF-8 of its
characters. -/
theorem parseStringFrom_itemsText (items : List Item) {fuel : Nat} (rest : Bytes)
    (enough : (itemsText items).length < fuel) :
    parseStringFrom fuel (itemsText items ++ 0x22 :: rest) = some (utf8 (chars items), rest) := by
  induction items using chars.induct generalizing fuel with
  | case1 =>
      cases fuel with
      | zero => exact absurd enough (Nat.not_lt_zero _)
      | succ fuel => rfl
  | case2 c printable quote backslash items ih =>
      rw [length_itemsText_cons] at enough
      obtain ⟨left, rfl⟩ := Nat.exists_eq_add_of_le (Nat.le_of_add_right_le enough.le)
      rw [itemsText_cons, List.append_assoc, Item.text,
        parseStringFrom_front left (unescaped_bytes quote backslash)]
      exact congrArg (Option.map _) (ih (Nat.lt_of_add_lt_add_left enough))
  | case3 letter c listed items ih =>
      obtain ⟨next, byte, -, read⟩ := parseEscape_listed listed
      rw [length_itemsText_cons, Item.text, byte, List.length_cons] at enough
      rw [itemsText_cons, List.append_assoc, Item.text, byte]
      exact parseStringFrom_escaped (by omega) (read _) (ih (by omega))
  | case4 high low items both ih =>
      rw [length_itemsText_cons, length_itemsText_cons, Item.text, List.length_cons] at enough
      rw [itemsText_cons, itemsText_cons, List.append_assoc, List.append_assoc, unicode_append,
        unicode_append, chars, if_pos both, JsonStrings.utf8_cons]
      have read := (parseEscape_unicode _).trans
        (parseUnicodeEscape_pair both.1 both.2 (itemsText items ++ 0x22 :: rest))
      exact parseStringFrom_escaped (by omega) read (ih (by omega))
  | case5 high low items apart ih =>
      have alone : high.IsHigh →
          lowSurrogate (itemsText (.unicode low :: items) ++ 0x22 :: rest) = none := by
        intro isHigh
        apply lowSurrogate_itemsText
        intro other later same isLow
        cases same
        exact apart ⟨isHigh, isLow⟩
      rw [length_itemsText_cons, Item.text, List.length_cons] at enough
      rw [itemsText_cons, List.append_assoc, unicode_append, chars, if_neg apart]
      have read := (parseEscape_unicode _).trans (parseUnicodeEscape_alone alone)
      exact parseStringFrom_escaped (by omega) read (ih (by omega))
  | case6 digits items last ih =>
      have alone : digits.IsHigh → lowSurrogate (itemsText items ++ 0x22 :: rest) = none :=
        fun _ => lowSurrogate_itemsText rest fun low later same => (last low later same).elim
      rw [length_itemsText_cons, Item.text, List.length_cons] at enough
      have read := (parseEscape_unicode _).trans (parseUnicodeEscape_alone alone)
      rw [itemsText_cons, List.append_assoc, unicode_append, chars]
      · exact parseStringFrom_escaped (by omega) read (ih (by omega))
      · exact last

theorem parseString_itemsText (items : List Item) (rest : Bytes) :
    parseString (itemsText items ++ 0x22 :: rest) = some (utf8 (chars items), rest) := by
  apply parseStringFrom_itemsText
  rw [List.length_append, List.length_cons]
  omega

theorem stringText_append (items : List Item) (rest : Bytes) :
    stringText items ++ rest = 0x22 :: (itemsText items ++ 0x22 :: rest) := by
  simp only [stringText, List.cons_append, List.append_assoc, List.nil_append]

/-! ## Skipping -/

/-- Read inside that many brackets, the text leaves the reader inside `next` of them, behind
it. -/
def Skips (depth : Int) (text : Bytes) (next : Int) : Prop :=
  ∀ fuel rest, (text ++ rest).length ≤ fuel →
    ∃ left, rest.length ≤ left ∧
      skipContainerFrom fuel depth (text ++ rest) = skipContainerFrom left next rest

theorem skips_nil (depth : Int) : Skips depth [] depth :=
  fun fuel _ enough => ⟨fuel, enough, rfl⟩

theorem Skips.append {depth middle next : Int} {front back : Bytes}
    (first : Skips depth front middle) (second : Skips middle back next) :
    Skips depth (front ++ back) next := by
  intro fuel rest enough
  rw [List.append_assoc] at enough ⊢
  obtain ⟨between, some_, same⟩ := first fuel (back ++ rest) enough
  obtain ⟨left, behind, later⟩ := second between rest some_
  exact ⟨left, behind, same.trans later⟩

theorem skips_opening (depth : Int) {c : UInt8} (opening : c = 0x7B ∨ c = 0x5B) :
    Skips depth [c] (depth + 1) := by
  intro fuel rest enough
  cases fuel with
  | zero => exact absurd enough (Nat.not_succ_le_zero _)
  | succ left =>
      refine ⟨left, Nat.le_of_succ_le_succ enough, ?_⟩
      rcases opening with rfl | rfl <;> rfl

theorem skips_closing (depth : Int) (inner : depth - 1 ≠ 0) {c : UInt8}
    (closing : c = 0x7D ∨ c = 0x5D) : Skips depth [c] (depth - 1) := by
  intro fuel rest enough
  cases fuel with
  | zero => exact absurd enough (Nat.not_succ_le_zero _)
  | succ left =>
      refine ⟨left, Nat.le_of_succ_le_succ enough, ?_⟩
      rcases closing with rfl | rfl <;> exact if_neg inner

/-- Bytes that are neither quotes nor brackets. -/
theorem skips_plain (depth : Int) {text : Bytes}
    (plain : ∀ c ∈ text, c ∉ ([0x22, 0x7B, 0x5B, 0x7D, 0x5D] : Bytes)) :
    Skips depth text depth := by
  induction text with
  | nil => exact skips_nil depth
  | cons c text ih =>
      have single : Skips depth [c] depth := by
        intro fuel rest enough
        have other := plain c List.mem_cons_self
        simp only [List.mem_cons, List.not_mem_nil, or_false, not_or] at other
        obtain ⟨quote, brace, bracket, closeBrace, closeBracket⟩ := other
        cases fuel with
        | zero => exact absurd enough (Nat.not_succ_le_zero _)
        | succ left =>
            refine ⟨left, Nat.le_of_succ_le_succ enough, ?_⟩
            rw [List.singleton_append, skipContainerFrom, if_neg quote,
              if_neg (not_or.mpr ⟨brace, bracket⟩),
              if_neg (not_or.mpr ⟨closeBrace, closeBracket⟩)]
      exact single.append (ih fun other member => plain other (List.mem_cons_of_mem _ member))

/-- A string is skipped with the brackets and quotes in it. -/
theorem skips_stringText (depth : Int) (items : List Item) :
    Skips depth (stringText items) depth := by
  intro fuel rest enough
  rw [stringText_append] at enough ⊢
  cases fuel with
  | zero => exact absurd enough (Nat.not_succ_le_zero _)
  | succ left =>
      refine ⟨left, ?_, ?_⟩
      · simp only [List.length_cons, List.length_append] at enough
        omega
      · rw [skipContainerFrom, if_pos rfl, parseString_itemsText]
        rfl

theorem skips_space (depth : Int) (space : Space) : Skips depth space.bytes depth := by
  apply skips_plain
  intro c member
  have blank := space.blank c member
  simp only [List.mem_cons, List.not_mem_nil, or_false] at blank
  rcases blank with rfl | rfl | rfl | rfl <;> decide

set_option maxRecDepth 2000 in
theorem skips_word (depth : Int) {text : Bytes} (word : text ⊆ wordBytes) :
    Skips depth text depth := by
  have plain : ∀ c ∈ wordBytes, c ∉ ([0x22, 0x7B, 0x5B, 0x7D, 0x5D] : Bytes) := by decide
  exact skips_plain depth fun c member => plain c (word member)

theorem skips_separator (depth : Int) {c : UInt8} (separator : c = 0x2C ∨ c = 0x3A) :
    Skips depth [c] depth := by
  apply skips_plain
  intro d member
  rw [List.mem_singleton.mp member]
  rcases separator with rfl | rfl <;> decide

/-- What stands between two brackets is read inside one more. -/
theorem skips_bracketed {depth : Int} (inside : 1 ≤ depth) {text : Bytes} {opening closing : UInt8}
    (opens : opening = 0x7B ∨ opening = 0x5B) (closes : closing = 0x7D ∨ closing = 0x5D)
    (within : Skips (depth + 1) text (depth + 1)) :
    Skips depth (opening :: text ++ [closing]) depth := by
  have closed := skips_closing (depth + 1) (by omega) closes
  rw [Int.add_sub_cancel] at closed
  exact ((skips_opening depth opens).append within).append closed

/-- **Nesting.** Inside a bracket, a text of the grammar is skipped as a unit. -/
theorem skips_json {part : Part} (json : Json part) {depth : Int} (inside : 1 ≤ depth) :
    Skips depth json.text depth := by
  induction json generalizing depth with
  | string items => exact skips_stringText depth items
  | number n => exact skips_word depth n.text_subset
  | literal name => exact skips_word depth name.text_subset
  | emptyArray space => exact skips_bracketed inside (.inr rfl) (.inr rfl) (skips_space _ space)
  | emptyObject space => exact skips_bracketed inside (.inl rfl) (.inl rfl) (skips_space _ space)
  | array elements ih => exact skips_bracketed inside (.inr rfl) (.inr rfl) (ih (by omega))
  | object members ih => exact skips_bracketed inside (.inl rfl) (.inl rfl) (ih (by omega))
  | lastElement before value after ih =>
      exact (skips_space depth before).append ((ih inside).append (skips_space depth after))
  | moreElements before value after rest value_ih rest_ih =>
      apply (skips_space depth before).append
      apply (value_ih inside).append
      apply (skips_space depth after).append
      exact (skips_separator depth (.inl rfl)).append (rest_ih inside)
  | lastMember before key beforeColon afterColon value after ih =>
      apply (skips_space depth before).append
      apply (skips_stringText depth key).append
      apply (skips_space depth beforeColon).append
      apply (skips_separator depth (.inr rfl)).append
      apply (skips_space depth afterColon).append
      exact (ih inside).append (skips_space depth after)
  | moreMembers before key beforeColon afterColon value after rest value_ih rest_ih =>
      apply (skips_space depth before).append
      apply (skips_stringText depth key).append
      apply (skips_space depth beforeColon).append
      apply (skips_separator depth (.inr rfl)).append
      apply (skips_space depth afterColon).append
      apply (value_ih inside).append
      apply (skips_space depth after).append
      exact (skips_separator depth (.inl rfl)).append (rest_ih inside)

/-- A whole array or object is skipped. -/
theorem skipContainer_bracketed {text : Bytes} {opening closing : UInt8}
    (opens : opening = 0x7B ∨ opening = 0x5B) (closes : closing = 0x7D ∨ closing = 0x5D)
    (within : Skips 1 text 1) (rest : Bytes) :
    skipContainer (opening :: text ++ closing :: rest) = some rest := by
  have inside : Skips 0 (opening :: text) 1 := (skips_opening 0 opens).append within
  obtain ⟨left, some_, same⟩ := inside _ (closing :: rest) le_rfl
  rw [skipContainer, same]
  cases left with
  | zero => exact absurd some_ (Nat.not_succ_le_zero _)
  | succ left => rcases closes with rfl | rfl <;> rfl

/-! ## Values and members -/

/-- What the reader returns for a value: a string's bytes, the raw text of a number or a
literal, and nothing of an array or object. -/
def memberValue : Json .value → JsonMember
  | .string items => { isString := true, value := utf8 (chars items) }
  | .number n => { value := n.text }
  | .literal name => { value := name.text }
  | _ => {}

def memberOf (member : List Char × Json .value) : Bytes × JsonMember :=
  (utf8 member.1, memberValue member.2)

theorem skipWs_space (space : Space) (rest : Bytes) :
    skipWs (space.bytes ++ rest) = skipWs rest := by
  apply List.dropWhile_append_of_pos
  intro c member
  have blank := space.blank c member
  simp only [List.mem_cons, List.not_mem_nil, or_false] at blank
  rcases blank with rfl | rfl | rfl | rfl <;> rfl

theorem Follows.stops_space {rest : Bytes} (follows : Follows rest) (space : Space) :
    Stops (space.bytes ++ rest) := by
  cases bytes : space.bytes with
  | nil => exact follows.stops
  | cons c blanks =>
      refine ⟨c, blanks ++ rest, rfl, ?_⟩
      have blank := space.blank c (by rw [bytes]; exact List.mem_cons_self)
      simp only [List.mem_cons, List.not_mem_nil, or_false] at blank
      rcases blank with rfl | rfl | rfl | rfl <;> rfl

set_option maxRecDepth 2000 in
theorem isPlainByte_of_mem_wordBytes : ∀ c ∈ wordBytes, IsPlainByte c := by decide

theorem parseValue_bracketed {text : Bytes} {opening closing : UInt8}
    (opens : opening = 0x7B ∨ opening = 0x5B) (closes : closing = 0x7D ∨ closing = 0x5D)
    (within : Skips 1 text 1) (rest : Bytes) :
    parseValue (skipWs (opening :: text ++ [closing] ++ rest)) = some ({}, rest) := by
  have skipped := skipContainer_bracketed opens closes within rest
  rw [List.append_assoc, List.singleton_append]
  rw [List.cons_append] at skipped ⊢
  have visible : isSpace opening = false := by rcases opens with rfl | rfl <;> rfl
  have quote : opening ≠ 0x22 := by rcases opens with rfl | rfl <;> decide
  rw [skipWs_cons visible, parseValue, if_neg quote, if_pos opens, skipped]
  rfl

/-- **Values.** The reader returns the value and what is behind it. -/
theorem parseValue_text (value : Json .value) {after : Bytes} (stops : Stops after) :
    parseValue (skipWs (value.text ++ after)) = some (memberValue value, after) := by
  cases value with
  | string items =>
      rw [Json.text, stringText_append, skipWs_cons rfl, parseValue, if_pos rfl,
        parseString_itemsText]
      rfl
  | number n =>
      exact parseValue_token n.text_ne_nil
        (fun c member => isPlainByte_of_mem_wordBytes c (n.text_subset member)) stops
  | literal name =>
      exact parseValue_token name.text_ne_nil
        (fun c member => isPlainByte_of_mem_wordBytes c (name.text_subset member)) stops
  | emptyArray space => exact parseValue_bracketed (.inr rfl) (.inr rfl) (skips_space 1 space) after
  | emptyObject space => exact parseValue_bracketed (.inl rfl) (.inl rfl) (skips_space 1 space) after
  | array elements =>
      exact parseValue_bracketed (.inr rfl) (.inr rfl) (skips_json elements le_rfl) after
  | object members =>
      exact parseValue_bracketed (.inl rfl) (.inl rfl) (skips_json members le_rfl) after

/-- A member, with the white space around it, up to a comma or the closing brace. -/
theorem parseMember_text (before : Space) (key : List Item) (beforeColon afterColon : Space)
    (value : Json .value) (after : Space) {rest : Bytes} (follows : Follows rest) :
    parseMember (before.bytes ++ (stringText key ++ (beforeColon.bytes ++ 0x3A ::
        (afterColon.bytes ++ (value.text ++ (after.bytes ++ rest)))))) =
      some (memberOf (chars key, value), after.bytes ++ rest) := by
  rw [parseMember, skipWs_space, stringText_append, skipWs_cons rfl]
  simp only [ne_eq, not_true_eq_false, ↓reduceIte, parseString_itemsText, Option.bind_some]
  rw [skipWs_space, skipWs_cons rfl]
  simp only [not_true_eq_false, ↓reduceIte]
  rw [skipWs_space, parseValue_text value (follows.stops_space after)]
  rfl

theorem length_text_members_pos {part : Part} (json : Json part) (members : part = .members) :
    0 < json.text.length := by
  cases json with
  | lastMember before key beforeColon afterColon value after =>
      simp only [Json.text, stringText, List.length_append, List.length_cons]
      omega
  | moreMembers before key beforeColon afterColon value after rest =>
      simp only [Json.text, stringText, List.length_append, List.length_cons]
      omega
  | _ => cases members

/-- What stands between the braces of an object is read member by member. -/
theorem parseMembersFrom_text {part : Part} (json : Json part) (members : part = .members)
    {fuel : Nat} (enough : json.text.length ≤ fuel) (rest : Bytes) :
    parseMembersFrom fuel (json.text ++ 0x7D :: rest) = json.topMembers.map memberOf := by
  have closing : Follows (0x7D :: rest) := ⟨0x7D, rest, rfl, .inr rfl⟩
  have some_ := length_text_members_pos json members
  obtain ⟨fuel, rfl⟩ := Nat.exists_eq_add_one_of_ne_zero (show fuel ≠ 0 by omega)
  induction json generalizing fuel with
  | lastMember before key beforeColon afterColon value after =>
      simp only [Json.text, List.append_assoc, List.cons_append]
      rw [parseMembersFrom, parseMember_text before key beforeColon afterColon value after closing]
      dsimp only
      rw [skipWs_space, closing.skipWs]
      rfl
  | moreMembers before key beforeColon afterColon value after later _ ih =>
      have follows : Follows (0x2C :: (later.text ++ 0x7D :: rest)) := ⟨0x2C, _, rfl, .inl rfl⟩
      have positive := length_text_members_pos later rfl
      simp only [Json.text, stringText, List.length_append, List.length_cons] at enough
      obtain ⟨left, rfl⟩ := Nat.exists_eq_add_one_of_ne_zero (show fuel ≠ 0 by omega)
      have read := ih rfl positive left (by omega)
      simp only [Json.text, List.append_assoc, List.cons_append]
      rw [parseMembersFrom, parseMember_text before key beforeColon afterColon value after follows]
      dsimp only
      rw [skipWs_space, follows.skipWs]
      simp only [↓reduceIte, read]
      rfl
  | _ => cases members

/-- **Objects.** Of every object that RFC 8259 allows, the reader returns the members, in
order: a string by its characters, a number or a literal by its text, and an array or an
object empty. -/
theorem parse_object_members_exact (object : ObjectText) :
    parseObjectMembers object.text = object.json.topMembers.map memberOf := by
  obtain ⟨before, json, isObject, after⟩ := object
  rw [parseObjectMembers, ObjectText.text, skipWs_space]
  cases json with
  | emptyObject space =>
      have none : parseMember (space.bytes ++ 0x7D :: after.bytes) = none := by
        rw [parseMember, skipWs_space, skipWs_cons rfl]
        rfl
      rw [Json.text, List.cons_append, List.cons_append, skipWs_cons rfl, List.append_assoc,
        List.singleton_append]
      simp only [ne_eq, not_true_eq_false, ↓reduceIte]
      rw [List.length_append, List.length_cons, ← Nat.add_assoc, parseMembersFrom, none]
      rfl
  | object members =>
      rw [Json.text, List.cons_append, List.cons_append, skipWs_cons rfl, List.append_assoc]
      have enough : members.text.length ≤ (members.text ++ ([0x7D] ++ after.bytes)).length := by
        rw [List.length_append]
        exact Nat.le_add_right _ _
      exact parseMembersFrom_text members rfl enough after.bytes
  | _ => exact absurd isObject Bool.false_ne_true

end Adai.Samples
