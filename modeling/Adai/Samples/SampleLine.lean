import Mathlib.Data.Int.Cast.Lemmas
import Adai.Math.StreamFloat
import Adai.Samples.JsonLine

/-! # Training samples as lines

A sample is written as one JSON object: input and response always, the other
fields when they are set. Reading the line gives the strings back, and the token
count when it was computed (`Adai.Samples.parseJsonlSample_sampleToJsonl`). The two
floating-point fields are kept as their bits; `stof` is the library's reader of
them.
-/

namespace Adai.Samples

open Tokenizer

/-- A negative quality is not set, a negative token count not computed. -/
structure SampleMeta where
  domain : Bytes := []
  taskType : Bytes := []
  language : Bytes := []
  split : Bytes := []
  quality : UInt32 := StreamFloat.negativeOne
  weight : UInt32 := StreamFloat.one
  tokenCount : Int32 := -1
  deriving DecidableEq, Repr

def quoted (s : Bytes) : Bytes := ascii "\"" ++ jsonEsc s ++ ascii "\""

/-- A comma and the key of a further member. -/
def nextKey (name : String) : Bytes := ascii ",\"" ++ ascii name ++ ascii "\":"

def floatText (bits : UInt32) : Bytes := (StreamFloat.text bits).map fun c => c.toNat.toUInt8

def sampleToJsonl (input response : Bytes) (info : SampleMeta) : Bytes :=
  ascii "\x7b\"input\":" ++ quoted input ++ nextKey "response" ++ quoted response ++
    (if info.domain ≠ [] then nextKey "domain" ++ quoted info.domain else []) ++
    (if info.taskType ≠ [] then nextKey "task_type" ++ quoted info.taskType else []) ++
    (if info.language ≠ [] then nextKey "language" ++ quoted info.language else []) ++
    (if info.split ≠ [] then nextKey "split" ++ quoted info.split else []) ++
    (if StreamFloat.isNonnegative info.quality then
      nextKey "quality" ++ floatText info.quality else []) ++
    (if info.weight ≠ StreamFloat.one then nextKey "weight" ++ floatText info.weight else []) ++
    (if 0 ≤ info.tokenCount then nextKey "token_count" ++ decimal info.tokenCount.toInt else []) ++
    ascii "\x7d"

/-- What a read leaves in the caller's variables; without an input the metadata is
left alone. -/
structure ParsedSample where
  found : Bool
  input : Bytes
  response : Bytes
  info : SampleMeta
  deriving DecidableEq, Repr

def stoi32 (s : Bytes) : Option Int32 :=
  match stoi s with
  | .ok value => some (Int32.ofInt value)
  | .error _ => none

def parseJsonlSample (stof : Bytes → Option UInt32) (line : Bytes) (info : SampleMeta) :
    ParsedSample :=
  let members := parseObjectMembers line
  let input := memberStr members (ascii "input")
  let response := memberStr members (ascii "response")
  if input = [] then ⟨false, input, response, info⟩
  else
    ⟨true, input, response,
      { domain := memberStr members (ascii "domain")
        taskType := memberStr members (ascii "task_type")
        language := memberStr members (ascii "language")
        split := memberStr members (ascii "split")
        quality := memberNum stof members (ascii "quality") StreamFloat.negativeOne
        weight := memberNum stof members (ascii "weight") StreamFloat.one
        tokenCount := memberNum stoi32 members (ascii "token_count") (-1) }⟩

/-! ## The members of a written sample -/

def stringMember (name : String) (value : Bytes) : Bytes × JsonMember :=
  (ascii name, { isString := true, value := value })

def tokenMember (name : String) (value : Bytes) : Bytes × JsonMember :=
  (ascii name, { value := value })

/-- The members behind the input, in the order they are written. -/
def laterMembers (response : Bytes) (info : SampleMeta) : List (Bytes × JsonMember) :=
  [stringMember "response" response] ++
    (if info.domain ≠ [] then [stringMember "domain" info.domain] else []) ++
    (if info.taskType ≠ [] then [stringMember "task_type" info.taskType] else []) ++
    (if info.language ≠ [] then [stringMember "language" info.language] else []) ++
    (if info.split ≠ [] then [stringMember "split" info.split] else []) ++
    (if StreamFloat.isNonnegative info.quality then
      [tokenMember "quality" (floatText info.quality)] else []) ++
    (if info.weight ≠ StreamFloat.one then
      [tokenMember "weight" (floatText info.weight)] else []) ++
    (if 0 ≤ info.tokenCount then
      [tokenMember "token_count" (decimal info.tokenCount.toInt)] else [])

theorem membersText_cons (member : Bytes × JsonMember) (rest : List (Bytes × JsonMember)) :
    membersText (member :: rest) =
      memberText member ++ rest.flatMap fun other => 0x2C :: memberText other := by
  induction rest generalizing member with
  | nil => rw [membersText, List.flatMap_nil, List.append_nil]
  | cons next rest ih => rw [membersText, ih, List.flatMap_cons, List.cons_append]

theorem nextKey_stringMember {name : String} (plain : jsonEsc (ascii name) = ascii name)
    (value : Bytes) :
    0x2C :: memberText (stringMember name value) = nextKey name ++ quoted value := by
  have comma : ascii ",\"" = [0x2C, 0x22] := by decide
  have colon : ascii "\":" = [0x22, 0x3A] := by decide
  have quote : ascii "\"" = [0x22] := by decide
  simp only [memberText, stringMember, valueText, ↓reduceIte, nextKey, quoted, plain, comma, colon,
    quote, List.cons_append, List.nil_append, List.append_assoc]

theorem nextKey_tokenMember {name : String} (plain : jsonEsc (ascii name) = ascii name)
    (value : Bytes) : 0x2C :: memberText (tokenMember name value) = nextKey name ++ value := by
  have comma : ascii ",\"" = [0x2C, 0x22] := by decide
  have colon : ascii "\":" = [0x22, 0x3A] := by decide
  simp only [memberText, tokenMember, valueText, Bool.false_eq_true, ↓reduceIte, nextKey, plain,
    comma, colon, List.cons_append, List.nil_append, List.append_assoc]

theorem flatMap_optional {α β : Type*} (c : Prop) [Decidable c] (a : α) (f : α → List β) :
    (if c then [a] else []).flatMap f = if c then f a else [] := by
  split
  · exact List.flatMap_singleton f a
  · rfl

/-- A sample is written as the object of its members. -/
theorem sampleToJsonl_eq (input response : Bytes) (info : SampleMeta) :
    sampleToJsonl input response info =
      objectText (stringMember "input" input :: laterMembers response info) := by
  have opening : ascii "\x7b\"input\":" ++ quoted input =
      0x7B :: memberText (stringMember "input" input) := by
    have key : ascii "\x7b\"input\":" = 0x7B :: 0x22 :: jsonEsc (ascii "input") ++ [0x22, 0x3A] := by
      decide
    have quote : ascii "\"" = [0x22] := by decide
    simp only [key, memberText, stringMember, valueText, quoted, quote, ↓reduceIte,
      List.cons_append, List.nil_append, List.append_assoc]
  have closing : ascii "\x7d" = [0x7D] := by decide
  unfold objectText laterMembers
  rw [membersText_cons]
  simp only [List.flatMap_append, flatMap_optional, List.flatMap_singleton]
  rw [nextKey_stringMember (by decide), nextKey_stringMember (by decide),
    nextKey_stringMember (by decide), nextKey_stringMember (by decide),
    nextKey_stringMember (by decide), nextKey_tokenMember (by decide),
    nextKey_tokenMember (by decide), nextKey_tokenMember (by decide)]
  unfold sampleToJsonl
  rw [opening, closing]
  simp only [List.cons_append, List.append_assoc]

/-! ## Readable members -/

theorem isPlainByte_of_isDigit {c : UInt8} (digit : isDigit c = true) : IsPlainByte c := by
  have bytes : ∀ b : BitVec 8, isDigit ⟨b⟩ = true → IsPlainByte ⟨b⟩ := by decide +kernel
  exact bytes c.toBitVec digit

theorem isPlainByte_of_isNumeral {c : Char} (numeral : StreamFloat.isNumeral c = true) :
    IsPlainByte c.toNat.toUInt8 := by
  rw [StreamFloat.isNumeral, Bool.or_eq_true] at numeral
  rcases numeral with digit | letter
  · have digits : ∀ n < 58, 48 ≤ n → IsPlainByte n.toUInt8 := by decide
    simp only [Char.isDigit, Bool.and_eq_true, decide_eq_true_eq, ge_iff_le] at digit
    have low : 48 ≤ c.toNat := UInt32.le_iff_toNat_le.mp digit.1
    have high : c.toNat ≤ 57 := UInt32.le_iff_toNat_le.mp digit.2
    exact digits _ (by omega) low
  · have letters : ['.', '+', '-', 'e', 'i', 'n', 'f', 'a'].all
        (fun d => decide (IsPlainByte d.toNat.toUInt8)) = true := by decide
    exact of_decide_eq_true (List.all_eq_true.mp letters c (List.contains_iff_mem.mp letter))

theorem readable_stringMember (name : String) (value : Bytes) :
    (stringMember name value).2.Readable := nofun

theorem readable_floatText (name : String) (bits : UInt32) :
    (tokenMember name (floatText bits)).2.Readable := by
  intro _
  refine ⟨List.map_eq_nil_iff.not.mpr (StreamFloat.text_ne_nil bits), ?_⟩
  intro c member
  obtain ⟨d, listed, rfl⟩ := List.mem_map.mp member
  exact isPlainByte_of_isNumeral (StreamFloat.numeral_text bits d listed)

theorem decimal_eq_digits {value : Int} (nonnegative : 0 ≤ value) :
    decimal value = digits value.toNat := by
  obtain ⟨n, rfl⟩ := Int.eq_ofNat_of_zero_le nonnegative
  rfl

theorem readable_decimal (name : String) {value : Int} (nonnegative : 0 ≤ value) :
    (tokenMember name (decimal value)).2.Readable := by
  intro _
  change decimal value ≠ [] ∧ ∀ c ∈ decimal value, IsPlainByte c
  rw [decimal_eq_digits nonnegative]
  exact ⟨digits_ne_nil _, fun c member => isPlainByte_of_isDigit (isDigit_of_mem_digits member)⟩

theorem toInt_nonneg {n : Int32} (nonnegative : 0 ≤ n) : 0 ≤ n.toInt :=
  Int32.le_iff_toInt_le.mp nonnegative

theorem readable_laterMembers (input response : Bytes) (info : SampleMeta) :
    ∀ member ∈ stringMember "input" input :: laterMembers response info,
      member.2.Readable := by
  have optional : ∀ (c : Prop) [Decidable c] (m : Bytes × JsonMember), (c → m.2.Readable) →
      ∀ member ∈ (if c then [m] else []), member.2.Readable := by
    intro c _ m readable member listed
    split at listed
    · rename_i holds
      rw [List.mem_singleton.mp listed]
      exact readable holds
    · cases listed
  rw [List.forall_mem_cons]
  refine ⟨readable_stringMember _ _, ?_⟩
  unfold laterMembers
  simp only [List.forall_mem_append]
  refine ⟨⟨⟨⟨⟨⟨⟨?_, ?_⟩, ?_⟩, ?_⟩, ?_⟩, ?_⟩, ?_⟩, ?_⟩
  · exact List.forall_mem_singleton.mpr (readable_stringMember _ _)
  · exact optional _ _ fun _ => readable_stringMember _ _
  · exact optional _ _ fun _ => readable_stringMember _ _
  · exact optional _ _ fun _ => readable_stringMember _ _
  · exact optional _ _ fun _ => readable_stringMember _ _
  · exact optional _ _ fun _ => readable_floatText _ _
  · exact optional _ _ fun _ => readable_floatText _ _
  · exact optional _ _ fun counted => readable_decimal _ (toInt_nonneg counted)

/-! ## Reading a sample back -/

theorem findMember_optional (c : Prop) [Decidable c] (name key : Bytes) (m : JsonMember) :
    findMember (if c then [(name, m)] else []) key = if c ∧ name = key then some m else none := by
  by_cases holds : c
  · simp only [holds, ↓reduceIte, findMember_singleton, true_and]
  · simp only [holds, ↓reduceIte, false_and]
    rfl

/-- What the members of a written sample hold under each of the keys that are read
back as they were. -/
theorem findMember_sample (input response : Bytes) (info : SampleMeta) :
    let find := fun name =>
      findMember (stringMember "input" input :: laterMembers response info) (ascii name)
    find "input" = some { isString := true, value := input } ∧
    find "response" = some { isString := true, value := response } ∧
    find "domain" =
      (if info.domain ≠ [] then some { isString := true, value := info.domain } else none) ∧
    find "task_type" =
      (if info.taskType ≠ [] then some { isString := true, value := info.taskType } else none) ∧
    find "language" =
      (if info.language ≠ [] then some { isString := true, value := info.language } else none) ∧
    find "split" =
      (if info.split ≠ [] then some { isString := true, value := info.split } else none) ∧
    find "token_count" =
      (if 0 ≤ info.tokenCount then some { value := decimal info.tokenCount.toInt } else none) := by
  rw [← List.singleton_append]
  unfold laterMembers stringMember tokenMember
  simp +decide only [findMember_append, findMember_optional, findMember_singleton, and_false,
    and_true, ↓reduceIte, Option.none_or, Option.or_none, and_self]

theorem memberStr_optional {members : List (Bytes × JsonMember)} {key value : Bytes}
    (found : findMember members key =
      if value ≠ [] then some { isString := true, value := value } else none) :
    memberStr members key = value := by
  unfold memberStr
  rw [found]
  by_cases unset : value = []
  · simp only [unset, ne_eq, not_true_eq_false, ↓reduceIte]
  · simp only [unset, ne_eq, not_false_eq_true, ↓reduceIte]

theorem memberStr_string {members : List (Bytes × JsonMember)} {key value : Bytes}
    (found : findMember members key = some { isString := true, value := value }) :
    memberStr members key = value := by
  unfold memberStr
  rw [found]
  rfl

theorem stoi32_decimal {count : Int32} (nonnegative : 0 ≤ count) :
    stoi32 (decimal count.toInt) = some count := by
  have bound : count.toInt ≤ 2147483647 := Int32.toInt_le count
  unfold stoi32
  rw [stoi_decimal (toInt_nonneg nonnegative) bound]
  exact congrArg some (Int32.ofInt_toInt count)

theorem memberNum_tokenCount {members : List (Bytes × JsonMember)} {key : Bytes} {count : Int32}
    (found : findMember members key =
      if 0 ≤ count then some { value := decimal count.toInt } else none) :
    memberNum stoi32 members key (-1) = if 0 ≤ count then count else -1 := by
  unfold memberNum
  rw [found]
  by_cases counted : 0 ≤ count
  · have some_ : (decimal count.toInt).isEmpty = false := by
      rw [decimal_eq_digits (toInt_nonneg counted)]
      exact List.isEmpty_eq_false_iff.mpr (digits_ne_nil _)
    simp only [counted, ↓reduceIte, some_, Bool.or_self, Bool.false_eq_true,
      stoi32_decimal counted, Option.getD_some]
  · simp only [counted, ↓reduceIte]

/-- **Sample lines.** A sample with an input is read back from its line: input,
response and the metadata strings as they were, and the token count, which is -1
when it was not computed. The line has no raw newline. -/
theorem parseJsonlSample_sampleToJsonl (stof : Bytes → Option UInt32) (input response : Bytes)
    (info before : SampleMeta) (named : input ≠ []) :
    let line := sampleToJsonl input response info
    let parsed := parseJsonlSample stof line before
    parsed.found = true ∧ parsed.input = input ∧ parsed.response = response ∧
      parsed.info.domain = info.domain ∧ parsed.info.taskType = info.taskType ∧
      parsed.info.language = info.language ∧ parsed.info.split = info.split ∧
      parsed.info.tokenCount = (if 0 ≤ info.tokenCount then info.tokenCount else -1) ∧
      (0x0A : UInt8) ∉ line := by
  intro line parsed
  have readable := readable_laterMembers input response info
  have written : line = objectText (stringMember "input" input :: laterMembers response info) :=
    sampleToJsonl_eq input response info
  have members : parseObjectMembers line =
      stringMember "input" input :: laterMembers response info := by
    rw [written]
    exact parseObjectMembers_objectText readable
  obtain ⟨inputFound, responseFound, domain, taskType, language, split, tokenCount⟩ :=
    findMember_sample input response info
  have inputRead := memberStr_string inputFound
  simp only [parsed, parseJsonlSample, members, inputRead, named, ↓reduceIte]
  refine ⟨trivial, trivial, memberStr_string responseFound, memberStr_optional domain,
    memberStr_optional taskType, memberStr_optional language, memberStr_optional split,
    memberNum_tokenCount tokenCount, ?_⟩
  rw [written]
  exact newline_notMem_objectText readable

/-- A quote, a newline and a byte outside ASCII, with a counted sample. -/
theorem parseJsonlSample_sampleToJsonl_quotes :
    let input : Bytes := [0x22, 0x0A, 0x5C, 0xC3]
    let info : SampleMeta := { taskType := ascii "qa", tokenCount := 7 }
    let parsed := parseJsonlSample (fun _ => none) (sampleToJsonl input [] info) {}
    parsed.input = [0x22, 0x0A, 0x5C, 0xC3] ∧ parsed.info.tokenCount = 7 := by
  have back := parseJsonlSample_sampleToJsonl (fun _ => none) [0x22, 0x0A, 0x5C, 0xC3] []
    { taskType := ascii "qa", tokenCount := 7 } {} (by decide)
  exact ⟨back.2.1, back.2.2.2.2.2.2.2.1⟩

/-- A token count below -1 says that nothing was counted and comes back as -1. -/
theorem parseJsonlSample_sampleToJsonl_fails :
    ¬ ∀ (stof : Bytes → Option UInt32) (input response : Bytes) (info before : SampleMeta),
      input ≠ [] →
        let line := sampleToJsonl input response info
        let parsed := parseJsonlSample stof line before
        parsed.found = true ∧ parsed.input = input ∧ parsed.response = response ∧
          parsed.info.domain = info.domain ∧ parsed.info.taskType = info.taskType ∧
          parsed.info.language = info.language ∧ parsed.info.split = info.split ∧
          parsed.info.tokenCount = info.tokenCount ∧ (0x0A : UInt8) ∉ line := by
  intro claim
  have kept := (claim (fun _ => none) (ascii "a") [] { tokenCount := -2 } {}
    (by decide)).2.2.2.2.2.2.2.1
  exact absurd kept (by decide)

end Adai.Samples
