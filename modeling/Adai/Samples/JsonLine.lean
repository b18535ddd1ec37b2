import Adai.Tokenizer.VocabText

/-! # The JSON object of a training line

The escaper that writes strings and the small reader that finds the top-level
members of an object. The reader is lenient: it keeps the members before an error,
takes control characters and invalid UTF-8 as they are, and skips nested objects and
arrays. What is written member by member is read back
(`Adai.Samples.parseObjectMembers_objectText`).
-/

namespace Adai.Samples

open Tokenizer

/-! ## Writing strings -/

def jsonEscByte (c : UInt8) : Bytes :=
  if c = 0x22 then ascii "\\\""
  else if c = 0x5C then ascii "\\\\"
  else if c = 0x0A then ascii "\\n"
  else if c = 0x0D then ascii "\\r"
  else if c = 0x09 then ascii "\\t"
  else [c]

def jsonEsc (s : Bytes) : Bytes := s.flatMap jsonEscByte

/-! ## Reading strings -/

/-- The UTF-8 bytes of a code point. -/
def appendUtf8 (cp : Nat) : Bytes :=
  if cp < 0x80 then [cp.toUInt8]
  else if cp < 0x800 then [(0xC0 ||| (cp >>> 6)).toUInt8, (0x80 ||| (cp &&& 0x3F)).toUInt8]
  else if cp < 0x10000 then
    [(0xE0 ||| (cp >>> 12)).toUInt8, (0x80 ||| ((cp >>> 6) &&& 0x3F)).toUInt8,
      (0x80 ||| (cp &&& 0x3F)).toUInt8]
  else
    [(0xF0 ||| (cp >>> 18)).toUInt8, (0x80 ||| ((cp >>> 12) &&& 0x3F)).toUInt8,
      (0x80 ||| ((cp >>> 6) &&& 0x3F)).toUInt8, (0x80 ||| (cp &&& 0x3F)).toUInt8]

def hexDigit (c : UInt8) : Option Nat :=
  if 0x30 ≤ c ∧ c ≤ 0x39 then some (c.toNat - 0x30)
  else if 0x61 ≤ c ∧ c ≤ 0x66 then some (c.toNat - 0x61 + 10)
  else if 0x41 ≤ c ∧ c ≤ 0x46 then some (c.toNat - 0x41 + 10)
  else none

def readHex4 : Bytes → Option Nat
  | a :: b :: c :: d :: _ => do
      let a ← hexDigit a
      let b ← hexDigit b
      let c ← hexDigit c
      let d ← hexDigit d
      some (((a * 16 + b) * 16 + c) * 16 + d)
  | _ => none

/-- The second half of a surrogate pair, written as an escape of its own. -/
def lowSurrogate : Bytes → Option Nat
  | backslash :: u :: rest =>
      if backslash = 0x5C ∧ u = 0x75 then
        (readHex4 rest).filter fun lo => decide (0xDC00 ≤ lo ∧ lo ≤ 0xDFFF)
      else none
  | _ => none

/-- What follows `\u`: a half of a pair without the other stands for U+FFFD. -/
def parseUnicodeEscape (rest : Bytes) : Bytes × Bytes :=
  match readHex4 rest with
  | none => (ascii "\\u", rest)
  | some cp =>
      let rest := rest.drop 4
      if 0xD800 ≤ cp ∧ cp ≤ 0xDBFF then
        match lowSurrogate rest with
        | some lo => (appendUtf8 (0x10000 + ((cp - 0xD800) <<< 10) + (lo - 0xDC00)), rest.drop 6)
        | none => (appendUtf8 0xFFFD, rest)
      else if 0xDC00 ≤ cp ∧ cp ≤ 0xDFFF then (appendUtf8 0xFFFD, rest)
      else (appendUtf8 cp, rest)

/-- The bytes an escape stands for, by the byte after the backslash, and what is
left to read. -/
def parseEscape (next : UInt8) (rest : Bytes) : Bytes × Bytes :=
  if next = 0x62 then ([0x08], rest)
  else if next = 0x66 then ([0x0C], rest)
  else if next = 0x6E then ([0x0A], rest)
  else if next = 0x72 then ([0x0D], rest)
  else if next = 0x74 then ([0x09], rest)
  else if next = 0x75 then parseUnicodeEscape rest
  -- the quote, both slashes and every unknown escape
  else ([next], rest)

/-- The string behind an opening quote and what follows its closing quote; `fuel`
is the number of bytes left. -/
def parseStringFrom : Nat → Bytes → Option (Bytes × Bytes)
  | 0, _ => none
  | _ + 1, [] => none
  | fuel + 1, c :: rest =>
      if c = 0x22 then some ([], rest)
      else if c ≠ 0x5C then
        (parseStringFrom fuel rest).map fun (out, after) => (c :: out, after)
      else
        match rest with
        | [] => none
        | next :: rest =>
            let (front, rest) := parseEscape next rest
            (parseStringFrom fuel rest).map fun (out, after) => (front ++ out, after)

def parseString (s : Bytes) : Option (Bytes × Bytes) := parseStringFrom s.length s

/-! ## Reading an object -/

/-- A member's value: a decoded string, or the raw token of a number or a literal.
A skipped object or array has an empty token. -/
structure JsonMember where
  isString : Bool := false
  value : Bytes := []
  deriving DecidableEq, Repr

def skipWs (s : Bytes) : Bytes := s.dropWhile isSpace

def skipContainerFrom : Nat → Int → Bytes → Option Bytes
  | 0, _, _ => none
  | _ + 1, _, [] => none
  | fuel + 1, depth, c :: rest =>
      if c = 0x22 then (parseString rest).bind fun (_, after) => skipContainerFrom fuel depth after
      else if c = 0x7B ∨ c = 0x5B then skipContainerFrom fuel (depth + 1) rest
      else if c = 0x7D ∨ c = 0x5D then
        if depth - 1 = 0 then some rest else skipContainerFrom fuel (depth - 1) rest
      else skipContainerFrom fuel depth rest

/-- Behind a nested object or array. -/
def skipContainer (s : Bytes) : Option Bytes := skipContainerFrom s.length 0 s

/-- A byte of a raw token. -/
def isTokenByte (c : UInt8) : Bool := !(c = 0x2C || c = 0x7D || isSpace c)

def parseValue : Bytes → Option (JsonMember × Bytes)
  | [] => none
  | c :: rest =>
      if c = 0x22 then
        (parseString rest).map fun (value, after) => ({ isString := true, value := value }, after)
      else if c = 0x7B ∨ c = 0x5B then (skipContainer (c :: rest)).map fun after => ({}, after)
      else
        some ({ value := (c :: rest).takeWhile isTokenByte }, (c :: rest).dropWhile isTokenByte)

/-- A key, a colon and a value. -/
def parseMember (s : Bytes) : Option ((Bytes × JsonMember) × Bytes) :=
  match skipWs s with
  | [] => none
  | c :: rest =>
      if c ≠ 0x22 then none
      else
        (parseString rest).bind fun (key, after) =>
          match skipWs after with
          | [] => none
          | colon :: rest =>
              if colon ≠ 0x3A then none
              else (parseValue (skipWs rest)).map fun (member, after) => ((key, member), after)

/-- One round for each member, as long as commas follow. -/
def parseMembersFrom : Nat → Bytes → List (Bytes × JsonMember)
  | 0, _ => []
  | fuel + 1, s =>
      match parseMember s with
      | none => []
      | some (member, after) =>
          match skipWs after with
          | [] => [member]
          | c :: rest => if c = 0x2C then member :: parseMembersFrom fuel rest else [member]

/-- The top-level members of the object on a line, in order. -/
def parseObjectMembers (line : Bytes) : List (Bytes × JsonMember) :=
  match skipWs line with
  | [] => []
  | c :: rest => if c ≠ 0x7B then [] else parseMembersFrom rest.length rest

/-- The last member of that key. -/
def findMember (members : List (Bytes × JsonMember)) (key : Bytes) : Option JsonMember :=
  (members.reverse.find? fun member => member.1 == key).map Prod.snd

def memberStr (members : List (Bytes × JsonMember)) (key : Bytes) : Bytes :=
  match findMember members key with
  | some m => if m.isString then m.value else []
  | none => []

/-- A number is read from a raw token only; `read` throws on anything else. -/
def memberNum {α : Type} (read : Bytes → Option α) (members : List (Bytes × JsonMember))
    (key : Bytes) (fallback : α) : α :=
  match findMember members key with
  | some m => if m.isString || m.value.isEmpty then fallback else (read m.value).getD fallback
  | none => fallback

/-! ## Strings are read back -/

theorem jsonEscByte_cases (c : UInt8) :
    jsonEscByte c = [c] ∧ c ≠ 0x22 ∧ c ≠ 0x5C ∧ c ≠ 0x0A ∨
      ∃ next, jsonEscByte c = [0x5C, next] ∧ next ≠ 0x0A ∧
        ∀ rest, parseEscape next rest = ([c], rest) := by
  by_cases quote : c = 0x22
  · exact .inr ⟨0x22, by subst quote; exact ⟨rfl, by decide, fun _ => rfl⟩⟩
  · by_cases backslash : c = 0x5C
    · exact .inr ⟨0x5C, by subst backslash; exact ⟨rfl, by decide, fun _ => rfl⟩⟩
    · by_cases newline : c = 0x0A
      · exact .inr ⟨0x6E, by subst newline; exact ⟨rfl, by decide, fun _ => rfl⟩⟩
      · by_cases carriage : c = 0x0D
        · exact .inr ⟨0x72, by subst carriage; exact ⟨rfl, by decide, fun _ => rfl⟩⟩
        · by_cases tab : c = 0x09
          · exact .inr ⟨0x74, by subst tab; exact ⟨rfl, by decide, fun _ => rfl⟩⟩
          · exact .inl ⟨by simp only [jsonEscByte, *, ↓reduceIte], quote, backslash, newline⟩

theorem parseStringFrom_plain (fuel : Nat) {c : UInt8} (quote : c ≠ 0x22) (backslash : c ≠ 0x5C)
    (rest : Bytes) : parseStringFrom (fuel + 1) (c :: rest) =
      (parseStringFrom fuel rest).map fun (out, after) => (c :: out, after) := by
  rw [parseStringFrom.eq_def]
  simp only [quote, ↓reduceIte, ne_eq, backslash, not_false_eq_true]

theorem parseStringFrom_escape (fuel : Nat) (next : UInt8) (rest : Bytes) :
    parseStringFrom (fuel + 1) (0x5C :: next :: rest) =
      (parseStringFrom fuel (parseEscape next rest).2).map fun (out, after) =>
        ((parseEscape next rest).1 ++ out, after) := rfl

/-- Reading an escaped string gives it back and stops behind its closing quote. -/
theorem parseStringFrom_jsonEsc {fuel : Nat} (s rest : Bytes)
    (enough : (jsonEsc s).length < fuel) :
    parseStringFrom fuel (jsonEsc s ++ 0x22 :: rest) = some (s, rest) := by
  induction s generalizing fuel with
  | nil =>
      cases fuel with
      | zero => exact absurd enough (Nat.not_lt_zero _)
      | succ fuel => rfl
  | cons c s ih =>
      cases fuel with
      | zero => exact absurd enough (Nat.not_lt_zero _)
      | succ fuel =>
          rw [jsonEsc, List.flatMap_cons, List.length_append] at enough
          rw [jsonEsc, List.flatMap_cons, List.append_assoc]
          rcases jsonEscByte_cases c with ⟨plain, quote, backslash, _⟩ | ⟨next, escaped, _, decoded⟩
          · have left : (jsonEsc s).length < fuel := by
              rw [plain, List.length_singleton] at enough
              unfold jsonEsc
              omega
            rw [plain, List.singleton_append, parseStringFrom_plain fuel quote backslash]
            exact congrArg (Option.map _) (ih left)
          · have left : (jsonEsc s).length < fuel := by
              rw [escaped, List.length_cons, List.length_singleton] at enough
              unfold jsonEsc
              omega
            rw [escaped, List.cons_append, List.singleton_append, parseStringFrom_escape, decoded]
            exact congrArg (Option.map _) (ih left)

theorem parseString_jsonEsc (s rest : Bytes) :
    parseString (jsonEsc s ++ 0x22 :: rest) = some (s, rest) := by
  apply parseStringFrom_jsonEsc
  rw [List.length_append, List.length_cons]
  omega

/-- No raw newline is left. -/
theorem newline_notMem_jsonEsc (s : Bytes) : (0x0A : UInt8) ∉ jsonEsc s := by
  intro member
  obtain ⟨c, _, inside⟩ := List.mem_flatMap.mp member
  rcases jsonEscByte_cases c with ⟨plain, _, _, other⟩ | ⟨next, escaped, other, _⟩
  · rw [plain, List.mem_singleton] at inside
    exact other inside.symm
  · rw [escaped, List.mem_cons, List.mem_singleton] at inside
    rcases inside with backslash | newline
    · exact absurd backslash (by decide)
    · exact other newline.symm

/-! ## Objects are read back -/

def valueText (m : JsonMember) : Bytes :=
  if m.isString then 0x22 :: jsonEsc m.value ++ [0x22] else m.value

def memberText (member : Bytes × JsonMember) : Bytes :=
  0x22 :: jsonEsc member.1 ++ [0x22, 0x3A] ++ valueText member.2

/-- The members with commas between them. -/
def membersText : List (Bytes × JsonMember) → Bytes
  | [] => []
  | [member] => memberText member
  | member :: next :: rest => memberText member ++ 0x2C :: membersText (next :: rest)

def objectText (members : List (Bytes × JsonMember)) : Bytes :=
  0x7B :: membersText members ++ [0x7D]

/-- A byte of a raw token that starts neither a string nor a container. -/
def IsPlainByte (c : UInt8) : Prop :=
  isTokenByte c = true ∧ c ≠ 0x22 ∧ c ≠ 0x7B ∧ c ≠ 0x5B

instance (c : UInt8) : Decidable (IsPlainByte c) :=
  inferInstanceAs (Decidable (_ ∧ _ ∧ _ ∧ _))

/-- A string, or a raw token that cannot be taken for one or for a container. -/
def JsonMember.Readable (m : JsonMember) : Prop :=
  m.isString = false → m.value ≠ [] ∧ ∀ c ∈ m.value, IsPlainByte c

/-- What follows a member: the next one's comma or the closing brace. -/
def Follows (after : Bytes) : Prop :=
  ∃ c rest, after = c :: rest ∧ (c = 0x2C ∨ c = 0x7D)

/-- What ends a raw token: white space, a comma or a closing brace. -/
def Stops (after : Bytes) : Prop := ∃ c rest, after = c :: rest ∧ isTokenByte c = false

theorem Follows.stops {after : Bytes} (follows : Follows after) : Stops after := by
  obtain ⟨c, rest, rfl, rfl | rfl⟩ := follows
  · exact ⟨0x2C, rest, rfl, rfl⟩
  · exact ⟨0x7D, rest, rfl, rfl⟩

theorem skipWs_cons {c : UInt8} (other : isSpace c = false) (rest : Bytes) :
    skipWs (c :: rest) = c :: rest := by
  rw [skipWs, List.dropWhile_cons_of_neg]
  simp only [other, Bool.false_eq_true, not_false_eq_true]

theorem Follows.skipWs {after : Bytes} (follows : Follows after) :
    Samples.skipWs after = after := by
  obtain ⟨c, rest, rfl, rfl | rfl⟩ := follows
  · exact skipWs_cons rfl rest
  · exact skipWs_cons rfl rest

/-- A raw token is read up to the byte that ends it. -/
theorem parseValue_token {value : Bytes} (some_ : value ≠ [])
    (plain : ∀ c ∈ value, IsPlainByte c) {after : Bytes} (stops : Stops after) :
    parseValue (skipWs (value ++ after)) = some ({ value := value }, after) := by
  obtain ⟨c, rest, rfl⟩ := List.exists_cons_of_ne_nil some_
  obtain ⟨token, quote, brace, bracket⟩ := plain c List.mem_cons_self
  have visible : isSpace c = false := by
    simp only [isTokenByte, Bool.not_eq_true', Bool.or_eq_false_iff] at token
    exact token.2
  have all : ∀ d ∈ c :: rest, isTokenByte d = true := fun d member => (plain d member).1
  obtain ⟨d, later, rfl, stop⟩ := stops
  rw [List.cons_append, skipWs_cons visible, parseValue, if_neg quote,
    if_neg (not_or.mpr ⟨brace, bracket⟩), ← List.cons_append,
    List.takeWhile_append_of_pos all, List.dropWhile_append_of_pos all,
    List.takeWhile_cons_of_neg (by simp only [stop, Bool.false_eq_true, not_false_eq_true]),
    List.dropWhile_cons_of_neg (by simp only [stop, Bool.false_eq_true, not_false_eq_true]),
    List.append_nil]

theorem parseValue_valueText {m : JsonMember} (readable : m.Readable) {after : Bytes}
    (follows : Follows after) : parseValue (skipWs (valueText m ++ after)) = some (m, after) := by
  obtain ⟨isString, value⟩ := m
  cases isString with
  | true =>
      simp only [valueText, ↓reduceIte, List.cons_append, List.append_assoc, List.nil_append]
      rw [skipWs_cons rfl, parseValue, if_pos rfl, parseString_jsonEsc]
      rfl
  | false =>
      obtain ⟨some_, plain⟩ := readable rfl
      simp only [valueText, Bool.false_eq_true, ↓reduceIte]
      exact parseValue_token some_ plain follows.stops

theorem parseMember_memberText {member : Bytes × JsonMember} (readable : member.2.Readable)
    {after : Bytes} (follows : Follows after) :
    parseMember (memberText member ++ after) = some (member, after) := by
  simp only [memberText, List.cons_append, List.append_assoc, List.nil_append]
  rw [parseMember, skipWs_cons rfl]
  simp only [ne_eq, not_true_eq_false, ↓reduceIte, parseString_jsonEsc, Option.bind_some]
  rw [skipWs_cons rfl]
  simp only [not_true_eq_false, ↓reduceIte, parseValue_valueText readable follows,
    Option.map_some]

theorem parseMembersFrom_membersText {members : List (Bytes × JsonMember)}
    (readable : ∀ member ∈ members, member.2.Readable) {fuel : Nat}
    (enough : members.length ≤ fuel) :
    parseMembersFrom fuel (membersText members ++ [0x7D]) = members := by
  have closing : Follows [0x7D] := ⟨0x7D, [], rfl, .inr rfl⟩
  induction members generalizing fuel with
  | nil => cases fuel <;> rfl
  | cons member rest ih =>
      have here := readable member List.mem_cons_self
      cases fuel with
      | zero => exact absurd enough (Nat.not_succ_le_zero _)
      | succ fuel =>
          have later : parseMembersFrom fuel (membersText rest ++ [0x7D]) = rest :=
            ih (fun other listed => readable other (List.mem_cons_of_mem _ listed))
              (Nat.le_of_succ_le_succ enough)
          cases rest with
          | nil =>
              rw [membersText, parseMembersFrom, parseMember_memberText here closing]
              rfl
          | cons next rest =>
              have comma : Follows (0x2C :: (membersText (next :: rest) ++ [0x7D])) :=
                ⟨0x2C, _, rfl, .inl rfl⟩
              rw [membersText, List.append_assoc, List.cons_append, parseMembersFrom,
                parseMember_memberText here comma]
              dsimp only
              rw [comma.skipWs]
              simp only [↓reduceIte, later]

theorem length_le_length_membersText (members : List (Bytes × JsonMember)) :
    members.length ≤ (membersText members).length + 1 := by
  induction members with
  | nil => exact Nat.zero_le _
  | cons member rest ih =>
      cases rest with
      | nil => simp [membersText]
      | cons next rest =>
          simp only [membersText, List.length_append, List.length_cons] at ih ⊢
          omega

/-- **Objects.** The reader finds the members of a written object, in order. -/
theorem parseObjectMembers_objectText {members : List (Bytes × JsonMember)}
    (readable : ∀ member ∈ members, member.2.Readable) :
    parseObjectMembers (objectText members) = members := by
  rw [objectText, List.cons_append, parseObjectMembers, skipWs_cons rfl]
  simp only [ne_eq, not_true_eq_false, ↓reduceIte]
  apply parseMembersFrom_membersText readable
  rw [List.length_append, List.length_singleton]
  exact length_le_length_membersText members

/-- The text of readable members holds no newline when their keys hold none. -/
theorem newline_notMem_objectText {members : List (Bytes × JsonMember)}
    (readable : ∀ member ∈ members, member.2.Readable) : (0x0A : UInt8) ∉ objectText members := by
  have value : ∀ m : JsonMember, m.Readable → (0x0A : UInt8) ∉ valueText m := by
    intro m readable member
    unfold valueText at member
    split at member
    · simp [newline_notMem_jsonEsc] at member
    · rename_i raw
      have plain := (readable (by simpa using raw)).2 _ member
      exact absurd plain (by decide)
  have body : (0x0A : UInt8) ∉ membersText members := by
    induction members with
    | nil => exact List.not_mem_nil
    | cons member rest ih =>
        have here := value member.2 (readable member List.mem_cons_self)
        have later := ih fun other listed => readable other (List.mem_cons_of_mem _ listed)
        have text : (0x0A : UInt8) ∉ memberText member := by
          simp [memberText, newline_notMem_jsonEsc, here]
        cases rest with
        | nil => exact text
        | cons next rest => simp [membersText, text, later]
  simp [objectText, body]

/-! ## Looking members up -/

theorem findMember_append (front back : List (Bytes × JsonMember)) (key : Bytes) :
    findMember (front ++ back) key = (findMember back key).or (findMember front key) := by
  simp only [findMember, List.reverse_append, List.find?_append, Option.map_or]

theorem findMember_singleton (name key : Bytes) (m : JsonMember) :
    findMember [(name, m)] key = if name = key then some m else none := by
  by_cases same : name = key <;> simp [findMember, same]

end Adai.Samples
