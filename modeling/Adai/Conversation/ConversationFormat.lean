import Adai.Tokenizer.VocabText

/-! # The serialized conversation format

Metadata lines, a separator line, then one line for each message: role, token count
and content between bars, with the content escaped so that it stays on its line.
Reading ignores the metadata and the counts and skips lines without two bars.
A message whose role fits the format is read back from its line
(`Adai.Conversation.parseLine_messageLine`).
-/

namespace Adai.Conversation

open Tokenizer

/-! ## Escapes -/

def escapeLineByte (c : UInt8) : Bytes :=
  if c = 0x5C then ascii "\\\\"
  else if c = 0x0A then ascii "\\n"
  else if c = 0x0D then ascii "\\r"
  else [c]

def escapeLine (content : Bytes) : Bytes := content.flatMap escapeLineByte

/-- The byte that an escape stands for, by the byte after the backslash. -/
def unescapeLineByte (next : UInt8) : Option UInt8 :=
  if next = 0x5C then some 0x5C
  else if next = 0x6E then some 0x0A
  else if next = 0x72 then some 0x0D
  else none

/-- A backslash before any other byte, or at the end, stands for itself. -/
def unescapeLine : Bytes → Bytes
  | [] => []
  | [c] => [c]
  | c :: next :: rest =>
      if c = 0x5C then
        match unescapeLineByte next with
        | some d => d :: unescapeLine rest
        | none => c :: unescapeLine (next :: rest)
      else c :: unescapeLine (next :: rest)

/-! ## Reading -/

structure Parsed where
  hasSeparator : Bool := false
  systemMessage : Option Bytes := none
  messages : List (Bytes × Bytes) := []
  deriving DecidableEq, Repr

/-- The role and the escaped content of a message line. -/
def splitLine (line : Bytes) : Option (Bytes × Bytes) := do
  let (role, rest) ← breakAt 0x7C line
  let (_, content) ← breakAt 0x7C rest
  some (role, content)

def parseLine (parsed : Parsed) (line : Bytes) : Parsed :=
  if line = ascii "---" then { parsed with hasSeparator := true }
  else if !parsed.hasSeparator then parsed
  else
    match splitLine line with
    | none => parsed
    | some (role, content) =>
        if role = ascii "SYSTEM" then
          { parsed with systemMessage := some (unescapeLine content) }
        else { parsed with messages := parsed.messages ++ [(role, unescapeLine content)] }

def parse (data : Bytes) : Parsed := (getlines data).foldl parseLine {}

/-! ## Escaping loses nothing -/

theorem escapeLineByte_cases (c : UInt8) :
    escapeLineByte c = [c] ∧ c ≠ 0x5C ∧ c ≠ 0x0A ∨
      ∃ next, escapeLineByte c = [0x5C, next] ∧ unescapeLineByte next = some c ∧ next ≠ 0x0A := by
  by_cases backslash : c = 0x5C
  · exact .inr ⟨0x5C, by subst backslash; decide⟩
  · by_cases newline : c = 0x0A
    · exact .inr ⟨0x6E, by subst newline; decide⟩
    · by_cases carriage : c = 0x0D
      · exact .inr ⟨0x72, by subst carriage; decide⟩
      · exact .inl ⟨by simp only [escapeLineByte, *, ↓reduceIte], backslash, newline⟩

theorem unescapeLine_escapeLineByte (c : UInt8) (rest : Bytes) :
    unescapeLine (escapeLineByte c ++ rest) = c :: unescapeLine rest := by
  rcases escapeLineByte_cases c with ⟨plain, other, _⟩ | ⟨next, escaped, back, _⟩
  · rw [plain, List.singleton_append]
    cases rest with
    | nil => rfl
    | cons next rest => rw [unescapeLine, if_neg other]
  · rw [escaped, List.cons_append, List.singleton_append, unescapeLine, if_pos rfl, back]

@[simp] theorem unescapeLine_escapeLine (content : Bytes) :
    unescapeLine (escapeLine content) = content := by
  induction content with
  | nil => rfl
  | cons c rest ih =>
      rw [escapeLine, List.flatMap_cons, unescapeLine_escapeLineByte]
      exact congrArg (c :: ·) ih

theorem newline_notMem_escapeLine (content : Bytes) : (0x0A : UInt8) ∉ escapeLine content := by
  intro member
  obtain ⟨c, _, inside⟩ := List.mem_flatMap.mp member
  rcases escapeLineByte_cases c with ⟨plain, _, other⟩ | ⟨next, escaped, _, other⟩
  · rw [plain, List.mem_singleton] at inside
    exact other inside.symm
  · rw [escaped, List.mem_cons, List.mem_singleton] at inside
    rcases inside with backslash | newline
    · exact absurd backslash (by decide)
    · exact other newline.symm

/-! ## Lines are read back -/

/-- A line as it is written: role, count and content. -/
def messageLine (role count content : Bytes) : Bytes :=
  role ++ 0x7C :: (count ++ 0x7C :: escapeLine content)

/-- Neither a bar nor a newline. -/
def OneField (field : Bytes) : Prop := (0x7C : UInt8) ∉ field ∧ (0x0A : UInt8) ∉ field

instance (field : Bytes) : Decidable (OneField field) := inferInstanceAs (Decidable (_ ∧ _))

theorem oneField_decimal (value : Int) : OneField (decimal value) := by
  have digit : ∀ n : Nat, ∀ c ∈ digits n, c ≠ 0x7C ∧ c ≠ 0x0A := by
    intro n c member
    have bytes : ∀ b : BitVec 8, isDigit ⟨b⟩ = true →
        (⟨b⟩ : UInt8) ≠ 0x7C ∧ (⟨b⟩ : UInt8) ≠ 0x0A := by decide +kernel
    exact bytes c.toBitVec (isDigit_of_mem_digits member)
  cases value with
  | ofNat n => exact ⟨fun bar => (digit n _ bar).1 rfl, fun newline => (digit n _ newline).2 rfl⟩
  | negSucc n =>
      constructor
      · intro bar
        rcases List.mem_cons.mp bar with sign | later
        · exact absurd sign (by decide)
        · exact (digit _ _ later).1 rfl
      · intro newline
        rcases List.mem_cons.mp newline with sign | later
        · exact absurd sign (by decide)
        · exact (digit _ _ later).2 rfl

theorem splitLine_messageLine {role count : Bytes} (content : Bytes) (named : OneField role)
    (counted : OneField count) :
    splitLine (messageLine role count content) = some (role, escapeLine content) := by
  unfold splitLine messageLine
  rw [breakAt_append named.1]
  dsimp only [bind, Option.bind]
  rw [breakAt_append counted.1]

theorem newline_notMem_messageLine {role count : Bytes} (content : Bytes) (named : OneField role)
    (counted : OneField count) : (0x0A : UInt8) ∉ messageLine role count content := by
  simp [messageLine, named.2, counted.2, newline_notMem_escapeLine]

/-- A message line is not taken for the separator. -/
theorem messageLine_ne_separator (role count content : Bytes) :
    messageLine role count content ≠ ascii "---" := by
  intro same
  have bar : (0x7C : UInt8) ∈ messageLine role count content := by simp [messageLine]
  rw [same] at bar
  exact absurd bar (by decide)

theorem parseLine_messageLine {parsed : Parsed} (begun : parsed.hasSeparator = true)
    {role count : Bytes} (content : Bytes) (named : OneField role) (counted : OneField count) :
    parseLine parsed (messageLine role count content) =
      if role = ascii "SYSTEM" then { parsed with systemMessage := some content }
      else { parsed with messages := parsed.messages ++ [(role, content)] } := by
  unfold parseLine
  rw [if_neg (messageLine_ne_separator role count content), if_neg (by simp [begun]),
    splitLine_messageLine content named counted]
  simp only [unescapeLine_escapeLine]

end Adai.Conversation
