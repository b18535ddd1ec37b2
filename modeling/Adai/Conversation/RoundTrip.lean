import Mathlib.Algebra.Order.BigOperators.Group.List
import Adai.Conversation.Limits

/-! # A conversation survives serializing

The text of a context parses to its messages (`Adai.Conversation.parse_serialize`),
and adding them one after the other to an empty context with the same limits and
counter builds the context again when its counts are the counter's and the limits
leave it as it is (`Adai.Conversation.deserialize_serialize`).
-/

namespace Adai.Conversation

open Tokenizer

namespace ConversationContext

/-- Roles that the line format can hold and does not take for the system message. -/
def RolesFit (c : ConversationContext) : Prop :=
  ∀ m ∈ c.messages, OneField m.role ∧ m.role ≠ ascii "SYSTEM"

instance (c : ConversationContext) : Decidable c.RolesFit :=
  inferInstanceAs (Decidable (∀ m ∈ c.messages, OneField m.role ∧ m.role ≠ ascii "SYSTEM"))

/-- The limits have nothing to remove. -/
def SatisfiesLimits (c : ConversationContext) : Prop := c.truncateToLimits = c

/-- Every token count is what the current counter makes of the message, and the
cached total is their sum. -/
structure Counted (c : ConversationContext) : Prop where
  messages : ∀ m ∈ c.messages, m.tokenCount = c.countMessageTokens m.role m.content
  system : ∀ m, c.systemMessage = some m →
    m.role = systemRole ∧ m.tokenCount = c.countMessageTokens systemRole m.content
  total : c.Consistent

end ConversationContext

/-! ## The text parses to the messages -/

theorem newline_notMem_decimal (value : Int) : (0x0A : UInt8) ∉ decimal value :=
  (oneField_decimal value).2

theorem newline_notMem_fileLines {c : ConversationContext} (roles : c.RolesFit) :
    ∀ line ∈ c.fileLines, (0x0A : UInt8) ∉ line := by
  have keys : (0x0A : UInt8) ∉ ascii "MAX_MESSAGES:" ∧ (0x0A : UInt8) ∉ ascii "MAX_TOKENS:" := by
    decide
  have keep : ∀ b : Bool,
      (0x0A : UInt8) ∉ ascii "KEEP_SYSTEM:" ++ ascii (if b then "1" else "0") := by decide
  have separator : (0x0A : UInt8) ∉ ascii "---" := by decide
  have system : OneField (ascii "SYSTEM") := by decide
  intro line member
  simp only [ConversationContext.fileLines, List.mem_append, List.mem_cons, List.not_mem_nil,
    or_false, List.mem_map] at member
  rcases member with ((rfl | rfl | rfl | rfl) | ⟨m, _, rfl⟩) | ⟨m, listed, rfl⟩
  · simp only [List.mem_append, keys.1, newline_notMem_decimal, or_self, not_false_eq_true]
  · simp only [List.mem_append, keys.2, newline_notMem_decimal, or_self, not_false_eq_true]
  · exact keep _
  · exact separator
  · exact newline_notMem_messageLine _ system (oneField_decimal _)
  · exact newline_notMem_messageLine _ (roles m listed).1 (oneField_decimal _)

/-- The lines in front of the separator are ignored. -/
theorem parseLine_metadata {key value : Bytes} (start : key.head? ≠ some 0x2D)
    (some_ : key ≠ []) : parseLine {} (key ++ value) = {} := by
  have other : key ++ value ≠ ascii "---" := by
    intro same
    obtain ⟨c, rest, rfl⟩ := List.exists_cons_of_ne_nil some_
    have first : c = 0x2D := (List.cons.inj same).1
    exact start (congrArg some first)
  unfold parseLine
  rw [if_neg other]
  rfl

theorem foldl_parseLine_messages {messages : List Message}
    (fit : ∀ m ∈ messages, OneField m.role ∧ m.role ≠ ascii "SYSTEM") {parsed : Parsed}
    (begun : parsed.hasSeparator = true) :
    (messages.map fun m => messageLine m.role (decimal m.tokenCount) m.content).foldl
        parseLine parsed =
      { parsed with
        messages := parsed.messages ++ messages.map fun m => (m.role, m.content) } := by
  induction messages generalizing parsed with
  | nil => simp
  | cons m rest ih =>
      have here := fit m List.mem_cons_self
      have later := @ih fun other member => fit other (List.mem_cons_of_mem _ member)
      rw [List.map_cons, List.foldl_cons, parseLine_messageLine begun _ here.1 (oneField_decimal _),
        if_neg here.2]
      refine (@later { parsed with
        messages := parsed.messages ++ [(m.role, m.content)] } begun).trans ?_
      simp only [List.map_cons, List.append_assoc, List.singleton_append]

/-- The text of a context holds its system message and its messages. -/
theorem parse_serialize {c : ConversationContext} (roles : c.RolesFit) :
    parse c.serialize =
      { hasSeparator := true
        systemMessage := c.systemMessage.map Message.content
        messages := c.messages.map fun m => (m.role, m.content) } := by
  unfold parse ConversationContext.serialize
  rw [getlines_fileText (newline_notMem_fileLines roles)]
  unfold ConversationContext.fileLines
  simp only [List.cons_append, List.nil_append, List.foldl_cons, List.foldl_append]
  rw [parseLine_metadata (by decide) (by decide), parseLine_metadata (by decide) (by decide),
    parseLine_metadata (by decide) (by decide)]
  have separator : parseLine {} (ascii "---") = { hasSeparator := true } := rfl
  rw [separator]
  cases c.systemMessage with
  | none =>
      simp only [Option.toList_none, List.map_nil, List.foldl_nil, Option.map_none]
      rw [foldl_parseLine_messages roles rfl]
      rfl
  | some m =>
      simp only [Option.toList_some, List.map_cons, List.map_nil, List.foldl_cons, List.foldl_nil,
        Option.map_some]
      rw [parseLine_messageLine rfl _ (by decide) (oneField_decimal _), if_pos rfl,
        foldl_parseLine_messages roles rfl]
      rfl

/-! ## Adding the messages builds the context -/

namespace ConversationContext

/-- A context with some of the messages, and the total that goes with them. -/
def withMessages (c : ConversationContext) (messages : List Message) : ConversationContext :=
  { c with
    messages := messages
    totalTokens := c.systemTokens + (messages.map Message.tokenCount).sum }

theorem withMessages_self {c : ConversationContext} (right : c.Consistent) :
    c.withMessages c.messages = c := by
  unfold Consistent messageTokens at right
  unfold withMessages
  rw [← right]

theorem removeWhile_eq_self {test : ConversationContext → Bool} {fuel : Nat}
    {c : ConversationContext} (stops : test c = false) : removeWhile test fuel c = c := by
  cases fuel with
  | zero => rfl
  | succ fuel => simp only [removeWhile, stops, Bool.false_eq_true, ↓reduceIte]

/-- A context within its limits is left as it is. -/
theorem truncateToLimits_eq_self {c : ConversationContext}
    (count : 0 < c.maxMessages → (c.messages.length : Int) ≤ c.maxMessages)
    (budget : 0 < c.maxTokens → c.totalTokens ≤ c.maxTokens) : c.SatisfiesLimits := by
  have counted : c.truncateToCount = c := by
    unfold truncateToCount
    split
    · rename_i limited
      apply removeWhile_eq_self
      have bound := count limited
      simp only [overCount, decide_eq_false_iff_not]
      omega
    · rfl
  unfold SatisfiesLimits truncateToLimits
  rw [counted]
  dsimp only
  split
  · rename_i limited
    have bound := budget limited
    have evicted : c.evictToBudget = c := by
      apply removeWhile_eq_self
      simp only [overBudget, Bool.and_eq_false_iff, decide_eq_false_iff_not]
      omega
    have cut : c.cutNewest = c := by
      have slack : c.overSlack = false := by
        simp only [overSlack, decide_eq_false_iff_not]
        omega
      unfold cutNewest
      split
      · rw [slack, if_neg Bool.false_ne_true]
      · rfl
    rw [evicted, cut]
    unfold evictSystemMessage
    rw [if_neg]
    simp only [Bool.and_eq_true, decide_eq_true_eq, not_and]
    omega
  · rfl

theorem Evicted.eq_of_length {c c' : ConversationContext} (evicted : Evicted c c')
    (length : c.messages.length ≤ c'.messages.length) : c' = c := by
  obtain ⟨gone, rest, messages, rfl⟩ := evicted
  rw [messages, List.length_append] at length
  obtain rfl : gone = [] := List.eq_nil_of_length_eq_zero (by simp only at length; omega)
  simp only [List.nil_append] at messages
  simp [← messages]

/-- With two messages, limits that have nothing to remove are met. -/
theorem SatisfiesLimits.within {c : ConversationContext} (satisfied : c.SatisfiesLimits)
    (several : 2 ≤ c.messages.length) :
    (0 < c.maxMessages → (c.messages.length : Int) ≤ c.maxMessages) ∧
      (0 < c.maxTokens → c.totalTokens ≤ c.maxTokens) := by
  have counted := truncateToCount_evicted c
  have evicted := counted.trans (evictToBudget_evicted c.truncateToCount)
  constructor
  · have within := truncateToLimits_withinCount c
    rw [satisfied] at within
    exact within
  · intro limited
    have stages : c.truncateToCount.evictToBudget.cutNewest.evictSystemMessage = c := by
      unfold SatisfiesLimits truncateToLimits at satisfied
      simpa only [counted.shrunk.maxTokens, limited, ↓reduceIte] using satisfied
    have shrunk := (cutNewest_shrunk c.truncateToCount.evictToBudget).trans
      (evictSystemMessage_shrunk _)
    rw [stages] at shrunk
    have same := evicted.eq_of_length shrunk.remain.length_le
    have stops := evictToBudget_stops c.truncateToCount
    rw [same] at stops
    omega

theorem Counted.tokenCount_pos {c : ConversationContext} (counted : c.Counted) :
    ∀ m ∈ c.messages, 1 ≤ m.tokenCount := by
  intro m member
  rw [counted.messages m member]
  unfold countMessageTokens countWith estimateTokens
  split <;> omega

theorem sum_le_of_prefix {front messages : List Message} (within : front <+: messages)
    (positive : ∀ m ∈ messages, 1 ≤ m.tokenCount) :
    (front.map Message.tokenCount).sum ≤ (messages.map Message.tokenCount).sum := by
  obtain ⟨rest, rfl⟩ := within
  have nonnegative : 0 ≤ (rest.map Message.tokenCount).sum := by
    apply List.sum_nonneg
    intro n listed
    obtain ⟨m, member, rfl⟩ := List.mem_map.mp listed
    have one := positive m (List.mem_append_right _ member)
    omega
  rw [List.map_append, List.sum_append]
  omega

/-- With the first messages of a counted context the limits have nothing to remove. -/
theorem SatisfiesLimits.of_prefix {c : ConversationContext} (satisfied : c.SatisfiesLimits)
    (counted : c.Counted) {front : List Message} (within : front <+: c.messages)
    (some_ : front ≠ []) : (c.withMessages front).SatisfiesLimits := by
  by_cases several : 2 ≤ c.messages.length
  · obtain ⟨count, budget⟩ := satisfied.within several
    have total : c.totalTokens = c.systemTokens + c.messageTokens := counted.total
    have sum := sum_le_of_prefix within counted.tokenCount_pos
    have length := within.length_le
    apply truncateToLimits_eq_self
    · intro limited
      have bound := count limited
      change (front.length : Int) ≤ c.maxMessages
      omega
    · intro limited
      have bound := budget limited
      change c.systemTokens + (front.map Message.tokenCount).sum ≤ c.maxTokens
      unfold messageTokens at total
      omega
  · have whole : front = c.messages := by
      apply within.eq_of_length_le
      have length := List.length_pos_of_ne_nil some_
      omega
    rw [whole, withMessages_self counted.total]
    exact satisfied

/-- Adding the next message to the first ones gives the context with one more. -/
theorem addMessage_withMessages {c : ConversationContext} (satisfied : c.SatisfiesLimits)
    (counted : c.Counted) {front : List Message} {m : Message}
    (within : front ++ [m] <+: c.messages) :
    (c.withMessages front).addMessage m.role m.content 0 = c.withMessages (front ++ [m]) := by
  have member : m ∈ c.messages := within.subset (List.mem_append_right _ List.mem_cons_self)
  have appended : (c.withMessages front).append m.role m.content 0 =
      c.withMessages (front ++ [m]) := by
    have count : (c.withMessages front).countOr 0 m.role m.content = m.tokenCount :=
      (counted.messages m member).symm
    unfold append
    rw [count]
    simp only [withMessages, List.map_append, List.map_cons, List.map_nil, List.sum_append,
      List.sum_cons, List.sum_nil, Int.add_assoc, add_zero]
  unfold addMessage
  rw [appended]
  exact satisfied.of_prefix counted within (List.append_ne_nil_of_right_ne_nil _ (by nofun))

theorem foldl_addMessage_withMessages {c : ConversationContext} (satisfied : c.SatisfiesLimits)
    (counted : c.Counted) {front rest : List Message} (whole : front ++ rest = c.messages) :
    (rest.map fun m => (m.role, m.content)).foldl
        (fun c (role, content) => c.addMessage role content 0) (c.withMessages front) = c := by
  induction rest generalizing front with
  | nil =>
      rw [List.append_nil] at whole
      rw [whole]
      exact withMessages_self counted.total
  | cons m rest ih =>
      have within : front ++ [m] <+: c.messages := ⟨rest, by simp [← whole]⟩
      rw [List.map_cons, List.foldl_cons]
      dsimp only
      rw [addMessage_withMessages satisfied counted within]
      exact ih (by simp [← whole])

/-- An empty context with the system message is the context without messages. -/
theorem setParsedSystem_fresh {c : ConversationContext} (counted : c.Counted) :
    c.fresh.setParsedSystem (c.systemMessage.map Message.content) = c.withMessages [] := by
  unfold withMessages
  cases found : c.systemMessage with
  | none =>
      simp only [Option.map_none, setParsedSystem, fresh, systemTokens, found, Option.getD_none,
        List.map_nil, List.sum_nil, add_zero]
  | some m =>
      obtain ⟨named, count⟩ := counted.system m found
      have recounted : c.fresh.countOr 0 m.role m.content = m.tokenCount := by
        rw [count, named]
        rfl
      simp only [Option.map_some, setParsedSystem, setSystemMessage, ← named, recounted]
      simp only [fresh, systemTokens, found, Option.map_none, Option.getD_none, Option.map_some,
        Option.getD_some, List.map_nil, List.sum_nil, sub_zero, zero_add, add_zero]

end ConversationContext

/-- **Round trip.** A context whose counts are its counter's, whose content its limits
leave as it is and whose roles the format can hold is built again from its text, in
any context with the same limits and counter. -/
theorem deserialize_serialize (c target : ConversationContext) (roles : c.RolesFit)
    (counted : c.Counted) (satisfied : c.SatisfiesLimits) (same : target.fresh = c.fresh) :
    target.deserialize c.serialize = some c := by
  have built : target.fresh.addParsed (parse c.serialize) = c := by
    rw [same, parse_serialize roles]
    unfold ConversationContext.addParsed
    dsimp only
    rw [ConversationContext.setParsedSystem_fresh counted]
    exact ConversationContext.foldl_addMessage_withMessages satisfied counted rfl
  have accepted : (parse c.serialize).hasSeparator = true := by rw [parse_serialize roles]
  have applied := Operation.apply_deserialize target accepted
  rw [built] at applied
  unfold Operation.apply at applied
  unfold ConversationContext.deserialize at applied ⊢
  simp only [accepted, Bool.not_true, Bool.false_eq_true, ↓reduceIte, Option.getD_some] at applied ⊢
  exact congrArg some applied

/-- Bars, backslashes and line breaks in the contents. -/
theorem deserialize_serialize_bars :
    let begun := (newContext 20 2048 true).setSystemMessage (ascii "be | brief") 0
    let c := begun.addMessage (ascii "user") (ascii "a|b\\n\n\\") 0
    (newContext 20 2048 true).deserialize c.serialize = some c := by
  intro begun c
  have counted : c.Counted := by
    refine ⟨by decide, ?_, by decide⟩
    intro m found
    cases found
    decide
  exact deserialize_serialize c (newContext 20 2048 true) (by decide) counted rfl rfl

end Adai.Conversation
