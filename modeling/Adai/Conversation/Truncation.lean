import Mathlib.Data.List.Forall2
import Mathlib.Algebra.BigOperators.Group.List.Basic
import Adai.Conversation.ConversationContext

/-! # What truncating does to a context

Truncating keeps the newest messages, cutting at most the content of one at the
start of a character (`Adai.Conversation.Shrunk`), keeps the cached total right, and
ends within both limits when an empty message of the newest one's role fits
(`Adai.Conversation.ConversationContext.truncateToLimits_bounded`).
-/

namespace Adai.Conversation

open Tokenizer

/-- The message, or what its content ends with from the start of a character on. -/
structure Cut (m m' : Message) : Prop where
  role : m'.role = m.role
  suffix : m'.content <:+ m.content
  boundary : m'.content = m.content ∨ ∀ c ∈ m'.content.head?, isContinuation c = false

theorem Cut.refl (m : Message) : Cut m m := ⟨rfl, List.suffix_refl _, .inl rfl⟩

theorem Cut.trans {m m' m'' : Message} (first : Cut m m') (second : Cut m' m'') : Cut m m'' where
  role := second.role.trans first.role
  suffix := second.suffix.trans first.suffix
  boundary := by
    rcases second.boundary with same | starts
    · rw [same]
      exact first.boundary
    · exact .inr starts

/-- The newest of the old messages, each whole or cut. -/
def Remain (old new : List Message) : Prop := ∃ n, List.Forall₂ Cut (old.drop n) new

section Remain

variable {old new newer : List Message}

theorem forall₂_cut_refl (messages : List Message) : List.Forall₂ Cut messages messages :=
  List.forall₂_same.mpr fun m _ => Cut.refl m

theorem Remain.of_suffix (kept : new <:+ old) : Remain old new := by
  obtain ⟨gone, rfl⟩ := kept
  refine ⟨gone.length, ?_⟩
  rw [List.drop_left]
  exact forall₂_cut_refl new

theorem forall₂_cut_trans (first : List.Forall₂ Cut old new) (second : List.Forall₂ Cut new newer) :
    List.Forall₂ Cut old newer := by
  induction first generalizing newer with
  | nil =>
      cases second
      exact .nil
  | cons head _ ih =>
      cases second with
      | cons next rest => exact .cons (head.trans next) (ih rest)

theorem Remain.trans (first : Remain old new) (second : Remain new newer) : Remain old newer := by
  obtain ⟨n, kept⟩ := first
  obtain ⟨m, kept'⟩ := second
  refine ⟨n + m, ?_⟩
  rw [← List.drop_drop]
  exact forall₂_cut_trans (List.forall₂_drop m kept) kept'

theorem Remain.length_le (remain : Remain old new) : new.length ≤ old.length := by
  obtain ⟨n, kept⟩ := remain
  rw [← kept.length_eq, List.length_drop]
  omega

/-- Messages added to both sides stay. -/
theorem Remain.append_right (remain : Remain old new) (added : List Message) :
    Remain (old ++ added) (new ++ added) := by
  obtain ⟨n, kept⟩ := remain
  have dropped : old.drop (min n old.length) = old.drop n := by
    rcases Nat.le_total n old.length with within | beyond
    · rw [Nat.min_eq_left within]
    · rw [Nat.min_eq_right beyond, List.drop_length, List.drop_eq_nil_of_le beyond]
  refine ⟨min n old.length, ?_⟩
  rw [List.drop_append_of_le_length (Nat.min_le_right _ _), dropped]
  exact List.rel_append kept (forall₂_cut_refl added)

end Remain

namespace ConversationContext

/-- The cached total is what the messages and the system message add up to. -/
def Consistent (c : ConversationContext) : Prop := c.totalTokens = c.systemTokens + c.messageTokens

instance (c : ConversationContext) : Decidable c.Consistent := inferInstanceAs (Decidable (_ = _))

/-! ## Eviction -/

/-- Some of the oldest messages are gone, with their tokens. -/
def Evicted (c c' : ConversationContext) : Prop :=
  ∃ gone rest, c.messages = gone ++ rest ∧
    c' = { c with
      messages := rest
      totalTokens := c.totalTokens - (gone.map Message.tokenCount).sum }

theorem Evicted.refl (c : ConversationContext) : Evicted c c :=
  ⟨[], c.messages, rfl, by simp⟩

theorem Evicted.trans {c c' c'' : ConversationContext} (first : Evicted c c')
    (second : Evicted c' c'') : Evicted c c'' := by
  obtain ⟨gone, rest, messages, rfl⟩ := first
  obtain ⟨gone', rest', messages', rfl⟩ := second
  refine ⟨gone ++ gone', rest', ?_, ?_⟩
  · rw [messages, show rest = gone' ++ rest' from messages', List.append_assoc]
  · simp only [List.map_append, List.sum_append, Int.sub_sub]

theorem removeOldestMessage_evicted (c : ConversationContext) : Evicted c c.removeOldestMessage := by
  unfold removeOldestMessage
  split
  · exact .refl c
  · rename_i oldest rest messages
    refine ⟨[oldest], rest, messages, ?_⟩
    simp

theorem removeWhile_evicted (test : ConversationContext → Bool) (fuel : Nat)
    (c : ConversationContext) : Evicted c (removeWhile test fuel c) := by
  induction fuel generalizing c with
  | zero => exact .refl c
  | succ fuel ih =>
      unfold removeWhile
      split
      · exact (removeOldestMessage_evicted c).trans (ih _)
      · exact .refl c

theorem length_removeOldestMessage {c : ConversationContext} (some_ : c.messages ≠ []) :
    c.removeOldestMessage.messages.length + 1 = c.messages.length := by
  unfold removeOldestMessage
  split
  · rename_i none
    exact (some_ none).elim
  · rename_i oldest rest messages
    rw [messages, List.length_cons]

/-- The loop runs until its test fails, when the test needs a message. -/
theorem removeWhile_stops {test : ConversationContext → Bool} {fuel : Nat} {c : ConversationContext}
    (needs : ∀ c', Evicted c c' → test c' = true → c'.messages ≠ [])
    (enough : c.messages.length ≤ fuel) : test (removeWhile test fuel c) = false := by
  induction fuel generalizing c with
  | zero =>
      rw [← Bool.not_eq_true]
      intro holds
      have empty : c.messages = [] := List.eq_nil_of_length_eq_zero (Nat.le_zero.mp enough)
      exact needs c (.refl c) holds empty
  | succ fuel ih =>
      unfold removeWhile
      by_cases holds : test c = true
      · rw [if_pos holds]
        have removed := removeOldestMessage_evicted c
        have shorter := length_removeOldestMessage (needs c (.refl c) holds)
        apply ih
        · exact fun c' evicted => needs c' (removed.trans evicted)
        · omega
      · rw [if_neg holds]
        exact Bool.not_eq_true _ ▸ holds

/-! ## Every stage shrinks the context -/

/-- Limits and counter stay, the system message stays or goes, the newest messages
remain, and a right total stays right. -/
structure Shrunk (c c' : ConversationContext) : Prop where
  maxMessages : c'.maxMessages = c.maxMessages
  maxTokens : c'.maxTokens = c.maxTokens
  keepSystemMessage : c'.keepSystemMessage = c.keepSystemMessage
  tokenCounter : c'.tokenCounter = c.tokenCounter
  consistent : c.Consistent → c'.Consistent
  remain : Remain c.messages c'.messages

theorem Shrunk.trans {c c' c'' : ConversationContext} (first : Shrunk c c')
    (second : Shrunk c' c'') : Shrunk c c'' where
  maxMessages := second.maxMessages.trans first.maxMessages
  maxTokens := second.maxTokens.trans first.maxTokens
  keepSystemMessage := second.keepSystemMessage.trans first.keepSystemMessage
  tokenCounter := second.tokenCounter.trans first.tokenCounter
  consistent := fun right => second.consistent (first.consistent right)
  remain := first.remain.trans second.remain

theorem Evicted.consistent {c c' : ConversationContext} (evicted : Evicted c c')
    (right : c.Consistent) : c'.Consistent := by
  obtain ⟨gone, rest, messages, rfl⟩ := evicted
  unfold Consistent messageTokens at *
  rw [messages, List.map_append, List.sum_append] at right
  simp only [systemTokens] at *
  omega

theorem Evicted.shrunk {c c' : ConversationContext} (evicted : Evicted c c') : Shrunk c c' := by
  have right := evicted.consistent
  obtain ⟨gone, rest, messages, rfl⟩ := evicted
  exact ⟨rfl, rfl, rfl, rfl, right, .of_suffix ⟨gone, messages.symm⟩⟩

theorem Shrunk.refl (c : ConversationContext) : Shrunk c c := (Evicted.refl c).shrunk

theorem tailWithinTokens_suffix (content : Bytes) (maxTokens : Int) (count : Bytes → Int) :
    tailWithinTokens content maxTokens count <:+ content :=
  (List.dropWhile_suffix _).trans (List.drop_suffix _ _)

theorem tailWithinTokens_boundary (content : Bytes) (maxTokens : Int) (count : Bytes → Int) :
    ∀ c ∈ (tailWithinTokens content maxTokens count).head?, isContinuation c = false := by
  intro c first
  have stops := List.head?_dropWhile_not isContinuation
    (content.drop (Bisection.search (fun i => decide (count (content.drop i) ≤ maxTokens))
      content.length))
  unfold tailWithinTokens at first
  rw [Option.mem_def] at first
  rw [first] at stops
  simpa using stops

theorem cutNewest_shrunk (c : ConversationContext) : Shrunk c c.cutNewest := by
  unfold cutNewest
  split
  · rename_i last messages
    split
    · dsimp only
      split
      · refine ⟨rfl, rfl, rfl, rfl, ?_, ?_⟩
        · intro right
          unfold Consistent messageTokens at *
          simp only [messages, systemTokens, List.map_cons, List.map_nil, List.sum_cons,
            List.sum_nil] at *
          omega
        · refine ⟨0, ?_⟩
          rw [messages]
          exact .cons ⟨rfl, tailWithinTokens_suffix .., .inr (tailWithinTokens_boundary _ _ _)⟩ .nil
      · exact (removeOldestMessage_evicted c).shrunk
    · exact .refl c
  · exact .refl c

theorem evictSystemMessage_shrunk (c : ConversationContext) : Shrunk c c.evictSystemMessage := by
  unfold evictSystemMessage
  split
  · refine ⟨rfl, rfl, rfl, rfl, ?_, .of_suffix (List.suffix_refl _)⟩
    intro right
    unfold Consistent messageTokens at *
    simp only [systemTokens, Option.map_none, Option.getD_none] at *
    omega
  · exact .refl c

theorem truncateToCount_evicted (c : ConversationContext) : Evicted c c.truncateToCount := by
  unfold truncateToCount
  split
  · exact removeWhile_evicted ..
  · exact .refl c

theorem evictToBudget_evicted (c : ConversationContext) : Evicted c c.evictToBudget :=
  removeWhile_evicted ..

theorem truncateToLimits_shrunk (c : ConversationContext) : Shrunk c c.truncateToLimits := by
  have counted := (truncateToCount_evicted c).shrunk
  unfold truncateToLimits
  extract_lets first
  split
  · exact (counted.trans (evictToBudget_evicted _).shrunk).trans
      ((cutNewest_shrunk _).trans (evictSystemMessage_shrunk _))
  · exact counted

/-! ## Operations keep the total -/

theorem Shrunk.fresh {c c' : ConversationContext} (shrunk : Shrunk c c') : c'.fresh = c.fresh := by
  unfold ConversationContext.fresh
  rw [shrunk.maxMessages, shrunk.maxTokens, shrunk.keepSystemMessage, shrunk.tokenCounter]

theorem append_consistent {c : ConversationContext} (right : c.Consistent) (role content : Bytes)
    (tokenCount : Int) : (c.append role content tokenCount).Consistent := by
  unfold Consistent messageTokens at *
  simp only [append, systemTokens, List.map_append, List.map_cons, List.map_nil, List.sum_append,
    List.sum_cons, List.sum_nil] at *
  omega

theorem addMessage_shrunk (c : ConversationContext) (role content : Bytes) (tokenCount : Int) :
    Shrunk (c.append role content tokenCount) (c.addMessage role content tokenCount) :=
  truncateToLimits_shrunk _

theorem setSystemMessage_consistent {c : ConversationContext} (right : c.Consistent)
    (content : Bytes) (tokenCount : Int) : (c.setSystemMessage content tokenCount).Consistent := by
  unfold Consistent messageTokens at *
  simp only [setSystemMessage, systemTokens, Option.map_some, Option.getD_some] at *
  omega

theorem recount_consistent (c : ConversationContext) : c.recount.Consistent := rfl

theorem fresh_consistent (c : ConversationContext) : c.fresh.Consistent := rfl

theorem clear_consistent (c : ConversationContext) : c.clear.Consistent := by
  unfold clear Consistent messageTokens
  split
  · simp [systemTokens]
  · rfl

/-- The additions of an import: settings stay, a right total stays right, and the
newest of the old and added messages remain. -/
theorem foldl_addMessage (lines : List (Bytes × Bytes)) (c : ConversationContext) :
    let added := lines.foldl (fun c (role, content) => c.addMessage role content 0) c
    added.fresh = c.fresh ∧ (c.Consistent → added.Consistent) ∧
      Remain (c.messages ++ lines.map fun (role, content) => ⟨role, content, 0⟩)
        added.messages := by
  induction lines generalizing c with
  | nil => exact ⟨rfl, id, .of_suffix (by simp)⟩
  | cons line rest ih =>
      obtain ⟨role, content⟩ := line
      have shrunk := addMessage_shrunk c role content 0
      obtain ⟨settings, right, remain⟩ := ih (c.addMessage role content 0)
      refine ⟨settings.trans shrunk.fresh, ?_, ?_⟩
      · exact fun start => right (shrunk.consistent (append_consistent start role content 0))
      · have offered : Remain (c.messages ++ [⟨role, content, 0⟩])
            (c.append role content 0).messages := by
          refine ⟨0, ?_⟩
          exact List.rel_append (forall₂_cut_refl c.messages)
            (.cons ⟨rfl, List.suffix_refl _, .inl rfl⟩ .nil)
        have step := (offered.trans shrunk.remain).append_right
          (rest.map fun (role, content) => ⟨role, content, 0⟩)
        rw [List.append_assoc, List.singleton_append] at step
        exact step.trans remain

theorem addParsed_spec (c : ConversationContext) (lines : Parsed) :
    (c.addParsed lines).fresh = c.fresh ∧ (c.Consistent → (c.addParsed lines).Consistent) ∧
      Remain (c.messages ++ lines.messages.map fun (role, content) => ⟨role, content, 0⟩)
        (c.addParsed lines).messages := by
  obtain ⟨settings, right, remain⟩ := foldl_addMessage lines.messages
    (c.setParsedSystem lines.systemMessage)
  have start : (c.setParsedSystem lines.systemMessage).fresh = c.fresh ∧
      (c.Consistent → (c.setParsedSystem lines.systemMessage).Consistent) ∧
      (c.setParsedSystem lines.systemMessage).messages = c.messages := by
    cases lines.systemMessage with
    | some content => exact ⟨rfl, fun right => setSystemMessage_consistent right content 0, rfl⟩
    | none => exact ⟨rfl, id, rfl⟩
  rw [start.2.2] at remain
  exact ⟨settings.trans start.1, fun first => right (start.2.1 first), remain⟩

end ConversationContext

/-- An accepted import leaves the context it has built. -/
theorem Operation.apply_deserialize (c : ConversationContext) {data : Bytes}
    (accepted : (parse data).hasSeparator = true) :
    (Operation.deserialize data).apply c = c.fresh.addParsed (parse data) := by
  have settings : (c.fresh.addParsed (parse data)).fresh = c.fresh :=
    (c.fresh.addParsed_spec (parse data)).1
  simp only [Operation.apply, ConversationContext.deserialize, accepted, Bool.not_true,
    Bool.false_eq_true, ↓reduceIte, Option.getD_some]
  generalize c.fresh.addParsed (parse data) = parsed at settings ⊢
  obtain ⟨messages, systemMessage, maxMessages, maxTokens, keep, total, counter⟩ := parsed
  simp only [ConversationContext.fresh, ConversationContext.mk.injEq] at settings
  obtain ⟨-, -, rfl, rfl, rfl, -, rfl⟩ := settings
  rfl

theorem Operation.apply_deserialize_refused (c : ConversationContext) {data : Bytes}
    (refused : (parse data).hasSeparator = false) : (Operation.deserialize data).apply c = c := by
  simp only [Operation.apply, ConversationContext.deserialize, refused, Bool.not_false, ↓reduceIte,
    Option.getD_none]

/-- **The cached total.** Every operation keeps it right. -/
theorem Operation.consistent {c : ConversationContext} (right : c.Consistent) (op : Operation) :
    (op.apply c).Consistent := by
  cases op with
  | addMessage role content tokenCount =>
      exact (c.addMessage_shrunk role content tokenCount).consistent
        (ConversationContext.append_consistent right role content tokenCount)
  | setSystemMessage content tokenCount =>
      exact ConversationContext.setSystemMessage_consistent right content tokenCount
  | setMaxMessages maxMessages =>
      exact (ConversationContext.truncateToLimits_shrunk _).consistent right
  | setMaxTokens maxTokens =>
      exact (ConversationContext.truncateToLimits_shrunk _).consistent right
  | setTokenCounter counter =>
      exact (ConversationContext.truncateToLimits_shrunk _).consistent
        (ConversationContext.recount_consistent _)
  | clear => exact ConversationContext.clear_consistent c
  | deserialize data =>
      cases accepted : (parse data).hasSeparator with
      | false =>
          rw [Operation.apply_deserialize_refused c accepted]
          exact right
      | true =>
          rw [Operation.apply_deserialize c accepted]
          exact (c.fresh.addParsed_spec (parse data)).2.1 c.fresh_consistent

end Adai.Conversation
