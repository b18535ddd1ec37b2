import Adai.Conversation.Limits

/-! # What is left of the newest message

A message that is added stays whole unless it exceeds, together with the system message,
the slack of the budget. Then it keeps its tail within the tokens that the system message
leaves, which is not empty when its last character fits; only when the system message
leaves none is it evicted (`newest_remains`). So a system message that fills the budget
takes the newest message with it, even where it may itself be evicted
(`newest_evicted`).
-/

namespace Adai.Conversation

open Tokenizer TransitionSystem

namespace ConversationContext

/-! ## Eviction spares the newest message -/

/-- A loop that never removes the last message leaves it. -/
theorem getLast?_removeWhile {test : ConversationContext → Bool} {c : ConversationContext}
    (spares : ∀ c', Evicted c c' → test c' = true → 1 < c'.messages.length) (fuel : Nat) :
    (removeWhile test fuel c).messages.getLast? = c.messages.getLast? := by
  induction fuel generalizing c with
  | zero => rfl
  | succ fuel ih =>
      unfold removeWhile
      by_cases holds : test c = true
      · have more := spares c (.refl c) holds
        have removed := removeOldestMessage_evicted c
        rw [if_pos holds, ih fun c' evicted => spares c' (removed.trans evicted)]
        cases messages : c.messages with
        | nil => simp [messages] at more
        | cons first others =>
            cases others with
            | nil => simp [messages] at more
            | cons next rest => rw [removeOldestMessage, messages, List.getLast?_cons_cons]
      · rw [if_neg holds]

theorem getLast?_truncateToCount (c : ConversationContext) :
    c.truncateToCount.messages.getLast? = c.messages.getLast? := by
  unfold truncateToCount
  split
  · rename_i limited
    apply getLast?_removeWhile
    intro c' evicted beyond
    have same := evicted.shrunk.maxMessages
    simp only [overCount, decide_eq_true_eq] at beyond
    omega
  · rfl

theorem getLast?_evictToBudget (c : ConversationContext) :
    c.evictToBudget.messages.getLast? = c.messages.getLast? := by
  apply getLast?_removeWhile
  intro c' _ beyond
  simp only [overBudget, Bool.and_eq_true, decide_eq_true_eq] at beyond
  exact beyond.2

theorem messages_evictSystemMessage (c : ConversationContext) :
    c.evictSystemMessage.messages = c.messages := by
  unfold evictSystemMessage
  split <;> rfl

theorem Evicted.systemTokens {c c' : ConversationContext} (evicted : Evicted c c') :
    c'.systemTokens = c.systemTokens := by
  obtain ⟨gone, rest, _, rfl⟩ := evicted
  rfl

/-! ## The tail that is kept -/

/-- A tail that starts a character and whose own tails all fit is kept. -/
theorem tailWithinTokens_ne_nil {count : Bytes → Int} {front back : Bytes} {maxTokens : Int}
    (some_ : back ≠ []) (starts : ∀ c ∈ back.head?, isContinuation c = false)
    (fits : ∀ tail, tail <:+ back → tail ≠ [] → count tail ≤ maxTokens) :
    tailWithinTokens (front ++ back) maxTokens count ≠ [] := by
  unfold tailWithinTokens
  extract_lets start
  have reached : start ≤ front.length := by
    apply Bisection.search_le
    intro i behind inside
    rw [List.length_append] at inside
    have tail : (front ++ back).drop i = back.drop (i - front.length) := by
      rw [List.drop_append, List.drop_eq_nil_of_le behind, List.nil_append]
    apply decide_eq_true
    rw [tail]
    apply fits _ (List.drop_suffix _ _)
    intro empty
    have all := List.drop_eq_nil_iff.mp empty
    omega
  have kept : back <:+ ((front ++ back).drop start).dropWhile isContinuation := by
    apply suffix_dropWhile_isContinuation _ starts
    rw [List.drop_append_of_le_length reached]
    exact List.suffix_append _ _
  intro empty
  rw [empty] at kept
  exact some_ (List.suffix_nil.mp kept)

/-- The content ends with a character, or a longer tail that starts one, all of whose
tails fit into what the system message leaves. -/
def TailFits (c : ConversationContext) (role content : Bytes) : Prop :=
  ∃ front back, content = front ++ back ∧ back ≠ [] ∧
    (∀ b ∈ back.head?, isContinuation b = false) ∧
    ∀ tail, tail <:+ back → tail ≠ [] →
      c.countMessageTokens role tail ≤ c.maxTokens - c.systemTokens

/-- A part of one character is estimated as one token. -/
theorem estimateTokens_of_isCodepoint {u tail : Bytes} (codepoint : IsCodepoint u)
    (suffix : tail <:+ u) (some_ : tail ≠ []) : estimateTokens tail = 1 := by
  have short := codepoint.length_le.2
  have shorter := suffix.length_le
  have positive := List.length_pos_iff.mpr some_
  have spaces : tail.count 0x20 ≤ u.count 0x20 := suffix.sublist.count_le 0x20
  have one : u.count 0x20 ≤ 1 := by
    obtain ⟨c, rest, _, continues⟩ := codepoint
    have none : rest.count 0x20 = 0 := by
      rw [List.count_eq_zero]
      intro member
      exact absurd (continues _ member) (by decide)
    rw [List.count_cons, none]
    split <;> omega
  unfold estimateTokens
  omega

/-- Without a counter the last character fits wherever there is room. -/
theorem tailFits_of_estimate {c : ConversationContext} (estimated : c.tokenCounter = none)
    (room : c.systemTokens < c.maxTokens) (role : Bytes) {content : Bytes} (some_ : content ≠ [])
    (valid : isValidUtf8 content = true) : c.TailFits role content := by
  obtain ⟨us, units, rfl⟩ := isValidUtf8_iff.mp valid
  rcases List.eq_nil_or_concat us with rfl | ⟨front, u, rfl⟩
  · exact (some_ rfl).elim
  · have codepoint : IsCodepoint u := units u (by simp)
    refine ⟨front.flatten, u, by simp, codepointCode.ne_nil u codepoint, ?_, ?_⟩
    · intro b first
      obtain ⟨lead, rest, announced, _⟩ := codepoint
      cases first
      rw [← Bool.not_eq_true]
      intro continues
      rw [leadLength_of_isContinuation continues] at announced
      cases announced
    · intro tail suffix nonempty
      have one := estimateTokens_of_isCodepoint codepoint suffix nonempty
      simp only [countMessageTokens, countWith, estimated]
      omega

/-! ## Adding a message -/

/-- The newest message of a context whose total is right is left alone by the cut, or
exceeds the slack together with the system message and is cut or removed. -/
theorem cutNewest_newest {c : ConversationContext} (right : c.Consistent) {newest : Message}
    (last : c.messages.getLast? = some newest) :
    c.cutNewest.messages.getLast? = some newest ∨
      (6 * c.maxTokens < 5 * (c.systemTokens + newest.tokenCount) ∧
        ((c.systemTokens < c.maxTokens ∧ ∃ m, c.cutNewest.messages = [m] ∧ m.role = newest.role ∧
            m.content = tailWithinTokens newest.content (c.maxTokens - c.systemTokens)
              (c.countMessageTokens newest.role)) ∨
          (c.maxTokens ≤ c.systemTokens ∧ c.cutNewest.messages = []))) := by
  unfold cutNewest
  split
  · rename_i only messages
    obtain rfl : only = newest := by
      rw [messages] at last
      exact Option.some.inj last
    by_cases beyond : c.overSlack = true
    · right
      have total : c.totalTokens = c.systemTokens + only.tokenCount := by
        unfold Consistent messageTokens at right
        rw [messages] at right
        simpa using right
      have past : 6 * c.maxTokens < 5 * c.totalTokens := of_decide_eq_true beyond
      rw [if_pos beyond]
      refine ⟨by omega, ?_⟩
      dsimp only
      by_cases room : 0 < c.maxTokens - c.systemTokens
      · left
        rw [if_pos room]
        exact ⟨by omega, _, rfl, rfl, rfl⟩
      · right
        rw [if_neg room]
        refine ⟨by omega, ?_⟩
        rw [removeOldestMessage, messages]
    · left
      rw [if_neg beyond]
      exact last
  · exact .inl last

/-- What is left of a message that is added under a budget. -/
theorem addMessage_newest {c : ConversationContext} (right : c.Consistent)
    (limited : 0 < c.maxTokens) (role content : Bytes) (tokenCount : Int) :
    let count := c.countOr tokenCount role content
    let left := (c.addMessage role content tokenCount).messages
    left.getLast? = some ⟨role, content, count⟩ ∨
      (6 * c.maxTokens < 5 * (c.systemTokens + count) ∧
        ((c.systemTokens < c.maxTokens ∧ ∃ m, left = [m] ∧ m.role = role ∧
            m.content = tailWithinTokens content (c.maxTokens - c.systemTokens)
              (c.countMessageTokens role)) ∨
          (c.maxTokens ≤ c.systemTokens ∧ left = []))) := by
  intro count left
  let offered := c.append role content tokenCount
  have evicted : Evicted offered offered.truncateToCount.evictToBudget :=
    (truncateToCount_evicted _).trans (evictToBudget_evicted _)
  have counts := evicted.consistent (append_consistent right role content tokenCount)
  have last : offered.truncateToCount.evictToBudget.messages.getLast? =
      some ⟨role, content, count⟩ := by
    rw [getLast?_evictToBudget, getLast?_truncateToCount]
    exact List.getLast?_concat
  have shrunk := evicted.shrunk
  have counter : offered.truncateToCount.evictToBudget.countMessageTokens role =
      c.countMessageTokens role := by
    unfold countMessageTokens
    rw [shrunk.tokenCounter]
    rfl
  have same : left = offered.truncateToCount.evictToBudget.cutNewest.messages := by
    have budget : 0 < offered.truncateToCount.maxTokens := by
      rw [(truncateToCount_evicted offered).shrunk.maxTokens]
      exact limited
    simp only [left, addMessage, truncateToLimits]
    rw [if_pos budget, messages_evictSystemMessage]
  have cut := cutNewest_newest counts last
  rw [same]
  rw [shrunk.maxTokens, evicted.systemTokens, counter] at cut
  exact cut

end ConversationContext

/-! ## The result -/

/-- **The newest message.** In a context reached by any calls, a message added under a
positive budget stays whole, or it exceeds the slack together with the system message. In
that case, where the system message leaves room, the message is the only one and has kept
its tail, which is not empty when its last character fits; as every character does without
a token counter. Where the system message leaves no room nothing of the message is left. -/
theorem newest_remains (maxMessages maxTokens : Int) (keepSystemMessage : Bool)
    (ops : List Operation) (c : ConversationContext)
    (run : Run OperationStep (newContext maxMessages maxTokens keepSystemMessage) ops c)
    (limited : 0 < c.maxTokens) (role content : Bytes) (tokenCount : Int) (some_ : content ≠ []) :
    let left := (c.addMessage role content tokenCount).messages
    let count := c.countOr tokenCount role content
    left.getLast? = some ⟨role, content, count⟩ ∨
      (6 * c.maxTokens < 5 * (c.systemTokens + count) ∧
        ((c.systemTokens < c.maxTokens ∧ ∃ m, left = [m] ∧ m.role = role ∧ m.content <:+ content ∧
            (c.TailFits role content → m.content ≠ []) ∧
            (c.tokenCounter = none → isValidUtf8 content = true → m.content ≠ [])) ∨
          (c.maxTokens ≤ c.systemTokens ∧ left = []))) := by
  have right : c.Consistent := by
    apply run.invariant ConversationContext.Consistent _ rfl
    intro before op after holds applied
    subst applied
    exact op.consistent holds
  intro left count
  rcases c.addMessage_newest right limited role content tokenCount with whole |
    ⟨beyond, ⟨room, m, only, roleKept, tail⟩ | gone⟩
  · exact .inl whole
  · have kept : c.TailFits role content → m.content ≠ [] := by
      rintro ⟨front, back, rfl, nonempty, starts, fits⟩
      rw [tail]
      exact ConversationContext.tailWithinTokens_ne_nil nonempty starts fits
    refine .inr ⟨beyond, .inl ⟨room, m, only, roleKept, ?_, kept, ?_⟩⟩
    · rw [tail]
      exact ConversationContext.tailWithinTokens_suffix ..
    · intro estimated valid
      exact kept (ConversationContext.tailFits_of_estimate estimated room role some_ valid)
  · exact .inr ⟨beyond, .inr gone⟩

/-- A context for ten tokens whose system message alone has a hundred. -/
def crowded : ConversationContext :=
  (newContext 0 10 false).setSystemMessage (ascii "System prompt") 100

theorem run_crowded : Run OperationStep (newContext 0 10 false)
    [.setSystemMessage (ascii "System prompt") 100] crowded :=
  .cons rfl (.refl _)

/-- A message for which there is room. -/
theorem newest_remains_short :
    ((newContext 0 10 false).addMessage (ascii "user") (ascii "hi") 2).messages.getLast? =
      some ⟨ascii "user", ascii "hi", 2⟩ := by
  rcases newest_remains 0 10 false [] _ (.refl _) (by decide) (ascii "user") (ascii "hi") 2
    (by decide) with whole | ⟨beyond, _⟩
  · exact whole
  · exact absurd beyond (by decide)

/-- With a system message beyond the budget nothing of the newest message is left. -/
theorem newest_evicted :
    ¬ ∀ (maxMessages maxTokens : Int) (ops : List Operation) (c : ConversationContext),
      Run OperationStep (newContext maxMessages maxTokens false) ops c → 0 < c.maxTokens →
      ∀ (role content : Bytes) (tokenCount : Int), content ≠ [] →
        ∃ m ∈ (c.addMessage role content tokenCount).messages,
          m.role = role ∧ m.content ≠ [] ∧ m.content <:+ content := by
  intro claim
  obtain ⟨m, member, _⟩ := claim 0 10 _ crowded run_crowded (by decide) (ascii "user")
    (ascii "Message") 5 (by decide)
  have none : (crowded.addMessage (ascii "user") (ascii "Message") 5).messages = [] := by decide
  rw [none] at member
  cases member

end Adai.Conversation
