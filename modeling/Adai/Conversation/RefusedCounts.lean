import Adai.Conversation.ConversationContext

/-! # Counters that refuse a text

A tokenizer throws on a text it cannot encode, and with it the call that counts the
tokens. What such a call leaves of the context depends on where it throws: a message
whose prompt line is refused leaves it alone, a refused tail of a message that is being
cut leaves the message without its tokens in the total. A call that nothing refuses is
the call without refusals (`Adai.Conversation.ConversationContext.addMessageOrThrow_eq`).
-/

namespace Adai.Conversation

open Tokenizer

/-- What the counter throws on a text, when it refuses it. -/
abbrev Refusals := Bytes → Option Bytes

namespace ConversationContext

section Refused

variable (refuses : Refusals) (c : ConversationContext)

/-- What counting a message throws; an estimate throws nothing. -/
def refusal (role content : Bytes) : Option Bytes :=
  if c.tokenCounter.isSome then refuses (promptLine role content) else none

/-- What looking for the longest tail that fits throws. -/
def tailRefusal (last : Message) (available : Int) : Option Bytes :=
  (Bisection.probes
    (fun i => decide (c.countMessageTokens last.role (last.content.drop i) ≤ available))
    last.content.length).findSome? fun i => refusal refuses c last.role (last.content.drop i)

def cutNewestOrThrow : Option Bytes × ConversationContext :=
  match c.messages with
  | [last] =>
      let available := c.maxTokens - c.systemTokens
      if c.overSlack ∧ 0 < available then
        let uncounted := c.totalTokens - last.tokenCount
        let tail := tailWithinTokens last.content available (c.countMessageTokens last.role)
        match tailRefusal refuses c last available with
        | some text => (some text, { c with totalTokens := uncounted })
        | none =>
            match refusal refuses c last.role tail with
            | some text =>
                (some text,
                  { c with messages := [{ last with content := tail }], totalTokens := uncounted })
            | none => (none, c.cutNewest)
      else (none, c.cutNewest)
  | _ => (none, c)

def truncateOrThrow : Option Bytes × ConversationContext :=
  let counted := c.truncateToCount
  if 0 < counted.maxTokens then
    match cutNewestOrThrow refuses counted.evictToBudget with
    | (some text, c) => (some text, c)
    | (none, c) => (none, c.evictSystemMessage)
  else (none, counted)

def addMessageOrThrow (role content : Bytes) : Option Bytes × ConversationContext :=
  match refusal refuses c role content with
  | some text => (some text, c)
  | none => truncateOrThrow refuses (c.append role content 0)

def addParsedOrThrow : ConversationContext → List (Bytes × Bytes) →
    Option Bytes × ConversationContext
  | c, [] => (none, c)
  | c, (role, content) :: rest =>
      match addMessageOrThrow refuses c role content with
      | (some text, c) => (some text, c)
      | (none, c) => addParsedOrThrow c rest

def noSeparator : Bytes := ascii "not a serialized conversation (no '---' line)"

/-- The data is read into a context of its own, so what throws leaves this one alone. -/
def deserializeOrThrow (data : Bytes) : Except Bytes ConversationContext :=
  let lines := parse data
  if !lines.hasSeparator then .error noSeparator
  else
    match lines.systemMessage.bind (refusal refuses c systemRole) with
    | some text => .error text
    | none =>
        match addParsedOrThrow refuses (c.fresh.setParsedSystem lines.systemMessage)
            lines.messages with
        | (some text, _) => .error text
        | (none, parsed) => .ok { c with
            messages := parsed.messages
            systemMessage := parsed.systemMessage
            totalTokens := parsed.totalTokens }

end Refused

section Accepted

variable {refuses : Refusals} {c : ConversationContext}

theorem cutNewestOrThrow_eq (accepted : (cutNewestOrThrow refuses c).1 = none) :
    (cutNewestOrThrow refuses c).2 = c.cutNewest := by
  unfold cutNewestOrThrow at accepted ⊢
  split
  next last lone =>
    simp only [lone] at accepted ⊢
    split
    next cut =>
      rw [if_pos cut] at accepted
      split
      next text refused =>
        rw [refused] at accepted
        cases accepted
      next probed =>
        rw [probed] at accepted
        split
        next text refused =>
          simp only [refused] at accepted
          cases accepted
        next => rfl
    next => rfl
  next several =>
    unfold cutNewest
    split
    next last lone => exact absurd lone (several last)
    next => rfl

theorem truncateOrThrow_eq (accepted : (truncateOrThrow refuses c).1 = none) :
    (truncateOrThrow refuses c).2 = c.truncateToLimits := by
  unfold truncateOrThrow truncateToLimits at *
  by_cases budget : 0 < c.truncateToCount.maxTokens
  · simp only [if_pos budget] at accepted ⊢
    have cut : (cutNewestOrThrow refuses c.truncateToCount.evictToBudget).1 = none →
        (cutNewestOrThrow refuses c.truncateToCount.evictToBudget).2 =
          c.truncateToCount.evictToBudget.cutNewest := cutNewestOrThrow_eq
    rcases shape : cutNewestOrThrow refuses c.truncateToCount.evictToBudget with ⟨_ | text, left⟩
    · rw [shape] at cut
      rw [← cut rfl]
    · rw [shape] at accepted
      cases accepted
  · simp only [if_neg budget]

/-- A message that is added without a refusal is added as without refusals. -/
theorem addMessageOrThrow_eq {role content : Bytes}
    (accepted : (addMessageOrThrow refuses c role content).1 = none) :
    (addMessageOrThrow refuses c role content).2 = c.addMessage role content 0 := by
  unfold addMessageOrThrow at accepted ⊢
  split
  next text refused =>
    rw [refused] at accepted
    cases accepted
  next counted =>
    rw [counted] at accepted
    exact truncateOrThrow_eq accepted

end Accepted

end ConversationContext

end Adai.Conversation
