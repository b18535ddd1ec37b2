import Adai.Math.Bisection
import Adai.Math.TransitionSystem
import Adai.Conversation.ConversationFormat

/-! # Conversation contexts

The messages of a conversation with a cached token total, a limit on their number
and a token budget. Whoever adds a message may give its token count; otherwise the
context counts it, with the caller's counter or by an estimate. Exceeding a limit
removes the oldest messages; a newest message that alone exceeds the budget keeps
only its tail.

Counts are integers without bound, so sums do not overflow. The budget's slack of
1.2 is compared exactly, as 6/5: for every `int` the rounded product lies on the
same side of each integer.
-/

namespace Adai.Conversation

open Tokenizer TransitionSystem

structure Message where
  role : Bytes
  content : Bytes
  tokenCount : Int := 0
  deriving DecidableEq, Repr

/-- A limit that is not positive is none; without a counter, tokens are estimated. -/
structure ConversationContext where
  messages : List Message := []
  systemMessage : Option Message := none
  maxMessages : Int := 20
  maxTokens : Int := 2048
  keepSystemMessage : Bool := true
  totalTokens : Int := 0
  tokenCounter : Option (Bytes → Int) := none

/-! ## Counting -/

/-- A token for every four bytes begun, at least one, and half a token for each
space. -/
def estimateTokens (content : Bytes) : Int :=
  max 1 (((content.length : Int) + 3) / 4) + (content.count 0x20 : Int) / 2

def toUpper (c : UInt8) : UInt8 := if 0x61 ≤ c ∧ c ≤ 0x7A then c - 0x20 else c

/-- The prompt line of a message. -/
def promptLine (role content : Bytes) : Bytes :=
  role.modifyHead toUpper ++ ascii ": " ++ content ++ ascii "\n"

/-- What a counter makes of a message. -/
def countWith (counter : Option (Bytes → Int)) (role content : Bytes) : Int :=
  match counter with
  | none => estimateTokens content
  | some count => max 1 (count (promptLine role content))

def systemRole : Bytes := ascii "system"

namespace ConversationContext

def countMessageTokens (c : ConversationContext) (role content : Bytes) : Int :=
  countWith c.tokenCounter role content

/-- The tokens of the system message, none without one. -/
def systemTokens (c : ConversationContext) : Int :=
  (c.systemMessage.map Message.tokenCount).getD 0

/-- The tokens of the messages, added up. -/
def messageTokens (c : ConversationContext) : Int := (c.messages.map Message.tokenCount).sum

/-- A count of zero asks the context to count. -/
def countOr (c : ConversationContext) (tokenCount : Int) (role content : Bytes) : Int :=
  if tokenCount = 0 then c.countMessageTokens role content else tokenCount

def setSystemMessage (c : ConversationContext) (content : Bytes) (tokenCount : Int) :
    ConversationContext :=
  let count := c.countOr tokenCount systemRole content
  { c with
    systemMessage := some ⟨systemRole, content, count⟩
    totalTokens := c.totalTokens - c.systemTokens + count }

/-! ## Truncating -/

def removeOldestMessage (c : ConversationContext) : ConversationContext :=
  match c.messages with
  | [] => c
  | oldest :: rest =>
      { c with messages := rest, totalTokens := c.totalTokens - oldest.tokenCount }

/-- The oldest messages go while the test holds; `fuel` is the number of messages. -/
def removeWhile (test : ConversationContext → Bool) : Nat → ConversationContext → ConversationContext
  | 0, c => c
  | fuel + 1, c => if test c then removeWhile test fuel c.removeOldestMessage else c

def overCount (c : ConversationContext) : Bool :=
  decide (c.maxMessages < (c.messages.length : Int))

def overBudget (c : ConversationContext) : Bool :=
  decide (c.maxTokens < c.totalTokens) && decide (1 < c.messages.length)

def truncateToCount (c : ConversationContext) : ConversationContext :=
  if 0 < c.maxMessages then removeWhile overCount c.messages.length c else c

def evictToBudget (c : ConversationContext) : ConversationContext :=
  removeWhile overBudget c.messages.length c

/-- The longest tail that fits, from the next character on. -/
def tailWithinTokens (content : Bytes) (maxTokens : Int) (count : Bytes → Int) : Bytes :=
  let start := Bisection.search (fun i => decide (count (content.drop i) ≤ maxTokens))
    content.length
  (content.drop start).dropWhile isContinuation

/-- More than 1.2 times the budget. -/
def overSlack (c : ConversationContext) : Bool :=
  decide (6 * c.maxTokens < 5 * c.totalTokens)

/-- A lone message that exceeds the slack is cut to what the system message leaves,
or removed when that leaves nothing. -/
def cutNewest (c : ConversationContext) : ConversationContext :=
  match c.messages with
  | [last] =>
      if c.overSlack then
        let available := c.maxTokens - c.systemTokens
        if 0 < available then
          let tail := tailWithinTokens last.content available (c.countMessageTokens last.role)
          let count := c.countMessageTokens last.role tail
          { c with
            messages := [{ last with content := tail, tokenCount := count }]
            totalTokens := c.totalTokens - last.tokenCount + count }
        else c.removeOldestMessage
      else c
  | _ => c

def evictSystemMessage (c : ConversationContext) : ConversationContext :=
  if !c.keepSystemMessage && decide (c.maxTokens < c.totalTokens) && c.systemMessage.isSome then
    { c with systemMessage := none, totalTokens := c.totalTokens - c.systemTokens }
  else c

def truncateToLimits (c : ConversationContext) : ConversationContext :=
  let counted := c.truncateToCount
  if 0 < counted.maxTokens then counted.evictToBudget.cutNewest.evictSystemMessage else counted

/-! ## Operations -/

/-- The context with the new message at its end, before the limits apply. -/
def append (c : ConversationContext) (role content : Bytes) (tokenCount : Int) :
    ConversationContext :=
  let count := c.countOr tokenCount role content
  { c with
    messages := c.messages ++ [⟨role, content, count⟩]
    totalTokens := c.totalTokens + count }

def addMessage (c : ConversationContext) (role content : Bytes) (tokenCount : Int) :
    ConversationContext :=
  (c.append role content tokenCount).truncateToLimits

def setMaxMessages (c : ConversationContext) (maxMessages : Int) : ConversationContext :=
  { c with maxMessages := maxMessages }.truncateToLimits

def setMaxTokens (c : ConversationContext) (maxTokens : Int) : ConversationContext :=
  { c with maxTokens := maxTokens }.truncateToLimits

/-- Every message counted again with the context's counter. -/
def recount (c : ConversationContext) : ConversationContext :=
  let systemMessage := c.systemMessage.map fun m =>
    { m with tokenCount := c.countMessageTokens systemRole m.content }
  let messages := c.messages.map fun m =>
    { m with tokenCount := c.countMessageTokens m.role m.content }
  { c with
    systemMessage := systemMessage
    messages := messages
    totalTokens := (systemMessage.map Message.tokenCount).getD 0 +
      (messages.map Message.tokenCount).sum }

def setTokenCounter (c : ConversationContext) (counter : Option (Bytes → Int)) :
    ConversationContext :=
  ({ c with tokenCounter := counter }.recount).truncateToLimits

def clear (c : ConversationContext) : ConversationContext :=
  if c.keepSystemMessage then { c with messages := [], totalTokens := c.systemTokens }
  else { c with messages := [], systemMessage := none, totalTokens := 0 }

/-! ## Serializing -/

def fileLines (c : ConversationContext) : List Bytes :=
  [ascii "MAX_MESSAGES:" ++ decimal c.maxMessages, ascii "MAX_TOKENS:" ++ decimal c.maxTokens,
    ascii "KEEP_SYSTEM:" ++ ascii (if c.keepSystemMessage then "1" else "0"), ascii "---"] ++
  (c.systemMessage.toList.map fun m =>
    messageLine (ascii "SYSTEM") (decimal m.tokenCount) m.content) ++
  c.messages.map fun m => messageLine m.role (decimal m.tokenCount) m.content

def serialize (c : ConversationContext) : Bytes := fileText c.fileLines

/-- An empty context with the limits and the counter of another. -/
def fresh (c : ConversationContext) : ConversationContext :=
  { maxMessages := c.maxMessages, maxTokens := c.maxTokens,
    keepSystemMessage := c.keepSystemMessage, tokenCounter := c.tokenCounter }

def setParsedSystem (c : ConversationContext) : Option Bytes → ConversationContext
  | some content => c.setSystemMessage content 0
  | none => c

/-- The parsed system message, then the parsed messages one after the other. -/
def addParsed (c : ConversationContext) (lines : Parsed) : ConversationContext :=
  lines.messages.foldl (fun c (role, content) => c.addMessage role content 0)
    (c.setParsedSystem lines.systemMessage)

/-- Data without the separator line is refused. -/
def deserialize (c : ConversationContext) (data : Bytes) : Option ConversationContext :=
  let lines := parse data
  if !lines.hasSeparator then none
  else
    let parsed := c.fresh.addParsed lines
    some { c with
      messages := parsed.messages
      systemMessage := parsed.systemMessage
      totalTokens := parsed.totalTokens }

end ConversationContext

/-- One call on a context. -/
inductive Operation
  | addMessage (role content : Bytes) (tokenCount : Int)
  | setSystemMessage (content : Bytes) (tokenCount : Int)
  | setMaxMessages (maxMessages : Int)
  | setMaxTokens (maxTokens : Int)
  | setTokenCounter (counter : Option (Bytes → Int))
  | clear
  | deserialize (data : Bytes)

/-- The context after the call; a call that throws changes nothing. -/
def Operation.apply (c : ConversationContext) : Operation → ConversationContext
  | .addMessage role content tokenCount => c.addMessage role content tokenCount
  | .setSystemMessage content tokenCount => c.setSystemMessage content tokenCount
  | .setMaxMessages maxMessages => c.setMaxMessages maxMessages
  | .setMaxTokens maxTokens => c.setMaxTokens maxTokens
  | .setTokenCounter counter => c.setTokenCounter counter
  | .clear => c.clear
  | .deserialize data => (c.deserialize data).getD c

def OperationStep (before : ConversationContext) (op : Operation) (after : ConversationContext) :
    Prop :=
  after = op.apply before

end Adai.Conversation
