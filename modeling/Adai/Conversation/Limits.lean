import Adai.Conversation.Truncation

/-! # The limits of a conversation

Along every run the cached total is the sum of the counts, and the operations that
apply the limits leave at most the allowed number of messages and a total within
the budget's slack or of the system message alone, provided the label of the
newest message fits (`Adai.Conversation.limits_hold`). The proviso is needed: when
even an empty message of its role exceeds the budget, the message is cut to nothing
and the label stays (`Adai.Conversation.limits_hold_fails`).
-/

namespace Adai.Conversation

open Tokenizer TransitionSystem

/-! ## Counters -/

/-- A message counts no less than one of its role with a tail of its content. -/
def MonotoneCounter (counter : Option (Bytes → Int)) : Prop :=
  ∀ role content tail, tail <:+ content →
    countWith counter role tail ≤ countWith counter role content

theorem estimateTokens_le {tail content : Bytes} (suffix : tail <:+ content) :
    estimateTokens tail ≤ estimateTokens content := by
  have length := suffix.length_le
  have spaces : tail.count 0x20 ≤ content.count 0x20 := suffix.sublist.count_le 0x20
  unfold estimateTokens
  omega

theorem monotoneCounter_none : MonotoneCounter none :=
  fun _ _ _ suffix => estimateTokens_le suffix

theorem MonotoneCounter.of_bytes {count : Bytes → Int}
    (monotone : ∀ role content tail, tail <:+ content →
      count (promptLine role tail) ≤ count (promptLine role content)) :
    MonotoneCounter (some count) := by
  intro role content tail suffix
  have bytes := monotone role content tail suffix
  unfold countWith
  dsimp only
  omega

namespace ConversationContext

/-- A cut content fits, or nothing of it does and the empty content is left. -/
theorem count_tailWithinTokens {count : Bytes → Int} (content : Bytes) (maxTokens : Int)
    (monotone : ∀ content tail, tail <:+ content → count tail ≤ count content) :
    count (tailWithinTokens content maxTokens count) ≤ maxTokens ∨
      tailWithinTokens content maxTokens count = [] := by
  obtain ⟨inside, fits⟩ := Bisection.search_fits
    (fun i => decide (count (content.drop i) ≤ maxTokens)) content.length
  unfold tailWithinTokens
  extract_lets start at *
  by_cases proper : start < content.length
  · left
    have fitting : count (content.drop start) ≤ maxTokens := of_decide_eq_true (fits proper)
    have tail : count ((content.drop start).dropWhile isContinuation) ≤ count (content.drop start) :=
      monotone _ _ (List.dropWhile_suffix _)
    omega
  · right
    rw [List.drop_eq_nil_of_le (Nat.le_of_not_lt proper)]
    rfl

/-- A suffix that starts a character survives skipping to the next character. -/
theorem suffix_dropWhile_isContinuation {tail text : Bytes} (suffix : tail <:+ text)
    (boundary : ∀ c ∈ tail.head?, isContinuation c = false) :
    tail <:+ text.dropWhile isContinuation := by
  induction text with
  | nil => exact suffix
  | cons d rest ih =>
      by_cases inside : isContinuation d = true
      · rw [List.dropWhile_cons_of_pos inside]
        rcases List.suffix_cons_iff.mp suffix with rfl | later
        · rw [boundary d rfl] at inside
          cases inside
        · exact ih later
      · rw [List.dropWhile_cons_of_neg inside]
        exact suffix

/-- The cut keeps the longest fitting tail among those that start a character. -/
theorem tailWithinTokens_longest {count : Bytes → Int} {content tail : Bytes} {maxTokens : Int}
    (monotone : ∀ content tail, tail <:+ content → count tail ≤ count content)
    (suffix : tail <:+ content) (boundary : ∀ c ∈ tail.head?, isContinuation c = false)
    (fits : count tail ≤ maxTokens) : tail <:+ tailWithinTokens content maxTokens count := by
  unfold tailWithinTokens
  extract_lets start
  apply suffix_dropWhile_isContinuation _ boundary
  obtain ⟨front, rfl⟩ := suffix
  have first : ∀ i < start, decide (count ((front ++ tail).drop i) ≤ maxTokens) = false := by
    apply Bisection.search_first
    intro i j ordered fitting
    have shorter : (front ++ tail).drop j <:+ (front ++ tail).drop i := by
      rw [← Nat.add_sub_cancel' ordered, ← List.drop_drop]
      exact List.drop_suffix _ _
    have bound := monotone _ _ shorter
    have fitting := of_decide_eq_true fitting
    apply decide_eq_true
    omega
  have reached : start ≤ front.length := by
    by_contra beyond
    have cut := of_decide_eq_false (first front.length (by omega))
    rw [List.drop_left] at cut
    exact cut fits
  rw [List.drop_append_of_le_length reached]
  exact List.suffix_append _ _

/-! ## One truncation -/

def WithinCount (c : ConversationContext) : Prop :=
  0 < c.maxMessages → (c.messages.length : Int) ≤ c.maxMessages

/-- The total is within the slack of the budget, or no more than the system message. -/
def WithinBudget (c : ConversationContext) : Prop :=
  0 < c.maxTokens → 5 * c.totalTokens ≤ 6 * c.maxTokens ∨ c.totalTokens ≤ c.systemTokens

/-- The budget can be met with the newest message alone. When it has to be cut, an
empty message of its role fits into what the system message leaves, or into the
slack together with a system message that is kept. When the system message has to
go, the newest message is within the slack without it. -/
def NewestFits (c : ConversationContext) : Prop :=
  0 < c.maxTokens → ∀ last, c.messages.getLast? = some last →
    let label := c.countMessageTokens last.role []
    (6 * c.maxTokens < 5 * (c.systemTokens + last.tokenCount) → c.systemTokens < c.maxTokens →
      c.systemTokens + label ≤ c.maxTokens ∨
        5 * ((if c.keepSystemMessage then c.systemTokens else 0) + label) ≤ 6 * c.maxTokens) ∧
    (5 * (c.systemTokens + last.tokenCount) ≤ 6 * c.maxTokens → c.keepSystemMessage = false →
      c.maxTokens < c.systemTokens + last.tokenCount → 5 * last.tokenCount ≤ 6 * c.maxTokens)

theorem truncateToCount_withinCount (c : ConversationContext) : c.truncateToCount.WithinCount := by
  unfold truncateToCount
  split
  · rename_i limited
    intro _
    have stopped : overCount (removeWhile overCount c.messages.length c) = false := by
      apply removeWhile_stops _ (Nat.le_refl _)
      intro c' evicted beyond empty
      have same := evicted.shrunk.maxMessages
      simp only [overCount, empty, List.length_nil, decide_eq_true_eq] at beyond
      omega
    simpa [overCount] using stopped
  · rename_i unlimited
    exact fun limited => (unlimited limited).elim

theorem Shrunk.withinCount {c c' : ConversationContext} (shrunk : Shrunk c c')
    (within : c.WithinCount) : c'.WithinCount := by
  intro limited
  rw [shrunk.maxMessages] at *
  have length := shrunk.remain.length_le
  have bound := within limited
  omega

theorem truncateToLimits_withinCount (c : ConversationContext) :
    c.truncateToLimits.WithinCount := by
  have counted := truncateToCount_withinCount c
  unfold truncateToLimits
  extract_lets first
  split
  · apply Shrunk.withinCount _ counted
    exact (evictToBudget_evicted _).shrunk.trans
      ((cutNewest_shrunk _).trans (evictSystemMessage_shrunk _))
  · exact counted

/-- Within the budget, or with at most one message left. -/
theorem evictToBudget_stops (c : ConversationContext) :
    c.evictToBudget.totalTokens ≤ c.evictToBudget.maxTokens ∨
      c.evictToBudget.messages.length ≤ 1 := by
  have stopped : overBudget c.evictToBudget = false := by
    apply removeWhile_stops _ (Nat.le_refl _)
    intro c' _ beyond empty
    simp [overBudget, empty] at beyond
  simp only [overBudget, Bool.and_eq_false_iff, decide_eq_false_iff_not] at stopped
  omega

/-- The system message goes when it may and the budget is still exceeded. -/
theorem evictSystemMessage_withinBudget {c : ConversationContext} (right : c.Consistent)
    (kept : c.keepSystemMessage = true → c.WithinBudget)
    (alone : c.keepSystemMessage = false → c.maxTokens < c.totalTokens →
      5 * c.messageTokens ≤ 6 * c.maxTokens) : c.evictSystemMessage.WithinBudget := by
  unfold evictSystemMessage
  split
  · rename_i evicted
    simp only [Bool.and_eq_true, Bool.not_eq_true', decide_eq_true_eq] at evicted
    have slack := alone evicted.1.1 evicted.1.2
    intro _
    left
    unfold Consistent at right
    simp only
    omega
  · rename_i stays
    intro limited
    cases keeps : c.keepSystemMessage with
    | true => exact kept keeps limited
    | false =>
        left
        by_cases beyond : c.maxTokens < c.totalTokens
        · -- without a system message the total is that of the messages
          have absent : c.systemMessage = none := by
            simpa [keeps, beyond] using stays
          have slack := alone keeps beyond
          unfold Consistent at right
          simp only [systemTokens, absent, Option.map_none, Option.getD_none] at right
          omega
        · omega

/-- What is left after the cut: the system message alone; a total within the budget;
one message within the slack; or an empty message that did not fit. -/
theorem cutNewest_cases {c : ConversationContext} (right : c.Consistent)
    (monotone : MonotoneCounter c.tokenCounter)
    (few : c.totalTokens ≤ c.maxTokens ∨ c.messages.length ≤ 1) :
    c.cutNewest.messages = [] ∨ c.cutNewest.totalTokens ≤ c.maxTokens ∨
      (∃ last, c.messages = [last] ∧ c.cutNewest = c ∧ 5 * c.totalTokens ≤ 6 * c.maxTokens) ∨
      (∃ last, c.messages = [last] ∧ 6 * c.maxTokens < 5 * c.totalTokens ∧
        c.systemTokens < c.maxTokens ∧
        c.cutNewest.messageTokens = c.countMessageTokens last.role []) := by
  unfold cutNewest
  split
  · rename_i last messages
    by_cases beyond : c.overSlack = true
    · rw [if_pos beyond]
      simp only [overSlack, decide_eq_true_eq] at beyond
      dsimp only
      by_cases space : 0 < c.maxTokens - c.systemTokens
      · rw [if_pos space]
        right
        unfold Consistent messageTokens at right
        simp only [messages, List.map_cons, List.map_nil, List.sum_cons, List.sum_nil] at right
        rcases @count_tailWithinTokens (c.countMessageTokens last.role) last.content
          (c.maxTokens - c.systemTokens) (monotone last.role) with fits | empty
        · left
          dsimp only
          omega
        · right
          right
          refine ⟨last, messages, beyond, by omega, ?_⟩
          simp only [messageTokens, List.map_cons, List.map_nil, List.sum_cons, List.sum_nil,
            add_zero, empty]
      · rw [if_neg space]
        left
        unfold removeOldestMessage
        rw [messages]
    · rw [if_neg beyond]
      simp only [overSlack, decide_eq_true_eq] at beyond
      exact .inr (.inr (.inl ⟨last, messages, rfl, by omega⟩))
  · rename_i other
    rcases few with within | short
    · exact .inr (.inl within)
    · left
      match found : c.messages with
      | [] => rfl
      | [last] => exact (other last found).elim
      | _ :: _ :: _ =>
          rw [found, List.length_cons, List.length_cons] at short
          omega

/-- The last two stages meet the budget. -/
theorem cutNewest_withinBudget {c : ConversationContext} (right : c.Consistent)
    (monotone : MonotoneCounter c.tokenCounter) (limited : 0 < c.maxTokens)
    (few : c.totalTokens ≤ c.maxTokens ∨ c.messages.length ≤ 1) (fits : c.NewestFits) :
    c.cutNewest.evictSystemMessage.WithinBudget := by
  have shrunk := cutNewest_shrunk c
  have right' := shrunk.consistent right
  have system : c.cutNewest.systemTokens = c.systemTokens := by
    unfold cutNewest removeOldestMessage systemTokens
    grind
  have sum : c.cutNewest.totalTokens = c.systemTokens + c.cutNewest.messageTokens := by
    rw [← system]
    exact right'
  apply evictSystemMessage_withinBudget right'
  · intro keeps _
    rw [shrunk.keepSystemMessage] at keeps
    rw [shrunk.maxTokens, system]
    rcases cutNewest_cases right monotone few with none | within | ⟨_, _, same, slack⟩ |
      ⟨last, messages, beyond, space, label⟩
    · right
      have empty : c.cutNewest.messageTokens = 0 := by simp [messageTokens, none]
      omega
    · left
      omega
    · left
      rw [same]
      exact slack
    · left
      unfold Consistent messageTokens at right
      simp only [messages, List.map_cons, List.map_nil, List.sum_cons, List.sum_nil] at right
      have meets := (fits limited last (by rw [messages]; rfl)).1 (by omega) space
      rw [if_pos keeps] at meets
      omega
  · intro evictable beyond
    rw [shrunk.keepSystemMessage] at evictable
    rw [shrunk.maxTokens] at beyond ⊢
    rcases cutNewest_cases right monotone few with none | within | ⟨last, messages, same, slack⟩ |
      ⟨last, messages, exceeds, space, label⟩
    · have empty : c.cutNewest.messageTokens = 0 := by simp [messageTokens, none]
      omega
    · omega
    · rw [same] at beyond ⊢
      unfold Consistent messageTokens at right
      unfold messageTokens
      simp only [messages, List.map_cons, List.map_nil, List.sum_cons, List.sum_nil] at right ⊢
      have meets := (fits limited last (by rw [messages]; rfl)).2 (by omega) evictable (by omega)
      omega
    · unfold Consistent messageTokens at right
      simp only [messages, List.map_cons, List.map_nil, List.sum_cons, List.sum_nil] at right
      have meets := (fits limited last (by rw [messages]; rfl)).1 (by omega) space
      rw [evictable] at meets
      simp only [Bool.false_eq_true, ↓reduceIte] at meets
      omega

theorem Evicted.newestFits {c c' : ConversationContext} (evicted : Evicted c c')
    (fits : c.NewestFits) : c'.NewestFits := by
  obtain ⟨gone, rest, messages, rfl⟩ := evicted
  intro limited last newest
  apply fits limited last
  rw [messages]
  exact List.getLast?_append_of_ne_nil _ (List.ne_nil_of_mem (List.mem_of_getLast? newest)) ▸ newest

/-- **One truncation.** Both limits hold afterwards when the newest message fits. -/
theorem truncateToLimits_withinBudget {c : ConversationContext} (right : c.Consistent)
    (monotone : MonotoneCounter c.tokenCounter) (fits : c.NewestFits) :
    c.truncateToLimits.WithinBudget := by
  have counted := truncateToCount_evicted c
  have evicted := counted.trans (evictToBudget_evicted c.truncateToCount)
  have same := evicted.shrunk
  unfold truncateToLimits
  extract_lets first
  split
  · rename_i limited
    apply cutNewest_withinBudget (evicted.consistent right)
    · rw [same.tokenCounter]
      exact monotone
    · rw [same.maxTokens, ← counted.shrunk.maxTokens]
      exact limited
    · exact evictToBudget_stops _
    · exact evicted.newestFits fits
  · rename_i unlimited
    exact fun limited => (unlimited limited).elim

end ConversationContext

/-! ## Operations -/

namespace Operation

/-- The context that the limits are applied to last. -/
def beforeLimits (c : ConversationContext) : Operation → Option ConversationContext
  | .addMessage role content tokenCount => some (c.append role content tokenCount)
  | .setMaxMessages maxMessages => some { c with maxMessages := maxMessages }
  | .setMaxTokens maxTokens => some { c with maxTokens := maxTokens }
  | .setTokenCounter counter => some { c with tokenCounter := counter }.recount
  | .deserialize data =>
      (parse data).messages.getLast?.map fun (role, content) =>
        (c.fresh.addParsed { parse data with messages := (parse data).messages.dropLast }).append
          role content 0
  | .setSystemMessage .. | .clear => none

/-- The newest message, with the limits and the system message it meets, fits. -/
def NewestFits (c : ConversationContext) (op : Operation) : Prop :=
  ∀ limited, op.beforeLimits c = some limited → limited.NewestFits

/-- Counters set by the operation are monotone. -/
def SetsMonotone : Operation → Prop
  | .setTokenCounter counter => MonotoneCounter counter
  | _ => True

/-- The operation applies the limits; an import that is refused does nothing. -/
def AppliesLimits : Operation → Prop
  | .addMessage .. | .setMaxMessages _ | .setMaxTokens _ | .setTokenCounter _ => True
  | .deserialize data => (parse data).hasSeparator = true
  | .setSystemMessage .. | .clear => False

/-- The messages an operation starts from, the new ones at the end. -/
def offered (c : ConversationContext) : Operation → List Message
  | .addMessage role content tokenCount => (c.append role content tokenCount).messages
  | .deserialize data => (parse data).messages.map fun (role, content) => ⟨role, content, 0⟩
  | _ => c.messages

theorem tokenCounter_monotone {c : ConversationContext} (monotone : MonotoneCounter c.tokenCounter)
    {op : Operation} (sets : op.SetsMonotone) : MonotoneCounter (op.apply c).tokenCounter := by
  cases op with
  | addMessage role content tokenCount =>
      change MonotoneCounter (c.addMessage role content tokenCount).tokenCounter
      rw [(c.addMessage_shrunk role content tokenCount).tokenCounter]
      exact monotone
  | setSystemMessage => exact monotone
  | setMaxMessages =>
      change MonotoneCounter (ConversationContext.truncateToLimits _).tokenCounter
      rw [(ConversationContext.truncateToLimits_shrunk _).tokenCounter]
      exact monotone
  | setMaxTokens =>
      change MonotoneCounter (ConversationContext.truncateToLimits _).tokenCounter
      rw [(ConversationContext.truncateToLimits_shrunk _).tokenCounter]
      exact monotone
  | setTokenCounter =>
      change MonotoneCounter (ConversationContext.truncateToLimits _).tokenCounter
      rw [(ConversationContext.truncateToLimits_shrunk _).tokenCounter]
      exact sets
  | clear =>
      change MonotoneCounter c.clear.tokenCounter
      unfold ConversationContext.clear
      split <;> exact monotone
  | deserialize data =>
      cases accepted : (parse data).hasSeparator with
      | false =>
          rw [apply_deserialize_refused c accepted]
          exact monotone
      | true =>
          rw [apply_deserialize c accepted]
          have settings := (c.fresh.addParsed_spec (parse data)).1
          have counter := congrArg ConversationContext.tokenCounter settings
          exact counter.symm ▸ monotone

/-- What the claims of a truncating operation say about the context it leaves. -/
structure Limited (offered : List Message) (c : ConversationContext) : Prop where
  count : c.WithinCount
  budget : c.WithinBudget
  newest : Remain offered c.messages

theorem Limited.of_truncate {offered : List Message} {c : ConversationContext}
    (start : Remain offered c.messages) (right : c.Consistent)
    (monotone : MonotoneCounter c.tokenCounter) (fits : c.NewestFits) :
    Limited offered c.truncateToLimits where
  count := c.truncateToLimits_withinCount
  budget := ConversationContext.truncateToLimits_withinBudget right monotone fits
  newest := start.trans c.truncateToLimits_shrunk.remain

theorem Remain.recount (c : ConversationContext) : Remain c.messages c.recount.messages := by
  refine ⟨0, ?_⟩
  simp only [List.drop_zero, ConversationContext.recount, List.forall₂_map_right_iff]
  exact List.forall₂_same.mpr fun m _ => ⟨rfl, List.suffix_refl _, .inl rfl⟩

theorem addParsed_concat (c : ConversationContext) (lines : Parsed) (front : List (Bytes × Bytes))
    (role content : Bytes) (some_ : lines.messages = front ++ [(role, content)]) :
    c.addParsed lines =
      (c.addParsed { lines with messages := front }).addMessage role content 0 := by
  unfold ConversationContext.addParsed
  rw [some_, List.foldl_append]
  rfl

/-- An import leaves what its last addition leaves. -/
theorem limited_deserialize {c : ConversationContext} (monotone : MonotoneCounter c.tokenCounter)
    {data : Bytes} (accepted : (parse data).hasSeparator = true)
    (fits : (Operation.deserialize data).NewestFits c) :
    Limited ((Operation.deserialize data).offered c) ((Operation.deserialize data).apply c) := by
  obtain ⟨_, right, remain⟩ := c.fresh.addParsed_spec (parse data)
  have counts := right c.fresh_consistent
  rw [apply_deserialize c accepted]
  rcases List.eq_nil_or_concat (parse data).messages with none | ⟨front, ⟨role, content⟩, some_⟩
  · -- without messages only the system message is there
    have empty : (c.fresh.addParsed (parse data)).messages = [] := by
      have length := remain.length_le
      rw [none] at length
      exact List.eq_nil_of_length_eq_zero (Nat.le_zero.mp length)
    refine ⟨?_, ?_, remain⟩
    · intro limited
      rw [empty]
      exact le_of_lt limited
    · intro _
      right
      unfold ConversationContext.Consistent ConversationContext.messageTokens at counts
      rw [empty] at counts
      simp only [List.map_nil, List.sum_nil] at counts
      omega
  · rw [List.concat_eq_append] at some_
    obtain ⟨settings, begun, _⟩ := c.fresh.addParsed_spec { parse data with messages := front }
    have counter := congrArg ConversationContext.tokenCounter settings
    have last := addParsed_concat c.fresh (parse data) front role content some_
    have budget : ((c.fresh.addParsed { parse data with messages := front }).append role content
        0).truncateToLimits.WithinBudget := by
      apply ConversationContext.truncateToLimits_withinBudget
      · exact ConversationContext.append_consistent (begun c.fresh_consistent) role content 0
      · exact counter.symm ▸ monotone
      · apply fits
        simp only [beforeLimits, some_, List.getLast?_concat, List.dropLast_concat, Option.map_some]
    rw [last] at remain ⊢
    exact ⟨ConversationContext.truncateToLimits_withinCount _, budget, remain⟩

/-- **One operation.** Where the limits are applied they hold afterwards, and what
is left are the newest messages. -/
theorem limited {c : ConversationContext} (right : c.Consistent)
    (monotone : MonotoneCounter c.tokenCounter) {op : Operation} (sets : op.SetsMonotone)
    (fits : op.NewestFits c) (applies : op.AppliesLimits) :
    Limited (op.offered c) (op.apply c) := by
  cases op with
  | addMessage role content tokenCount =>
      exact Limited.of_truncate (.of_suffix (List.suffix_refl _))
        (ConversationContext.append_consistent right role content tokenCount) monotone (fits _ rfl)
  | setMaxMessages =>
      exact Limited.of_truncate (.of_suffix (List.suffix_refl _)) right monotone (fits _ rfl)
  | setMaxTokens =>
      exact Limited.of_truncate (.of_suffix (List.suffix_refl _)) right monotone (fits _ rfl)
  | setTokenCounter counter =>
      exact Limited.of_truncate (Remain.recount { c with tokenCounter := counter })
        (ConversationContext.recount_consistent _) sets (fits _ rfl)
  | setSystemMessage => exact applies.elim
  | clear => exact applies.elim
  | deserialize data => exact limited_deserialize monotone applies fits

end Operation

/-! ## Whole runs -/

/-- The operation sets monotone counters only, and the newest message fits. -/
def Regular (c : ConversationContext) (op : Operation) : Prop :=
  op.SetsMonotone ∧ op.NewestFits c

/-- A context as it is constructed. -/
def newContext (maxMessages maxTokens : Int) (keepSystemMessage : Bool) : ConversationContext :=
  { maxMessages := maxMessages, maxTokens := maxTokens, keepSystemMessage := keepSystemMessage }

theorem run_invariant {first last : ConversationContext} {ops : List Operation}
    (run : Run (Restrict OperationStep fun _ op => op.SetsMonotone) first ops last)
    (start : first.Consistent ∧ MonotoneCounter first.tokenCounter) :
    last.Consistent ∧ MonotoneCounter last.tokenCounter := by
  apply run.invariant (fun c => c.Consistent ∧ MonotoneCounter c.tokenCounter) _ start
  intro before op after holds step
  obtain ⟨applied, sets⟩ := step
  subst applied
  exact ⟨op.consistent holds.1, op.tokenCounter_monotone holds.2 sets⟩

/-- **Limits.** Along every run of a context whose counters are monotone the cached
total is right; and every operation that applies the limits leaves at most the
allowed number of messages, a total within the slack or of the system message
alone, and the newest messages, each whole or cut at a character, provided that in
every step the newest message fits. -/
theorem limits_hold (maxMessages maxTokens : Int) (keepSystemMessage : Bool)
    (ops : List Operation) (op : Operation) (before after : ConversationContext)
    (run : Run (Restrict OperationStep Regular)
      (newContext maxMessages maxTokens keepSystemMessage) ops before)
    (step : Restrict OperationStep Regular before op after) :
    after.Consistent ∧ (op.AppliesLimits →
      after.WithinCount ∧ after.WithinBudget ∧ Remain (op.offered before) after.messages) := by
  have counted : Run (Restrict OperationStep fun _ op => op.SetsMonotone) _ ops before :=
    run.imp fun _ _ _ taken => ⟨taken.1, taken.2.1⟩
  obtain ⟨right, monotone⟩ := run_invariant counted ⟨rfl, monotoneCounter_none⟩
  obtain ⟨applied, sets, fits⟩ := step
  subst applied
  refine ⟨op.consistent right, ?_⟩
  intro applies
  have limited := Operation.limited right monotone sets fits applies
  exact ⟨limited.count, limited.budget, limited.newest⟩

/-- Estimated messages fit when no negative count was given for the system message. -/
theorem ConversationContext.newestFits_of_estimate {c : ConversationContext}
    (estimated : c.tokenCounter = none) (nonnegative : 0 ≤ c.systemTokens) : c.NewestFits := by
  intro limited last newest
  have label : c.countMessageTokens last.role [] = 1 := by
    unfold countMessageTokens countWith
    rw [estimated]
    rfl
  rw [label]
  constructor
  · intro _ space
    left
    omega
  · intro slack _ _
    omega

/-- One token for each byte. -/
def countBytes (text : Bytes) : Int := text.length

theorem monotoneCounter_countBytes : MonotoneCounter (some countBytes) := by
  apply MonotoneCounter.of_bytes
  intro role content tail suffix
  have length := suffix.length_le
  simp only [countBytes, promptLine, List.length_append]
  omega

/-- A message longer than the budget keeps its last bytes behind its label. -/
theorem limits_hold_tail :
    let counted := (Operation.setTokenCounter (some countBytes)).apply (newContext 20 12 true)
    let op := Operation.addMessage (ascii "user") (ascii "hello world!") 0
    (op.apply counted).messages.map Message.content = [ascii "orld!"] ∧
      (op.apply counted).WithinBudget := by
  intro counted op
  refine ⟨by decide, ?_⟩
  have counts : Restrict OperationStep Regular (newContext 20 12 true)
      (.setTokenCounter (some countBytes)) counted := by
    refine ⟨rfl, monotoneCounter_countBytes, ?_⟩
    intro limited same
    cases same
    intro _ last newest
    cases newest
  have adds : Restrict OperationStep Regular counted op (op.apply counted) := by
    refine ⟨rfl, trivial, ?_⟩
    intro limited same
    cases same
    intro _ last newest
    cases newest
    exact ⟨fun _ _ => .inl (by decide), fun _ kept => nomatch kept⟩
  have holds := limits_hold 20 12 true [.setTokenCounter (some countBytes)] op counted _
    (.cons counts (.refl _)) adds
  exact (holds.2 trivial).2.1

/-- A budget of two tokens does not even hold the label `User: `. -/
theorem limits_hold_fails :
    ¬ ∀ (maxMessages maxTokens : Int) (keepSystemMessage : Bool) (ops : List Operation)
        (op : Operation) (before after : ConversationContext),
      Run (Restrict OperationStep fun _ op => op.SetsMonotone)
        (newContext maxMessages maxTokens keepSystemMessage) ops before →
      Restrict OperationStep (fun _ op => op.SetsMonotone) before op after →
      after.Consistent ∧ (op.AppliesLimits →
        after.WithinCount ∧ after.WithinBudget ∧ Remain (op.offered before) after.messages) := by
  intro claim
  have broken := (claim 20 2 true [.setTokenCounter (some countBytes)]
    (.addMessage (ascii "user") (ascii "hello") 0) _ _
    (.cons ⟨rfl, monotoneCounter_countBytes⟩ (.refl _)) ⟨rfl, trivial⟩).2 trivial
  have beyond := broken.2.1 (by decide)
  exact absurd beyond (by decide)

end Adai.Conversation
