import Adai.Sessions.Turns

/-! # Exchanges

Without retrieval, and with a generation that depends on its prompt alone, a turn is an
exchange with one conversation: a message and its answer. A single request has the
exchange when its message fits (`Adai.Sessions.turn_eq_exchange`). A batch of different
sessions has all its exchanges, each with its own conversation
(`Adai.Sessions.converse_distinct`), or fails (`Adai.Sessions.exchanged_of_converse`).
-/

namespace Adai.Sessions

open Tokenizer Conversation

/-- No retrieval, and a generation that depends on the prompt and the settings alone. -/
structure Steady (server : Server) : Prop where
  noRag : server.rag = none
  same : ∀ n, server.generate n = server.generate 0

section Exchange

variable (server : Server) (c : ConversationContext) (message : Bytes)

def asked : ConversationContext := (c.addMessageOrThrow server.refuses userRole message).2

/-- The prompt for a message, and the turn it is of. -/
def promptFor : Prompt := (formatForModel (asked server c message), ⟨message, formatForModel c⟩)

def answerTo (config : GenerationConfig) (prompt : Prompt) : Option Bytes :=
  (server.generateResponse 0 prompt.1 config prompt.2).toOption

/-- The answer to a message and the conversation with both, unless one of them cannot be
added or there is no answer. -/
def exchange (config : GenerationConfig) : Option (Bytes × ConversationContext) :=
  if (c.addMessageOrThrow server.refuses userRole message).1 = none then
    (answerTo server config (promptFor server c message)).bind fun response =>
      match (asked server c message).addMessageOrThrow server.refuses assistantRole response with
      | (some _, _) => none
      | (none, answered) => some (response, answered)
  else none

/-- A message that fits the session's budget. -/
def Fits : Prop := ¬ (0 < c.maxTokens ∧ c.maxTokens < c.countMessageTokens userRole message)

instance : Decidable (Fits c message) := inferInstanceAs (Decidable (¬ _))

end Exchange

section Single

variable {server : Server} {c : ConversationContext} {message : Bytes} {config : GenerationConfig}

theorem Steady.generateResponse (steady : Steady server) (n : Nat) (input : Bytes)
    (config : GenerationConfig) (ragTurn : RagTurn) :
    server.generateResponse n input config ragTurn =
      server.generateResponse 0 input config ragTurn := by
  unfold Server.generateResponse
  rw [steady.same n]

/-- A message that is refused has no exchange, or does not fit. -/
theorem messageRefused_eq_none_of_exchange (fits : Fits c message) {reply : Bytes × ConversationContext}
    (exchanged : exchange server c message config = some reply) :
    messageRefused server c message = none := by
  unfold exchange at exchanged
  split at exchanged
  next added =>
    unfold ConversationContext.addMessageOrThrow at added
    unfold messageRefused
    split
    next text refused =>
      rw [refused] at added
      cases added
    next => exact if_neg fits
  next => cases exchanged

theorem fits_of_messageRefused (accepted : messageRefused server c message = none) :
    Fits c message := by
  unfold messageRefused at accepted
  split at accepted
  · cases accepted
  · intro large
    rw [if_pos large] at accepted
    cases accepted

/-- A turn has an answer exactly when its message fits and has an exchange. -/
theorem turn_eq_exchange (steady : Steady server) (n : Nat) {response : Bytes}
    {left : ConversationContext} :
    turn server n c config message = (some response, left) ↔
      Fits c message ∧ exchange server c message config = some (response, left) := by
  have turned : messageRefused server c message = none →
      (turn server n c config message = (some response, left) ↔
        exchange server c message config = some (response, left)) := by
    intro accepted
    unfold turn exchange answerTo promptFor asked
    rw [accepted]
    dsimp only
    rcases c.addMessageOrThrow server.refuses userRole message with ⟨_ | text, asked⟩
    · dsimp only
      rw [if_pos rfl, steady.generateResponse n]
      cases server.generateResponse 0 (formatForModel asked) config
          ⟨message, formatForModel c⟩ with
      | error text => simp [Except.toOption]
      | ok answer =>
          dsimp only [Except.toOption, Option.bind_some]
          rcases asked.addMessageOrThrow server.refuses assistantRole answer with
            ⟨_ | text, answered⟩
          · simp
          · simp
    · simp
  constructor
  · intro same
    have accepted : messageRefused server c message = none := by
      unfold turn at same
      split at same
      · cases same
      · assumption
    exact ⟨fits_of_messageRefused accepted, (turned accepted).mp same⟩
  · rintro ⟨fits, exchanged⟩
    exact (turned (messageRefused_eq_none_of_exchange fits exchanged)).mpr exchanged

end Single

/-! ## Batches of different sessions -/

/-- Results that are all there are the values of the function. -/
theorem eq_map_getD {α β : Type} {f : α → Option β} {xs : List α} {ys : List β} (default : β)
    (same : xs.map f = ys.map some) :
    ys = xs.map (fun x => (f x).getD default) ∧ ∀ x ∈ xs, f x = some ((f x).getD default) := by
  have there : ∀ x ∈ xs, f x = some ((f x).getD default) := by
    intro x member
    obtain ⟨y, _, found⟩ := List.mem_map.mp (same ▸ List.mem_map_of_mem member : f x ∈ ys.map some)
    rw [← found, Option.getD_some]
  refine ⟨?_, there⟩
  refine (List.map_injective_iff.mpr (Option.some_injective β)) ?_
  rw [← same, List.map_map]
  exact List.map_congr_left there

theorem zip_fst_snd {α β : Type} (pairs : List (α × β)) :
    (pairs.map Prod.fst).zip (pairs.map Prod.snd) = pairs := by
  rw [List.zip_map']
  exact List.map_id pairs

section Batch

variable {server : Server} {config : GenerationConfig}

variable (server) in
/-- The messages of different sessions are added each to its own conversation. -/
theorem addTurns_distinct {api : ChatbotAPI} {turns : List (Bytes × Bytes)}
    (distinct : (turns.map Prod.fst).Nodup)
    (added : ∀ t ∈ turns, ((api.context t.1).addMessageOrThrow server.refuses userRole t.2).1 = none) :
    (addTurns server api turns).1 =
        .ok (turns.map fun t => promptFor server (api.context t.1) t.2) ∧
      (∀ t ∈ turns, (addTurns server api turns).2.context t.1 = asked server (api.context t.1) t.2) ∧
      ∀ id ∉ turns.map Prod.fst, (addTurns server api turns).2.context id = api.context id := by
  induction turns generalizing api with
  | nil => exact ⟨rfl, nofun, fun _ _ => rfl⟩
  | cons first rest ih =>
      obtain ⟨id, message⟩ := first
      obtain ⟨apart, distinct⟩ := List.nodup_cons.mp distinct
      obtain ⟨here, later⟩ := List.forall_mem_cons.mp added
      have shape : (api.context id).addMessageOrThrow server.refuses userRole message =
          (none, asked server (api.context id) message) := Prod.ext here rfl
      have others : ∀ other, other ≠ id →
          ((api.setContext id (asked server (api.context id) message)).touch id).context other =
            api.context other := fun other ne => Function.update_of_ne ne _ _
      have other : ∀ t ∈ rest, t.1 ≠ id := fun t member same =>
        apart (List.mem_map.mpr ⟨t, member, same⟩)
      obtain ⟨result, contexts, untouched⟩ :=
        @ih ((api.setContext id (asked server (api.context id) message)).touch id) distinct
          (fun t member => by rw [others t.1 (other t member)]; exact later t member)
      unfold addTurns
      rw [shape]
      dsimp only
      generalize addTurns server ((api.setContext id (asked server (api.context id) message)).touch
        id) rest = after at result contexts untouched ⊢
      obtain ⟨outcome, after⟩ := after
      dsimp only at result contexts untouched
      subst result
      refine ⟨?_, ?_, ?_⟩
      · refine congrArg (fun prompts => Except.ok (_ :: prompts)) (List.map_congr_left ?_)
        intro t member
        rw [others t.1 (other t member)]
      · intro t member
        rcases List.mem_cons.mp member with rfl | member
        · exact (untouched id apart).trans (Function.update_self ..)
        · rw [contexts t member, others t.1 (other t member)]
      · intro other member
        rw [List.map_cons, List.mem_cons, not_or] at member
        rw [untouched other member.2, others other member.1]

theorem added_of_addTurns {api : ChatbotAPI} {turns : List (Bytes × Bytes)}
    (distinct : (turns.map Prod.fst).Nodup) {prompts : List Prompt}
    (ok : (addTurns server api turns).1 = .ok prompts) :
    ∀ t ∈ turns, ((api.context t.1).addMessageOrThrow server.refuses userRole t.2).1 = none := by
  induction turns generalizing api prompts with
  | nil => exact nofun
  | cons first rest ih =>
      obtain ⟨id, message⟩ := first
      obtain ⟨apart, distinct⟩ := List.nodup_cons.mp distinct
      unfold addTurns at ok
      dsimp only at ok
      rcases shape : (api.context id).addMessageOrThrow server.refuses userRole message with
        ⟨_ | text, asked⟩
      · rw [shape] at ok
        dsimp only at ok
        rcases later : addTurns server ((api.setContext id asked).touch id) rest with
          ⟨text | prompts, after⟩
        · rw [later] at ok
          cases ok
        · refine List.forall_mem_cons.mpr ⟨congrArg Prod.fst shape, fun t member => ?_⟩
          have accepted := ih distinct (congrArg Prod.fst later) t member
          have other : t.1 ≠ id := fun same => apart (List.mem_map.mpr ⟨t, member, same⟩)
          rwa [show ((api.setContext id asked).touch id).context t.1 = api.context t.1 from
            Function.update_of_ne other _ _] at accepted
      · rw [shape] at ok
        cases ok

theorem addReplies_distinct {api : ChatbotAPI} {replies : List (Bytes × Bytes)}
    (distinct : (replies.map Prod.fst).Nodup)
    (added : ∀ t ∈ replies,
      ((api.context t.1).addMessageOrThrow server.refuses assistantRole t.2).1 = none) :
    (addReplies server api replies).1 = none ∧
      (∀ t ∈ replies, (addReplies server api replies).2.context t.1 =
        ((api.context t.1).addMessageOrThrow server.refuses assistantRole t.2).2) ∧
      ∀ id ∉ replies.map Prod.fst, (addReplies server api replies).2.context id =
        api.context id := by
  induction replies generalizing api with
  | nil => exact ⟨rfl, nofun, fun _ _ => rfl⟩
  | cons first rest ih =>
      obtain ⟨id, response⟩ := first
      obtain ⟨apart, distinct⟩ := List.nodup_cons.mp distinct
      obtain ⟨here, later⟩ := List.forall_mem_cons.mp added
      rcases shape : (api.context id).addMessageOrThrow server.refuses assistantRole response with
        ⟨_ | text, answered⟩
      · have others : ∀ other, other ≠ id → (api.setContext id answered).context other =
            api.context other := fun other ne => Function.update_of_ne ne _ _
        have other : ∀ t ∈ rest, t.1 ≠ id := fun t member same =>
          apart (List.mem_map.mpr ⟨t, member, same⟩)
        obtain ⟨result, contexts, untouched⟩ := @ih (api.setContext id answered) distinct
          (fun t member => by rw [others t.1 (other t member)]; exact later t member)
        unfold addReplies
        rw [shape]
        refine ⟨result, ?_, ?_⟩
        · intro t member
          rcases List.mem_cons.mp member with rfl | member
          · rw [shape]
            exact (untouched id apart).trans (Function.update_self ..)
          · rw [contexts t member, others t.1 (other t member)]
        · intro other member
          rw [List.map_cons, List.mem_cons, not_or] at member
          rw [untouched other member.2, others other member.1]
      · rw [shape] at here
        cases here

theorem added_of_addReplies {api : ChatbotAPI} {replies : List (Bytes × Bytes)}
    (distinct : (replies.map Prod.fst).Nodup) (ok : (addReplies server api replies).1 = none) :
    ∀ t ∈ replies,
      ((api.context t.1).addMessageOrThrow server.refuses assistantRole t.2).1 = none := by
  induction replies generalizing api with
  | nil => exact nofun
  | cons first rest ih =>
      obtain ⟨id, response⟩ := first
      obtain ⟨apart, distinct⟩ := List.nodup_cons.mp distinct
      unfold addReplies at ok
      rcases shape : (api.context id).addMessageOrThrow server.refuses assistantRole response with
        ⟨_ | text, answered⟩
      · rw [shape] at ok
        refine List.forall_mem_cons.mpr ⟨congrArg Prod.fst shape, fun t member => ?_⟩
        have accepted := ih distinct ok t member
        have other : t.1 ≠ id := fun same => apart (List.mem_map.mpr ⟨t, member, same⟩)
        rwa [show (api.setContext id answered).context t.1 = api.context t.1 from
          Function.update_of_ne other _ _] at accepted
      · rw [shape] at ok
        cases ok

/-- The answers are those to the prompts, one by one. -/
theorem answersFrom_eq_some_iff (steady : Steady server) {n : Nat} {prompts : List Prompt}
    {responses : List Bytes} :
    answersFrom server config n prompts = some responses ↔
      prompts.map (answerTo server config) = responses.map some := by
  induction prompts generalizing n responses with
  | nil =>
      unfold answersFrom
      rw [List.map_nil, Option.some.injEq, eq_comm, eq_comm (a := []), List.map_eq_nil_iff]
  | cons prompt rest ih =>
      obtain ⟨input, ragTurn⟩ := prompt
      unfold answersFrom
      rw [List.map_cons, steady.generateResponse n]
      have first : answerTo server config (input, ragTurn) =
        (server.generateResponse 0 input config ragTurn).toOption := rfl
      rw [first]
      cases server.generateResponse 0 input config ragTurn with
      | error text => cases responses <;> simp [Except.toOption]
      | ok response =>
          dsimp only [Except.toOption]
          rw [Option.map_eq_some_iff]
          constructor
          · rintro ⟨later, answers, rfl⟩
            rw [List.map_cons, ih.mp answers]
          · intro same
            cases responses with
            | nil => cases same
            | cons other later =>
                obtain ⟨here, rest⟩ := List.cons.inj same
                exact ⟨later, ih.mpr rest, by rw [Option.some.inj here]⟩

/-- A prompt that cannot be encoded has no answer. -/
theorem answerTo_of_refused (steady : Steady server) {prompt : Prompt} {text : Bytes}
    (refused : server.refuses prompt.1 = some text) : answerTo server config prompt = none := by
  unfold answerTo Server.generateResponse
  rw [steady.noRag]
  simp only [refused]
  rfl

theorem batchAnswers_eq_some_iff (steady : Steady server) {n : Nat} {prompts : List Prompt}
    {responses : List Bytes} :
    batchAnswers server config n prompts = some responses ↔
      prompts.map (answerTo server config) = responses.map some := by
  unfold batchAnswers
  split
  next text refused =>
    obtain ⟨prompt, member, refused⟩ := List.exists_of_findSome?_eq_some refused
    refine iff_of_false nofun fun same => ?_
    have answered : answerTo server config prompt ∈ responses.map some :=
      same ▸ List.mem_map_of_mem member
    rw [answerTo_of_refused steady refused] at answered
    obtain ⟨_, _, impossible⟩ := List.mem_map.mp answered
    cases impossible
  · exact answersFrom_eq_some_iff steady

/-- The answer of an exchange, when there is one. -/
theorem exchange_eq_some_iff {c : ConversationContext} {message response : Bytes}
    {left : ConversationContext} :
    exchange server c message config = some (response, left) ↔
      (c.addMessageOrThrow server.refuses userRole message).1 = none ∧
        answerTo server config (promptFor server c message) = some response ∧
        (asked server c message).addMessageOrThrow server.refuses assistantRole response =
          (none, left) := by
  unfold exchange
  by_cases added : (c.addMessageOrThrow server.refuses userRole message).1 = none
  · rw [if_pos added, Option.bind_eq_some_iff]
    constructor
    · rintro ⟨answer, answered, same⟩
      split at same
      next => cases same
      next left shape =>
        obtain ⟨rfl, rfl⟩ := Prod.mk.inj (Option.some.inj same)
        exact ⟨added, answered, shape⟩
    · rintro ⟨_, answered, shape⟩
      exact ⟨response, answered, by rw [shape]⟩
  · rw [if_neg added]
    exact iff_of_false nofun fun exchanged => added exchanged.1

/-- A batch of different sessions whose messages all have exchanges has them all. -/
theorem converse_distinct (steady : Steady server) {api : ChatbotAPI}
    {turns : List (Bytes × Bytes)} (distinct : (turns.map Prod.fst).Nodup)
    {reply : Bytes × Bytes → Bytes × ConversationContext}
    (exchanged : ∀ t ∈ turns, exchange server (api.context t.1) t.2 config = some (reply t)) :
    (converse server api (turns.map Prod.fst) (turns.map Prod.snd) config).1 =
        some (turns.map fun t => (reply t).1) ∧
      (∀ t ∈ turns, (converse server api (turns.map Prod.fst) (turns.map Prod.snd)
        config).2.context t.1 = (reply t).2) ∧
      ∀ id ∉ turns.map Prod.fst, (converse server api (turns.map Prod.fst) (turns.map Prod.snd)
        config).2.context id = api.context id := by
  have parts := fun t member => exchange_eq_some_iff.mp (exchanged t member)
  obtain ⟨asks, contexts, untouched⟩ := addTurns_distinct server distinct
    fun t member => (parts t member).1
  have answers : batchAnswers server config api.generated
      (turns.map fun t => promptFor server (api.context t.1) t.2) =
        some (turns.map fun t => (reply t).1) := by
    refine (batchAnswers_eq_some_iff steady).mpr ?_
    rw [List.map_map, List.map_map]
    exact List.map_congr_left fun t member => (parts t member).2.1
  have repliers : (turns.map fun t => (t.1, (reply t).1)).map Prod.fst = turns.map Prod.fst := by
    rw [List.map_map]
    rfl
  unfold converse
  rw [zip_fst_snd]
  generalize addTurns server api turns = after at asks contexts untouched ⊢
  obtain ⟨outcome, after⟩ := after
  dsimp only at asks contexts untouched
  subst asks
  dsimp only
  rw [answers]
  dsimp only
  rw [List.zip_map']
  have accepted : ∀ t ∈ turns,
      (after.context t.1).addMessageOrThrow server.refuses assistantRole (reply t).1 =
        (none, (reply t).2) := by
    intro t member
    rw [contexts t member]
    exact (parts t member).2.2
  obtain ⟨none, replied, kept⟩ := @addReplies_distinct server after
    (turns.map fun t => (t.1, (reply t).1)) (by rwa [repliers]) (by
      intro r member
      obtain ⟨t, inside, rfl⟩ := List.mem_map.mp member
      exact congrArg Prod.fst (accepted t inside))
  rw [repliers] at kept
  generalize addReplies server after (turns.map fun t => (t.1, (reply t).1)) = last
    at none replied kept ⊢
  obtain ⟨outcome, last⟩ := last
  dsimp only at none replied kept
  subst none
  refine ⟨rfl, ?_, ?_⟩
  · intro t member
    have given := replied (t.1, (reply t).1) (List.mem_map.mpr ⟨t, member, rfl⟩)
    rwa [accepted t member] at given
  · intro id member
    exact (kept id member).trans (untouched id member)

/-- A batch of different sessions that is answered has an exchange for each message. -/
theorem exchanged_of_converse (steady : Steady server) {api : ChatbotAPI}
    {turns : List (Bytes × Bytes)} (distinct : (turns.map Prod.fst).Nodup)
    (answered : (converse server api (turns.map Prod.fst) (turns.map Prod.snd) config).1.isSome) :
    ∀ t ∈ turns, (exchange server (api.context t.1) t.2 config).isSome := by
  unfold converse at answered
  rw [zip_fst_snd] at answered
  rcases added : addTurns server api turns with ⟨text | prompts, after⟩
  · rw [added] at answered
    cases answered
  · have accepted := added_of_addTurns distinct (congrArg Prod.fst added)
    obtain ⟨asks, contexts, _⟩ := addTurns_distinct server distinct accepted
    rw [added] at answered asks contexts
    obtain rfl := Except.ok.inj asks
    dsimp only at answered
    cases answers : batchAnswers server config api.generated
        (turns.map fun t => promptFor server (api.context t.1) t.2) with
    | none =>
        rw [answers] at answered
        cases answered
    | some responses =>
        have each := (batchAnswers_eq_some_iff steady).mp answers
        rw [List.map_map] at each
        obtain ⟨same, found⟩ := eq_map_getD [] each
        rw [answers, same] at answered
        dsimp only at answered
        rw [List.zip_map'] at answered
        have repliers : ∀ answer : Bytes × Bytes → Bytes,
            (turns.map fun t => (t.1, answer t)).map Prod.fst = turns.map Prod.fst := by
          intro answer
          rw [List.map_map]
          rfl
        split at answered
        next => cases answered
        next last replied =>
          have taken := added_of_addReplies (by rwa [repliers]) (congrArg Prod.fst replied)
          intro t member
          have here := taken _ (List.mem_map.mpr ⟨t, member, rfl⟩)
          rw [contexts t member] at here
          refine Option.isSome_iff_exists.mpr ⟨(_, _), exchange_eq_some_iff.mpr
            ⟨accepted t member, found t member, Prod.ext here rfl⟩⟩

end Batch

end Adai.Sessions
