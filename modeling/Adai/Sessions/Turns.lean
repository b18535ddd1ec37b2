import Adai.Sessions.SessionMap

/-! # Turns as functions of the conversations

A turn reads and changes one conversation, and the turns of a batch read and change the
conversations of its sessions: neither depends on the session map or on when a session
was last used (`Adai.Sessions.chatTurn_spec`, `Adai.Sessions.batchTurns_spec`), and
neither changes the map.
-/

namespace Adai.Sessions

open Tokenizer Conversation

/-! ## A single turn -/

/-- The answer to a message, or none, and the conversation that is left. -/
def turn (server : Server) (n : Nat) (c : ConversationContext) (config : GenerationConfig)
    (message : Bytes) : Option Bytes × ConversationContext :=
  match messageRefused server c message with
  | some _ => (none, c)
  | none =>
      match c.addMessageOrThrow server.refuses userRole message with
      | (some _, asked) => (none, asked)
      | (none, asked) =>
          match server.generateResponse n (formatForModel asked) config
              ⟨message, formatForModel c⟩ with
          | .error _ => (none, asked)
          | .ok response =>
              match asked.addMessageOrThrow server.refuses assistantRole response with
              | (some _, answered) => (none, answered)
              | (none, answered) => (some response, answered)

section Single

variable (server : Server) (api : ChatbotAPI) (id : Bytes) (request : ChatRequest)

/-- The turn of a request is the turn of its session's conversation. -/
theorem chatTurn_spec :
    (chatTurn server api id request).1.toOption =
        (turn server api.generated (api.context id) request.config request.message).1.map (⟨·, id⟩) ∧
      (chatTurn server api id request).2.context = Function.update api.context id
        (turn server api.generated (api.context id) request.config request.message).2 ∧
      (chatTurn server api id request).2.sessions = api.sessions := by
  unfold chatTurn turn
  dsimp only
  cases messageRefused server (api.context id) request.message with
  | some error => exact ⟨rfl, (Function.update_eq_self id _).symm, rfl⟩
  | none =>
      dsimp only
      rcases (api.context id).addMessageOrThrow server.refuses userRole request.message with
        ⟨_ | text, asked⟩
      · have kept : ((api.setContext id asked).touch id).generated = api.generated := rfl
        dsimp only
        rw [kept]
        cases server.generateResponse api.generated (formatForModel asked) request.config
            ⟨request.message, formatForModel (api.context id)⟩ with
        | error text => exact ⟨rfl, rfl, rfl⟩
        | ok response =>
            dsimp only
            rcases asked.addMessageOrThrow server.refuses assistantRole response with
              ⟨_ | text, answered⟩
            · exact ⟨rfl, Function.update_idem .., rfl⟩
            · exact ⟨rfl, Function.update_idem .., rfl⟩
      · exact ⟨rfl, rfl, rfl⟩

end Single

/-! ## The turns of a batch -/

/-- The answers to the prompts from the `n`th generation on, or none. -/
def answersFrom (server : Server) (config : GenerationConfig) :
    Nat → List Prompt → Option (List Bytes)
  | _, [] => some []
  | n, (input, ragTurn) :: rest =>
      match server.generateResponse n input config ragTurn with
      | .error _ => none
      | .ok response => (answersFrom server config (n + 1) rest).map (response :: ·)

/-- The answers to prompts that can all be encoded. -/
def batchAnswers (server : Server) (config : GenerationConfig) (n : Nat) (prompts : List Prompt) :
    Option (List Bytes) :=
  match prompts.findSome? fun prompt => server.refuses prompt.1 with
  | some _ => none
  | none => answersFrom server config n prompts

theorem setContext_congr {a b : ChatbotAPI} (same : a.context = b.context) (id : Bytes)
    (c : ConversationContext) : (a.setContext id c).context = (b.setContext id c).context := by
  unfold ChatbotAPI.setContext
  rw [same]

section Batch

variable (server : Server)

theorem addTurns_congr {a b : ChatbotAPI} (same : a.context = b.context) (turns : List (Bytes × Bytes)) :
    (addTurns server a turns).1 = (addTurns server b turns).1 ∧
      (addTurns server a turns).2.context = (addTurns server b turns).2.context := by
  induction turns generalizing a b with
  | nil => exact ⟨rfl, same⟩
  | cons first rest ih =>
      obtain ⟨id, message⟩ := first
      unfold addTurns
      rw [same]
      dsimp only
      rcases (b.context id).addMessageOrThrow server.refuses userRole message with
        ⟨_ | text, asked⟩
      · have next : ((a.setContext id asked).touch id).context =
            ((b.setContext id asked).touch id).context := setContext_congr same id asked
        obtain ⟨result, context⟩ := ih next
        dsimp only
        generalize addTurns server ((a.setContext id asked).touch id) rest = left at result context ⊢
        generalize addTurns server ((b.setContext id asked).touch id) rest = right at result context ⊢
        obtain ⟨outcome, left⟩ := left
        obtain ⟨_, right⟩ := right
        obtain rfl : outcome = _ := result
        cases outcome with
        | error text => exact ⟨rfl, context⟩
        | ok prompts => exact ⟨rfl, context⟩
      · exact ⟨rfl, setContext_congr same id asked⟩

theorem addReplies_congr {a b : ChatbotAPI} (same : a.context = b.context)
    (replies : List (Bytes × Bytes)) :
    (addReplies server a replies).1 = (addReplies server b replies).1 ∧
      (addReplies server a replies).2.context = (addReplies server b replies).2.context := by
  induction replies generalizing a b with
  | nil => exact ⟨rfl, same⟩
  | cons first rest ih =>
      obtain ⟨id, response⟩ := first
      unfold addReplies
      rw [same]
      rcases (b.context id).addMessageOrThrow server.refuses assistantRole response with
        ⟨_ | text, answered⟩
      · exact ih (setContext_congr same id answered)
      · exact ⟨rfl, setContext_congr same id answered⟩

/-- Generating changes no conversation. -/
theorem generateAll_spec (config : GenerationConfig) (api : ChatbotAPI) (prompts : List Prompt) :
    (generateAll server config api prompts).1.toOption =
        answersFrom server config api.generated prompts ∧
      (generateAll server config api prompts).2.context = api.context := by
  induction prompts generalizing api with
  | nil => exact ⟨rfl, rfl⟩
  | cons prompt rest ih =>
      obtain ⟨input, ragTurn⟩ := prompt
      unfold generateAll answersFrom
      dsimp only
      cases server.generateResponse api.generated input config ragTurn with
      | error text => exact ⟨rfl, rfl⟩
      | ok response =>
        obtain ⟨result, context⟩ := ih { api with generated := api.generated + 1 }
        dsimp only
        rw [← result]
        generalize generateAll server config { api with generated := api.generated + 1 } rest =
          after at context ⊢
        obtain ⟨outcome, after⟩ := after
        cases outcome with
        | error text => exact ⟨rfl, context⟩
        | ok responses => exact ⟨rfl, context⟩

theorem generateBatchResponses_spec (api : ChatbotAPI) (config : GenerationConfig)
    (prompts : List Prompt) :
    (generateBatchResponses server api config prompts).1.toOption =
        batchAnswers server config api.generated prompts ∧
      (generateBatchResponses server api config prompts).2.context = api.context := by
  unfold generateBatchResponses batchAnswers
  dsimp only
  cases prompts.findSome? fun prompt => server.refuses prompt.1 with
  | some text => exact ⟨rfl, rfl⟩
  | none =>
    obtain ⟨result, context⟩ := generateAll_spec server config api prompts
    refine ⟨?_, context⟩
    rw [← result]
    cases (generateAll server config api prompts).1 with
    | error text => rfl
    | ok responses => rfl

theorem addTurns_generated (api : ChatbotAPI) (turns : List (Bytes × Bytes)) :
    (addTurns server api turns).2.generated = api.generated := by
  induction turns generalizing api with
  | nil => rfl
  | cons first rest ih =>
      obtain ⟨id, message⟩ := first
      unfold addTurns
      dsimp only
      split
      · rfl
      next asked _ =>
        have rest := ih ((api.setContext id asked).touch id)
        split
        next failed => rwa [failed] at rest
        next added => rwa [added] at rest

/-- The answers of a batch, or none, and the state that is left, up to when its sessions
were last used. -/
def converse (api : ChatbotAPI) (ids messages : List Bytes) (config : GenerationConfig) :
    Option (List Bytes) × ChatbotAPI :=
  match addTurns server api (ids.zip messages) with
  | (.error _, asked) => (none, asked)
  | (.ok prompts, asked) =>
      match batchAnswers server config api.generated prompts with
      | none => (none, asked)
      | some responses =>
          match addReplies server asked (ids.zip responses) with
          | (some _, answered) => (none, answered)
          | (none, answered) => (some responses, answered)

/-- The turns of a batch are turns of the conversations of its sessions. -/
theorem batchTurns_spec {a b : ChatbotAPI} (same : a.context = b.context)
    (calls : a.generated = b.generated) (ids messages : List Bytes) (config : GenerationConfig) :
    (batchTurns server a ids messages config).1.toOption =
        (converse server b ids messages config).1.map (⟨·, ids⟩) ∧
      (batchTurns server a ids messages config).2.context =
        (converse server b ids messages config).2.context := by
  obtain ⟨result, context⟩ := addTurns_congr server same (ids.zip messages)
  have generated := addTurns_generated server a (ids.zip messages)
  rw [calls] at generated
  unfold batchTurns converse
  generalize addTurns server a (ids.zip messages) = left at result context generated ⊢
  generalize addTurns server b (ids.zip messages) = right at result context ⊢
  obtain ⟨outcome, left⟩ := left
  obtain ⟨_, right⟩ := right
  obtain rfl : outcome = _ := result
  cases outcome with
  | error text => exact ⟨rfl, context⟩
  | ok prompts =>
      obtain ⟨answers, kept⟩ := generateBatchResponses_spec server left config prompts
      rw [show left.generated = b.generated from generated] at answers
      dsimp only
      rw [← answers]
      generalize generateBatchResponses server left config prompts = after at kept ⊢
      obtain ⟨outcome, after⟩ := after
      cases outcome with
      | error text => exact ⟨rfl, kept.trans context⟩
      | ok responses =>
          obtain ⟨refused, replied⟩ := addReplies_congr server (kept.trans context)
            (ids.zip responses)
          dsimp only [Except.toOption]
          generalize addReplies server after (ids.zip responses) = left at refused replied ⊢
          generalize addReplies server right (ids.zip responses) = right at refused replied ⊢
          obtain ⟨outcome, left⟩ := left
          obtain ⟨_, right⟩ := right
          obtain rfl : outcome = _ := refused
          cases outcome with
          | some text => exact ⟨rfl, replied⟩
          | none => exact ⟨rfl, replied⟩

/-! ## The turns leave the map alone -/

theorem addTurns_sessions (api : ChatbotAPI) (turns : List (Bytes × Bytes)) :
    (addTurns server api turns).2.sessions = api.sessions := by
  induction turns generalizing api with
  | nil => rfl
  | cons turn rest ih =>
      obtain ⟨id, message⟩ := turn
      unfold addTurns
      split
      · rfl
      · next asked _ =>
        have rest := ih ((api.setContext id asked).touch id)
        split
        · next failed => rwa [failed] at rest
        · next added => rwa [added] at rest

theorem generateAll_sessions (config : GenerationConfig) (api : ChatbotAPI)
    (prompts : List Prompt) :
    (generateAll server config api prompts).2.sessions = api.sessions := by
  induction prompts generalizing api with
  | nil => rfl
  | cons prompt rest ih =>
      obtain ⟨input, turn⟩ := prompt
      unfold generateAll
      have rest := ih { api with generated := api.generated + 1 }
      dsimp only
      split
      · rfl
      · split
        · next failed => rwa [failed] at rest
        · next answered => rwa [answered] at rest

theorem addReplies_sessions (api : ChatbotAPI) (replies : List (Bytes × Bytes)) :
    (addReplies server api replies).2.sessions = api.sessions := by
  induction replies generalizing api with
  | nil => rfl
  | cons reply rest ih =>
      obtain ⟨id, response⟩ := reply
      unfold addReplies
      split
      · rfl
      · next answered _ => exact ih (api.setContext id answered)

theorem generateBatchResponses_sessions (api : ChatbotAPI) (config : GenerationConfig)
    (prompts : List Prompt) :
    (generateBatchResponses server api config prompts).2.sessions = api.sessions := by
  unfold generateBatchResponses
  dsimp only
  split
  · rfl
  · exact generateAll_sessions server config api prompts

/-- A batch whose sessions are there answers with them, and leaves the map alone. -/
theorem batchTurns_sessions (api : ChatbotAPI) (ids messages : List Bytes)
    (config : GenerationConfig) :
    (batchTurns server api ids messages config).2.sessions = api.sessions ∧
      (batchTurns server api ids messages config).1 ≠ .error .sessionNotFound ∧
      ∀ reply, (batchTurns server api ids messages config).1 = .ok reply → reply.sessionIds = ids := by
  have turns := addTurns_sessions server api (ids.zip messages)
  unfold batchTurns
  dsimp only
  split
  next text asked added =>
    rw [added] at turns
    exact ⟨turns, nofun, nofun⟩
  next prompts asked added =>
    rw [added] at turns
    have generation := generateBatchResponses_sessions server asked config prompts
    split
    next text after failed =>
      rw [failed] at generation
      exact ⟨generation.trans turns, nofun, nofun⟩
    next responses after answered =>
      rw [answered] at generation
      have replies := addReplies_sessions server after (ids.zip responses)
      split
      next text last failed =>
        rw [failed] at replies
        exact ⟨replies.trans (generation.trans turns), nofun, nofun⟩
      next last added =>
        rw [added] at replies
        refine ⟨replies.trans (generation.trans turns), nofun, ?_⟩
        rintro reply same
        rw [← Except.ok.inj same]

theorem converse_sessions (api : ChatbotAPI) (ids messages : List Bytes)
    (config : GenerationConfig) :
    (converse server api ids messages config).2.sessions = api.sessions := by
  have turns := addTurns_sessions server api (ids.zip messages)
  unfold converse
  split
  next asked added => rwa [added] at turns
  next prompts asked added =>
    rw [added] at turns
    split
    · exact turns
    next responses _ =>
      have replies := addReplies_sessions server asked (ids.zip responses)
      split
      next last failed =>
        rw [failed] at replies
        exact replies.trans turns
      next last added =>
        rw [added] at replies
        exact replies.trans turns

end Batch

end Adai.Sessions
