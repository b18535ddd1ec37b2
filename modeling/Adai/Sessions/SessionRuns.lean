import Adai.Math.TransitionSystem
import Adai.Sessions.FailedRequests

/-! # Runs of the session server

Requests, the sweep of expired sessions and the setters, in any order. From an empty map
on, the sessions of the map are always issued ones that were last used at different
times (`Adai.Sessions.wellFormed_of_run`).
-/

namespace Adai.Sessions

open Tokenizer Conversation Recency TransitionSystem

namespace WellFormed

variable {server : Server} {api : ChatbotAPI}

theorem setContext (right : WellFormed server api) (id : Bytes) (c : ConversationContext) :
    WellFormed server (api.setContext id c) :=
  ⟨right.apart, right.named, right.issued, right.past⟩

theorem touch (right : WellFormed server api) (id : Bytes) : WellFormed server (api.touch id) := by
  by_cases there : id ∈ api.sessions
  · exact (right.recent.touch (right.recent.mem_iff.mpr there)).wellFormed
  · have old : ∀ other ∈ api.sessions, (api.touch id).lastAccess other = api.lastAccess other :=
      fun other member => Function.update_of_ne (ne_of_mem_of_not_mem member there) _ _
    refine ⟨?_, right.named, right.issued, fun other member => ?_⟩
    · rw [show (api.touch id).sessions = api.sessions from rfl, List.map_congr_left old]
      exact right.apart
    · rw [old other member]
      exact Nat.lt_succ_of_lt (right.past other member)

/-- Sessions may go at any time. -/
theorem sublist (right : WellFormed server api) {kept : List Bytes}
    (fewer : kept.Sublist api.sessions) : WellFormed server { api with sessions := kept } :=
  ⟨(fewer.map api.lastAccess).nodup right.apart, fun member => right.named (fewer.subset member),
    fun id member => right.issued id (fewer.subset member),
    fun id member => right.past id (fewer.subset member)⟩

theorem getOrCreateSession (right : WellFormed server api) (id : Bytes) :
    WellFormed server (api.getOrCreateSession server id).2 := by
  by_cases new : id = []
  · rw [new, Recent.getOrCreateSession_create]
    exact right.recent.createSession.2.1.wellFormed
  · by_cases there : id ∈ api.sessions
    · rw [Recent.getOrCreateSession_use new there]
      exact right.touch id
    · rw [Recent.getOrCreateSession_gone new there]
      exact right

theorem getOrCreateAll (right : WellFormed server api) (ids : List Bytes) :
    WellFormed server (getOrCreateAll server api ids).2 := by
  induction ids generalizing api with
  | nil => exact right
  | cons id rest ih =>
      have first := right.getOrCreateSession id
      unfold Sessions.getOrCreateAll
      split
      next failed => rwa [failed] at first
      next found =>
        rw [found] at first
        have later := ih first
        split
        next failed => rwa [failed] at later
        next done => rwa [done] at later

theorem addTurns (right : WellFormed server api) (turns : List (Bytes × Bytes)) :
    WellFormed server (addTurns server api turns).2 := by
  induction turns generalizing api with
  | nil => exact right
  | cons first rest ih =>
      obtain ⟨id, message⟩ := first
      unfold Sessions.addTurns
      dsimp only
      split
      · exact right.setContext ..
      next asked _ =>
        have later := ih ((right.setContext id asked).touch id)
        split
        next failed => rwa [failed] at later
        next added => rwa [added] at later

theorem generateAll (right : WellFormed server api) (config : GenerationConfig)
    (prompts : List Prompt) : WellFormed server (generateAll server config api prompts).2 := by
  induction prompts generalizing api with
  | nil => exact right
  | cons prompt rest ih =>
      obtain ⟨input, ragTurn⟩ := prompt
      have next : WellFormed server { api with generated := api.generated + 1 } :=
        ⟨right.apart, right.named, right.issued, right.past⟩
      have later := ih next
      unfold Sessions.generateAll
      dsimp only
      split
      · exact next
      · split
        next failed => rwa [failed] at later
        next answered => rwa [answered] at later

theorem generateBatchResponses (right : WellFormed server api) (config : GenerationConfig)
    (prompts : List Prompt) :
    WellFormed server (generateBatchResponses server api config prompts).2 := by
  unfold Sessions.generateBatchResponses
  dsimp only
  split
  · exact right
  · exact right.generateAll config prompts

theorem addReplies (right : WellFormed server api) (replies : List (Bytes × Bytes)) :
    WellFormed server (addReplies server api replies).2 := by
  induction replies generalizing api with
  | nil => exact right
  | cons first rest ih =>
      obtain ⟨id, response⟩ := first
      unfold Sessions.addReplies
      split
      · exact right.setContext ..
      · exact ih (right.setContext ..)

theorem batchTurns (right : WellFormed server api) (ids messages : List Bytes)
    (config : GenerationConfig) : WellFormed server (batchTurns server api ids messages config).2 := by
  have turns := right.addTurns (ids.zip messages)
  unfold Sessions.batchTurns
  dsimp only
  split
  next failed => rwa [failed] at turns
  next prompts asked added =>
    rw [added] at turns
    have generation := turns.generateBatchResponses config prompts
    split
    next failed => rwa [failed] at generation
    next responses after answered =>
      rw [answered] at generation
      have replies := generation.addReplies (ids.zip responses)
      split
      next failed => rwa [failed] at replies
      next added => rwa [added] at replies

theorem chatTurn (right : WellFormed server api) (id : Bytes) (request : ChatRequest) :
    WellFormed server (chatTurn server api id request).2 := by
  have touched : ∀ (c : ConversationContext) (n : Nat),
      WellFormed server { (api.setContext id c).touch id with generated := n } := by
    intro c n
    have moved := (right.setContext id c).touch id
    exact ⟨moved.apart, moved.named, moved.issued, moved.past⟩
  unfold Sessions.chatTurn
  dsimp only
  split
  · exact right
  · split
    · exact right.setContext ..
    · split
      · exact touched _ _
      · split
        · exact (touched _ _).setContext ..
        · exact (touched _ _).setContext ..

/-- Every request leaves issued sessions that were last used at different times. -/
theorem handle (right : WellFormed server api) (body : Bytes) (route : Route) :
    WellFormed server (handle server api body route).2 := by
  cases route with
  | chatSession =>
      change WellFormed server (handleChatSession server api body).2
      unfold handleChatSession
      split
      · exact right
      next request _ =>
        have found := right.getOrCreateSession request.sessionId
        split
        next failed => rwa [failed] at found
        next opened =>
          rw [opened] at found
          exact found.chatTurn ..
  | clearSession =>
      change WellFormed server (handleClearSession server api body).2
      unfold handleClearSession
      split
      · exact right
      · split
        · exact right.setContext ..
        · exact right
  | importSession =>
      change WellFormed server (handleImportSession server api body).2
      unfold handleImportSession
      split
      · exact right
      next request _ =>
        have found := right.getOrCreateSession request.sessionId
        split
        next failed => rwa [failed] at found
        next opened =>
          rw [opened] at found
          split
          · exact found
          · exact (found.setContext ..).touch ..
  | batchSession =>
      change WellFormed server (handleBatchChatSession server api body).2
      unfold handleBatchChatSession
      split
      · exact right
      next request _ =>
        dsimp only
        split
        · exact right
        · have found := right.getOrCreateAll (request.turns.map Prod.fst)
          split
          next failed => rwa [failed] at found
          next opened =>
            rw [opened] at found
            exact found.batchTurns ..

end WellFormed

/-! ## Runs -/

inductive ApiEvent
  | request (body : Bytes) (route : Route)
  | cleanupExpiredSessions (expired : Bytes → Bool)
  | setMaxSessions (maxSessions : Nat)
  | setMaxBatchSize (maxBatchSize : Nat)
  | setSessionTokenBudget (tokens : Nat)
  | setGenerationConfig (config : GenerationConfig)

def ApiEvent.apply (server : Server) (api : ChatbotAPI) : ApiEvent → ChatbotAPI
  | .request body route => (handle server api body route).2
  | .cleanupExpiredSessions expired =>
      { api with sessions := api.sessions.filter fun id => !expired id }
  | .setMaxSessions maxSessions => { api with maxSessions := max maxSessions 1 }
  | .setMaxBatchSize maxBatchSize => { api with maxBatchSize := max maxBatchSize 1 }
  | .setSessionTokenBudget tokens => { api with configuredTokenBudget := tokens }
  | .setGenerationConfig config => { api with defaultConfig := config }

def ApiStep (server : Server) (before : ChatbotAPI) (event : ApiEvent) (after : ChatbotAPI) : Prop :=
  after = event.apply server before

/-- From an empty map on, the sessions of the map are issued ones, last used at
different times. -/
theorem wellFormed_of_run {server : Server} {first last : ChatbotAPI} {events : List ApiEvent}
    (empty : first.sessions = []) (run : Run (ApiStep server) first events last) :
    WellFormed server last := by
  refine run.invariant (WellFormed server) ?_ (wellFormed_of_empty server empty)
  rintro before event _ right rfl
  cases event with
  | request body route => exact right.handle body route
  | cleanupExpiredSessions expired => exact right.sublist List.filter_sublist
  | setMaxSessions => exact ⟨right.apart, right.named, right.issued, right.past⟩
  | setMaxBatchSize => exact ⟨right.apart, right.named, right.issued, right.past⟩
  | setSessionTokenBudget => exact ⟨right.apart, right.named, right.issued, right.past⟩
  | setGenerationConfig => exact ⟨right.apart, right.named, right.issued, right.past⟩

end Adai.Sessions
