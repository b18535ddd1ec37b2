import Mathlib.Data.List.MinMax
import Mathlib.Data.Rat.Init
import Adai.Conversation.RefusedCounts
import Adai.Sessions.Requests

/-! # The chatbot's sessions

Conversations by session id. A request with no id starts a session; when the map is
full the least recently used session makes room for it. A turn adds the user's message,
generates the answer from the whole conversation and adds the answer; a batch finds or
creates all its sessions, adds all its messages and then generates the answers. What a
handler has done when it throws stays done.

The conversation of a session that has left the map is kept, as by the requests that
still hold it. The clock counts its readings, so no two sessions were last used at the
same time; ids are drawn from a source that never repeats itself.
-/

namespace Adai.Sessions

open Tokenizer Conversation

theorem lawful_beq_bytes : LawfulBEq Bytes := inferInstance

/-- Ids are compared byte by byte. -/
scoped instance decidableListed (id : Bytes) (ids : List Bytes) : Decidable (id ∈ ids) :=
  @List.instDecidableMemOfLawfulBEq Bytes _ lawful_beq_bytes id ids

/-! ## Surroundings -/

/-- The counter of a session: the number of tokens of a text, unless it is refused. -/
structure SessionTokenizer where
  count : Bytes → Int
  refuses : Refusals

/-- The latest message, and the conversation before it. -/
structure RagTurn where
  question : Bytes
  history : Bytes
  deriving DecidableEq, Repr

/-- What the handlers use: retrieval, which makes a prompt of a turn, the generation
engine, by the number of the call, and the source of the session ids. -/
structure Server where
  reading : Reading
  tokenizer : Option SessionTokenizer
  /-- Zero without a model. -/
  modelMaxSeqLength : Int
  rag : Option (RagTurn → Except Bytes Bytes)
  generate : Nat → Bytes → GenerationConfig → Except Bytes Bytes
  draw : Nat → Bytes
  draw_ne_nil : ∀ n, draw n ≠ []
  draw_injective : Function.Injective draw

namespace Server

/-- What encoding a text throws. -/
def refuses (server : Server) : Refusals := fun text =>
  server.tokenizer.bind fun tokenizer => tokenizer.refuses text

def counter (server : Server) : Option (Bytes → Int) :=
  server.tokenizer.map SessionTokenizer.count

def generateResponse (server : Server) (n : Nat) (requestInput : Bytes)
    (config : GenerationConfig) (turn : RagTurn) : Except Bytes Bytes :=
  let prompt : Except Bytes Bytes := match server.rag with
    | none => .ok requestInput
    | some buildPrompt => buildPrompt turn
  match prompt with
  | .error text => .error text
  | .ok input =>
      let failed := fun text => ascii "Generation failed: " ++ text
      match server.refuses input with
      | some text => .error (failed text)
      | none => (server.generate n input config).mapError failed

end Server

structure ChatbotAPI where
  sessions : List Bytes := []
  context : Bytes → ConversationContext := fun _ => {}
  lastAccess : Bytes → Nat := fun _ => 0
  maxSessions : Nat := 10000
  maxBatchSize : Nat := 32
  /-- Zero for the model's own length. -/
  configuredTokenBudget : Nat := 0
  defaultConfig : GenerationConfig := {}
  /-- The readings of the clock, the ids drawn and the generations, so far. -/
  clock : Nat := 0
  drawn : Nat := 0
  generated : Nat := 0

def userRole : Bytes := ascii "user"

def assistantRole : Bytes := ascii "assistant"

/-- The prompt of a conversation. -/
def formatForModel (c : ConversationContext) : Bytes :=
  ((c.systemMessage.map fun m => ascii "System: " ++ m.content ++ ascii "\n").getD []) ++
    c.messages.flatMap fun m => promptLine m.role m.content

namespace ChatbotAPI

/-! ## The session map -/

def setContext (api : ChatbotAPI) (id : Bytes) (c : ConversationContext) : ChatbotAPI :=
  { api with context := Function.update api.context id c }

/-- The session was used now. -/
def touch (api : ChatbotAPI) (id : Bytes) : ChatbotAPI :=
  { api with lastAccess := Function.update api.lastAccess id api.clock, clock := api.clock + 1 }

def evictOldest (api : ChatbotAPI) : ChatbotAPI :=
  match api.sessions.argmin api.lastAccess with
  | none => api
  | some oldest => { api with sessions := api.sessions.erase oldest }

/-- Sessions go while there are as many as may be; `fuel` is their number. -/
def makeRoom : Nat → ChatbotAPI → ChatbotAPI
  | 0, api => api
  | fuel + 1, api =>
      if api.maxSessions ≤ api.sessions.length then makeRoom fuel api.evictOldest else api

/-- Ids are drawn until one is not in the map; `fuel` is the number of sessions, one
less than the draws that suffice. -/
def createSessionId (server : Server) : Nat → ChatbotAPI → Bytes × ChatbotAPI
  | 0, api => (server.draw api.drawn, { api with drawn := api.drawn + 1 })
  | fuel + 1, api =>
      if server.draw api.drawn ∈ api.sessions then
        createSessionId server fuel { api with drawn := api.drawn + 1 }
      else (server.draw api.drawn, { api with drawn := api.drawn + 1 })

def sessionTokenBudget (server : Server) (api : ChatbotAPI) : Nat :=
  if api.configuredTokenBudget > 0 then api.configuredTokenBudget
  else if server.modelMaxSeqLength > 0 then server.modelMaxSeqLength.toNat
  else 2048

/-- The context of a session that is created now; its budget is an `int`. -/
def newContext (server : Server) (api : ChatbotAPI) : ConversationContext :=
  let context : ConversationContext :=
    { maxMessages := 10, maxTokens := Int.bmod (api.sessionTokenBudget server) 4294967296 }
  match server.counter with
  | none => context
  | some count => context.setTokenCounter (some count)

def createSession (server : Server) (api : ChatbotAPI) : Bytes × ChatbotAPI :=
  let room := makeRoom api.sessions.length api
  let (id, room) := createSessionId server room.sessions.length room
  let created := (room.setContext id (room.newContext server)).touch id
  (id, { created with sessions := created.sessions ++ [id] })

def getOrCreateSession (server : Server) (api : ChatbotAPI) (sessionId : Bytes) :
    Except ApiError Bytes × ChatbotAPI :=
  if sessionId ≠ [] then
    if sessionId ∈ api.sessions then (.ok sessionId, api.touch sessionId)
    else (.error .sessionNotFound, api)
  else
    let (id, api) := api.createSession server
    (.ok id, api)

end ChatbotAPI

/-! ## Single requests -/

/-- A message that cannot be counted, or is more than its session holds, is refused. -/
def messageRefused (server : Server) (c : ConversationContext) (message : Bytes) :
    Option ApiError :=
  match c.refusal server.refuses userRole message with
  | some text => some (.failed text)
  | none =>
      let messageTokens := c.countMessageTokens userRole message
      if 0 < c.maxTokens ∧ c.maxTokens < messageTokens then
        some (.badRequest (ascii "'message' is about " ++ decimal messageTokens ++
          ascii " tokens; a session holds at most " ++ decimal c.maxTokens))
      else none

structure ChatReply where
  response : Bytes
  sessionId : Bytes
  deriving DecidableEq, Repr

section Single

variable (server : Server) (api : ChatbotAPI)

/-- The turn of a request in its session. -/
def chatTurn (id : Bytes) (request : ChatRequest) : Except ApiError ChatReply × ChatbotAPI :=
  let before := api.context id
  match messageRefused server before request.message with
  | some error => (.error error, api)
  | none =>
      let ragTurn : RagTurn := ⟨request.message, formatForModel before⟩
      match before.addMessageOrThrow server.refuses userRole request.message with
      | (some text, asked) => (.error (.failed text), api.setContext id asked)
      | (none, asked) =>
          let turn := (api.setContext id asked).touch id
          let n := turn.generated
          let turn := { turn with generated := n + 1 }
          match server.generateResponse n (formatForModel asked) request.config ragTurn with
          | .error text => (.error (.failed text), turn)
          | .ok response =>
              match asked.addMessageOrThrow server.refuses assistantRole response with
              | (some text, answered) => (.error (.failed text), turn.setContext id answered)
              | (none, answered) => (.ok ⟨response, id⟩, turn.setContext id answered)

def handleChatSession (body : Bytes) : Except ApiError ChatReply × ChatbotAPI :=
  match readChat server.reading api.defaultConfig body with
  | .error error => (.error error, api)
  | .ok request =>
      match api.getOrCreateSession server request.sessionId with
      | (.error error, api) => (.error error, api)
      | (.ok id, api) => chatTurn server api id request

def handleClearSession (body : Bytes) : Except ApiError Unit × ChatbotAPI :=
  match readClear server.reading body with
  | .error error => (.error error, api)
  | .ok sessionId =>
      if sessionId ∈ api.sessions then
        (.ok (), api.setContext sessionId (api.context sessionId).clear)
      else (.error .sessionNotFound, api)

/-- The reply names the session and counts its messages. -/
def handleImportSession (body : Bytes) : Except ApiError (Bytes × Nat) × ChatbotAPI :=
  match readImport server.reading body with
  | .error error => (.error error, api)
  | .ok request =>
      match api.getOrCreateSession server request.sessionId with
      | (.error error, api) => (.error error, api)
      | (.ok id, api) =>
          match (api.context id).deserializeOrThrow server.refuses request.data with
          | .error what =>
              (.error (.badRequest (ascii "Failed to import conversation: " ++ what)), api)
          | .ok imported =>
              (.ok (id, imported.messages.length), (api.setContext id imported).touch id)

end Single

/-! ## Batches -/

/-- The sessions of a batch, found or created one after the other. -/
def getOrCreateAll (server : Server) : ChatbotAPI → List Bytes →
    Except ApiError (List Bytes) × ChatbotAPI
  | api, [] => (.ok [], api)
  | api, sessionId :: rest =>
      match api.getOrCreateSession server sessionId with
      | (.error error, api) => (.error error, api)
      | (.ok id, api) =>
          match getOrCreateAll server api rest with
          | (.error error, api) => (.error error, api)
          | (.ok ids, api) => (.ok (id :: ids), api)

/-- A prompt and the turn it is of. -/
abbrev Prompt := Bytes × RagTurn

/-- The messages are added one after the other, and each conversation is formatted. -/
def addTurns (server : Server) : ChatbotAPI → List (Bytes × Bytes) →
    Except Bytes (List Prompt) × ChatbotAPI
  | api, [] => (.ok [], api)
  | api, (id, message) :: rest =>
      let ragTurn : RagTurn := ⟨message, formatForModel (api.context id)⟩
      match (api.context id).addMessageOrThrow server.refuses userRole message with
      | (some text, asked) => (.error text, api.setContext id asked)
      | (none, asked) =>
          match addTurns server ((api.setContext id asked).touch id) rest with
          | (.error text, api) => (.error text, api)
          | (.ok prompts, api) => (.ok ((formatForModel asked, ragTurn) :: prompts), api)

/-- The answers, generated one after the other. -/
def generateAll (server : Server) (config : GenerationConfig) : ChatbotAPI → List Prompt →
    Except Bytes (List Bytes) × ChatbotAPI
  | api, [] => (.ok [], api)
  | api, (input, turn) :: rest =>
      let after := { api with generated := api.generated + 1 }
      match server.generateResponse api.generated input config turn with
      | .error text => (.error text, after)
      | .ok response =>
          match generateAll server config after rest with
          | (.error text, api) => (.error text, api)
          | (.ok responses, api) => (.ok (response :: responses), api)

/-- The inputs are all encoded, for the statistics, before anything is generated. -/
def generateBatchResponses (server : Server) (api : ChatbotAPI) (config : GenerationConfig)
    (prompts : List Prompt) : Except Bytes (List Bytes) × ChatbotAPI :=
  let failed := fun text => ascii "Batch generation failed: " ++ text
  match prompts.findSome? fun prompt => server.refuses prompt.1 with
  | some text => (.error (failed text), api)
  | none =>
      let (responses, api) := generateAll server config api prompts
      (responses.mapError failed, api)

def addReplies (server : Server) : ChatbotAPI → List (Bytes × Bytes) → Option Bytes × ChatbotAPI
  | api, [] => (none, api)
  | api, (id, response) :: rest =>
      match (api.context id).addMessageOrThrow server.refuses assistantRole response with
      | (some text, answered) => (some text, api.setContext id answered)
      | (none, answered) => addReplies server (api.setContext id answered) rest

structure BatchReply where
  responses : List Bytes
  sessionIds : List Bytes
  deriving DecidableEq, Repr

section Batch

variable (server : Server) (api : ChatbotAPI)

/-- The turns of a batch whose sessions are there. -/
def batchTurns (ids messages : List Bytes) (config : GenerationConfig) :
    Except ApiError BatchReply × ChatbotAPI :=
  let failed := fun text => ApiError.failed (ascii "Batch session generation failed: " ++ text)
  match addTurns server api (ids.zip messages) with
  | (.error text, api) => (.error (failed text), api)
  | (.ok prompts, api) =>
      match generateBatchResponses server api config prompts with
      | (.error text, api) => (.error (.failed text), api)
      | (.ok responses, api) =>
          match addReplies server api (ids.zip responses) with
          | (some text, api) => (.error (failed text), api)
          | (none, api) => (.ok ⟨responses, ids⟩, api)

def handleBatchChatSession (body : Bytes) : Except ApiError BatchReply × ChatbotAPI :=
  match readBatch server.reading api.defaultConfig body api.maxBatchSize with
  | .error error => (.error error, api)
  | .ok request =>
      let sessionIds := request.turns.map Prod.fst
      if sessionIds.any fun id => id ≠ [] ∧ id ∉ api.sessions then (.error .sessionNotFound, api)
      else
        match getOrCreateAll server api sessionIds with
        | (.error error, api) => (.error error, api)
        | (.ok ids, api) => batchTurns server api ids (request.turns.map Prod.snd) request.config

end Batch

end Adai.Sessions
