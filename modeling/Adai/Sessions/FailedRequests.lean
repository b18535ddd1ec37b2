import Adai.Sessions.Turns

/-! # What a failed request leaves

A handler that throws keeps what it did: a session it created, a message it added. So a
failed request leaves every conversation as it was exactly when it failed before that,
or what it added pushed out as much (`Adai.Sessions.failed_keeps_iff`).
-/

namespace Adai.Sessions

open Tokenizer Conversation Recency

/-! ## Requests and conversations -/

inductive Route
  | chatSession
  | clearSession
  | importSession
  | batchSession
  deriving DecidableEq, Repr

/-- Whether a request was answered, and the state it leaves. -/
def handle (server : Server) (api : ChatbotAPI) (body : Bytes) : Route → Bool × ChatbotAPI
  | .chatSession => let (reply, after) := handleChatSession server api body; (reply.isOk, after)
  | .clearSession => let (reply, after) := handleClearSession server api body; (reply.isOk, after)
  | .importSession => let (reply, after) := handleImportSession server api body; (reply.isOk, after)
  | .batchSession =>
      let (reply, after) := handleBatchChatSession server api body; (reply.isOk, after)

/-- What a conversation looks like. -/
def visible (c : ConversationContext) : List Message × Option Message × Int :=
  (c.messages, c.systemMessage, c.totalTokens)

/-- The sessions of the map, and what their conversations look like, are the same. -/
structure SameConversations (before after : ChatbotAPI) : Prop where
  sessions : ∀ id, id ∈ after.sessions ↔ id ∈ before.sessions
  conversations : ∀ id ∈ before.sessions, visible (after.context id) = visible (before.context id)

theorem SameConversations.refl (api : ChatbotAPI) : SameConversations api api :=
  ⟨fun _ => Iff.rfl, fun _ _ => rfl⟩

/-- With the same sessions, only the conversations count. -/
theorem sameConversations_congr {before after other : ChatbotAPI}
    (sessions : after.sessions = other.sessions) (context : after.context = other.context) :
    SameConversations before after ↔ SameConversations before other := by
  constructor
  · rintro ⟨same, conversations⟩
    exact ⟨fun id => sessions ▸ same id, fun id member => context ▸ conversations id member⟩
  · rintro ⟨same, conversations⟩
    exact ⟨fun id => sessions ▸ same id, fun id member => context ▸ conversations id member⟩

theorem sameConversations_update {before after : ChatbotAPI} {id : Bytes} {c : ConversationContext}
    (there : id ∈ before.sessions) (sessions : after.sessions = before.sessions)
    (context : after.context = Function.update before.context id c) :
    SameConversations before after ↔ visible c = visible (before.context id) := by
  constructor
  · intro same
    have looks := same.conversations id there
    rwa [context, Function.update_self] at looks
  · intro looks
    refine ⟨fun _ => by rw [sessions], fun other _ => ?_⟩
    rw [context]
    by_cases same : other = id
    · rw [same, Function.update_self, looks]
    · rw [Function.update_of_ne same]

/-! ## Failures that leave everything -/

section Harmless

variable (server : Server) (api : ChatbotAPI)

/-- A turn in a new session is answered; a turn in a session there is answered, or
leaves its conversation looking as it was. -/
def ChatHarmless (request : ChatRequest) : Prop :=
  if request.sessionId = [] then
    (turn server api.generated (api.newContext server) request.config request.message).1.isSome =
      true
  else
    request.sessionId ∈ api.sessions →
      let c := api.context request.sessionId
      let left := turn server api.generated c request.config request.message
      left.1.isSome = true ∨ visible left.2 = visible c

/-- What is imported into a new session is a conversation. -/
def ImportHarmless (request : ImportRequest) : Prop :=
  request.sessionId = [] →
    ((api.newContext server).deserializeOrThrow server.refuses request.data).isOk = true

/-- The state with the new sessions of a batch. -/
def withNew (ids : List Bytes) : ChatbotAPI :=
  { api with context := fun id =>
      if id ∈ created (accessesOf server api.drawn ids) then api.newContext server
      else api.context id }

/-- A batch with a new session finds the others and is answered; a batch without is
answered, or leaves its conversations looking as they were. -/
def BatchHarmless (request : BatchRequest) : Prop :=
  let ids := request.turns.map Prod.fst
  let messages := request.turns.map Prod.snd
  let accesses := accessesOf server api.drawn ids
  (∀ id ∈ ids, id ≠ [] → id ∈ api.sessions) →
    if [] ∈ ids then
      (Recency.run api.maxSessions (leastRecentFirst api) accesses).isSome = true ∧
        (converse server (withNew server api ids) (accesses.map Access.key) messages
          request.config).1.isSome = true
    else
      let left := converse server api ids messages request.config
      left.1.isSome = true ∨ SameConversations api left.2

/-- The request is answered, or fails without a trace. -/
def Harmless (body : Bytes) : Route → Prop
  | .chatSession => ∀ request, readChat server.reading api.defaultConfig body = .ok request →
      ChatHarmless server api request
  | .clearSession => True
  | .importSession => ∀ request, readImport server.reading body = .ok request →
      ImportHarmless server api request
  | .batchSession => ∀ request,
      readBatch server.reading api.defaultConfig body api.maxBatchSize = .ok request →
      BatchHarmless server api request

end Harmless

section Routes

variable {server : Server} {api : ChatbotAPI}

/-- A session that was not there is a trace. -/
theorem not_same_of_new {after : ChatbotAPI} {id : Bytes} (there : id ∈ after.sessions)
    (new : id ∉ api.sessions) : ¬ SameConversations api after :=
  fun same => new ((same.sessions id).mp there)

theorem isOk_eq_isSome {ε α : Type} (outcome : Except ε α) :
    outcome.isOk = outcome.toOption.isSome := by
  cases outcome with
  | error => rfl
  | ok => rfl

/-- The session that is created is in the map, and was not there. -/
theorem createSession_new (right : WellFormed server api) :
    (api.createSession server).1 ∈ (api.createSession server).2.sessions ∧
      (api.createSession server).1 ∉ api.sessions := by
  obtain ⟨drawn, recent, _⟩ := right.recent.createSession
  rw [drawn]
  refine ⟨recent.mem_iff.mp (List.mem_append_right _ (List.mem_singleton_self _)), fun member => ?_⟩
  exact right.issued _ member api.drawn (Nat.le_refl _) rfl

theorem chat_keeps_iff (right : WellFormed server api) (body : Bytes) :
    ((handleChatSession server api body).1.isOk = false →
        SameConversations api (handleChatSession server api body).2) ↔
      Harmless server api body .chatSession := by
  unfold handleChatSession Harmless
  cases read : readChat server.reading api.defaultConfig body with
  | error error => exact iff_of_true (fun _ => SameConversations.refl api) nofun
  | ok request =>
      simp only [Except.ok.injEq, forall_eq']
      unfold ChatHarmless
      dsimp only
      by_cases new : request.sessionId = []
      · rw [if_pos new, new, Recent.getOrCreateSession_create]
        obtain ⟨there, apart⟩ := createSession_new right
        obtain ⟨drawn, _, context, _, _, calls⟩ := right.recent.createSession
        obtain ⟨result, _, sessions⟩ := chatTurn_spec server (api.createSession server).2
          (api.createSession server).1 request
        rw [context, ← drawn, Function.update_self, calls] at result
        dsimp only
        rw [isOk_eq_isSome, result, Option.isSome_map]
        have trace := not_same_of_new (sessions ▸ there) apart
        cases (turn server api.generated (api.newContext server) request.config
          request.message).1.isSome with
        | false => exact iff_of_false (fun kept => trace (kept rfl)) nofun
        | true => exact iff_of_true nofun rfl
      · rw [if_neg new]
        by_cases known : request.sessionId ∈ api.sessions
        · rw [Recent.getOrCreateSession_use new known]
          obtain ⟨result, context, sessions⟩ := chatTurn_spec server (api.touch request.sessionId)
            request.sessionId request
          dsimp only
          rw [isOk_eq_isSome, result, Option.isSome_map,
            sameConversations_update known sessions context]
          change (Option.isSome (turn server api.generated (api.context request.sessionId)
            request.config request.message).1 = false → _) ↔ _
          rw [← Bool.not_eq_true, imp_iff_not_or, not_not]
          exact ⟨fun kept _ => kept, fun kept => kept known⟩
        · rw [Recent.getOrCreateSession_gone new known]
          exact iff_of_true (fun _ => SameConversations.refl api) fun there => absurd there known

theorem clear_keeps (body : Bytes) (failed : (handleClearSession server api body).1.isOk = false) :
    SameConversations api (handleClearSession server api body).2 := by
  unfold handleClearSession at failed ⊢
  split
  · exact SameConversations.refl api
  next sessionId read =>
    simp only [read] at failed
    split
    next known =>
      rw [if_pos known] at failed
      cases failed
    · exact SameConversations.refl api

theorem import_keeps_iff (right : WellFormed server api) (body : Bytes) :
    ((handleImportSession server api body).1.isOk = false →
        SameConversations api (handleImportSession server api body).2) ↔
      Harmless server api body .importSession := by
  unfold handleImportSession Harmless
  cases read : readImport server.reading body with
  | error error => exact iff_of_true (fun _ => SameConversations.refl api) nofun
  | ok request =>
      simp only [Except.ok.injEq, forall_eq']
      unfold ImportHarmless
      by_cases new : request.sessionId = []
      · rw [new, Recent.getOrCreateSession_create]
        obtain ⟨there, apart⟩ := createSession_new right
        obtain ⟨drawn, _, context, _⟩ := right.recent.createSession
        dsimp only
        rw [context, ← drawn, Function.update_self]
        cases (api.newContext server).deserializeOrThrow server.refuses request.data with
        | error what =>
            refine iff_of_false (fun kept => not_same_of_new there apart (kept rfl)) fun kept => ?_
            cases kept rfl
        | ok imported => exact iff_of_true nofun fun _ => rfl
      · refine iff_of_true (fun failed => ?_) fun none => absurd none new
        by_cases known : request.sessionId ∈ api.sessions
        · rw [Recent.getOrCreateSession_use new known] at failed ⊢
          dsimp only at failed ⊢
          split
          · exact ⟨fun _ => Iff.rfl, fun _ _ => rfl⟩
          next imported parsed =>
            rw [parsed] at failed
            cases failed
        · rw [Recent.getOrCreateSession_gone new known]
          exact SameConversations.refl api

/-- A session that was not there at the start: those created later do not all go. -/
def SomeNew (start : List Bytes) (api : ChatbotAPI) : Prop := ∃ id ∈ api.sessions, id ∉ start

theorem someNew_created {start : List Bytes} {keys : List Bytes} (recent : Recent server api keys)
    (undrawn : server.draw api.drawn ∉ start) : SomeNew start (api.createSession server).2 :=
  ⟨_, recent.createSession.2.1.mem_iff.mp (List.mem_append_right _ (List.mem_singleton_self _)),
    undrawn⟩

theorem SomeNew.getOrCreateAll {start : List Bytes} {keys : List Bytes}
    (recent : Recent server api keys) (undrawn : ∀ n, api.drawn ≤ n → server.draw n ∉ start)
    (new : SomeNew start api) (ids : List Bytes) :
    SomeNew start (getOrCreateAll server api ids).2 := by
  induction ids generalizing api keys with
  | nil => exact new
  | cons id rest ih =>
      unfold Sessions.getOrCreateAll
      by_cases create : id = []
      · subst create
        obtain ⟨_, stepped, _, next, _⟩ := recent.createSession
        have later := ih stepped (fun n le => undrawn n (by omega))
          (someNew_created recent (undrawn _ (Nat.le_refl _)))
        rw [Recent.getOrCreateSession_create]
        dsimp only
        split
        next failed => rwa [failed] at later
        next done => rwa [done] at later
      · by_cases known : id ∈ api.sessions
        · have later := ih (recent.touch (recent.mem_iff.mpr known)) undrawn new
          rw [Recent.getOrCreateSession_use create known]
          dsimp only
          split
          next failed => rwa [failed] at later
          next done => rwa [done] at later
        · rw [Recent.getOrCreateSession_gone create known]
          exact new

/-- A batch with a new session leaves a trace even when it misses a session then. -/
theorem someNew_of_batch (start : List Bytes) {keys : List Bytes} (recent : Recent server api keys)
    (undrawn : ∀ n, api.drawn ≤ n → server.draw n ∉ start) {ids : List Bytes}
    (known : ∀ id ∈ ids, id ≠ [] → id ∈ api.sessions) (new : [] ∈ ids) :
    SomeNew start (getOrCreateAll server api ids).2 := by
  induction ids generalizing api keys with
  | nil => cases new
  | cons id rest ih =>
      unfold getOrCreateAll
      by_cases create : id = []
      · subst create
        obtain ⟨_, stepped, _, next, _⟩ := recent.createSession
        have later := SomeNew.getOrCreateAll stepped (fun n le => undrawn n (by omega))
          (someNew_created recent (undrawn _ (Nat.le_refl _))) rest
        rw [Recent.getOrCreateSession_create]
        dsimp only
        split
        next failed => rwa [failed] at later
        next done => rwa [done] at later
      · have there := known id (List.mem_cons_self ..) create
        have later := ih (recent.touch (recent.mem_iff.mpr there)) undrawn
          (fun other member => known other (List.mem_cons_of_mem _ member))
          ((List.mem_cons.mp new).resolve_left fun same => create same.symm)
        rw [Recent.getOrCreateSession_use create there]
        dsimp only
        split
        next failed => rwa [failed] at later
        next done => rwa [done] at later

/-- A batch of sessions that are all there finds them. -/
theorem getOrCreateAll_known {ids : List Bytes}
    (known : ∀ id ∈ ids, id ≠ [] → id ∈ api.sessions) (named : [] ∉ ids) :
    ∃ after, getOrCreateAll server api ids = (.ok ids, after) ∧
      after.sessions = api.sessions ∧ after.context = api.context ∧
      after.generated = api.generated := by
  induction ids generalizing api with
  | nil => exact ⟨api, rfl, rfl, rfl, rfl⟩
  | cons id rest ih =>
      have create : id ≠ [] := fun same => named (same ▸ List.mem_cons_self ..)
      obtain ⟨after, found, sessions, context, generated⟩ := @ih (api.touch id)
        (fun other member => known other (List.mem_cons_of_mem _ member))
        (fun member => named (List.mem_cons_of_mem _ member))
      refine ⟨after, ?_, sessions, context, generated⟩
      unfold getOrCreateAll
      rw [Recent.getOrCreateSession_use create (known id (List.mem_cons_self ..) create)]
      simp only [found]

theorem batch_keeps_iff (right : WellFormed server api) (body : Bytes) :
    ((handleBatchChatSession server api body).1.isOk = false →
        SameConversations api (handleBatchChatSession server api body).2) ↔
      Harmless server api body .batchSession := by
  unfold handleBatchChatSession Harmless
  cases read : readBatch server.reading api.defaultConfig body api.maxBatchSize with
  | error error =>
      exact iff_of_true (fun _ => SameConversations.refl api) fun request found => absurd found (by simp)
  | ok request =>
      simp only [Except.ok.injEq, forall_eq']
      unfold BatchHarmless
      dsimp only
      by_cases known : ∀ id ∈ request.turns.map Prod.fst, id ≠ [] → id ∈ api.sessions
      · have none : (request.turns.map Prod.fst).any (fun id => id ≠ [] ∧ id ∉ api.sessions) =
            false := by
          refine List.any_eq_false.mpr fun id member => ?_
          simp only [decide_eq_true_eq, not_and, not_not]
          exact known id member
        simp only [none, Bool.false_eq_true, if_false]
        by_cases new : [] ∈ request.turns.map Prod.fst
        · rw [if_pos new]
          have trace := someNew_of_batch api.sessions right.recent
            (fun n le member => right.issued _ member n le rfl) known new
          rcases right.recent.getOrCreateAll (request.turns.map Prod.fst) with
            ⟨last, after, ran, found, prepared⟩ | ⟨after, ran, gone⟩
          · rw [found] at trace ⊢
            obtain ⟨id, there, apart⟩ := trace
            obtain ⟨result, _⟩ := batchTurns_spec server (a := after)
              (b := withNew server api (request.turns.map Prod.fst)) (funext prepared.context)
              prepared.generated
              ((accessesOf server api.drawn (request.turns.map Prod.fst)).map Access.key)
              (request.turns.map Prod.snd) request.config
            have sessions := (batchTurns_sessions server after
              ((accessesOf server api.drawn (request.turns.map Prod.fst)).map Access.key)
              (request.turns.map Prod.snd) request.config).1
            have left := not_same_of_new (sessions ▸ there) apart
            dsimp only
            rw [isOk_eq_isSome, result, Option.isSome_map, ran]
            cases (converse server (withNew server api (request.turns.map Prod.fst))
                ((accessesOf server api.drawn (request.turns.map Prod.fst)).map Access.key)
                (request.turns.map Prod.snd) request.config).1.isSome with
            | false =>
                refine iff_of_false (fun kept => left (kept rfl)) ?_
                exact fun kept => Bool.false_ne_true (kept known).2
            | true =>
                refine iff_of_true ?_ fun _ => ⟨rfl, rfl⟩
                exact fun failed => absurd failed.symm Bool.false_ne_true
          · rw [gone] at trace ⊢
            obtain ⟨id, there, apart⟩ := trace
            rw [ran]
            refine iff_of_false (fun kept => not_same_of_new there apart (kept rfl)) fun kept => ?_
            cases (kept known).1
        · rw [if_neg new]
          obtain ⟨after, found, sessions, context, generated⟩ := getOrCreateAll_known known new
          rw [found]
          obtain ⟨result, talk⟩ := batchTurns_spec server context generated
            (request.turns.map Prod.fst) (request.turns.map Prod.snd) request.config
          have sessions' := (batchTurns_sessions server after (request.turns.map Prod.fst)
            (request.turns.map Prod.snd) request.config).1
          have left := converse_sessions server api (request.turns.map Prod.fst)
            (request.turns.map Prod.snd) request.config
          dsimp only
          rw [isOk_eq_isSome, result, Option.isSome_map,
            sameConversations_congr ((sessions'.trans sessions).trans left.symm) talk,
            ← Bool.not_eq_true, imp_iff_not_or, not_not]
          exact ⟨fun kept _ => kept, fun kept => kept known⟩
      · have missing : (request.turns.map Prod.fst).any (fun id => id ≠ [] ∧ id ∉ api.sessions) =
            true := by
          push Not at known
          obtain ⟨id, member, named, gone⟩ := known
          exact List.any_eq_true.mpr ⟨id, member, decide_eq_true ⟨named, gone⟩⟩
        rw [if_pos missing]
        exact iff_of_true (fun _ => SameConversations.refl api) fun there => absurd there known

end Routes

/-- A server that generates nothing. -/
def silent (request : Json) : Server :=
  { oneRequest request with generate := fun _ _ _ => .error (ascii "no model") }

theorem wellFormed_silent (request : Json) : WellFormed (silent request) twoSessions :=
  let right := wellFormed_twoSessions request
  ⟨right.apart, right.named, right.issued, right.past⟩

def hello : Json :=
  .object [(ascii "session_id", .string (ascii "b")), (ascii "message", .string (ascii "hello"))]

theorem silent_leaves_message : ¬ SameConversations twoSessions
    (handle (silent hello) twoSessions [] .chatSession).2 := by
  intro same
  have looks := congrArg (fun looks => looks.1.length) (same.conversations (ascii "b") (by decide))
  exact absurd looks (by decide)

end Adai.Sessions
