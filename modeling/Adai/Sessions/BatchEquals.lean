import Adai.Sessions.BatchRoom
import Adai.Sessions.Exchanges
import Adai.Sessions.SessionRuns

/-! # A batch and its single requests

The messages of a batch of different sessions, sent one by one, find the same
conversations: with room for the new sessions none goes, and no turn reaches another
session. So both have the same answers and leave the same conversations, up to the ids
of the new sessions, when both succeed. A single request refuses an empty message and
one that does not fit, which a batch does not, and a batch refuses to be empty
(`Adai.Sessions.batch_equals_singles_iff`).
-/

namespace Adai.Sessions

open Tokenizer Conversation Recency

/-! ## Sending one by one -/

/-- The requests are sent one after the other, up to the first that fails. -/
def sendAll (server : Server) : ChatbotAPI → List Bytes → Except ApiError (List ChatReply) × ChatbotAPI
  | api, [] => (.ok [], api)
  | api, body :: rest =>
      match handleChatSession server api body with
      | (.error error, api) => (.error error, api)
      | (.ok reply, api) =>
          match sendAll server api rest with
          | (.error error, api) => (.error error, api)
          | (.ok replies, api) => (.ok (reply :: replies), api)

/-- A body that sends a message to a session, or to a new one, with some settings. -/
structure ChatBody (reading : Reading) (settings : Fields) (pair : Bytes × Bytes) (body : Bytes) :
    Prop where
  fields : ∃ fields, parseRequest reading.parse body = .ok fields ∧
    stringField fields (ascii "session_id") = .ok pair.1 ∧
    stringField fields (ascii "message") = .ok pair.2 ∧
    applyGenerationSettings reading.toFloat fields =
      applyGenerationSettings reading.toFloat settings

/-- A body that sends messages to sessions, or to new ones, with some settings. -/
structure BatchBody (reading : Reading) (settings : Fields) (pairs : List (Bytes × Bytes))
    (body : Bytes) : Prop where
  fields : ∃ fields, parseRequest reading.parse body = .ok fields ∧
    stringArrayField fields (ascii "session_ids") = .ok (pairs.map Prod.fst) ∧
    stringArrayField fields (ascii "messages") = .ok (pairs.map Prod.snd) ∧
    applyGenerationSettings reading.toFloat fields =
      applyGenerationSettings reading.toFloat settings

theorem ChatBody.read {reading : Reading} {settings : Fields} {pair : Bytes × Bytes} {body : Bytes}
    (sends : ChatBody reading settings pair body) (defaults : GenerationConfig)
    (request : ChatRequest) : readChat reading defaults body = .ok request ↔
      pair.2 ≠ [] ∧ ∃ config, applyGenerationSettings reading.toFloat settings defaults = .ok config ∧
        request = ⟨pair.1, pair.2, config⟩ := by
  obtain ⟨fields, parsed, sessionId, message, same⟩ := sends.fields
  unfold readChat
  rw [parsed]
  dsimp only [bind, Except.bind]
  rw [sessionId]
  dsimp only
  rw [message, same]
  dsimp only
  by_cases empty : pair.2 = []
  · rw [if_pos empty]
    exact iff_of_false nofun fun right => right.1 empty
  · rw [if_neg empty]
    cases applyGenerationSettings reading.toFloat settings defaults with
    | error error => exact iff_of_false nofun fun ⟨_, _, impossible, _⟩ => nomatch impossible
    | ok config =>
        constructor
        · intro same
          exact ⟨empty, config, rfl, (Except.ok.inj same).symm⟩
        · rintro ⟨_, _, same, rfl⟩
          rw [← Except.ok.inj same]
          rfl

theorem BatchBody.read {reading : Reading} {settings : Fields} {pairs : List (Bytes × Bytes)}
    {body : Bytes} (sends : BatchBody reading settings pairs body) (defaults : GenerationConfig)
    {limit : Nat} (within : pairs.length ≤ limit) (request : BatchRequest) :
    readBatch reading defaults body limit = .ok request ↔
      pairs ≠ [] ∧ ∃ config, applyGenerationSettings reading.toFloat settings defaults = .ok config ∧
        request = ⟨pairs, config⟩ := by
  obtain ⟨fields, parsed, sessionIds, messages, same⟩ := sends.fields
  unfold readBatch
  rw [parsed]
  dsimp only [bind, Except.bind]
  rw [messages]
  dsimp only
  rw [sessionIds, same]
  dsimp only
  by_cases empty : pairs = []
  · subst empty
    exact iff_of_false nofun fun right => right.1 rfl
  · have some : pairs.map Prod.snd ≠ [] := fun none => empty (List.map_eq_nil_iff.mp none)
    have small : ¬ (pairs.map Prod.snd).length > limit := by
      rw [List.length_map]
      exact Nat.not_lt.mpr within
    have named : sessionsFor (pairs.map Prod.snd) (pairs.map Prod.fst) = pairs.map Prod.fst := by
      refine if_neg ?_
      rw [List.length_map, List.length_map, List.map_eq_nil_iff]
      exact fun either => either.elim empty fun apart => apart rfl
    rw [if_neg some, checkBatchSize, if_neg small, named, zip_fst_snd]
    cases applyGenerationSettings reading.toFloat settings defaults with
    | error error => exact iff_of_false nofun fun ⟨_, _, impossible, _⟩ => nomatch impossible
    | ok config =>
        constructor
        · intro same
          exact ⟨empty, config, rfl, (Except.ok.inj same).symm⟩
        · rintro ⟨_, _, same, rfl⟩
          rw [← Except.ok.inj same]
          rfl

/-! ## The sessions that ids stand for -/

/-- The session that is found, or created with the `n`th draw. -/
def actualId (server : Server) (n : Nat) (id : Bytes) : Bytes :=
  if id = [] then server.draw n else id

def actualIds (server : Server) (n : Nat) (ids : List Bytes) : List Bytes :=
  (accessesOf server n ids).map Access.key

/-- The turns of the pairs in the sessions that their ids stand for. -/
def turnsOf (server : Server) (n : Nat) (pairs : List (Bytes × Bytes)) : List (Bytes × Bytes) :=
  (actualIds server n (pairs.map Prod.fst)).zip (pairs.map Prod.snd)

/-- The conversation of a session before its turn. -/
def preContext (server : Server) (api : ChatbotAPI) (id : Bytes) : ConversationContext :=
  if id ∈ api.sessions then api.context id else api.newContext server

section Actual

variable {server : Server} {api : ChatbotAPI}

theorem actualIds_cons (n : Nat) (id : Bytes) (rest : List Bytes) :
    actualIds server n (id :: rest) =
      actualId server n id :: actualIds server (n + [id].count []) rest := by
  unfold actualIds actualId
  rw [accessesOf]
  by_cases new : id = []
  · subst new
    rw [if_pos rfl, if_pos rfl, List.count_singleton_self]
    rfl
  · rw [if_neg new, if_neg new, List.count_cons_of_ne new]
    rfl

@[simp] theorem length_actualIds (n : Nat) (ids : List Bytes) :
    (actualIds server n ids).length = ids.length := by
  induction ids generalizing n with
  | nil => rfl
  | cons id rest ih => rw [actualIds_cons, List.length_cons, ih, List.length_cons]

theorem mem_actualIds {n : Nat} {ids : List Bytes} {id : Bytes} :
    id ∈ actualIds server n ids ↔
      id ∈ ids ∧ id ≠ [] ∨ ∃ k, n ≤ k ∧ k < n + ids.count [] ∧ server.draw k = id := by
  unfold actualIds
  rw [mem_keys, mem_used_accessesOf, created_accessesOf, List.mem_map]
  simp only [List.mem_range'_1, and_assoc]

/-- Different ids stand for different sessions. -/
theorem nodup_actualIds (right : WellFormed server api) {n : Nat} (later : api.drawn ≤ n)
    {ids : List Bytes} (known : ∀ id ∈ ids, id ≠ [] → id ∈ api.sessions)
    (distinct : (ids.filter (· ≠ [])).Nodup) : (actualIds server n ids).Nodup := by
  induction ids generalizing n with
  | nil => exact List.nodup_nil
  | cons id rest ih =>
      have known' := fun other member => known other (List.mem_cons_of_mem id member)
      rw [actualIds_cons]
      by_cases new : id = []
      · subst new
        refine List.nodup_cons.mpr ⟨fun member => ?_, ih (by omega) known' distinct⟩
        rcases mem_actualIds.mp member with ⟨inside, named⟩ | ⟨k, above, _, same⟩
        · exact right.issued _ (known' _ inside named) n later rfl
        · have same := server.draw_injective same
          rw [List.count_singleton_self] at above
          omega
      · rw [List.filter_cons_of_pos (by simpa using new)] at distinct
        obtain ⟨apart, distinct⟩ := List.nodup_cons.mp distinct
        refine List.nodup_cons.mpr ⟨fun member => ?_, ih (by omega) known' distinct⟩
        rw [actualId, if_neg new] at member
        rcases mem_actualIds.mp member with ⟨inside, named⟩ | ⟨k, above, _, same⟩
        · exact apart (List.mem_filter.mpr ⟨inside, decide_eq_true named⟩)
        · exact right.issued _ (known id (List.mem_cons_self ..) new) k (by omega) same

theorem turnsOf_cons (n : Nat) (pair : Bytes × Bytes) (rest : List (Bytes × Bytes)) :
    turnsOf server n (pair :: rest) =
      (actualId server n pair.1, pair.2) :: turnsOf server (n + [pair.1].count []) rest := by
  unfold turnsOf
  rw [List.map_cons, List.map_cons, actualIds_cons, List.zip_cons_cons]

theorem map_fst_turnsOf (n : Nat) (pairs : List (Bytes × Bytes)) :
    (turnsOf server n pairs).map Prod.fst = actualIds server n (pairs.map Prod.fst) :=
  List.map_fst_zip (by rw [length_actualIds, List.length_map, List.length_map])

theorem map_snd_turnsOf (n : Nat) (pairs : List (Bytes × Bytes)) :
    (turnsOf server n pairs).map Prod.snd = pairs.map Prod.snd :=
  List.map_snd_zip (by rw [length_actualIds, List.length_map, List.length_map])

end Actual

/-! ## The session of a single request -/

/-- A request's session is in the map with a conversation, and no other session has
changed. -/
structure Opened (server : Server) (before : ChatbotAPI) (id : Bytes) (c : ConversationContext)
    (after : ChatbotAPI) : Prop where
  right : WellFormed server after
  sessions : ∀ other, other ∈ after.sessions ↔
    other ∈ before.sessions ∨ other = actualId server before.drawn id
  length : after.sessions.length = before.sessions.length + [id].count []
  context : after.context = Function.update before.context (actualId server before.drawn id) c
  drawn : after.drawn = before.drawn + [id].count []
  same : SameSettings before after

section Single

variable {server : Server} {api : ChatbotAPI}

/-- With room for a new session, the session of a request is opened. -/
theorem WellFormed.open (right : WellFormed server api) {id : Bytes}
    (known : id ≠ [] → id ∈ api.sessions)
    (room : api.sessions.length + [id].count [] ≤ api.maxSessions) :
    ∃ after, api.getOrCreateSession server id = (.ok (actualId server api.drawn id), after) ∧
      Opened server api id (preContext server api (actualId server api.drawn id)) after := by
  have recent := right.recent
  unfold actualId
  by_cases new : id = []
  · subst new
    obtain ⟨drawn, stepped, context, next, same, _⟩ := recent.createSession
    have apart : server.draw api.drawn ∉ api.sessions := fun member =>
      right.issued _ member api.drawn (Nat.le_refl _) rfl
    rw [List.count_singleton_self] at room
    have kept : Recency.makeRoom api.maxSessions (leastRecentFirst api) = leastRecentFirst api := by
      unfold Recency.makeRoom
      rw [recent.perm.length_eq, Nat.sub_eq_zero_of_le room, List.drop_zero]
    rw [kept] at stepped
    rw [if_pos rfl, Recent.getOrCreateSession_create, drawn]
    refine ⟨(api.createSession server).2, rfl, stepped.wellFormed, ?_, ?_, ?_, ?_, same⟩
    · intro other
      rw [← stepped.mem_iff, List.mem_append, recent.mem_iff, List.mem_singleton]
      rfl
    · rw [← stepped.perm.length_eq, List.length_append, recent.perm.length_eq]
      rfl
    · rw [context, preContext, if_neg apart]
      rfl
    · rw [next]
      rfl
  · have there := known new
    have count : [id].count [] = 0 := List.count_eq_zero.mpr fun member =>
      new (List.mem_singleton.mp member).symm
    rw [if_neg new, Recent.getOrCreateSession_use new there]
    refine ⟨api.touch id, rfl, (recent.touch (recent.mem_iff.mpr there)).wellFormed, ?_, ?_, ?_, ?_,
      ⟨rfl, rfl, rfl, rfl⟩⟩
    · intro other
      rw [actualId, if_neg new]
      constructor
      · exact .inl
      · rintro (old | rfl)
        · exact old
        · exact there
    · rw [count]
      rfl
    · rw [preContext, if_pos there, actualId, if_neg new, Function.update_eq_self]
      rfl
    · rw [count]
      rfl

/-- A turn draws no id and leaves the settings alone. -/
theorem chatTurn_same (server : Server) (api : ChatbotAPI) (id : Bytes) (request : ChatRequest) :
    (chatTurn server api id request).2.drawn = api.drawn ∧
      SameSettings api (chatTurn server api id request).2 := by
  unfold chatTurn
  dsimp only
  split
  · exact ⟨rfl, SameSettings.refl api⟩
  · split
    · exact ⟨rfl, rfl, rfl, rfl, rfl⟩
    · split
      · exact ⟨rfl, rfl, rfl, rfl, rfl⟩
      · split
        · exact ⟨rfl, rfl, rfl, rfl, rfl⟩
        · exact ⟨rfl, rfl, rfl, rfl, rfl⟩

/-- A turn that a single request is answered with. -/
structure Sendable (server : Server) (api : ChatbotAPI) (settings : Fields) (t : Bytes × Bytes)
    (reply : Bytes × ConversationContext) : Prop where
  written : t.2 ≠ []
  fits : Fits (preContext server api t.1) t.2
  exchanged : ∃ config,
    applyGenerationSettings server.reading.toFloat settings api.defaultConfig = .ok config ∧
      exchange server (preContext server api t.1) t.2 config = some reply

/-- A single request is answered exactly when its turn can be, and changes its session
alone. -/
theorem WellFormed.send (right : WellFormed server api) (steady : Steady server)
    {settings : Fields} {pair : Bytes × Bytes} {body : Bytes}
    (sends : ChatBody server.reading settings pair body)
    (known : pair.1 ≠ [] → pair.1 ∈ api.sessions)
    (room : api.sessions.length + [pair.1].count [] ≤ api.maxSessions) :
    (∀ reply, Sendable server api settings (actualId server api.drawn pair.1, pair.2) reply →
      ∃ after, handleChatSession server api body =
          (.ok ⟨reply.1, actualId server api.drawn pair.1⟩, after) ∧
        Opened server api pair.1 reply.2 after) ∧
      ∀ reply after, handleChatSession server api body = (.ok reply, after) →
        ∃ answer, Sendable server api settings (actualId server api.drawn pair.1, pair.2) answer := by
  obtain ⟨mid, found, opened⟩ := right.open known room
  have context : mid.context (actualId server api.drawn pair.1) =
      preContext server api (actualId server api.drawn pair.1) := by
    rw [opened.context, Function.update_self]
  constructor
  · intro reply sendable
    obtain ⟨config, valid, exchanged⟩ := sendable.exchanged
    have read := (sends.read api.defaultConfig ⟨pair.1, pair.2, config⟩).mpr
      ⟨sendable.written, config, valid, rfl⟩
    have turned := (turn_eq_exchange steady mid.generated).mpr ⟨sendable.fits, exchanged⟩
    rw [← context] at turned
    obtain ⟨result, contexts, sessions⟩ := chatTurn_spec server mid
      (actualId server api.drawn pair.1) ⟨pair.1, pair.2, config⟩
    have right' := opened.right.chatTurn (actualId server api.drawn pair.1)
      ⟨pair.1, pair.2, config⟩
    obtain ⟨drawn, same⟩ := chatTurn_same server mid (actualId server api.drawn pair.1)
      ⟨pair.1, pair.2, config⟩
    dsimp only at result contexts
    rw [turned] at result contexts
    unfold handleChatSession
    rw [read]
    dsimp only
    rw [found]
    dsimp only
    generalize Sessions.chatTurn server mid (actualId server api.drawn pair.1) ⟨pair.1, pair.2, config⟩ =
      after at result contexts sessions right' drawn same ⊢
    obtain ⟨outcome, after⟩ := after
    cases outcome with
    | error error => cases result
    | ok answer =>
        obtain rfl := Option.some.inj result
        refine ⟨after, rfl, right', ?_, ?_, ?_, ?_, opened.same.trans same⟩
        · intro other
          rw [show after.sessions = mid.sessions from sessions]
          exact opened.sessions other
        · rw [show after.sessions = mid.sessions from sessions]
          exact opened.length
        · refine contexts.trans ?_
          rw [opened.context, Function.update_idem]
        · exact drawn.trans opened.drawn
  · intro reply after answered
    unfold handleChatSession at answered
    cases read : readChat server.reading api.defaultConfig body with
    | error error =>
        rw [read] at answered
        cases answered
    | ok request =>
        obtain ⟨written, config, valid, rfl⟩ := (sends.read api.defaultConfig request).mp read
        rw [read] at answered
        dsimp only at answered
        rw [found] at answered
        dsimp only at answered
        obtain ⟨result, _⟩ := chatTurn_spec server mid
          (actualId server api.drawn pair.1) ⟨pair.1, pair.2, config⟩
        rw [answered] at result
        dsimp only [Except.toOption] at result
        rcases turned : turn server mid.generated (mid.context (actualId server api.drawn pair.1))
          config pair.2 with ⟨_ | response, left⟩
        · rw [turned] at result
          cases result
        · obtain ⟨fits, exchanged⟩ := (turn_eq_exchange steady mid.generated).mp turned
          rw [context] at fits exchanged
          exact ⟨_, written, fits, config, valid, exchanged⟩

end Single

section Many

variable {server : Server}

/-- Another session's conversation before its turn is as it was. -/
theorem Opened.preContext {before after : ChatbotAPI} {id : Bytes} {c : ConversationContext}
    (opened : Opened server before id c after) {other : Bytes}
    (apart : other ≠ actualId server before.drawn id) :
    preContext server after other = preContext server before other := by
  unfold Sessions.preContext
  rw [opened.context, Function.update_of_ne apart, opened.same.newContext]
  refine if_congr ?_ rfl rfl
  rw [opened.sessions, or_iff_left apart]

theorem Opened.sendable {before after : ChatbotAPI} {id : Bytes} {c : ConversationContext}
    (opened : Opened server before id c after) {settings : Fields} {t : Bytes × Bytes}
    {reply : Bytes × ConversationContext} (apart : t.1 ≠ actualId server before.drawn id) :
    Sendable server after settings t reply ↔ Sendable server before settings t reply := by
  have context := opened.preContext apart
  have defaults := opened.same.defaultConfig
  constructor
  · rintro ⟨written, fits, exchanged⟩
    rw [context, defaults] at *
    exact ⟨written, fits, exchanged⟩
  · rintro ⟨written, fits, exchanged⟩
    rw [← context, ← defaults] at *
    exact ⟨written, fits, exchanged⟩

/-- What sending single requests one by one leaves. -/
structure AllSent (server : Server) (before : ChatbotAPI) (ids : List Bytes)
    (turns : List (Bytes × Bytes)) (reply : Bytes × Bytes → Bytes × ConversationContext)
    (after : ChatbotAPI) : Prop where
  sessions : ∀ id, id ∈ after.sessions ↔ id ∈ before.sessions ∨ id ∈ ids
  context : ∀ t ∈ turns, after.context t.1 = (reply t).2
  untouched : ∀ id ∉ ids, after.context id = before.context id

/-- Single requests to different sessions are all answered exactly when their turns can
be. -/
theorem WellFormed.sendAll {api : ChatbotAPI} (right : WellFormed server api)
    (steady : Steady server) {settings : Fields} {pairs : List (Bytes × Bytes)}
    {bodies : List Bytes} (sends : List.Forall₂ (ChatBody server.reading settings) pairs bodies)
    (known : ∀ id ∈ pairs.map Prod.fst, id ≠ [] → id ∈ api.sessions)
    (distinct : (actualIds server api.drawn (pairs.map Prod.fst)).Nodup)
    (room : api.sessions.length + (pairs.map Prod.fst).count [] ≤ api.maxSessions) :
    (∀ reply, (∀ t ∈ turnsOf server api.drawn pairs, Sendable server api settings t (reply t)) →
      ∃ after, Sessions.sendAll server api bodies =
          (.ok ((turnsOf server api.drawn pairs).map fun t => ⟨(reply t).1, t.1⟩), after) ∧
        AllSent server api (actualIds server api.drawn (pairs.map Prod.fst))
          (turnsOf server api.drawn pairs) reply after) ∧
      ∀ replies after, Sessions.sendAll server api bodies = (.ok replies, after) →
        ∀ t ∈ turnsOf server api.drawn pairs, ∃ answer, Sendable server api settings t answer := by
  induction sends generalizing api with
  | nil =>
      refine ⟨fun reply _ => ⟨api, rfl, ?_, nofun, fun _ _ => rfl⟩, fun _ _ _ => nofun⟩
      exact fun id => ⟨.inl, fun either => either.resolve_right List.not_mem_nil⟩
  | @cons pair body pairs bodies sends later ih =>
      rw [List.map_cons] at known distinct room ⊢
      rw [actualIds_cons] at distinct ⊢
      rw [turnsOf_cons]
      obtain ⟨apart, distinct⟩ := List.nodup_cons.mp distinct
      obtain ⟨here, knownRest⟩ := List.forall_mem_cons.mp known
      have counts : (pair.1 :: pairs.map Prod.fst).count [] =
          [pair.1].count [] + (pairs.map Prod.fst).count [] :=
        @List.count_append _ _ [] [pair.1] _
      rw [counts, ← Nat.add_assoc] at room
      obtain ⟨answered, needed⟩ := right.send steady sends here
        (Nat.le_trans (Nat.le_add_right ..) room)
      have others : ∀ t ∈ turnsOf server (api.drawn + [pair.1].count []) pairs,
          t.1 ≠ actualId server api.drawn pair.1 := by
        intro t member same
        refine apart (same ▸ ?_)
        rw [← map_fst_turnsOf]
        exact List.mem_map_of_mem member
      have next : ∀ c after, Opened server api pair.1 c after → WellFormed server after →
          _ := fun c after opened right =>
        @ih after right
          (fun id member named => (opened.sessions id).mpr (.inl (knownRest id member named)))
          (by rw [opened.drawn]; exact distinct)
          (by rw [opened.length, opened.same.maxSessions]; exact room)
      constructor
      · intro reply sendable
        obtain ⟨first, rest⟩ := List.forall_mem_cons.mp sendable
        obtain ⟨mid, sent, opened⟩ := answered _ first
        obtain ⟨all, _⟩ := next _ mid opened opened.right
        rw [opened.drawn] at all
        obtain ⟨after, sentAll, left⟩ := all reply fun t member =>
          (opened.sendable (others t member)).mpr (rest t member)
        refine ⟨after, ?_, ?_, ?_, ?_⟩
        · unfold Sessions.sendAll
          rw [sent]
          dsimp only
          rw [sentAll, List.map_cons]
        · intro id
          rw [left.sessions, opened.sessions, List.mem_cons, or_assoc]
        · refine List.forall_mem_cons.mpr ⟨?_, left.context⟩
          rw [left.untouched _ apart, opened.context, Function.update_self]
        · intro id member
          rw [List.mem_cons, not_or] at member
          rw [left.untouched id member.2, opened.context, Function.update_of_ne member.1]
      · intro replies after sent
        unfold Sessions.sendAll at sent
        rcases first : handleChatSession server api body with ⟨error | reply, mid⟩
        · rw [first] at sent
          cases sent
        · rw [first] at sent
          dsimp only at sent
          obtain ⟨answer, sendable⟩ := needed reply mid first
          obtain ⟨mid', again, opened⟩ := answered _ sendable
          obtain rfl : mid' = mid := by
            have same := again.symm.trans first
            exact congrArg Prod.snd same
          obtain ⟨_, all⟩ := next _ mid' opened opened.right
          rw [opened.drawn] at all
          refine List.forall_mem_cons.mpr ⟨⟨answer, sendable⟩, fun t member => ?_⟩
          rcases rest : Sessions.sendAll server mid' bodies with ⟨error | replies, last⟩
          · rw [rest] at sent
            cases sent
          · obtain ⟨answer, sendable⟩ := all replies last rest t member
            exact ⟨answer, (opened.sendable (others t member)).mp sendable⟩

end Many

/-! ## The batch -/

section Batch

variable {server : Server}

/-- A batch of different sessions is answered exactly when it is not empty and every
message has its exchange. -/
theorem WellFormed.batch {api : ChatbotAPI} (right : WellFormed server api)
    (steady : Steady server) {settings : Fields} {pairs : List (Bytes × Bytes)} {body : Bytes}
    (sends : BatchBody server.reading settings pairs body)
    (known : ∀ id ∈ pairs.map Prod.fst, id ≠ [] → id ∈ api.sessions)
    (distinct : ((pairs.map Prod.fst).filter (· ≠ [])).Nodup)
    (room : api.sessions.length + (pairs.map Prod.fst).count [] ≤ api.maxSessions)
    (within : pairs.length ≤ api.maxBatchSize) :
    (∀ config reply, pairs ≠ [] →
      applyGenerationSettings server.reading.toFloat settings api.defaultConfig = .ok config →
      (∀ t ∈ turnsOf server api.drawn pairs,
        exchange server (preContext server api t.1) t.2 config = some (reply t)) →
      ∃ after, handleBatchChatSession server api body =
          (.ok ⟨(turnsOf server api.drawn pairs).map fun t => (reply t).1,
            actualIds server api.drawn (pairs.map Prod.fst)⟩, after) ∧
        AllSent server api (actualIds server api.drawn (pairs.map Prod.fst))
          (turnsOf server api.drawn pairs) reply after) ∧
      ∀ reply after, handleBatchChatSession server api body = (.ok reply, after) →
        pairs ≠ [] ∧ ∃ config,
          applyGenerationSettings server.reading.toFloat settings api.defaultConfig = .ok config ∧
          ∀ t ∈ turnsOf server api.drawn pairs,
            (exchange server (preContext server api t.1) t.2 config).isSome := by
  have few : ((pairs.map Prod.fst).filter (· ≠ [])).length ≤ api.sessions.length := by
    refine (List.subperm_of_subset distinct fun id member => ?_).length_le
    obtain ⟨inside, named⟩ := List.mem_filter.mp member
    exact known id inside (of_decide_eq_true named)
  have names : NamesKnown api (pairs.map Prod.fst) := by
    refine ⟨known, ?_⟩
    rw [List.dedup_eq_self.mpr distinct]
    omega
  have fitting := right.recent.fitting names
  have roomy : (leastRecentFirst api).length +
      (created (accessesOf server api.drawn (pairs.map Prod.fst))).length ≤ api.maxSessions := by
    rwa [created_accessesOf, List.length_map, List.length_range', right.recent.perm.length_eq]
  have noMiss : (pairs.map Prod.fst).any (fun id => id ≠ [] ∧ id ∉ api.sessions) = false := by
    refine List.any_eq_false.mpr fun id member => ?_
    simp only [decide_eq_true_eq, not_and, not_not]
    exact known id member
  obtain ⟨last, mid, ran, found, prepared⟩ : ∃ last mid,
      Recency.run api.maxSessions (leastRecentFirst api)
        (accessesOf server api.drawn (pairs.map Prod.fst)) = some last ∧
      Sessions.getOrCreateAll server api (pairs.map Prod.fst) =
        (.ok (actualIds server api.drawn (pairs.map Prod.fst)), mid) ∧
      Prepared server api (accessesOf server api.drawn (pairs.map Prod.fst)) last mid := by
    rcases right.recent.getOrCreateAll (pairs.map Prod.fst) with done | ⟨_, ran, _⟩
    · exact done
    · have some := run_isSome_of_room fitting roomy
      rw [ran] at some
      cases some
  have turnsNodup : ((turnsOf server api.drawn pairs).map Prod.fst).Nodup := by
    rw [map_fst_turnsOf]
    exact nodup_actualIds right (Nat.le_refl _) known distinct
  have context : ∀ t ∈ turnsOf server api.drawn pairs,
      mid.context t.1 = preContext server api t.1 := by
    intro t member
    rw [prepared.context, preContext]
    by_cases there : t.1 ∈ api.sessions
    · have old : t.1 ∉ created (accessesOf server api.drawn (pairs.map Prod.fst)) := fun new =>
        fitting.fresh _ new (right.recent.mem_iff.mpr there)
      rw [if_neg old, if_pos there]
    · have inside : t.1 ∈ actualIds server api.drawn (pairs.map Prod.fst) := by
        rw [← map_fst_turnsOf]
        exact List.mem_map_of_mem member
      have new := (mem_keys.mp inside).resolve_left fun used =>
        there (right.recent.mem_iff.mp (fitting.known _ used))
      rw [if_pos new, if_neg there]
  have handled : ∀ config, pairs ≠ [] →
      applyGenerationSettings server.reading.toFloat settings api.defaultConfig = .ok config →
      handleBatchChatSession server api body = Sessions.batchTurns server mid
        ((turnsOf server api.drawn pairs).map Prod.fst)
        ((turnsOf server api.drawn pairs).map Prod.snd) config := by
    intro config some valid
    have read := (sends.read api.defaultConfig within ⟨pairs, config⟩).mpr ⟨some, config, valid, rfl⟩
    unfold handleBatchChatSession
    rw [map_fst_turnsOf, map_snd_turnsOf]
    simp only [read, noMiss, Bool.false_eq_true, if_false, found]
  constructor
  · intro config reply some valid exchanged
    rw [handled config some valid]
    obtain ⟨result, talk⟩ := batchTurns_spec server (a := mid) rfl rfl
      ((turnsOf server api.drawn pairs).map Prod.fst)
      ((turnsOf server api.drawn pairs).map Prod.snd) config
    obtain ⟨answers, contexts, untouched⟩ := @converse_distinct _ config steady mid _ turnsNodup reply fun t member => by
        rw [context t member]
        exact exchanged t member
    have sessions := (batchTurns_sessions server mid ((turnsOf server api.drawn pairs).map Prod.fst)
      ((turnsOf server api.drawn pairs).map Prod.snd) config).1
    rw [answers] at result
    rw [← talk] at contexts untouched
    generalize Sessions.batchTurns server mid ((turnsOf server api.drawn pairs).map Prod.fst)
      ((turnsOf server api.drawn pairs).map Prod.snd) config = after
      at result contexts untouched sessions ⊢
    obtain ⟨outcome, after⟩ := after
    cases outcome with
    | error error => cases result
    | ok answer =>
        obtain rfl := Option.some.inj result
        rw [map_fst_turnsOf] at untouched ⊢
        refine ⟨after, rfl, ?_, contexts, ?_⟩
        · intro id
          rw [show after.sessions = mid.sessions from sessions, ← prepared.recent.mem_iff,
            mem_of_run_iff fitting roomy ran, right.recent.mem_iff]
          rfl
        · intro id apart
          have old : id ∉ created (accessesOf server api.drawn (pairs.map Prod.fst)) :=
            fun new => apart (mem_keys.mpr (.inr new))
          rw [untouched id apart, prepared.context, if_neg old]
  · intro reply after answered
    cases read : readBatch server.reading api.defaultConfig body api.maxBatchSize with
    | error error =>
        unfold handleBatchChatSession at answered
        rw [read] at answered
        cases answered
    | ok request =>
        obtain ⟨some, config, valid, rfl⟩ := (sends.read api.defaultConfig within request).mp read
        refine ⟨some, config, valid, ?_⟩
        rw [handled config some valid] at answered
        obtain ⟨result, _⟩ := batchTurns_spec server (a := mid) rfl rfl
          ((turnsOf server api.drawn pairs).map Prod.fst)
          ((turnsOf server api.drawn pairs).map Prod.snd) config
        rw [answered] at result
        have answers : (converse server mid ((turnsOf server api.drawn pairs).map Prod.fst)
            ((turnsOf server api.drawn pairs).map Prod.snd) config).1.isSome := by
          rw [← Option.isSome_map (f := (⟨·, (turnsOf server api.drawn pairs).map Prod.fst⟩ :
            List Bytes → BatchReply)), ← result]
          rfl
        intro t member
        rw [← context t member]
        exact exchanged_of_converse steady turnsNodup answers t member

end Batch

/-! ## Both -/

/-- Two servers that differ in the ids they draw, if at all. -/
structure SameButIds (server other : Server) : Prop where
  reading : other.reading = server.reading
  tokenizer : other.tokenizer = server.tokenizer
  modelMaxSeqLength : other.modelMaxSeqLength = server.modelMaxSeqLength
  rag : other.rag = server.rag
  generate : other.generate = server.generate

namespace SameButIds

variable {server other : Server}

theorem refuses (alike : SameButIds server other) : other.refuses = server.refuses := by
  unfold Server.refuses
  rw [alike.tokenizer]

theorem newContext (alike : SameButIds server other) (api : ChatbotAPI) :
    api.newContext other = api.newContext server := by
  unfold ChatbotAPI.newContext ChatbotAPI.sessionTokenBudget Server.counter
  rw [alike.tokenizer, alike.modelMaxSeqLength]

theorem exchange (alike : SameButIds server other) (c : ConversationContext) (message : Bytes)
    (config : GenerationConfig) :
    exchange other c message config = exchange server c message config := by
  unfold Sessions.exchange answerTo promptFor asked Server.generateResponse
  rw [alike.refuses, alike.rag, alike.generate]

theorem steady (alike : SameButIds server other) (steady : Steady server) : Steady other :=
  ⟨alike.rag.trans steady.noRag, fun n => by rw [alike.generate, steady.same]⟩

end SameButIds

/-- The answers are the same, and so are the sessions and their messages, with the new
sessions renamed. -/
structure Agree (before : ChatbotAPI) (reply : BatchReply) (after : ChatbotAPI)
    (replies : List ChatReply) (after' : ChatbotAPI) : Prop where
  responses : replies.map ChatReply.response = reply.responses
  renamed : ∃ rename : Bytes → Bytes, (∀ id ∈ before.sessions, rename id = id) ∧
    replies.map ChatReply.sessionId = reply.sessionIds.map rename ∧
    Set.BijOn rename {id | id ∈ after.sessions} {id | id ∈ after'.sessions} ∧
    ∀ id ∈ after.sessions, (after'.context (rename id)).messages = (after.context id).messages

/-- A batch succeeds exactly when its single requests all do, and then they agree. -/
structure BatchMatches (server other : Server) (api : ChatbotAPI) (body : Bytes)
    (bodies : List Bytes) : Prop where
  succeeds : (∃ reply after, handleBatchChatSession server api body = (.ok reply, after)) ↔
    ∃ replies after, sendAll other api bodies = (.ok replies, after)
  agrees : ∀ reply after replies after', handleBatchChatSession server api body = (.ok reply, after) →
    sendAll other api bodies = (.ok replies, after') → Agree api reply after replies after'

/-- The batch is not empty and, when its settings are valid and its messages all have
exchanges, none of them is empty or too long for its session. -/
structure BatchComparable (server : Server) (api : ChatbotAPI) (settings : Fields)
    (pairs : List (Bytes × Bytes)) : Prop where
  some : pairs ≠ []
  fits : ∀ config,
    applyGenerationSettings server.reading.toFloat settings api.defaultConfig = .ok config →
    (∀ p ∈ pairs, (exchange server (preContext server api p.1) p.2 config).isSome) →
    ∀ p ∈ pairs, p.2 ≠ [] ∧ Fits (preContext server api p.1) p.2

section Both

variable {server other : Server} {api : ChatbotAPI}

/-- A session that an id stands for starts as the id says. -/
theorem preContext_actualId (right : WellFormed server api) {n : Nat} (later : api.drawn ≤ n)
    (id : Bytes) : preContext server api (actualId server n id) = preContext server api id := by
  unfold actualId
  by_cases new : id = []
  · have apart : server.draw n ∉ api.sessions := fun member => right.issued _ member n later rfl
    rw [if_pos new, new, preContext, preContext, if_neg apart, if_neg right.named]
  · rw [if_neg new]

theorem forall_turnsOf (right : WellFormed server api) {n : Nat} (later : api.drawn ≤ n)
    (holds : ConversationContext → Bytes → Prop) (pairs : List (Bytes × Bytes)) :
    (∀ t ∈ turnsOf server n pairs, holds (preContext server api t.1) t.2) ↔
      ∀ p ∈ pairs, holds (preContext server api p.1) p.2 := by
  induction pairs generalizing n with
  | nil => exact iff_of_true nofun nofun
  | cons pair rest ih =>
      rw [turnsOf_cons, List.forall_mem_cons, List.forall_mem_cons, ih (by omega),
        preContext_actualId right later]

/-- The session of one server's draws for a session of the other's. -/
noncomputable def counterpart (server other : Server) (api : ChatbotAPI) (id : Bytes) : Bytes :=
  if id ∈ api.sessions then id else other.draw (Function.invFun server.draw id)

theorem counterpart_draw (right : WellFormed server api) {n : Nat} (later : api.drawn ≤ n) :
    counterpart server other api (server.draw n) = other.draw n := by
  have apart : server.draw n ∉ api.sessions := fun member => right.issued _ member n later rfl
  rw [counterpart, if_neg apart, Function.leftInverse_invFun server.draw_injective]

variable (other) in
theorem actualIds_counterpart (right : WellFormed server api) {n : Nat} (later : api.drawn ≤ n)
    {ids : List Bytes} (known : ∀ id ∈ ids, id ≠ [] → id ∈ api.sessions) :
    actualIds other n ids = (actualIds server n ids).map (counterpart server other api) := by
  induction ids generalizing n with
  | nil => rfl
  | cons id rest ih =>
      obtain ⟨here, knownRest⟩ := List.forall_mem_cons.mp known
      rw [actualIds_cons, actualIds_cons, List.map_cons, ih (by omega) knownRest]
      refine congrArg (· :: _) ?_
      unfold actualId
      by_cases new : id = []
      · rw [if_pos new, if_pos new, counterpart_draw right later]
      · rw [if_neg new, if_neg new, counterpart, if_pos (here new)]

variable (other) in
theorem turnsOf_counterpart (right : WellFormed server api) {pairs : List (Bytes × Bytes)}
    (known : ∀ id ∈ pairs.map Prod.fst, id ≠ [] → id ∈ api.sessions) :
    turnsOf other api.drawn pairs =
      (turnsOf server api.drawn pairs).map fun t => (counterpart server other api t.1, t.2) := by
  unfold turnsOf
  rw [actualIds_counterpart other right (Nat.le_refl _) known, List.zip_map_left]
  rfl

variable (server) in
/-- A session of the batch, renamed, is in the map before exactly when it was. -/
theorem counterpart_mem_iff (right' : WellFormed other api) {ids : List Bytes} {id : Bytes}
    (known : ∀ id ∈ ids, id ≠ [] → id ∈ api.sessions)
    (inside : id ∈ actualIds server api.drawn ids) :
    counterpart server other api id ∈ api.sessions ↔ id ∈ api.sessions := by
  unfold counterpart
  by_cases there : id ∈ api.sessions
  · rw [if_pos there]
  · rw [if_neg there]
    refine iff_of_false (fun member => ?_) there
    rcases mem_actualIds.mp inside with ⟨named, some⟩ | ⟨k, above, _, rfl⟩
    · exact there (known id named some)
    · rw [Function.leftInverse_invFun server.draw_injective k] at member
      exact right'.issued _ member k above rfl

theorem preContext_counterpart (alike : SameButIds server other) (right' : WellFormed other api)
    {ids : List Bytes} {id : Bytes} (known : ∀ id ∈ ids, id ≠ [] → id ∈ api.sessions)
    (inside : id ∈ actualIds server api.drawn ids) :
    preContext other api (counterpart server other api id) = preContext server api id := by
  unfold preContext
  by_cases there : id ∈ api.sessions
  · rw [if_pos ((counterpart_mem_iff server right' known inside).mpr there), if_pos there, counterpart,
      if_pos there]
  · rw [if_neg (fun member => there ((counterpart_mem_iff server right' known inside).mp member)),
      if_neg there, alike.newContext]

/-- When both succeed, they agree. -/
theorem agree_of_allSent (alike : SameButIds server other) (right : WellFormed server api)
    (right' : WellFormed other api) {pairs : List (Bytes × Bytes)}
    (known : ∀ id ∈ pairs.map Prod.fst, id ≠ [] → id ∈ api.sessions)
    {answer : ConversationContext → Bytes → Bytes × ConversationContext} {after after' : ChatbotAPI}
    (batch : AllSent server api (actualIds server api.drawn (pairs.map Prod.fst))
      (turnsOf server api.drawn pairs) (fun t => answer (preContext server api t.1) t.2) after)
    (single : AllSent other api (actualIds other api.drawn (pairs.map Prod.fst))
      (turnsOf other api.drawn pairs) (fun t => answer (preContext other api t.1) t.2) after') :
    Agree api ⟨(turnsOf server api.drawn pairs).map fun t => (answer (preContext server api t.1) t.2).1,
        actualIds server api.drawn (pairs.map Prod.fst)⟩ after
      ((turnsOf other api.drawn pairs).map fun t =>
        ⟨(answer (preContext other api t.1) t.2).1, t.1⟩) after' := by
  have actual := actualIds_counterpart other right (Nat.le_refl _) known
  have turns := turnsOf_counterpart other right known
  have inside : ∀ t ∈ turnsOf server api.drawn pairs,
      t.1 ∈ actualIds server api.drawn (pairs.map Prod.fst) := by
    intro t member
    rw [← map_fst_turnsOf]
    exact List.mem_map_of_mem member
  have pre : ∀ t ∈ turnsOf server api.drawn pairs,
      preContext other api (counterpart server other api t.1) = preContext server api t.1 :=
    fun t member => preContext_counterpart alike right' known (inside t member)
  have old : ∀ id ∈ api.sessions, counterpart server other api id = id := fun id member =>
    if_pos member
  have drawn : ∀ id ∈ after.sessions, id ∉ api.sessions →
      ∃ k, api.drawn ≤ k ∧ counterpart server other api id = other.draw k ∧ server.draw k = id := by
    intro id member apart
    rcases mem_actualIds.mp (((batch.sessions id).mp member).resolve_left apart) with
      ⟨named, some⟩ | ⟨k, above, _, rfl⟩
    · exact absurd (known id named some) apart
    · exact ⟨k, above, counterpart_draw right above, rfl⟩
  refine ⟨?_, counterpart server other api, old, ?_, ⟨?_, ?_, ?_⟩, ?_⟩
  · rw [turns, List.map_map, List.map_map]
    refine List.map_congr_left fun t member => ?_
    simp only [Function.comp_apply, pre t member]
  · rw [List.map_map, ← actual, ← map_fst_turnsOf]
    rfl
  · intro id member
    refine (single.sessions _).mpr (((batch.sessions id).mp member).imp (fun there => ?_) fun new => ?_)
    · rwa [old id there]
    · rw [actual]
      exact List.mem_map_of_mem new
  · intro a inA b inB same
    by_cases oldA : a ∈ api.sessions
    · by_cases oldB : b ∈ api.sessions
      · rwa [old a oldA, old b oldB] at same
      · obtain ⟨k, above, draw, _⟩ := drawn b inB oldB
        rw [old a oldA, draw] at same
        exact absurd same.symm (right'.issued a oldA k above)
    · obtain ⟨j, aboveJ, drawJ, rfl⟩ := drawn a inA oldA
      by_cases oldB : b ∈ api.sessions
      · rw [old b oldB, drawJ] at same
        exact absurd same (right'.issued b oldB j aboveJ)
      · obtain ⟨k, _, drawK, rfl⟩ := drawn b inB oldB
        rw [drawJ, drawK] at same
        rw [other.draw_injective same]
  · intro id member
    rcases (single.sessions id).mp member with there | new
    · exact ⟨id, (batch.sessions id).mpr (.inl there), old id there⟩
    · rw [actual] at new
      obtain ⟨a, inside, rfl⟩ := List.mem_map.mp new
      exact ⟨a, (batch.sessions a).mpr (.inr inside), rfl⟩
  · intro id member
    by_cases new : id ∈ actualIds server api.drawn (pairs.map Prod.fst)
    · rw [← map_fst_turnsOf] at new
      obtain ⟨t, inTurns, rfl⟩ := List.mem_map.mp new
      have given := single.context (counterpart server other api t.1, t.2) (by
        rw [turns]
        exact List.mem_map.mpr ⟨t, inTurns, rfl⟩)
      rw [batch.context t inTurns, given]
      dsimp only
      rw [pre t inTurns]
    · have there := ((batch.sessions id).mp member).resolve_right new
      have apart : id ∉ actualIds other api.drawn (pairs.map Prod.fst) := by
        rw [actual]
        intro again
        obtain ⟨a, inside, same⟩ := List.mem_map.mp again
        have oldA := (counterpart_mem_iff server right' known inside).mp (same ▸ there)
        rw [old a oldA] at same
        exact new (same ▸ inside)
      rw [old id there, batch.untouched id new, single.untouched id apart]

end Both

/-- The answer and the conversation of an exchange, if there is one. -/
def answerOr (server : Server) (config : GenerationConfig) (c : ConversationContext)
    (message : Bytes) : Bytes × ConversationContext :=
  (exchange server c message config).getD ([], c)

theorem exchange_eq_answerOr {server : Server} {config : GenerationConfig} {c : ConversationContext}
    {message : Bytes} (some : (exchange server c message config).isSome) :
    exchange server c message config = Option.some (answerOr server config c message) := by
  obtain ⟨reply, found⟩ := Option.isSome_iff_exists.mp some
  rw [answerOr, found, Option.getD_some]

/-- For different sessions, with room for the new ones, a batch matches its single
requests if and only if it is comparable to them. -/
theorem batch_equals_singles_iff (server other : Server) (api : ChatbotAPI) (settings : Fields)
    (pairs : List (Bytes × Bytes)) (body : Bytes) (bodies : List Bytes)
    (alike : SameButIds server other) (steady : Steady server) (right : WellFormed server api)
    (right' : WellFormed other api) (sends : BatchBody server.reading settings pairs body)
    (each : List.Forall₂ (ChatBody server.reading settings) pairs bodies)
    (known : ∀ id ∈ pairs.map Prod.fst, id ≠ [] → id ∈ api.sessions)
    (distinct : ((pairs.map Prod.fst).filter (· ≠ [])).Nodup)
    (room : api.sessions.length + (pairs.map Prod.fst).count [] ≤ api.maxSessions)
    (within : pairs.length ≤ api.maxBatchSize) :
    BatchMatches server other api body bodies ↔ BatchComparable server api settings pairs := by
  obtain ⟨batchDone, batchNeeds⟩ := right.batch steady sends known distinct room within
  obtain ⟨singleDone, singleNeeds⟩ := right'.sendAll (alike.steady steady)
    (alike.reading ▸ each) known
    (nodup_actualIds right' (Nat.le_refl _) known distinct) room
  have le := Nat.le_refl api.drawn
  have pre : ∀ id, preContext other api id = preContext server api id := fun id => by
    unfold preContext
    rw [alike.newContext]
  have batchIff : (∃ reply after, handleBatchChatSession server api body = (.ok reply, after)) ↔
      pairs ≠ [] ∧ ∃ config,
        applyGenerationSettings server.reading.toFloat settings api.defaultConfig = .ok config ∧
        ∀ p ∈ pairs, (exchange server (preContext server api p.1) p.2 config).isSome := by
    constructor
    · rintro ⟨reply, after, handled⟩
      obtain ⟨some, config, valid, exchanged⟩ := batchNeeds reply after handled
      exact ⟨some, config, valid, (forall_turnsOf right le
        (fun c m => (exchange server c m config).isSome) pairs).mp exchanged⟩
    · rintro ⟨some, config, valid, exchanged⟩
      obtain ⟨after, handled, _⟩ := batchDone config
        (fun t => answerOr server config (preContext server api t.1) t.2) some valid
        ((forall_turnsOf right le (fun c m =>
          exchange server c m config = Option.some (answerOr server config c m)) pairs).mpr
            fun p member => exchange_eq_answerOr (exchanged p member))
      exact ⟨_, after, handled⟩
  have sent : ∀ config,
      applyGenerationSettings server.reading.toFloat settings api.defaultConfig = .ok config →
      (∀ p ∈ pairs, (exchange server (preContext server api p.1) p.2 config).isSome) →
      (∀ p ∈ pairs, p.2 ≠ [] ∧ Fits (preContext server api p.1) p.2) →
      ∀ t ∈ turnsOf other api.drawn pairs, Sendable other api settings t
        (answerOr server config (preContext other api t.1) t.2) := by
    intro config valid exchanged fits
    have each := (forall_turnsOf right' le (fun c m => m ≠ [] ∧ Fits c m ∧
      exchange server c m config = Option.some (answerOr server config c m)) pairs).mpr
        fun p member => by
          rw [pre]
          exact ⟨(fits p member).1, (fits p member).2, exchange_eq_answerOr (exchanged p member)⟩
    intro t member
    obtain ⟨written, fits, same⟩ := each t member
    refine ⟨written, fits, config, ?_, ?_⟩
    · rw [alike.reading]
      exact valid
    · rw [alike.exchange]
      exact same
  have needed : (∃ replies after, sendAll other api bodies = (.ok replies, after)) →
      ∀ p ∈ pairs, p.2 ≠ [] ∧ Fits (preContext server api p.1) p.2 ∧ ∃ config,
        applyGenerationSettings server.reading.toFloat settings api.defaultConfig = .ok config ∧
        (exchange server (preContext server api p.1) p.2 config).isSome := by
    rintro ⟨replies, after, answered⟩ p member
    have each := (forall_turnsOf right' le (fun c m => m ≠ [] ∧ Fits c m ∧ ∃ config,
      applyGenerationSettings server.reading.toFloat settings api.defaultConfig = .ok config ∧
      (exchange server c m config).isSome) pairs).mp (by
        intro t member
        obtain ⟨answer, written, fits, config, valid, exchanged⟩ :=
          singleNeeds replies after answered t member
        rw [alike.reading] at valid
        rw [alike.exchange] at exchanged
        exact ⟨written, fits, config, valid, Option.isSome_iff_exists.mpr ⟨answer, exchanged⟩⟩)
    rw [← pre]
    exact each p member
  constructor
  · rintro ⟨succeeds, _⟩
    refine ⟨?_, fun config valid exchanged => ?_⟩
    · rintro rfl
      cases each
      exact (batchIff.mp (succeeds.mpr ⟨[], api, rfl⟩)).1 rfl
    · by_cases some : pairs = []
      · rw [some]
        exact nofun
      · have single := needed (succeeds.mp (batchIff.mpr ⟨some, config, valid, exchanged⟩))
        exact fun p member => ⟨(single p member).1, (single p member).2.1⟩
  · rintro ⟨some, fits⟩
    refine ⟨⟨fun batch => ?_, fun single => ?_⟩, ?_⟩
    · obtain ⟨_, config, valid, exchanged⟩ := batchIff.mp batch
      obtain ⟨after, answered, _⟩ := singleDone _
        (sent config valid exchanged (fits config valid exchanged))
      exact ⟨_, after, answered⟩
    · have single := needed single
      obtain ⟨p, rest, shape⟩ := List.exists_cons_of_ne_nil some
      obtain ⟨_, _, config, valid, _⟩ := single p (shape ▸ List.mem_cons_self ..)
      refine batchIff.mpr ⟨some, config, valid, fun q member => ?_⟩
      obtain ⟨_, _, config', valid', exchanged⟩ := single q member
      rwa [← Except.ok.inj (valid.symm.trans valid')] at exchanged
    · intro reply after replies after' batch single
      obtain ⟨_, config, valid, exchanged⟩ := batchIff.mp ⟨reply, after, batch⟩
      obtain ⟨_, handled, left⟩ := batchDone config
        (fun t => answerOr server config (preContext server api t.1) t.2) some valid
        ((forall_turnsOf right le (fun c m =>
          exchange server c m config = Option.some (answerOr server config c m)) pairs).mpr
            fun p member => exchange_eq_answerOr (exchanged p member))
      obtain ⟨_, answered, left'⟩ := singleDone
        (fun t => answerOr server config (preContext other api t.1) t.2)
        (sent config valid exchanged (fits config valid exchanged))
      have agree := agree_of_allSent alike right right' known left left'
      obtain ⟨same, rfl⟩ := Prod.mk.inj (batch.symm.trans handled)
      obtain ⟨same', rfl⟩ := Prod.mk.inj (single.symm.trans answered)
      rw [Except.ok.inj same, Except.ok.inj same']
      exact agree

/-! ## An empty message -/

/-- An empty message, as a batch and as a single request. -/
def noMessage : Json :=
  .object [(ascii "messages", .array [.string []]), (ascii "session_ids", .array [.string (ascii "b")]),
    (ascii "session_id", .string (ascii "b")), (ascii "message", .string [])]

theorem steady_oneRequest (request : Json) : Steady (oneRequest request) := ⟨rfl, fun _ => rfl⟩

theorem batchBody_noMessage :
    BatchBody (oneRequest noMessage).reading [] [(ascii "b", [])] [] :=
  ⟨_, rfl, rfl, rfl, rfl⟩

theorem chatBody_noMessage : List.Forall₂ (ChatBody (oneRequest noMessage).reading [])
    [(ascii "b", [])] [[]] :=
  .cons ⟨_, rfl, rfl, rfl, rfl⟩ .nil

theorem known_noMessage : ∀ id ∈ [(ascii "b", ([] : Bytes))].map Prod.fst, id ≠ [] →
    id ∈ twoSessions.sessions := by
  intro id member _
  rw [List.mem_singleton.mp member]
  exact List.mem_cons_self ..

/-- A batch answers the message that its single request refuses. -/
theorem not_batchMatches_noMessage :
    ¬ BatchMatches (oneRequest noMessage) (oneRequest noMessage) twoSessions [] [[]] := by
  intro matches'
  obtain ⟨_, _, refused⟩ := matches'.succeeds.mp ⟨_, _, rfl⟩
  cases refused

theorem batch_equals_singles_fails : ¬ ∀ (server other : Server) (api : ChatbotAPI)
    (settings : Fields) (pairs : List (Bytes × Bytes)) (body : Bytes) (bodies : List Bytes),
    SameButIds server other → Steady server →
    (∀ input config, ∃ response, server.generate 0 input config = .ok response) →
    WellFormed server api → WellFormed other api → BatchBody server.reading settings pairs body →
    List.Forall₂ (ChatBody server.reading settings) pairs bodies →
    (∀ id ∈ pairs.map Prod.fst, id ≠ [] → id ∈ api.sessions) →
    ((pairs.map Prod.fst).filter (· ≠ [])).Nodup →
    api.sessions.length + (pairs.map Prod.fst).count [] ≤ api.maxSessions →
    pairs.length ≤ api.maxBatchSize → BatchMatches server other api body bodies :=
  fun claim => not_batchMatches_noMessage (claim (oneRequest noMessage) (oneRequest noMessage)
    twoSessions [] [(ascii "b", [])] [] [[]] ⟨rfl, rfl, rfl, rfl, rfl⟩ (steady_oneRequest _)
    (fun _ _ => ⟨[], rfl⟩) (wellFormed_twoSessions _) (wellFormed_twoSessions _)
    batchBody_noMessage chatBody_noMessage known_noMessage (by decide) (by decide) (by decide))

theorem batch_equals_singles_iff_noMessage :
    ¬ BatchComparable (oneRequest noMessage) twoSessions [] [(ascii "b", [])] :=
  fun comparable => not_batchMatches_noMessage ((batch_equals_singles_iff (oneRequest noMessage)
    (oneRequest noMessage) twoSessions [] [(ascii "b", [])] [] [[]] ⟨rfl, rfl, rfl, rfl, rfl⟩
    (steady_oneRequest _) (wellFormed_twoSessions _) (wellFormed_twoSessions _)
    batchBody_noMessage chatBody_noMessage known_noMessage (by decide) (by decide)
    (by decide)).mpr comparable)

end Adai.Sessions
