import Adai.Sessions.Turns

/-! # The sessions of a batch and the cap

A batch checks that the sessions it names are in the map, then finds or creates them
one after the other. A new session at the cap makes the least recently used one go,
which may be one that the batch names later: then the batch is answered as if the
session had not been there. It is answered, and finds all its sessions in a map of at
most so many, exactly when none of them is among those that go before its turn
(`Adai.Sessions.batch_keeps_sessions_iff`).
-/

namespace Adai.Sessions

open Tokenizer Conversation Recency

/-! ## Accesses of a batch -/

section Accesses

variable (server : Server)

theorem mem_used_accessesOf {n : Nat} {ids : List Bytes} {id : Bytes} :
    id ∈ used (accessesOf server n ids) ↔ id ∈ ids ∧ id ≠ [] := by
  induction ids generalizing n with
  | nil => simp [accessesOf]
  | cons first rest ih =>
      unfold accessesOf
      by_cases new : first = []
      · rw [if_pos new, used_create, ih, List.mem_cons, new]
        constructor
        · exact fun both => ⟨.inr both.1, both.2⟩
        · exact fun both => ⟨both.1.resolve_left both.2, both.2⟩
      · rw [if_neg new, used_use, List.mem_cons, ih, List.mem_cons]
        constructor
        · rintro (rfl | ⟨member, named⟩)
          · exact ⟨.inl rfl, new⟩
          · exact ⟨.inr member, named⟩
        · rintro ⟨rfl | member, named⟩
          · exact .inl rfl
          · exact .inr ⟨member, named⟩

/-- The new sessions get the next ids drawn. -/
theorem created_accessesOf (n : Nat) (ids : List Bytes) :
    created (accessesOf server n ids) =
      (List.range' n (ids.count [])).map server.draw := by
  induction ids generalizing n with
  | nil => rfl
  | cons first rest ih =>
      unfold accessesOf
      by_cases new : first = []
      · rw [if_pos new, created_create, ih, new, List.count_cons_self, List.range'_succ]
        rfl
      · rw [if_neg new, created_use, ih, List.count_cons_of_ne new]

theorem accessesOf_append (n : Nat) (pre post : List Bytes) :
    accessesOf server n (pre ++ post) =
      accessesOf server n pre ++ accessesOf server (n + pre.count []) post := by
  induction pre generalizing n with
  | nil => rfl
  | cons first rest ih =>
      rw [List.cons_append, accessesOf, accessesOf]
      by_cases new : first = []
      · rw [if_pos new, if_pos new, ih, new, List.count_cons_self, List.cons_append,
          Nat.add_right_comm, Nat.add_assoc]
      · rw [if_neg new, if_neg new, ih, List.count_cons_of_ne new, List.cons_append]

/-- A use in the run is a named session of the batch. -/
theorem accessesOf_eq_append_use {n : Nat} {ids : List Bytes} {pre post : List (Access Bytes)}
    {s : Bytes} (split : accessesOf server n ids = pre ++ .use s :: post) :
    ∃ before after, ids = before ++ s :: after ∧ s ≠ [] ∧ accessesOf server n before = pre := by
  induction ids generalizing n pre with
  | nil =>
      exact absurd split (by simp [accessesOf])
  | cons first rest ih =>
      unfold accessesOf at split
      by_cases new : first = []
      · rw [if_pos new] at split
        cases pre with
        | nil => cases (List.cons.inj split).1
        | cons access pre =>
            obtain ⟨rfl, tail⟩ := List.cons.inj split
            obtain ⟨before, after, rfl, named, same⟩ := ih tail
            exact ⟨first :: before, after, rfl, named, by rw [accessesOf, if_pos new, same]⟩
      · rw [if_neg new] at split
        cases pre with
        | nil =>
            obtain ⟨use, _⟩ := List.cons.inj split
            obtain rfl := Access.use.inj use
            exact ⟨[], rest, rfl, new, rfl⟩
        | cons access pre =>
            obtain ⟨rfl, tail⟩ := List.cons.inj split
            obtain ⟨before, after, rfl, named, same⟩ := ih tail
            exact ⟨first :: before, after, rfl, named, by rw [accessesOf, if_neg new, same]⟩

end Accesses

/-- The sessions that a batch names are in the map, and it is about no more sessions
than there may be. -/
structure NamesKnown (api : ChatbotAPI) (ids : List Bytes) : Prop where
  known : ∀ id ∈ ids, id ≠ [] → id ∈ api.sessions
  few : (ids.filter (· ≠ [])).dedup.length + ids.count [] ≤ api.maxSessions

theorem Recent.fitting {server : Server} {api : ChatbotAPI} {keys : List Bytes}
    (recent : Recent server api keys) {ids : List Bytes} (names : NamesKnown api ids) :
    Fitting api.maxSessions keys (accessesOf server api.drawn ids) := by
  refine ⟨recent.nodup, ?_, ?_, ?_, ?_⟩
  · intro id member
    obtain ⟨inside, named⟩ := (mem_used_accessesOf server).mp member
    exact recent.mem_iff.mpr (names.known id inside named)
  · intro id member inside
    rw [created_accessesOf] at member
    obtain ⟨n, drawn, rfl⟩ := List.mem_map.mp member
    exact recent.issued _ inside n (List.mem_range'_1.mp drawn).1 rfl
  · rw [created_accessesOf]
    exact (List.nodup_range' ..).map server.draw_injective
  · have subset : ((accessesOf server api.drawn ids).map Access.key).dedup ⊆
        (ids.filter (· ≠ [])).dedup ++ created (accessesOf server api.drawn ids) := by
      intro id member
      rw [List.mem_append, List.mem_dedup, List.mem_filter]
      refine (mem_keys.mp (List.mem_dedup.mp member)).imp_left fun member => ?_
      obtain ⟨inside, named⟩ := (mem_used_accessesOf server).mp member
      exact ⟨inside, decide_eq_true named⟩
    have le := (List.subperm_of_subset (List.nodup_dedup _) subset).length_le
    rw [List.length_append, created_accessesOf, List.length_map, List.length_range'] at le
    exact Nat.le_trans le names.few

/-! ## When a batch keeps its sessions -/

/-- A batch does not miss a session, has the sessions it answers with in the map, and
leaves no more sessions than there may be. -/
structure KeepsSessions (cap : Nat) (outcome : Except ApiError BatchReply × ChatbotAPI) : Prop where
  found : outcome.1 ≠ .error .sessionNotFound
  kept : ∀ reply, outcome.1 = .ok reply → ∀ id ∈ reply.sessionIds, id ∈ outcome.2.sessions
  few : outcome.2.sessions.length ≤ cap

/-- How many sessions go for the new ones among the first sessions of a batch. -/
def goneFor (api : ChatbotAPI) (pre : List Bytes) : Nat :=
  if [] ∈ pre then api.sessions.length + pre.count [] - api.maxSessions else 0

/-- No session goes before its turn, and the map is not left over its cap. -/
structure RoomFor (api : ChatbotAPI) (ids : List Bytes) : Prop where
  within : api.sessions.length ≤ api.maxSessions ∨ [] ∈ ids
  spared : ∀ pre id post, ids = pre ++ id :: post → id ≠ [] →
    id ∉ ((leastRecentFirst api).filter (· ∉ pre)).take (goneFor api pre)

/-- What a batch request needs to keep its sessions. -/
def BatchRoom (server : Server) (api : ChatbotAPI) (body : Bytes) : Prop :=
  match readBatch server.reading api.defaultConfig body api.maxBatchSize with
  | .error _ => api.sessions.length ≤ api.maxSessions
  | .ok request => RoomFor api (request.turns.map Prod.fst)

/-- The sessions that a batch request names, none when it is refused. -/
def namedSessions (server : Server) (api : ChatbotAPI) (body : Bytes) : List Bytes :=
  match readBatch server.reading api.defaultConfig body api.maxBatchSize with
  | .error _ => []
  | .ok request => request.turns.map Prod.fst

section Room

variable {server : Server} {api : ChatbotAPI}

theorem unused_accessesOf (right : WellFormed server api) (n : Nat) (pre : List Bytes) :
    unused (leastRecentFirst api) (accessesOf server n pre) =
      (leastRecentFirst api).filter (· ∉ pre) := by
  refine List.filter_congr fun id member => ?_
  have named : id ≠ [] := ne_of_mem_of_not_mem member right.recent.named
  simp only [mem_used_accessesOf, named, ne_eq, not_false_eq_true, and_true]

theorem gone_accessesOf (right : WellFormed server api) (n : Nat) (pre : List Bytes) :
    gone api.maxSessions (leastRecentFirst api) (accessesOf server n pre) = goneFor api pre := by
  have none : created (accessesOf server n pre) = [] ↔ [] ∉ pre := by
    rw [created_accessesOf, List.map_eq_nil_iff, List.range'_eq_nil_iff, List.count_eq_zero]
  unfold gone goneFor
  simp only [none, ite_not]
  rw [created_accessesOf, List.length_map, List.length_range', right.recent.perm.length_eq]

/-- The run of a batch succeeds exactly when its sessions are spared. -/
theorem run_isSome_iff_spared (right : WellFormed server api) {ids : List Bytes}
    (names : NamesKnown api ids) :
    (Recency.run api.maxSessions (leastRecentFirst api) (accessesOf server api.drawn ids)).isSome ↔
      ∀ pre id post, ids = pre ++ id :: post → id ≠ [] →
        id ∉ ((leastRecentFirst api).filter (· ∉ pre)).take (goneFor api pre) := by
  rw [Recency.run_isSome_iff (right.recent.fitting names)]
  constructor
  · intro spared pre id post split named
    have accesses : accessesOf server api.drawn ids = accessesOf server api.drawn pre ++
        .use id :: accessesOf server (api.drawn + pre.count []) post := by
      rw [split, accessesOf_append, accessesOf, if_neg named]
    have spared := spared _ id _ accesses
    rwa [unused_accessesOf right, gone_accessesOf right] at spared
  · intro spared pre id post split
    obtain ⟨before, after, same, named, rfl⟩ := accessesOf_eq_append_use server split
    rw [unused_accessesOf right, gone_accessesOf right]
    exact spared before id after same named

/-- With its sessions in the map, a batch that is run keeps them if and only if there
is room for them. -/
theorem keepsSessions_iff_roomFor (right : WellFormed server api) {request : BatchRequest}
    (names : NamesKnown api (request.turns.map Prod.fst)) {body : Bytes}
    (read : readBatch server.reading api.defaultConfig body api.maxBatchSize = .ok request) :
    KeepsSessions api.maxSessions (handleBatchChatSession server api body) ↔
      RoomFor api (request.turns.map Prod.fst) := by
  have known : (request.turns.map Prod.fst).any (fun id => id ≠ [] ∧ id ∉ api.sessions) = false := by
    refine List.any_eq_false.mpr fun id member => ?_
    simp only [decide_eq_true_eq, not_and, not_not]
    exact names.known id member
  have fitting := right.recent.fitting names
  unfold handleBatchChatSession
  rw [read]
  dsimp only
  rw [known, if_neg Bool.false_ne_true]
  rcases right.recent.getOrCreateAll (request.turns.map Prod.fst) with
    ⟨last, after, ran, found, prepared⟩ | ⟨after, ran, gone⟩
  · rw [found]
    obtain ⟨sessions, noMiss, replied⟩ := batchTurns_sessions server after
      ((accessesOf server api.drawn (request.turns.map Prod.fst)).map Access.key)
      (request.turns.map Prod.snd) request.config
    have spared := (run_isSome_iff_spared right names).mp (Option.isSome_iff_exists.mpr ⟨last, ran⟩)
    have length := length_of_run fitting ran
    rw [gone_accessesOf right, created_accessesOf, List.length_map, List.length_range',
      right.recent.perm.length_eq, prepared.recent.perm.length_eq, goneFor] at length
    have few : after.sessions.length ≤ api.maxSessions ↔
        api.sessions.length ≤ api.maxSessions ∨ [] ∈ request.turns.map Prod.fst := by
      by_cases new : [] ∈ request.turns.map Prod.fst
      · rw [if_pos new] at length
        have := names.few
        exact iff_of_true (by omega) (.inr new)
      · rw [if_neg new, List.count_eq_zero.mpr new] at length
        rw [or_iff_left new, length]
        rfl
    constructor
    · intro keeps
      have kept := keeps.few
      rw [sessions] at kept
      exact ⟨few.mp kept, spared⟩
    · intro room
      refine ⟨noMiss, ?_, ?_⟩
      · intro reply answered id member
        rw [replied reply answered] at member
        rw [sessions]
        exact prepared.recent.mem_iff.mp (mem_of_run fitting ran member)
      · rw [sessions]
        exact few.mpr room.within
  · rw [gone]
    refine iff_of_false (fun keeps => keeps.found rfl) fun room => ?_
    have ran' := (run_isSome_iff_spared right names).mpr room.spared
    rw [ran] at ran'
    cases ran'

end Room

/-- A batch keeps its sessions if and only if none of them goes before its turn. -/
theorem batch_keeps_sessions_iff (server : Server) (api : ChatbotAPI) (body : Bytes)
    (right : WellFormed server api) (names : NamesKnown api (namedSessions server api body)) :
    KeepsSessions api.maxSessions (handleBatchChatSession server api body) ↔
      BatchRoom server api body := by
  unfold BatchRoom
  unfold namedSessions at names
  cases read : readBatch server.reading api.defaultConfig body api.maxBatchSize with
  | error error =>
      have handled : handleBatchChatSession server api body = (.error error, api) := by
        unfold handleBatchChatSession
        rw [read]
      rw [handled]
      constructor
      · exact KeepsSessions.few
      · intro few
        refine ⟨fun same => ?_, nofun, few⟩
        exact (NoLookup.readBatch ..).ne (read.trans (congrArg _ (Except.error.inj same)))
  | ok request =>
      rw [read] at names
      exact keepsSessions_iff_roomFor right names read

/-- A new session, then the session used least recently. -/
def newThenOldest : Json :=
  .object [(ascii "messages", .array [.string (ascii "x"), .string (ascii "y")]),
    (ascii "session_ids", .array [.string [], .string (ascii "b")])]

theorem namesKnown_newThenOldest :
    NamesKnown twoSessions (namedSessions (oneRequest newThenOldest) twoSessions []) := by
  refine ⟨?_, by decide⟩
  decide

/-- A batch of two sessions, of which one is new, misses the other one with a cap of two. -/
theorem batch_keeps_sessions_fails : ¬ ∀ (server : Server) (api : ChatbotAPI) (body : Bytes),
    WellFormed server api → 1 ≤ api.maxSessions →
    NamesKnown api (namedSessions server api body) →
    KeepsSessions api.maxSessions (handleBatchChatSession server api body) := by
  intro claim
  have keeps := claim (oneRequest newThenOldest) twoSessions [] (wellFormed_twoSessions _)
    (by decide) namesKnown_newThenOldest
  exact keeps.found rfl

theorem batch_keeps_sessions_iff_newThenOldest :
    ¬ BatchRoom (oneRequest newThenOldest) twoSessions [] :=
  fun room => ((batch_keeps_sessions_iff _ _ _ (wellFormed_twoSessions _)
    namesKnown_newThenOldest).mpr room).found rfl

end Adai.Sessions
