import Mathlib.Data.List.Sort
import Adai.Math.RecencyList
import Adai.Sessions.ChatbotAPI

/-! # The session map by recency

Ordered by their last use, the sessions of the map are a list by recency: using a
session moves it to the end, and a new session makes room at the front
(`Adai.Sessions.Recent.createSession`). So finding and creating the sessions of a batch
is a run of accesses (`Adai.Sessions.Recent.getOrCreateAll`).
-/

namespace Adai.Sessions

open Tokenizer Conversation Recency

/-- The sessions of the map were issued, and last used at different times. -/
structure WellFormed (server : Server) (api : ChatbotAPI) : Prop where
  apart : (api.sessions.map api.lastAccess).Nodup
  named : [] ∉ api.sessions
  issued : ∀ id ∈ api.sessions, ∀ n, api.drawn ≤ n → server.draw n ≠ id
  past : ∀ id ∈ api.sessions, api.lastAccess id < api.clock

theorem wellFormed_of_empty (server : Server) {api : ChatbotAPI} (empty : api.sessions = []) :
    WellFormed server api := by
  constructor <;> simp [empty]

/-- The sessions from the least to the most recently used one. -/
def leastRecentFirst (api : ChatbotAPI) : List Bytes :=
  api.sessions.mergeSort fun a b => decide (api.lastAccess a ≤ api.lastAccess b)

/-- The keys are the sessions of the map, from the least to the most recently used one. -/
structure Recent (server : Server) (api : ChatbotAPI) (keys : List Bytes) : Prop where
  perm : keys.Perm api.sessions
  ordered : keys.Pairwise fun a b => api.lastAccess a < api.lastAccess b
  named : [] ∉ keys
  issued : ∀ id ∈ keys, ∀ n, api.drawn ≤ n → server.draw n ≠ id
  past : ∀ id ∈ keys, api.lastAccess id < api.clock

theorem WellFormed.recent {server : Server} {api : ChatbotAPI} (right : WellFormed server api) :
    Recent server api (leastRecentFirst api) := by
  have perm : (leastRecentFirst api).Perm api.sessions := List.mergeSort_perm _ _
  have sorted : (leastRecentFirst api).Pairwise fun a b => api.lastAccess a ≤ api.lastAccess b := by
    have sorted : (leastRecentFirst api).Pairwise fun a b =>
        decide (api.lastAccess a ≤ api.lastAccess b) = true := List.pairwise_mergeSort
      (fun a b c => by simpa using Nat.le_trans) (fun a b => by simpa using Nat.le_total _ _)
      api.sessions
    exact sorted.imp fun le => of_decide_eq_true le
  have apart : (leastRecentFirst api).Pairwise fun a b => api.lastAccess a ≠ api.lastAccess b :=
    List.pairwise_map.mp ((perm.map api.lastAccess).nodup_iff.mpr right.apart)
  refine ⟨perm, ?_, ?_, ?_, ?_⟩
  · exact (List.pairwise_and_iff.mpr ⟨sorted, apart⟩).imp fun both =>
      Nat.lt_of_le_of_ne both.1 both.2
  · exact fun member => right.named (perm.mem_iff.mp member)
  · exact fun id member => right.issued id (perm.mem_iff.mp member)
  · exact fun id member => right.past id (perm.mem_iff.mp member)

/-- Two states have the same settings. -/
structure SameSettings (before after : ChatbotAPI) : Prop where
  maxSessions : after.maxSessions = before.maxSessions
  maxBatchSize : after.maxBatchSize = before.maxBatchSize
  configuredTokenBudget : after.configuredTokenBudget = before.configuredTokenBudget
  defaultConfig : after.defaultConfig = before.defaultConfig

theorem SameSettings.refl (api : ChatbotAPI) : SameSettings api api := ⟨rfl, rfl, rfl, rfl⟩

theorem SameSettings.trans {a b c : ChatbotAPI} (first : SameSettings a b)
    (second : SameSettings b c) : SameSettings a c :=
  ⟨second.1.trans first.1, second.2.trans first.2, second.3.trans first.3,
    second.4.trans first.4⟩

theorem SameSettings.newContext {before after : ChatbotAPI} (same : SameSettings before after)
    (server : Server) : after.newContext server = before.newContext server := by
  unfold ChatbotAPI.newContext ChatbotAPI.sessionTokenBudget
  rw [same.configuredTokenBudget]

namespace ChatbotAPI

/-- Making room takes sessions from the map and leaves everything else. -/
theorem makeRoom_eq (fuel : Nat) (api : ChatbotAPI) :
    makeRoom fuel api = { api with sessions := (makeRoom fuel api).sessions } := by
  induction fuel generalizing api with
  | zero => rfl
  | succ fuel ih =>
      unfold makeRoom
      split
      · have evicted : api.evictOldest = { api with sessions := api.evictOldest.sessions } := by
          unfold evictOldest
          split
          · rfl
          · rfl
        rw [ih api.evictOldest, evicted]
      · rfl

end ChatbotAPI

namespace Recent

variable {server : Server} {api : ChatbotAPI} {keys : List Bytes}

theorem nodup (recent : Recent server api keys) : keys.Nodup :=
  recent.ordered.imp fun before same => Nat.ne_of_lt before (congrArg api.lastAccess same)

theorem mem_iff (recent : Recent server api keys) {id : Bytes} :
    id ∈ keys ↔ id ∈ api.sessions :=
  recent.perm.mem_iff

theorem wellFormed (recent : Recent server api keys) : WellFormed server api := by
  have mem : ∀ id, id ∈ api.sessions → id ∈ keys := fun _ => recent.mem_iff.mpr
  refine ⟨?_, ?_, ?_, ?_⟩
  · refine (recent.perm.map api.lastAccess).nodup_iff.mp (List.pairwise_map.mpr ?_)
    exact recent.ordered.imp Nat.ne_of_lt
  · exact fun member => recent.named (mem _ member)
  · exact fun id member => recent.issued id (mem id member)
  · exact fun id member => recent.past id (mem id member)

theorem setContext (recent : Recent server api keys) (id : Bytes) (c : ConversationContext) :
    Recent server (api.setContext id c) keys :=
  ⟨recent.perm, recent.ordered, recent.named, recent.issued, recent.past⟩

/-- The session used last is the most recent one. -/
theorem ordered_touch {others : List Bytes} {id : Bytes}
    (ordered : others.Pairwise fun a b => api.lastAccess a < api.lastAccess b)
    (past : ∀ other ∈ others, api.lastAccess other < api.clock) (apart : id ∉ others) :
    (others ++ [id]).Pairwise (fun a b => (api.touch id).lastAccess a < (api.touch id).lastAccess b) ∧
      ∀ other ∈ others ++ [id], (api.touch id).lastAccess other < (api.touch id).clock := by
  have old : ∀ other ∈ others, (api.touch id).lastAccess other = api.lastAccess other :=
    fun other member => Function.update_of_ne (ne_of_mem_of_not_mem member apart) _ _
  have new : (api.touch id).lastAccess id = api.clock := Function.update_self ..
  have clock : (api.touch id).clock = api.clock + 1 := rfl
  constructor
  · refine List.pairwise_append.mpr ⟨?_, List.pairwise_singleton .., ?_⟩
    · refine ordered.imp_of_mem fun inA inB before => ?_
      rwa [old _ inA, old _ inB]
    · intro a inA b inB
      rw [List.mem_singleton.mp inB, old a inA, new]
      exact past a inA
  · intro other member
    rw [clock]
    rcases List.mem_append.mp member with before | last
    · rw [old other before]
      exact Nat.lt_succ_of_lt (past other before)
    · rw [List.mem_singleton.mp last, new]
      exact Nat.lt_succ_self _

/-- A session that is used goes to the end. -/
theorem touch (recent : Recent server api keys) {id : Bytes} (there : id ∈ keys) :
    Recent server (api.touch id) (renew keys id) := by
  have perm := renew_perm there
  obtain ⟨others, shape, sublist, apart⟩ := renew_cases recent.nodup id
  obtain ⟨ordered, past⟩ := ordered_touch (recent.ordered.sublist sublist)
    (fun other member => recent.past other (sublist.subset member)) apart
  rw [← shape] at ordered past
  refine ⟨perm.trans recent.perm, ordered, ?_, ?_, past⟩
  · exact fun member => recent.named (perm.mem_iff.mp member)
  · exact fun other member => recent.issued other (perm.mem_iff.mp member)

theorem evictOldest {oldest : Bytes} (recent : Recent server api (oldest :: keys)) :
    Recent server api.evictOldest keys := by
  obtain ⟨first, ordered⟩ := List.pairwise_cons.mp recent.ordered
  have found : api.sessions.argmin api.lastAccess = some oldest := by
    refine List.argmin_eq_some_iff.mpr ⟨recent.mem_iff.mp (List.mem_cons_self ..), ?_, ?_⟩
    · intro other member
      rcases List.mem_cons.mp (recent.mem_iff.mpr member) with rfl | later
      · exact Nat.le_refl _
      · exact Nat.le_of_lt (first other later)
    · intro other member le
      rcases List.mem_cons.mp (recent.mem_iff.mpr member) with rfl | later
      · exact Nat.le_refl _
      · exact absurd (first other later) (Nat.not_lt.mpr le)
  unfold ChatbotAPI.evictOldest
  rw [found]
  refine ⟨?_, ordered, ?_, ?_, ?_⟩
  · have erased := recent.perm.erase oldest
    rwa [List.erase_cons_head] at erased
  · exact fun member => recent.named (List.mem_cons_of_mem _ member)
  · exact fun id member => recent.issued id (List.mem_cons_of_mem _ member)
  · exact fun id member => recent.past id (List.mem_cons_of_mem _ member)

theorem makeRoom (recent : Recent server api keys) {fuel : Nat} (enough : keys.length ≤ fuel) :
    Recent server (ChatbotAPI.makeRoom fuel api) (Recency.makeRoom api.maxSessions keys) := by
  induction fuel generalizing api keys with
  | zero =>
      obtain rfl := List.eq_nil_of_length_eq_zero (Nat.le_zero.mp enough)
      rwa [Recency.makeRoom, List.drop_nil]
  | succ fuel ih =>
      unfold ChatbotAPI.makeRoom
      rw [← recent.perm.length_eq]
      by_cases full : api.maxSessions ≤ keys.length
      · rw [if_pos full]
        cases keys with
        | nil =>
            have none : api.evictOldest = api := by
              unfold ChatbotAPI.evictOldest
              rw [recent.perm.nil_eq.symm]
              rfl
            rw [none]
            exact ih recent (Nat.zero_le _)
        | cons oldest rest =>
            have evicted := ih recent.evictOldest (Nat.le_of_succ_le_succ enough)
            have same : api.evictOldest.maxSessions = api.maxSessions := by
              unfold ChatbotAPI.evictOldest
              split
              · rfl
              · rfl
            have one : (oldest :: rest).length + 1 - api.maxSessions =
                rest.length + 1 - api.maxSessions + 1 := by
              rw [List.length_cons] at full ⊢
              omega
            rw [same] at evicted
            rwa [Recency.makeRoom, one, List.drop_succ_cons]
      · rw [if_neg full, Recency.makeRoom, show keys.length + 1 - api.maxSessions = 0 by omega]
        exact recent

theorem createSessionId (recent : Recent server api keys) (fuel : Nat) :
    ChatbotAPI.createSessionId server fuel api =
      (server.draw api.drawn, { api with drawn := api.drawn + 1 }) := by
  cases fuel with
  | zero => rfl
  | succ fuel =>
      unfold ChatbotAPI.createSessionId
      exact if_neg fun member =>
        recent.issued _ (recent.mem_iff.mpr member) api.drawn (Nat.le_refl _) rfl

/-- A new session makes room at the front and goes to the end. -/
theorem createSession (recent : Recent server api keys) :
    (api.createSession server).1 = server.draw api.drawn ∧
      Recent server (api.createSession server).2
        (Recency.makeRoom api.maxSessions keys ++ [server.draw api.drawn]) ∧
      (api.createSession server).2.context =
        Function.update api.context (server.draw api.drawn) (api.newContext server) ∧
      (api.createSession server).2.drawn = api.drawn + 1 ∧
      SameSettings api (api.createSession server).2 ∧
      (api.createSession server).2.generated = api.generated := by
  have room := recent.makeRoom (Nat.le_of_eq recent.perm.length_eq)
  have frame := ChatbotAPI.makeRoom_eq api.sessions.length api
  unfold ChatbotAPI.createSession
  simp only [room.createSessionId]
  revert room
  generalize ChatbotAPI.makeRoom api.sessions.length api = left at frame ⊢
  intro room
  have drawn : left.drawn = api.drawn := by rw [frame]
  have same : SameSettings api left := by
    rw [frame]
    exact ⟨rfl, rfl, rfl, rfl⟩
  have context : left.context = api.context := by rw [frame]
  have apart : server.draw api.drawn ∉ Recency.makeRoom api.maxSessions keys := fun member =>
    room.issued _ member left.drawn (Nat.le_refl _) (by rw [drawn])
  obtain ⟨ordered, past⟩ := ordered_touch room.ordered room.past apart
  refine ⟨by rw [drawn], ⟨?_, ?_, ?_, ?_, ?_⟩, ?_, ?_, ?_, ?_⟩
  · rw [drawn]
    exact room.perm.append_right _
  · rw [drawn]
    exact ordered
  · rw [List.mem_append, List.mem_singleton]
    rintro (old | new)
    · exact room.named old
    · exact server.draw_ne_nil _ new.symm
  · intro id member n later
    have later : left.drawn + 1 ≤ n := later
    rcases List.mem_append.mp member with old | new
    · exact room.issued id old n (by omega)
    · rw [List.mem_singleton.mp new]
      intro again
      have again := server.draw_injective again
      omega
  · rw [drawn]
    exact past
  · change Function.update left.context _ _ = _
    rw [drawn, context]
    exact congrArg _ (SameSettings.newContext ⟨same.1, same.2, same.3, same.4⟩ server)
  · change left.drawn + 1 = _
    rw [drawn]
  · exact ⟨same.1, same.2, same.3, same.4⟩
  · change left.generated = _
    rw [frame]

/-- A session that is named and in the map is used. -/
theorem getOrCreateSession_use {id : Bytes} (named : id ≠ []) (there : id ∈ api.sessions) :
    api.getOrCreateSession server id = (.ok id, api.touch id) := by
  rw [ChatbotAPI.getOrCreateSession, if_pos named, if_pos there]

theorem getOrCreateSession_gone {id : Bytes} (named : id ≠ []) (gone : id ∉ api.sessions) :
    api.getOrCreateSession server id = (.error .sessionNotFound, api) := by
  rw [ChatbotAPI.getOrCreateSession, if_pos named, if_neg gone]

theorem getOrCreateSession_create :
    api.getOrCreateSession server [] =
      (.ok (api.createSession server).1, (api.createSession server).2) := by
  rw [ChatbotAPI.getOrCreateSession, if_neg (not_not_intro rfl)]

end Recent

/-! ## The sessions of a batch -/

/-- The accesses that finding or creating the sessions makes, from the `n`th draw on. -/
def accessesOf (server : Server) : Nat → List Bytes → List (Access Bytes)
  | _, [] => []
  | n, id :: rest =>
      if id = [] then .create (server.draw n) :: accessesOf server (n + 1) rest
      else .use id :: accessesOf server n rest

/-- What finding or creating the sessions of a batch leaves. -/
structure Prepared (server : Server) (before : ChatbotAPI) (accesses : List (Access Bytes))
    (last : List Bytes) (after : ChatbotAPI) : Prop where
  recent : Recent server after last
  same : SameSettings before after
  generated : after.generated = before.generated
  context : ∀ id, after.context id =
    if id ∈ created accesses then before.newContext server else before.context id

/-- Finding or creating the sessions of a batch is a run of accesses; a session that is
gone when its turn comes is not found. -/
theorem Recent.getOrCreateAll {server : Server} {api : ChatbotAPI} {keys : List Bytes}
    (recent : Recent server api keys) (ids : List Bytes) :
    (∃ last after, Recency.run api.maxSessions keys (accessesOf server api.drawn ids) = some last ∧
      Sessions.getOrCreateAll server api ids =
        (.ok ((accessesOf server api.drawn ids).map Access.key), after) ∧
      Prepared server api (accessesOf server api.drawn ids) last after) ∨
    ∃ after, Recency.run api.maxSessions keys (accessesOf server api.drawn ids) = none ∧
      Sessions.getOrCreateAll server api ids = (.error .sessionNotFound, after) := by
  induction ids generalizing api keys with
  | nil =>
      refine .inl ⟨keys, api, rfl, rfl, recent, SameSettings.refl api, rfl, fun id => ?_⟩
      exact (if_neg List.not_mem_nil).symm
  | cons id rest ih =>
      unfold Sessions.getOrCreateAll
      by_cases named : id = []
      · subst named
        obtain ⟨drawn, stepped, context, next, same, calls⟩ := recent.createSession
        rw [Recent.getOrCreateSession_create, accessesOf, if_pos rfl, Recency.run_cons, drawn]
        generalize (api.createSession server).2 = created at stepped context next same calls
        have run : ∀ accesses, (Recency.step api.maxSessions keys (.create (server.draw api.drawn))).bind
            (fun next => Recency.run api.maxSessions next accesses) =
            Recency.run created.maxSessions
              (Recency.makeRoom api.maxSessions keys ++ [server.draw api.drawn]) accesses := by
          intro accesses
          rw [same.maxSessions]
          rfl
        rw [run]
        have rest := ih stepped
        rw [next] at rest
        rcases rest with ⟨last, after, ran, found, prepared⟩ | ⟨after, ran, gone⟩
        · refine .inl ⟨last, after, ran, ?_, prepared.recent, same.trans prepared.same,
            prepared.generated.trans calls, ?_⟩
          · simp only [found]
            rfl
          · intro id
            rw [prepared.context, same.newContext, context, created_create]
            by_cases first : id = server.draw api.drawn
            · subst first
              rw [Function.update_self, ite_self, if_pos (List.mem_cons_self ..)]
            · rw [Function.update_of_ne first]
              simp only [List.mem_cons, first, false_or]
        · exact .inr ⟨after, ran, by simp only [gone]⟩
      · rw [accessesOf, if_neg named, Recency.run_cons]
        by_cases there : id ∈ keys
        · have stepped := recent.touch there
          rw [Recent.getOrCreateSession_use named (recent.mem_iff.mp there)]
          have run : ∀ accesses, (Recency.step api.maxSessions keys (.use id)).bind
              (fun next => Recency.run api.maxSessions next accesses) =
              Recency.run api.maxSessions (renew keys id) accesses := by
            intro accesses
            rw [Recency.step_use_eq_some.mpr ⟨there, rfl⟩, Option.bind_some]
          rw [run]
          rcases ih stepped with ⟨last, after, ran, found, prepared⟩ | ⟨after, ran, gone⟩
          · refine .inl ⟨last, after, ran, ?_, prepared.recent, ?_, prepared.generated, prepared.context⟩
            · simp only [found]
              rfl
            · exact SameSettings.trans (b := api.touch id) ⟨rfl, rfl, rfl, rfl⟩ prepared.same
          · exact .inr ⟨after, ran, by simp only [gone]⟩
        · rw [Recent.getOrCreateSession_gone named fun member => there (recent.mem_iff.mpr member)]
          refine .inr ⟨api, ?_, rfl⟩
          rw [Recency.step, if_neg there]
          rfl

/-! ## A small server -/

/-- Every body is the same request, every answer is empty and the ids are runs of one
letter. -/
def oneRequest (request : Json) : Server where
  reading := { parse := fun _ => some request, toFloat := id }
  tokenizer := none
  modelMaxSeqLength := 0
  rag := none
  generate := fun _ _ _ => .ok []
  draw := fun n => List.replicate (n + 1) 0x61
  draw_ne_nil := fun _ => nofun
  draw_injective := fun a b same => by simpa using congrArg List.length same

/-- Two sessions, the first one used before the second one, and no room for a third. -/
def twoSessions : ChatbotAPI where
  sessions := [ascii "b", ascii "c"]
  lastAccess := fun id => if id = ascii "b" then 0 else 1
  clock := 2
  maxSessions := 2

theorem wellFormed_twoSessions (request : Json) : WellFormed (oneRequest request) twoSessions := by
  have notDrawn : ∀ n letter, letter ≠ (0x61 : UInt8) → (oneRequest request).draw n ≠ [letter] := by
    intro n letter other same
    exact other (List.cons.inj same).1.symm
  refine ⟨by decide, by decide, ?_, by decide⟩
  intro id member n _
  rcases List.mem_pair.mp member with rfl | rfl
  · exact notDrawn n 0x62 (by decide)
  · exact notDrawn n 0x63 (by decide)

end Adai.Sessions
