import Adai.Metrics.ArchiveOrder

/-! # Exclusive starts

A started session is claimed, and a claimed session refuses other starts of its key
until it is detached (`Held.enter`). Every section detaches only sessions that are
completed or stale (`locked_detaches`), and creates one only where there is room
(`locked_outcome`). So two starts of one key that both succeed have a detachment of
the first session between them, and the counted sessions never exceed the limit
(`exclusive_session_start`).
-/

open TransitionSystem

namespace Adai.Metrics

/-! ## What a section leaves -/

/-- Started, and completed normally or stale. -/
def CompletedOrStale (e : SessionEntry) : Prop :=
  hasStarted e.snapshot = true ∧ (e.snapshot.isTraining = false ∨ e.snapshot.isStale = true)

theorem shouldReplace_iff {e : SessionEntry} :
    shouldReplaceCompletedSession e = true ↔ CompletedOrStale e := by
  rw [shouldReplaceCompletedSession, CompletedOrStale]
  cases hasStarted e.snapshot <;> cases e.snapshot.isTraining <;> simp

theorem countedSessionsLocked_eq_keys (r : MetricsSessionRegistry) :
    countedSessionsLocked r = (r.sessions.keys.filter fun k => k ≠ defaultSessionKey).length := by
  rw [countedSessionsLocked_eq, SessionMap.keys, List.filter_map, List.length_map]
  rfl

/-- What a section leaves after it has detached some sessions. -/
inductive Outcome (now : Int) (middle : MetricsSessionRegistry) : MetricsSessionRegistry → Prop
  | kept : Outcome now middle middle
  | claimed (key : String) : Outcome now middle (claim middle key)
  | created {key : String} (absent : key ∉ middle.sessions)
      (room : countedSessionsLocked middle < middle.maxLiveSessions) :
      Outcome now middle (createLocked now middle key).2
  | createdClaimed {key : String} (absent : key ∉ middle.sessions)
      (room : countedSessionsLocked middle < middle.maxLiveSessions) :
      Outcome now middle (claim (createLocked now middle key).2 key)

theorem mem_modify_entries {m : SessionMap} {key k : String} {e : SessionEntry}
    {f : SessionEntry → SessionEntry} (member : (k, e) ∈ m.entries) :
    (k, if k = key then f e else e) ∈ (m.modify key f).entries := by
  rw [SessionMap.modify]
  refine List.mem_map.mpr ⟨(k, e), member, ?_⟩
  dsimp only
  split <;> rfl

theorem entries_emplace {m : SessionMap} {key : String} (absent : key ∉ m) (e : SessionEntry) :
    (m.emplace key e).entries = m.entries ++ [(key, e)] := by
  rw [SessionMap.emplace, dif_neg absent]

/-- A session that stays keeps its service, and its claim. -/
def Stays (key : String) (v : Nat) (r : MetricsSessionRegistry) : Prop :=
  ∃ e, (key, e) ∈ r.sessions.entries ∧ e.service = v ∧ e.claimed = true

theorem Stays.claim {key : String} {v : Nat} {r : MetricsSessionRegistry} (stays : Stays key v r)
    (key' : String) : Stays key v (claim r key') := by
  obtain ⟨e, member, service, claimed⟩ := stays
  refine ⟨_, mem_modify_entries member, ?_, ?_⟩
  · split
    · exact service
    · exact service
  · split
    · rfl
    · exact claimed

theorem Stays.create {key : String} {v : Nat} {now : Int} {r : MetricsSessionRegistry}
    (stays : Stays key v r) {key' : String} (absent : key' ∉ r.sessions) :
    Stays key v (createLocked now r key').2 := by
  obtain ⟨e, member, kept⟩ := stays
  refine ⟨e, ?_, kept⟩
  rw [createLocked, entries_emplace absent]
  exact List.mem_append_left _ member

theorem Stays.outcome {key : String} {v : Nat} {now : Int} {r r' : MetricsSessionRegistry}
    (stays : Stays key v r) (outcome : Outcome now r r') : Stays key v r' := by
  cases outcome with
  | kept => exact stays
  | claimed key' => exact stays.claim key'
  | created absent room => exact stays.create absent
  | createdClaimed absent room => exact (stays.create absent).claim _

theorem keys_claim (r : MetricsSessionRegistry) (key : String) :
    (claim r key).sessions.keys = r.sessions.keys :=
  SessionMap.keys_modify _

theorem counted_create {now : Int} {r : MetricsSessionRegistry} {key : String}
    (absent : key ∉ r.sessions) :
    countedSessionsLocked (createLocked now r key).2 ≤ countedSessionsLocked r + 1 := by
  rw [countedSessionsLocked_eq_keys, countedSessionsLocked_eq_keys, createLocked, SessionMap.keys,
    entries_emplace absent, List.map_append, List.filter_append, List.length_append]
  exact Nat.add_le_add_left (List.length_filter_le _ _) _

theorem Detaches.counted_le {r r' : MetricsSessionRegistry} {detached : List PendingArchive}
    (detaches : Detaches r detached r') : countedSessionsLocked r' ≤ countedSessionsLocked r := by
  rw [countedSessionsLocked_eq, countedSessionsLocked_eq, detaches.entries]
  exact (List.filter_sublist.filter _).length_le

/-- No outcome exceeds the limit. -/
theorem Outcome.counted_le {now : Int} {r r' : MetricsSessionRegistry} (outcome : Outcome now r r')
    (within : countedSessionsLocked r ≤ r.maxLiveSessions) :
    countedSessionsLocked r' ≤ r'.maxLiveSessions := by
  cases outcome with
  | kept => exact within
  | claimed key =>
      rw [countedSessionsLocked_eq_keys, keys_claim, ← countedSessionsLocked_eq_keys]
      exact within
  | created absent room => exact (counted_create absent).trans room
  | createdClaimed absent room =>
      rw [countedSessionsLocked_eq_keys, keys_claim, ← countedSessionsLocked_eq_keys]
      exact (counted_create absent).trans room

theorem Outcome.maxLiveSessions {now : Int} {r r' : MetricsSessionRegistry}
    (outcome : Outcome now r r') : r'.maxLiveSessions = r.maxLiveSessions := by
  cases outcome <;> rfl

/-! ## Sections -/

theorem makeRoomLoop_room {now : Int} {fuel : Nat} {r : MetricsSessionRegistry}
    {pending : List PendingArchive} (room : (makeRoomLoop now fuel r pending).1 = true) :
    countedSessionsLocked (makeRoomLoop now fuel r pending).2.1 <
      (makeRoomLoop now fuel r pending).2.1.maxLiveSessions := by
  induction fuel generalizing r pending with
  | zero => cases room
  | succ fuel ih =>
      rw [makeRoomLoop] at room ⊢
      split at room
      · rename_i free
        rw [if_pos free]
        exact free
      · rename_i full
        rw [if_neg full]
        cases chosen : victim r with
        | none =>
            rw [chosen] at room
            cases room
        | some x =>
            rw [chosen] at room
            exact ih room

/-- What the room-making of a section detaches, and what it leaves if it succeeds. -/
theorem makeRoomLocked_cases (now : Int) (r : MetricsSessionRegistry)
    (pending : List PendingArchive) :
    ∃ detached middle, makeRoomLocked now r pending =
        ((makeRoomLocked now r pending).1, middle, pending ++ detached) ∧
      Detaches r detached middle ∧ ((makeRoomLocked now r pending).1 = true →
        countedSessionsLocked middle < middle.maxLiveSessions) := by
  obtain ⟨detached, appended, detaches⟩ :=
    makeRoomLoop_detaches now (r.sessions.entries.length + 1) r pending
  exact ⟨detached, _, Prod.ext rfl (Prod.ext rfl appended), detaches, makeRoomLoop_room⟩

section Sections

variable {now : Int} {before : MetricsSessionRegistry} {key : String}

/-- A section of `start_session_or_conflict`. -/
theorem startSection_cases (now : Int) (key : String) (before : MetricsSessionRegistry) :
    ∃ middle, Detaches before (startSection now key before).pending middle ∧
      (((startSection now key before).registry = middle ∧
          ∀ v, (startSection now key before).result ≠ .done (some v) false) ∨
        (∃ e, middle.sessions.find key = some e ∧ e.claimed = false ∧
          (startSection now key before).result = .done (some e.service) false ∧
          (startSection now key before).registry = claim middle key) ∨
        (key ∉ middle.sessions ∧ countedSessionsLocked middle < middle.maxLiveSessions ∧
          (startSection now key before).result = .done (some middle.nextService) false ∧
          (startSection now key before).registry = claim (createLocked now middle key).2 key)) := by
  have evicts := (evict_detaches now before.completedTtlSeconds before).1
  rw [startSection]
  generalize evictCompletedSessionsLocked now before.completedTtlSeconds before [] = evicted at *
  obtain ⟨r, detached⟩ := evicted
  dsimp only at *
  cases found : r.sessions.find key with
  | some e =>
      dsimp only
      split
      · rename_i replaced
        have single := Detaches.single now (SessionMap.find_eq_some_iff.mp found) replaced
        exact ⟨_, evicts.trans single, .inl ⟨rfl, nofun⟩⟩
      · split
        · exact ⟨_, evicts, .inl ⟨rfl, nofun⟩⟩
        · rename_i free
          have unclaimed : e.claimed = false := by
            cases claimed : e.claimed with
            | false => rfl
            | true => simp [claimed] at free
          exact ⟨_, evicts, .inr (.inl ⟨e, found, unclaimed, rfl, rfl⟩)⟩
  | none =>
      obtain ⟨removed, middle, made, makes, room⟩ := makeRoomLocked_cases now r detached
      rw [made]
      dsimp only
      split
      · rename_i granted
        refine ⟨middle, evicts.trans makes, .inr (.inr ⟨fun member => ?_, room granted, rfl, rfl⟩)⟩
        exact SessionMap.find_eq_none_iff.mp found (makes.mem_iff.mp member).1
      · exact ⟨middle, evicts.trans makes, .inl ⟨rfl, nofun⟩⟩

theorem createOrGetSection_outcome (now : Int) (key : String) (before : MetricsSessionRegistry) :
    ∃ middle, Detaches before (createOrGetSection now key before).pending middle ∧
      Outcome now middle (createOrGetSection now key before).registry := by
  have evicts := (evict_detaches now before.completedTtlSeconds before).1
  rw [createOrGetSection]
  generalize evictCompletedSessionsLocked now before.completedTtlSeconds before [] = evicted at *
  obtain ⟨r, detached⟩ := evicted
  dsimp only at *
  cases found : r.sessions.find key with
  | some e =>
      dsimp only
      split
      · exact ⟨_, evicts, .kept⟩
      · rename_i replaced
        have single := Detaches.single now (SessionMap.find_eq_some_iff.mp found)
          (by simpa using replaced)
        exact ⟨_, evicts.trans single, .kept⟩
  | none =>
      obtain ⟨removed, middle, made, makes, room⟩ := makeRoomLocked_cases now r detached
      rw [made]
      dsimp only
      split
      · rename_i granted
        refine ⟨middle, evicts.trans makes, .created (fun member => ?_) (room granted)⟩
        exact SessionMap.find_eq_none_iff.mp found (makes.mem_iff.mp member).1
      · exact ⟨middle, evicts.trans makes, .kept⟩

/-- **Sections.** Some sessions are detached, and at most one is created. -/
theorem locked_outcome (call : SessionCall) (now : Int) (before : MetricsSessionRegistry) :
    ∃ middle, Detaches before (call.locked now before).pending middle ∧
      Outcome now middle (call.locked now before).registry := by
  cases call with
  | createOrGetSession key => exact createOrGetSection_outcome now key before
  | startSessionOrConflict key =>
      obtain ⟨middle, detaches, ⟨same, -⟩ | ⟨e, -, -, -, same⟩ | ⟨absent, room, -, same⟩⟩ :=
        startSection_cases now key before
      · exact ⟨middle, detaches, same ▸ .kept⟩
      · exact ⟨middle, detaches, same ▸ .claimed key⟩
      · exact ⟨middle, detaches, same ▸ .createdClaimed absent room⟩
  | evictCompletedSessions maxAgeSeconds =>
      exact ⟨_, (evict_detaches now maxAgeSeconds before).1, .kept⟩

end Sections

/-! ## Runs -/

section Runs

variable {Client : Type*} [DecidableEq Client]

/-- A client's section of `start_session_or_conflict` for the key returns a session. -/
def Succeeds (s : SessionSystem Client) (c : Client) (key : String) (v : Nat) : Prop :=
  s.clients c = .calling (.startSessionOrConflict key) ∧
    (startSection s.now key s.registry).result = .done (some v) false

/-- A client's section detaches the session that is live under the key, and that
session is completed or stale. -/
def DetachesSession (s : SessionSystem Client) (c : Client) (key : String) (v : Nat) : Prop :=
  ∃ call e, s.clients c = .calling call ∧ s.registry.sessions.find key = some e ∧
    e.service = v ∧ CompletedOrStale e ∧
    key ∈ (call.locked s.now s.registry).pending.map PendingArchive.key

/-- The limit stays as it is. -/
def FixedLimit (max : Nat) (_ : SessionSystem Client) : SessionLabel Client → Prop
  | .configure maxLiveSessions _ => maxLiveSessions = max
  | _ => True

omit [DecidableEq Client] in
/-- What a section detaches is completed or stale. -/
theorem locked_detaches (s : SessionSystem Client) (call : SessionCall) {key : String}
    (detached : key ∈ (call.locked s.now s.registry).pending.map PendingArchive.key) :
    ∃ e, s.registry.sessions.find key = some e ∧ CompletedOrStale e := by
  obtain ⟨middle, detaches, -⟩ := locked_outcome call s.now s.registry
  obtain ⟨p, member, rfl⟩ := List.mem_map.mp detached
  obtain ⟨e, present, replaceable⟩ := detaches.replaceable p member
  exact ⟨e, SessionMap.find_eq_some_iff.mpr present, shouldReplace_iff.mp replaceable⟩

/-- The session that was started under the key is live and claimed. -/
def Held (key : String) (v : Nat) (s : SessionSystem Client) : Prop := Stays key v s.registry

omit [DecidableEq Client] in
/-- A held session is left by what a section detaches, or is detached by it. -/
theorem Held.detaches {s : SessionSystem Client} {key : String} {v : Nat} (held : Held key v s)
    {pending : List PendingArchive} {middle : MetricsSessionRegistry}
    (detaches : Detaches s.registry pending middle) :
    Stays key v middle ∨ key ∈ pending.map PendingArchive.key := by
  obtain ⟨e, member, kept⟩ := held
  by_cases listed : key ∈ pending.map PendingArchive.key
  · exact .inr listed
  · refine .inl ⟨e, ?_, kept⟩
    rw [detaches.entries]
    exact List.mem_filter.mpr ⟨member, decide_eq_true listed⟩

theorem SessionStep.entered {s s' : SessionSystem Client} {c : Client}
    (taken : SessionStep s (.enter c) s') : ∃ call, s.clients c = .calling call ∧ s' = s.enter c call := by
  rw [SessionStep, SessionSystem.next] at taken
  split at taken
  · rename_i call calling
    split at taken
    · cases taken
    · exact ⟨call, calling, (Option.some.inj taken).symm⟩
  · cases taken

omit [DecidableEq Client] in
theorem Held.detachesSession {s : SessionSystem Client} {key : String} {v : Nat}
    (held : Held key v s) {c : Client} {call : SessionCall} (calling : s.clients c = .calling call)
    (listed : key ∈ (call.locked s.now s.registry).pending.map PendingArchive.key) :
    DetachesSession s c key v := by
  obtain ⟨e, found, replaceable⟩ := locked_detaches s call listed
  obtain ⟨e', member, service, -⟩ := held
  obtain rfl := Option.some.inj (found.symm.trans (SessionMap.find_eq_some_iff.mpr member))
  exact ⟨call, e, calling, found, service, replaceable, listed⟩

/-- A section leaves a held session, or detaches it. -/
theorem Held.enter {s s' : SessionSystem Client} {key : String} {v : Nat} (held : Held key v s)
    {c : Client} (taken : SessionStep s (.enter c) s') : Held key v s' ∨ DetachesSession s c key v := by
  obtain ⟨call, calling, rfl⟩ := taken.entered
  obtain ⟨middle, detaches, outcome⟩ := locked_outcome call s.now s.registry
  rcases held.detaches detaches with stays | listed
  · exact .inl (stays.outcome outcome)
  · exact .inr (held.detachesSession calling listed)

/-- Any other step leaves a held session. -/
theorem Held.other {s s' : SessionSystem Client} {key : String} {v : Nat} (held : Held key v s)
    {label : SessionLabel Client} (taken : SessionStep s label s') (other : ∀ c, label ≠ .enter c) :
    Held key v s' := by
  rw [SessionStep, SessionSystem.next.eq_def] at taken
  cases label with
  | call c call =>
      dsimp only at taken
      split at taken
      · obtain rfl := Option.some.inj taken
        exact held
      · cases taken
  | enter c => exact (other c rfl).elim
  | archived c =>
      dsimp only at taken
      split at taken
      · obtain rfl := Option.some.inj taken
        exact held
      · cases taken
  | report key' snapshot =>
      obtain rfl := Option.some.inj taken
      obtain ⟨e, member, kept⟩ := held
      refine ⟨_, mem_modify_entries member, ?_⟩
      split <;> exact kept
  | clock nanoseconds =>
      obtain rfl := Option.some.inj taken
      exact held
  | rehash entries =>
      dsimp only at taken
      split at taken
      · rename_i same
        obtain rfl := Option.some.inj taken
        obtain ⟨e, member, kept⟩ := held
        exact ⟨e, same.mem_iff.mpr member, kept⟩
      · cases taken
  | configure maxLiveSessions completedTtlSeconds =>
      obtain rfl := Option.some.inj taken
      exact held

/-- **Run.** A held session stays held, or some section of the run detaches it. -/
theorem Held.run {s s' : SessionSystem Client} {key : String} {v : Nat}
    {labels : List (SessionLabel Client)} (held : Held key v s)
    (run : Run SessionStep s labels s') :
    Held key v s' ∨ ∃ front c back middle, labels = front ++ .enter c :: back ∧
      Run SessionStep s front middle ∧ DetachesSession middle c key v := by
  induction run with
  | refl => exact .inl held
  | @cons first middle last label labels taken rest ih =>
      have here : Held key v middle ∨ ∃ c, label = .enter c ∧ DetachesSession first c key v := by
        by_cases entered : ∃ c, label = .enter c
        · obtain ⟨c, rfl⟩ := entered
          exact (held.enter taken).imp_right fun detached => ⟨c, rfl, detached⟩
        · exact .inl (held.other taken fun c same => entered ⟨c, same⟩)
      rcases here with kept | ⟨c, rfl, detached⟩
      · refine (ih kept).imp_right ?_
        rintro ⟨front, c, back, between, rfl, run, detached⟩
        exact ⟨label :: front, c, back, between, rfl, .cons taken run, detached⟩
      · exact .inr ⟨[], c, labels, first, rfl, .refl first, detached⟩

/-- A successful start leaves its session held. -/
theorem Succeeds.held {s s' : SessionSystem Client} {c : Client} {key : String} {v : Nat}
    (succeeds : Succeeds s c key v) (taken : SessionStep s (.enter c) s') : Held key v s' := by
  obtain ⟨calling, result⟩ := succeeds
  obtain ⟨call, calling', rfl⟩ := taken.entered
  obtain rfl : call = .startSessionOrConflict key := by
    rw [calling] at calling'
    cases calling'
    rfl
  obtain ⟨middle, -, ⟨-, fails⟩ | ⟨e, found, -, returned, same⟩ | ⟨absent, -, returned, same⟩⟩ :=
    startSection_cases s.now key s.registry
  · exact (fails v result).elim
  · cases result.symm.trans returned
    have member := @mem_modify_entries _ key key e (fun e => { e with claimed := true })
      (SessionMap.find_eq_some_iff.mp found)
    rw [if_pos rfl] at member
    refine ⟨{ e with claimed := true }, ?_, rfl, rfl⟩
    change _ ∈ (startSection s.now key s.registry).registry.sessions.entries
    rw [same]
    exact member
  · cases result.symm.trans returned
    have created : (key, { service := middle.nextService, createdAt := s.now }) ∈
        (createLocked s.now middle key).2.sessions.entries := by
      rw [createLocked, entries_emplace absent]
      exact List.mem_append_right _ (List.mem_singleton_self _)
    have member := @mem_modify_entries _ key key _ (fun e => { e with claimed := true }) created
    rw [if_pos rfl] at member
    refine ⟨{ service := middle.nextService, createdAt := s.now, claimed := true }, ?_, rfl, rfl⟩
    change _ ∈ (startSection s.now key s.registry).registry.sessions.entries
    rw [same]
    exact member

omit [DecidableEq Client] in
/-- No start of a held session's key succeeds, unless its section detaches the session. -/
theorem Succeeds.detaches {s : SessionSystem Client} {c : Client} {key : String} {v w : Nat}
    (succeeds : Succeeds s c key w) (held : Held key v s) : DetachesSession s c key v := by
  obtain ⟨calling, result⟩ := succeeds
  obtain ⟨middle, detaches, ended⟩ := startSection_cases s.now key s.registry
  rcases held.detaches detaches with ⟨e, member, -, claimed⟩ | listed
  · have found := SessionMap.find_eq_some_iff.mpr member
    rcases ended with ⟨-, fails⟩ | ⟨e', found', free, -⟩ | ⟨absent, -⟩
    · exact (fails w result).elim
    · obtain rfl := Option.some.inj (found.symm.trans found')
      cases claimed.symm.trans free
    · exact (absent (SessionMap.mem_iff.mpr ⟨e, member⟩)).elim
  · exact held.detachesSession calling listed

/-- The counted sessions are within the limit. -/
def WithinLimit (max : Nat) (s : SessionSystem Client) : Prop :=
  s.registry.maxLiveSessions = max ∧ countedSessionsLocked s.registry ≤ max

theorem WithinLimit.step {max : Nat} {s s' : SessionSystem Client} {label : SessionLabel Client}
    (within : WithinLimit max s) (taken : Restrict SessionStep (FixedLimit max) s label s') :
    WithinLimit max s' := by
  obtain ⟨taken, fixed⟩ := taken
  obtain ⟨limit, counted⟩ := within
  cases label with
  | enter c =>
      obtain ⟨call, -, rfl⟩ := taken.entered
      obtain ⟨middle, detaches, outcome⟩ := locked_outcome call s.now s.registry
      have same := outcome.maxLiveSessions.trans (detaches.maxLiveSessions.trans limit)
      refine ⟨same, ?_⟩
      rw [← same]
      refine outcome.counted_le ?_
      rw [detaches.maxLiveSessions, limit]
      exact detaches.counted_le.trans counted
  | call c call =>
      rw [SessionStep, SessionSystem.next] at taken
      split at taken
      · obtain rfl := Option.some.inj taken
        exact ⟨limit, counted⟩
      · cases taken
  | archived c =>
      rw [SessionStep, SessionSystem.next] at taken
      split at taken
      · obtain rfl := Option.some.inj taken
        exact ⟨limit, counted⟩
      · cases taken
  | report key snapshot =>
      obtain rfl := Option.some.inj taken
      refine ⟨limit, ?_⟩
      rw [countedSessionsLocked_eq_keys, SessionMap.keys_modify, ← countedSessionsLocked_eq_keys]
      exact counted
  | clock nanoseconds =>
      obtain rfl := Option.some.inj taken
      exact ⟨limit, counted⟩
  | rehash entries =>
      rw [SessionStep, SessionSystem.next] at taken
      split at taken
      · rename_i same
        obtain rfl := Option.some.inj taken
        refine ⟨limit, ?_⟩
        rw [countedSessionsLocked_eq]
        refine ((same.filter _).length_eq.le).trans ?_
        rw [← countedSessionsLocked_eq]
        exact counted
      · cases taken
  | configure maxLiveSessions completedTtlSeconds =>
      obtain rfl := Option.some.inj taken
      exact ⟨fixed, counted⟩

/-- **Exclusive session start.** In every run from an empty registry with a fixed
limit: the counted sessions are within the limit; what any section detaches is
completed or stale; and where two starts of a key succeed, some section after the
first one, up to the second one's own, has detached the first one's session. -/
theorem exclusive_session_start {max : Nat} {first : SessionSystem Client} (fresh : first.Fresh)
    (limit : first.registry.maxLiveSessions = max) :
    (∀ labels s, Run (Restrict SessionStep (FixedLimit max)) first labels s →
      countedSessionsLocked s.registry ≤ max) ∧
    (∀ labels s, Run (Restrict SessionStep (FixedLimit max)) first labels s →
      ∀ c call key, s.clients c = .calling call →
        key ∈ (call.locked s.now s.registry).pending.map PendingArchive.key →
        ∃ e, s.registry.sessions.find key = some e ∧ CompletedOrStale e) ∧
    ∀ labels s₁ s₁' s₂ s₂' c₁ c₂ key v₁ v₂ between,
      Run (Restrict SessionStep (FixedLimit max)) first labels s₁ →
      Succeeds s₁ c₁ key v₁ → SessionStep s₁ (.enter c₁) s₁' →
      Run (Restrict SessionStep (FixedLimit max)) s₁' between s₂ →
      Succeeds s₂ c₂ key v₂ → SessionStep s₂ (.enter c₂) s₂' →
      ∃ front c back s, between ++ [.enter c₂] = front ++ .enter c :: back ∧
        Run SessionStep s₁' front s ∧ DetachesSession s c key v₁ := by
  refine ⟨fun labels s run => ?_, fun labels s run c call key calling => locked_detaches s call,
    fun labels s₁ s₁' s₂ s₂' c₁ c₂ key v₁ v₂ between _ started entered run restarted _ => ?_⟩
  · have empty : WithinLimit max first := by
      refine ⟨limit, ?_⟩
      rw [countedSessionsLocked, fresh.sessions, List.length_nil, Nat.zero_sub]
      exact Nat.zero_le max
    exact (run.invariant (WithinLimit max) (fun _ _ _ within taken => within.step taken) empty).2
  · rcases (started.held entered).run run.of_restrict with held | ⟨front, c, back, s, rfl, run', detached⟩
    · exact ⟨between, c₂, [], s₂, rfl, run.of_restrict, restarted.detaches held⟩
    · exact ⟨front, c, back ++ [.enter c₂], s, by simp, run', detached⟩

end Runs

/-- A session that finished an hour ago is detached by the next start of its key. -/
theorem exclusive_session_start_restart :
    let start : SessionCall := .startSessionOrConflict "k"
    let created : SessionSystem Unit :=
      SessionSystem.enter ⟨{ maxLiveSessions := 1 }, 1, fun _ => .calling start⟩ () start
    countedSessionsLocked created.registry ≤ 1 ∧
      ∃ front c back s, [.report "k" { sessionId := 1, lastUpdateTime := 1 },
          .clock 3600000000000, .call () start, .enter ()] = front ++ .enter c :: back ∧
        Run SessionStep created front s ∧ DetachesSession s c "k" 0 := by
  intro start created
  obtain ⟨within, -, restarts⟩ := @exclusive_session_start Unit _ 1
    ⟨{ maxLiveSessions := 1 }, 1, fun _ => .idle⟩ ⟨rfl, rfl, fun _ => rfl⟩ rfl
  have called : Run (Restrict SessionStep (FixedLimit 1))
      (⟨{ maxLiveSessions := 1 }, 1, fun _ => .idle⟩ : SessionSystem Unit) [.call () start]
      ⟨{ maxLiveSessions := 1 }, 1, fun _ => .calling start⟩ := by
    refine .cons ⟨?_, trivial⟩ (.refl _)
    rw [SessionStep, SessionSystem.next]
    simp only [Option.some.injEq, SessionSystem.mk.injEq, true_and]
    funext c
    rfl
  have entered : SessionStep (⟨{ maxLiveSessions := 1 }, 1, fun _ => .calling start⟩ :
      SessionSystem Unit) (.enter ()) created := rfl
  have later : Run (Restrict SessionStep (FixedLimit 1)) created
      [.report "k" { sessionId := 1, lastUpdateTime := 1 }, .clock 3600000000000, .call () start] _ :=
    .cons ⟨rfl, trivial⟩ (.cons ⟨rfl, trivial⟩ (.cons ⟨rfl, trivial⟩ (.refl _)))
  exact ⟨within _ _ (called.snoc ⟨entered, trivial⟩),
    restarts _ _ _ _ _ () () "k" 0 1 _ called ⟨rfl, rfl⟩ entered later ⟨rfl, rfl⟩ rfl⟩

end Adai.Metrics
