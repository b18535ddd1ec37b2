import Adai.Math.TransitionSystem
import Adai.Metrics.SessionRegistry

/-! # Whether a key is live while its previous session is archived

A section detaches sessions, marks their keys as being archived, and may create a
session for its own key. It waits first until that key is not being archived, but
its eviction pass can mark the key again before it creates the session
(`Adai.Metrics.archive_order_fails`). Along every run whose sections do not do
that, no key is live while it is being archived, and no session exists for a key
whose archive a client has not finished (`Adai.Metrics.archive_order`).
-/

open TransitionSystem

namespace Adai.Metrics

namespace SessionMap

variable {m : SessionMap} {key : String} {e : SessionEntry}

theorem find_eq_some_iff : m.find key = some e ↔ (key, e) ∈ m.entries := by
  unfold find
  obtain ⟨entries, distinct⟩ := m
  induction entries with
  | nil => simp
  | cons x rest ih =>
      obtain ⟨k, e'⟩ := x
      rw [List.map_cons, List.nodup_cons] at distinct
      by_cases same : key = k
      · subst same
        have absent : (key, e) ∉ rest := fun member => distinct.1 (List.mem_map.mpr ⟨_, member, rfl⟩)
        simp [absent, eq_comm]
      · have differs : (key == k) = false := by simpa using same
        simp only [List.lookup_cons, differs, List.mem_cons, Prod.mk.injEq, same, false_and,
          false_or]
        exact ih distinct.2

theorem find_eq_none_iff : m.find key = none ↔ key ∉ m := by
  rw [mem_iff, not_exists]
  constructor
  · intro none e member
    rw [find_eq_some_iff.mpr member] at none
    cases none
  · intro absent
    cases found : m.find key with
    | none => rfl
    | some e => exact (absent e (find_eq_some_iff.mp found)).elim

theorem mem_emplace {k : String} : k ∈ m.emplace key e ↔ k ∈ m ∨ k = key := by
  unfold emplace
  split
  · rename_i present
    refine ⟨.inl, fun found => ?_⟩
    rcases found with found | rfl
    · exact found
    · exact present
  · rw [← mem_keys, ← mem_keys]
    simp [keys]

theorem keys_modify (f : SessionEntry → SessionEntry) : (m.modify key f).keys = m.keys := by
  unfold keys modify
  rw [List.map_map]
  refine List.map_congr_left fun x _ => ?_
  simp only [Function.comp_apply]
  split <;> rfl

theorem mem_modify {k : String} {f : SessionEntry → SessionEntry} :
    k ∈ m.modify key f ↔ k ∈ m := by
  rw [← mem_keys, keys_modify, mem_keys]

end SessionMap

/-! ## Detaching -/

/-- What detaching some sessions does to the registry: they were replaceable, and
their keys move from the live map to the keys being archived. -/
structure Detaches (before : MetricsSessionRegistry) (detached : List PendingArchive)
    (after : MetricsSessionRegistry) : Prop where
  replaceable : ∀ p ∈ detached, ∃ e, (p.key, e) ∈ before.sessions.entries ∧
    shouldReplaceCompletedSession e = true
  entries : after.sessions.entries =
    before.sessions.entries.filter fun x => x.1 ∉ detached.map PendingArchive.key
  archiving : ∀ k, k ∈ after.archivingKeys ↔
    k ∈ before.archivingKeys ∨ k ∈ detached.map PendingArchive.key
  maxLiveSessions : after.maxLiveSessions = before.maxLiveSessions

namespace Detaches

variable {r r' r'' : MetricsSessionRegistry} {detached detached' : List PendingArchive}

theorem refl (r : MetricsSessionRegistry) : Detaches r [] r where
  replaceable := by simp
  entries := by simp
  archiving := by simp
  maxLiveSessions := rfl

theorem trans (first : Detaches r detached r') (second : Detaches r' detached' r'') :
    Detaches r (detached ++ detached') r'' where
  replaceable p member := by
    rcases List.mem_append.mp member with earlier | later
    · exact first.replaceable p earlier
    · obtain ⟨e, present, replaced⟩ := second.replaceable p later
      rw [first.entries] at present
      exact ⟨e, (List.mem_filter.mp present).1, replaced⟩
  entries := by
    rw [second.entries, first.entries, List.filter_filter]
    refine List.filter_congr fun x _ => ?_
    rw [List.map_append, Bool.eq_iff_iff]
    simp only [Bool.and_eq_true, decide_eq_true_eq, List.mem_append, not_or, and_comm]
  archiving k := by
    rw [second.archiving, first.archiving, List.map_append, List.mem_append, or_assoc]
  maxLiveSessions := second.maxLiveSessions.trans first.maxLiveSessions

theorem single (now : Int) {key : String} {e : SessionEntry}
    (present : (key, e) ∈ r.sessions.entries) (replaced : shouldReplaceCompletedSession e = true) :
    Detaches r [(detachLocked now r key e).1] (detachLocked now r key e).2 where
  replaceable p member := by
    obtain rfl := List.mem_singleton.mp member
    exact ⟨e, present, replaced⟩
  entries := by simp [detachLocked, SessionMap.erase]
  archiving k := by simp [detachLocked, or_comm]
  maxLiveSessions := rfl

theorem mem_iff (detaches : Detaches r detached r') {k : String} :
    k ∈ r'.sessions ↔ k ∈ r.sessions ∧ k ∉ detached.map PendingArchive.key := by
  rw [SessionMap.mem_iff, SessionMap.mem_iff, detaches.entries]
  simp only [List.mem_filter, decide_eq_true_eq, exists_and_right]

theorem live (detaches : Detaches r detached r') {p : PendingArchive} (member : p ∈ detached) :
    p.key ∈ r.sessions := by
  obtain ⟨e, present, _⟩ := detaches.replaceable p member
  exact SessionMap.mem_iff.mpr ⟨e, present⟩

end Detaches

theorem detachKeys_detaches (now : Int) (keys : List String) (r : MetricsSessionRegistry)
    (pending : List PendingArchive)
    (replaceable : ∀ k ∈ keys, ∀ e, (k, e) ∈ r.sessions.entries →
      shouldReplaceCompletedSession e = true) :
    ∃ detached, (detachKeys now keys r pending).2 = pending ++ detached ∧
      Detaches r detached (detachKeys now keys r pending).1 ∧ ∀ p ∈ detached, p.key ∈ keys := by
  induction keys generalizing r pending with
  | nil => exact ⟨[], (List.append_nil _).symm, .refl r, by simp⟩
  | cons key keys ih =>
      unfold detachKeys
      cases found : r.sessions.find key with
      | none =>
          obtain ⟨detached, appended, detaches, listed⟩ :=
            ih r pending fun k member => replaceable k (List.mem_cons_of_mem _ member)
          exact ⟨detached, appended, detaches, fun p member =>
            List.mem_cons_of_mem _ (listed p member)⟩
      | some e =>
          have present := SessionMap.find_eq_some_iff.mp found
          have single := Detaches.single now present
            (replaceable key List.mem_cons_self e present)
          obtain ⟨detached, appended, detaches, listed⟩ :=
            ih (detachLocked now r key e).2 (pending ++ [(detachLocked now r key e).1])
              fun k member e' place => by
                rw [single.entries] at place
                exact replaceable k (List.mem_cons_of_mem _ member) e' (List.mem_filter.mp place).1
          refine ⟨(detachLocked now r key e).1 :: detached, ?_, single.trans detaches,
            fun p member => ?_⟩
          · rw [← List.singleton_append, ← List.append_assoc]
            exact appended
          · rcases List.mem_cons.mp member with rfl | later
            · exact List.mem_cons_self
            · exact List.mem_cons_of_mem _ (listed p later)

/-- The eviction pass detaches only sessions that are completed or stale. -/
theorem evict_detaches (now maxAgeSeconds : Int) (r : MetricsSessionRegistry) :
    Detaches r (evictCompletedSessionsLocked now maxAgeSeconds r []).2
        (evictCompletedSessionsLocked now maxAgeSeconds r []).1 ∧
      ∀ p ∈ (evictCompletedSessionsLocked now maxAgeSeconds r []).2, ∃ e,
        (p.key, e) ∈ r.sessions.entries ∧ isCompletedAndStale now e maxAgeSeconds = true := by
  obtain ⟨detached, appended, detaches, listed⟩ := detachKeys_detaches now
    ((r.sessions.entries.filter fun x => isCompletedAndStale now x.2 maxAgeSeconds).map Prod.fst)
    r [] (by
      intro k listed e present
      obtain ⟨⟨k', e'⟩, due, rfl⟩ := List.mem_map.mp listed
      obtain ⟨place, stale⟩ := List.mem_filter.mp due
      have same := (SessionMap.find_eq_some_iff.mpr present).symm.trans
        (SessionMap.find_eq_some_iff.mpr place)
      rw [Option.some.inj same]
      exact shouldReplace_of_completedAndStale stale)
  rw [List.nil_append] at appended
  unfold evictCompletedSessionsLocked
  rw [appended]
  refine ⟨detaches, fun p member => ?_⟩
  obtain ⟨⟨k, e⟩, due, same⟩ := List.mem_map.mp (listed p member)
  obtain ⟨place, stale⟩ := List.mem_filter.mp due
  exact ⟨e, same ▸ place, stale⟩

/-! ## Making room -/

/-- A counted session that no one may evict. -/
def blocked (x : String × SessionEntry) : Bool :=
  x.1 ≠ defaultSessionKey && !shouldReplaceCompletedSession x.2

/-- Every slot is held by a session that is live or was never started. -/
def Full (r : MetricsSessionRegistry) : Prop :=
  r.maxLiveSessions ≤ (r.sessions.entries.filter blocked).length

instance (r : MetricsSessionRegistry) : Decidable (Full r) := inferInstanceAs (Decidable (_ ≤ _))

theorem Full.detaches {r r' : MetricsSessionRegistry} {detached : List PendingArchive}
    (full : Full r) (detaches : Detaches r detached r') : Full r' := by
  unfold Full
  rw [detaches.maxLiveSessions, detaches.entries, List.filter_filter]
  refine Nat.le_trans full (Nat.le_of_eq (congrArg List.length
    (List.filter_congr fun x present => ?_)))
  by_cases kept : blocked x = true
  · have stays : x.1 ∉ detached.map PendingArchive.key := by
      intro gone
      obtain ⟨p, member, same⟩ := List.mem_map.mp gone
      obtain ⟨e, place, replaced⟩ := detaches.replaceable p member
      have equal : e = x.2 := Option.some.inj
        ((SessionMap.find_eq_some_iff.mpr (same ▸ place)).symm.trans
          (SessionMap.find_eq_some_iff.mpr present))
      simp [blocked, ← equal, replaced] at kept
    simp [kept, stays]
  · simp [kept]

theorem countedSessionsLocked_eq (r : MetricsSessionRegistry) :
    countedSessionsLocked r =
      (r.sessions.entries.filter fun x => x.1 ≠ defaultSessionKey).length := by
  have total := List.length_eq_length_filter_add (l := r.sessions.entries)
    fun x => x.1 ≠ defaultSessionKey
  have default : (r.sessions.entries.filter fun x => !decide (x.1 ≠ defaultSessionKey)).length =
      r.sessions.keys.count defaultSessionKey := by
    unfold SessionMap.keys List.count
    rw [List.countP_map, List.countP_eq_length_filter]
    refine congrArg List.length (List.filter_congr fun x _ => ?_)
    rw [Bool.eq_iff_iff]
    simp
  have once : r.sessions.keys.count defaultSessionKey =
      if defaultSessionKey ∈ r.sessions then 1 else 0 := by
    split
    · rename_i present
      exact List.count_eq_one_of_mem r.sessions.distinct present
    · rename_i absent
      exact List.count_eq_zero.mpr absent
  unfold countedSessionsLocked
  omega

theorem Full.counted {r : MetricsSessionRegistry} (full : Full r) :
    ¬ countedSessionsLocked r < r.maxLiveSessions := by
  rw [countedSessionsLocked_eq, Nat.not_lt]
  refine Nat.le_trans full (List.Sublist.length_le ?_)
  apply List.monotone_filter_right
  intro x kept
  simp only [blocked, Bool.and_eq_true] at kept
  exact kept.1

theorem victim_mem {r : MetricsSessionRegistry} {x : String × SessionEntry}
    (chosen : victim r = some x) :
    x ∈ r.sessions.entries.filter fun x =>
      x.1 ≠ defaultSessionKey && shouldReplaceCompletedSession x.2 := by
  have each : ∀ y, victim r = some y → y ∈ r.sessions.entries.filter fun x =>
      x.1 ≠ defaultSessionKey && shouldReplaceCompletedSession x.2 := by
    refine List.foldlRecOn (motive := fun best => ∀ y, best = some y → y ∈ _) _ _ ?_ ?_
    · intro y none
      cases none
    · intro best listed y member x found
      cases best with
      | none =>
          obtain rfl := Option.some.inj found
          exact member
      | some b =>
          by_cases earlier : lastActivity y.2 < lastActivity b.2
          · obtain rfl := Option.some.inj ((if_pos earlier).symm.trans found)
            exact member
          · exact listed x ((if_neg earlier).symm.trans found)
  exact each x chosen

theorem victim_replaceable {r : MetricsSessionRegistry} {x : String × SessionEntry}
    (chosen : victim r = some x) :
    x ∈ r.sessions.entries ∧ x.1 ≠ defaultSessionKey ∧
      shouldReplaceCompletedSession x.2 = true := by
  obtain ⟨present, replaceable⟩ := List.mem_filter.mp (victim_mem chosen)
  simp only [Bool.and_eq_true, decide_eq_true_eq] at replaceable
  exact ⟨present, replaceable.1, replaceable.2⟩

theorem makeRoomLoop_detaches (now : Int) (fuel : Nat) (r : MetricsSessionRegistry)
    (pending : List PendingArchive) :
    ∃ detached, (makeRoomLoop now fuel r pending).2.2 = pending ++ detached ∧
      Detaches r detached (makeRoomLoop now fuel r pending).2.1 := by
  induction fuel generalizing r pending with
  | zero => exact ⟨[], (List.append_nil _).symm, .refl r⟩
  | succ fuel ih =>
      unfold makeRoomLoop
      split
      · exact ⟨[], (List.append_nil _).symm, .refl r⟩
      · cases chosen : victim r with
        | none => exact ⟨[], (List.append_nil _).symm, .refl r⟩
        | some x =>
            obtain ⟨key, e⟩ := x
            obtain ⟨present, _, replaced⟩ := victim_replaceable chosen
            obtain ⟨detached, appended, detaches⟩ :=
              ih (detachLocked now r key e).2 (pending ++ [(detachLocked now r key e).1])
            refine ⟨(detachLocked now r key e).1 :: detached, ?_,
              (Detaches.single now present replaced).trans detaches⟩
            rw [← List.singleton_append, ← List.append_assoc]
            exact appended

/-- A full registry stays full, so no room is made. -/
theorem makeRoomLoop_of_full (now : Int) (fuel : Nat) (r : MetricsSessionRegistry)
    (pending : List PendingArchive) (full : Full r) :
    (makeRoomLoop now fuel r pending).1 = false := by
  induction fuel generalizing r pending with
  | zero => rfl
  | succ fuel ih =>
      unfold makeRoomLoop
      rw [if_neg full.counted]
      cases chosen : victim r with
      | none => rfl
      | some x =>
          obtain ⟨key, e⟩ := x
          obtain ⟨present, _, replaced⟩ := victim_replaceable chosen
          exact ih _ _ (full.detaches (Detaches.single now present replaced))

/-! ## Sections -/

/-- The eviction pass of a section would detach the session under this key. -/
def DueForEviction (now : Int) (r : MetricsSessionRegistry) (key : String) : Prop :=
  ∃ e, r.sessions.find key = some e ∧ isCompletedAndStale now e r.completedTtlSeconds = true

/-- What a section does to the keys: it marks the keys it detaches, and a key
live afterwards was live before or is the section's own, and is not detached. -/
structure SectionEffect (before : MetricsSessionRegistry) (own : Option String) (sec : Section) :
    Prop where
  detached : ∀ p ∈ sec.pending, p.key ∈ before.sessions
  archiving : ∀ k, k ∈ sec.registry.archivingKeys ↔
    k ∈ before.archivingKeys ∨ k ∈ sec.pending.map PendingArchive.key
  live : ∀ k ∈ sec.registry.sessions,
    k ∉ sec.pending.map PendingArchive.key ∧ (k ∈ before.sessions ∨ own = some k)

section Effects

variable {now : Int} {before middle after : MetricsSessionRegistry}
  {pending : List PendingArchive} {own : Option String} {key : String}

theorem Detaches.effect (detaches : Detaches before pending middle)
    (archiving : after.archivingKeys = middle.archivingKeys)
    (live : ∀ k ∈ after.sessions, k ∈ middle.sessions ∨
      (own = some k ∧ k ∉ pending.map PendingArchive.key)) (result : SectionResult) :
    SectionEffect before own ⟨result, after, pending⟩ where
  detached _ member := detaches.live member
  archiving k := by rw [← detaches.archiving, archiving]
  live k present := by
    rcases live k present with kept | ⟨mine, unlisted⟩
    · exact ⟨(detaches.mem_iff.mp kept).2, .inl (detaches.mem_iff.mp kept).1⟩
    · exact ⟨unlisted, .inr mine⟩

/-- The eviction pass leaves a key that is not due; when it detaches a due one,
no room is made after it. -/
theorem own_key_unlisted (ordered : DueForEviction now before key → Full before)
    {detached : List PendingArchive}
    (absent : key ∉ (evictCompletedSessionsLocked now before.completedTtlSeconds before []).1.sessions)
    (room : (makeRoomLocked now
      (evictCompletedSessionsLocked now before.completedTtlSeconds before []).1
      (evictCompletedSessionsLocked now before.completedTtlSeconds before []).2).1 = true)
    (detaches : Detaches
      (evictCompletedSessionsLocked now before.completedTtlSeconds before []).1 detached middle) :
    key ∉ ((evictCompletedSessionsLocked now before.completedTtlSeconds before []).2 ++
      detached).map PendingArchive.key := by
  obtain ⟨evicts, due⟩ := evict_detaches now before.completedTtlSeconds before
  intro listed
  obtain ⟨p, member, rfl⟩ := List.mem_map.mp listed
  rcases List.mem_append.mp member with evicted | removed
  · obtain ⟨e, present, stale⟩ := due p evicted
    have full := (ordered ⟨e, SessionMap.find_eq_some_iff.mpr present, stale⟩).detaches evicts
    have none := makeRoomLoop_of_full now
      ((evictCompletedSessionsLocked now before.completedTtlSeconds before []).1.sessions.entries.length
        + 1) _ (evictCompletedSessionsLocked now before.completedTtlSeconds before []).2 full
    unfold makeRoomLocked at room
    rw [none] at room
    cases room
  · exact absent (detaches.live removed)

theorem createOrGetSection_effect (ordered : DueForEviction now before key → Full before) :
    SectionEffect before (some key) (createOrGetSection now key before) := by
  have evicts := (evict_detaches now before.completedTtlSeconds before).1
  have unlisted := @own_key_unlisted now before
  unfold createOrGetSection
  generalize evictCompletedSessionsLocked now before.completedTtlSeconds before [] = evicted at *
  obtain ⟨r, detached⟩ := evicted
  simp only at *
  cases found : r.sessions.find key with
  | some e =>
      simp only
      split
      · exact evicts.effect rfl (fun _ kept => .inl kept) _
      · rename_i replaced
        have single := Detaches.single now (SessionMap.find_eq_some_iff.mp found)
          (by simpa using replaced)
        exact (evicts.trans single).effect rfl (fun _ kept => .inl kept) _
  | none =>
      obtain ⟨removed, appended, makes⟩ :=
        makeRoomLoop_detaches now (r.sessions.entries.length + 1) r detached
      rw [← makeRoomLocked] at appended makes
      have mine := fun granted => unlisted ordered (SessionMap.find_eq_none_iff.mp found) granted makes
      generalize makeRoomLocked now r detached = made at *
      obtain ⟨room, r', pending⟩ := made
      simp only at *
      subst appended
      split
      · rename_i granted
        refine (evicts.trans makes).effect (by rfl) (fun k present => ?_) _
        rcases SessionMap.mem_emplace.mp present with kept | rfl
        · exact .inl kept
        · exact .inr ⟨rfl, mine granted⟩
      · exact (evicts.trans makes).effect rfl (fun _ kept => .inl kept) _

theorem startSection_effect (ordered : DueForEviction now before key → Full before) :
    SectionEffect before (some key) (startSection now key before) := by
  have evicts := (evict_detaches now before.completedTtlSeconds before).1
  have unlisted := @own_key_unlisted now before
  unfold startSection
  generalize evictCompletedSessionsLocked now before.completedTtlSeconds before [] = evicted at *
  obtain ⟨r, detached⟩ := evicted
  simp only at *
  cases found : r.sessions.find key with
  | some e =>
      simp only
      split
      · rename_i replaced
        have single := Detaches.single now (SessionMap.find_eq_some_iff.mp found) replaced
        exact (evicts.trans single).effect rfl (fun _ kept => .inl kept) _
      · split
        · exact evicts.effect rfl (fun _ kept => .inl kept) _
        · refine evicts.effect (by rfl) (fun k kept => ?_) _
          exact .inl (SessionMap.mem_modify.mp kept)
  | none =>
      obtain ⟨removed, appended, makes⟩ :=
        makeRoomLoop_detaches now (r.sessions.entries.length + 1) r detached
      rw [← makeRoomLocked] at appended makes
      have mine := fun granted => unlisted ordered (SessionMap.find_eq_none_iff.mp found) granted makes
      generalize makeRoomLocked now r detached = made at *
      obtain ⟨room, r', pending⟩ := made
      simp only at *
      subst appended
      split
      · rename_i granted
        refine (evicts.trans makes).effect (by rfl) (fun k present => ?_) _
        rcases SessionMap.mem_emplace.mp (SessionMap.mem_modify.mp present) with kept | rfl
        · exact .inl kept
        · exact .inr ⟨rfl, mine granted⟩
      · exact (evicts.trans makes).effect rfl (fun _ kept => .inl kept) _

theorem evictSection_effect (maxAgeSeconds : Int) :
    SectionEffect before none (evictSection now maxAgeSeconds before) := by
  have evicts := (evict_detaches now maxAgeSeconds before).1
  unfold evictSection
  generalize evictCompletedSessionsLocked now maxAgeSeconds before [] = evicted at *
  obtain ⟨r, detached⟩ := evicted
  exact evicts.effect rfl (fun _ kept => .inl kept) _

/-- Every section has the effect, if it does not evict its own key and then find
room for it. -/
theorem locked_effect (call : SessionCall)
    (ordered : ∀ key, call.key = some key → DueForEviction now before key → Full before) :
    SectionEffect before call.key (call.locked now before) := by
  cases call with
  | createOrGetSession key => exact createOrGetSection_effect (ordered key rfl)
  | startSessionOrConflict key => exact startSection_effect (ordered key rfl)
  | evictCompletedSessions maxAgeSeconds => exact evictSection_effect maxAgeSeconds

end Effects

/-! ## Runs -/

section Runs

variable {Client : Type*} [DecidableEq Client]

/-- No section of this step evicts the session of its own key and has room for a
new one. -/
def KeepsOrder (s : SessionSystem Client) (label : SessionLabel Client) : Prop :=
  ∀ c call key, label = .enter c → s.clients c = .calling call → call.key = some key →
    DueForEviction s.now s.registry key → Full s.registry

/-- Keys being archived are not live, every batch a client archives is marked,
and no key is in two batches. -/
structure Ordered (s : SessionSystem Client) : Prop where
  live : ∀ k ∈ s.registry.sessions, k ∉ s.registry.archivingKeys
  marked : ∀ c call pending result, s.clients c = .archiving call pending result →
    ∀ p ∈ pending, p.key ∈ s.registry.archivingKeys
  apart : ∀ c c' call call' pending pending' result result',
    s.clients c = .archiving call pending result →
    s.clients c' = .archiving call' pending' result' → c ≠ c' →
      ∀ p ∈ pending, ∀ p' ∈ pending', p.key ≠ p'.key

omit [DecidableEq Client] in
/-- A step that changes no batch and no key keeps the order. -/
theorem Ordered.of_same {s s' : SessionSystem Client} (ordered : Ordered s)
    (sessions : ∀ k, k ∈ s'.registry.sessions → k ∈ s.registry.sessions)
    (archiving : s'.registry.archivingKeys = s.registry.archivingKeys)
    (clients : ∀ c call pending result, s'.clients c = .archiving call pending result →
      s.clients c = .archiving call pending result) : Ordered s' where
  live k present := archiving ▸ ordered.live k (sessions k present)
  marked c call pending result archives p member :=
    archiving ▸ ordered.marked c call pending result (clients _ _ _ _ archives) p member
  apart c c' call call' pending pending' result result' first second :=
    ordered.apart c c' call call' pending pending' result result' (clients _ _ _ _ first)
      (clients _ _ _ _ second)

/-- The phase after a section: nothing to archive, or the batch it detached. -/
theorem phase_archiving {call call' : SessionCall} {sec : Section} {pending : List PendingArchive}
    {result : SectionResult}
    (phase : (if sec.pending.isEmpty then ClientPhase.next call sec.result
      else .archiving call sec.pending sec.result) = .archiving call' pending result) :
    pending = sec.pending := by
  split at phase
  · cases ended : sec.result <;> rw [ended] at phase <;> cases phase
  · cases phase
    rfl

/-- A section that is let in keeps the order: its key is not being archived, and
what it detaches was live, so it is in no other batch. -/
theorem Ordered.enter {s : SessionSystem Client} (ordered : Ordered s) (c : Client)
    {call : SessionCall} (free : ∀ key, call.key = some key → key ∉ s.registry.archivingKeys)
    (effect : SectionEffect s.registry call.key (call.locked s.now s.registry)) :
    Ordered (s.enter c call) := by
  unfold SessionSystem.enter
  generalize call.locked s.now s.registry = sec at effect
  have batch : ∀ c' call' pending result,
      Function.update s.clients c (if sec.pending.isEmpty then .next call sec.result
        else .archiving call sec.pending sec.result) c' = .archiving call' pending result →
      (c' = c ∧ pending = sec.pending) ∨
        (c' ≠ c ∧ s.clients c' = .archiving call' pending result) := by
    intro c' call' pending result phase
    by_cases same : c' = c
    · subst same
      rw [Function.update_self] at phase
      exact .inl ⟨rfl, phase_archiving phase⟩
    · rw [Function.update_of_ne same] at phase
      exact .inr ⟨same, phase⟩
  have fresh : ∀ p ∈ sec.pending, p.key ∉ s.registry.archivingKeys :=
    fun p member => ordered.live p.key (effect.detached p member)
  refine ⟨fun k present => ?_, fun c' call' pending result phase p member => ?_, ?_⟩
  · obtain ⟨unlisted, before⟩ := effect.live k present
    rw [effect.archiving, not_or]
    refine ⟨?_, unlisted⟩
    rcases before with kept | own
    · exact ordered.live k kept
    · exact free k own
  · rw [effect.archiving]
    rcases batch c' call' pending result phase with ⟨_, rfl⟩ | ⟨_, earlier⟩
    · exact .inr (List.mem_map_of_mem member)
    · exact .inl (ordered.marked c' call' pending result earlier p member)
  · intro c₁ c₂ call₁ call₂ pending₁ pending₂ result₁ result₂ first second different p member p'
      member' same
    rcases batch c₁ _ _ _ first with ⟨rfl, rfl⟩ | ⟨_, phase₁⟩
    · rcases batch c₂ _ _ _ second with ⟨rfl, _⟩ | ⟨_, phase₂⟩
      · exact different rfl
      · exact fresh p member (same ▸ ordered.marked _ _ _ _ phase₂ p' member')
    · rcases batch c₂ _ _ _ second with ⟨rfl, rfl⟩ | ⟨_, phase₂⟩
      · exact fresh p' member' (same ▸ ordered.marked _ _ _ _ phase₁ p member)
      · exact ordered.apart _ _ _ _ _ _ _ _ phase₁ phase₂ different p member p' member' same

/-- The end of a batch releases its keys and no other batch's. -/
theorem Ordered.archived {s : SessionSystem Client} (ordered : Ordered s) {c : Client}
    {call : SessionCall} {pending : List PendingArchive} {result : SectionResult}
    (archives : s.clients c = .archiving call pending result) :
    Ordered
      { s with
        registry := { s.registry with
          archivingKeys := s.registry.archivingKeys \ (pending.map PendingArchive.key).toFinset }
        clients := Function.update s.clients c (.next call result) } := by
  have earlier : ∀ c' call' pending' result',
      Function.update s.clients c (.next call result) c' = .archiving call' pending' result' →
      c' ≠ c ∧ s.clients c' = .archiving call' pending' result' := by
    intro c' call' pending' result' phase
    by_cases same : c' = c
    · subst same
      rw [Function.update_self] at phase
      cases result <;> cases phase
    · rw [Function.update_of_ne same] at phase
      exact ⟨same, phase⟩
  refine ⟨fun k present listed => ?_, fun c' call' pending' result' phase p member => ?_, ?_⟩
  · exact ordered.live k present (Finset.mem_sdiff.mp listed).1
  · obtain ⟨different, phase⟩ := earlier c' call' pending' result' phase
    rw [Finset.mem_sdiff, List.mem_toFinset]
    refine ⟨ordered.marked _ _ _ _ phase p member, fun listed => ?_⟩
    obtain ⟨p', member', same⟩ := List.mem_map.mp listed
    exact ordered.apart _ _ _ _ _ _ _ _ phase archives different p member p' member' same.symm
  · intro c₁ c₂ call₁ call₂ pending₁ pending₂ result₁ result₂ first second
    exact ordered.apart _ _ _ _ _ _ _ _ (earlier _ _ _ _ first).2 (earlier _ _ _ _ second).2

/-- **Step.** -/
theorem Ordered.step {s s' : SessionSystem Client} {label : SessionLabel Client}
    (ordered : Ordered s) (step : SessionStep s label s') (keeps : KeepsOrder s label) :
    Ordered s' := by
  unfold SessionStep SessionSystem.next at step
  cases label with
  | call c call =>
      simp only at step
      split at step
      · rename_i idle
        obtain rfl := Option.some.inj step
        refine ordered.of_same (fun _ present => present) rfl fun c' call' pending result phase => ?_
        by_cases same : c' = c
        · subst same
          simp at phase
        · simpa only [Function.update_of_ne same] using phase
      · cases step
  | enter c =>
      simp only at step
      split at step
      · rename_i call calling
        split at step
        · cases step
        · rename_i waits
          obtain rfl := Option.some.inj step
          refine ordered.enter c (fun key own archiving => waits ?_)
            (locked_effect call fun key own => keeps c call key rfl calling own)
          rw [own]
          simpa using archiving
      · cases step
  | archived c =>
      simp only at step
      split at step
      · rename_i call pending result archives
        obtain rfl := Option.some.inj step
        exact ordered.archived archives
      · cases step
  | report key snapshot =>
      obtain rfl := Option.some.inj step
      exact ordered.of_same (fun _ present => SessionMap.mem_modify.mp present) rfl
        fun _ _ _ _ phase => phase
  | clock nanoseconds =>
      obtain rfl := Option.some.inj step
      exact ordered.of_same (fun _ present => present) rfl fun _ _ _ _ phase => phase
  | rehash entries =>
      simp only at step
      split at step
      · rename_i same
        obtain rfl := Option.some.inj step
        refine ordered.of_same (fun k present => ?_) rfl fun _ _ _ _ phase => phase
        exact (same.map Prod.fst).mem_iff.mp present
      · cases step
  | configure maxLiveSessions completedTtlSeconds =>
      obtain rfl := Option.some.inj step
      exact ordered.of_same (fun _ present => present) rfl fun _ _ _ _ phase => phase

/-- The registry as it is constructed, and no client calls it yet. -/
structure SessionSystem.Fresh (s : SessionSystem Client) : Prop where
  sessions : s.registry.sessions.entries = []
  archiving : s.registry.archivingKeys = ∅
  clients : ∀ c, s.clients c = .idle

/-- **Archive order.** Along every run whose sections keep the order, no key is
at once live and being archived, and no session is live under a key whose
previous session some client has detached and not yet archived. -/
theorem archive_order {first last : SessionSystem Client} {labels : List (SessionLabel Client)}
    (fresh : first.Fresh) (run : Run (Restrict SessionStep KeepsOrder) first labels last) :
    (∀ key ∈ last.registry.sessions, key ∉ last.registry.archivingKeys) ∧
      ∀ c call pending result, last.clients c = .archiving call pending result →
        ∀ p ∈ pending, p.key ∉ last.registry.sessions := by
  have start : Ordered first := by
    refine ⟨fun k present => ?_, fun c call pending result phase => ?_,
      fun c c' call call' pending pending' result result' phase => ?_⟩
    · rw [← SessionMap.mem_keys, SessionMap.keys, fresh.sessions] at present
      cases present
    · rw [fresh.clients c] at phase
      cases phase
    · rw [fresh.clients c] at phase
      cases phase
  have ordered : Ordered last :=
    run.invariant Ordered (fun _ _ _ ordered step => ordered.step step.1 step.2) start
  exact ⟨ordered.live, fun c call pending result phase p member present =>
    ordered.live p.key present (ordered.marked c call pending result phase p member)⟩

end Runs

/-- A finished session is detached before its time to live has passed; its key is
not live while the client archives it. -/
theorem archive_order_detached :
    ∃ last : SessionSystem Unit,
      last.registry.archivingKeys = {"k"} ∧
        ∀ key ∈ last.registry.sessions, key ∉ last.registry.archivingKeys := by
  let first : SessionSystem Unit := ⟨{}, 1, fun _ => .idle⟩
  let start : SessionLabel Unit := .call () (.startSessionOrConflict "k")
  let labels : List (SessionLabel Unit) :=
    [start, .enter (), .report "k" { sessionId := 1, lastUpdateTime := 1 }, start, .enter ()]
  let next : SessionSystem Unit → SessionLabel Unit → Option (SessionSystem Unit) :=
    fun s label =>
      if s.registry.sessions.entries.all
          fun x => !isCompletedAndStale s.now x.2 s.registry.completedTtlSeconds then s.next label
      else none
  have steps : ∀ before label after, next before label = some after →
      Restrict SessionStep KeepsOrder before label after := by
    intro before label after taken
    obtain ⟨early, step⟩ := Option.ite_none_right_eq_some.mp taken
    refine ⟨step, ?_⟩
    rintro c call key _ calling own ⟨e, found, due⟩
    have kept := List.all_eq_true.mp early _ (SessionMap.find_eq_some_iff.mp found)
    simp [due] at kept
  exact ⟨_, rfl, (@archive_order Unit _ first _ labels ⟨rfl, rfl, fun _ => rfl⟩
    (Run.of_execute steps (by rfl))).1⟩

/-- The start of a session whose predecessor finished longer ago than its time to
live: the predecessor's archive is still to be made when the new one is created. -/
theorem archive_order_fails :
    let first : SessionSystem Unit := ⟨{}, 1, fun _ => .idle⟩
    let start : SessionLabel Unit := .call () (.startSessionOrConflict "k")
    let labels : List (SessionLabel Unit) :=
      [start, .enter (), .report "k" { sessionId := 1, lastUpdateTime := 1 },
        .clock 3600000000000, start, .enter ()]
    ∃ last, first.Fresh ∧ Run SessionStep first labels last ∧
      "k" ∈ last.registry.sessions ∧ "k" ∈ last.registry.archivingKeys := by
  intro first start labels
  refine ⟨_, ⟨rfl, rfl, fun _ => rfl⟩, Run.of_execute (fun _ _ _ taken => taken) (by rfl), ?_, ?_⟩
  · decide
  · decide

end Adai.Metrics
