import Mathlib.Data.Finset.Union
import Mathlib.Data.List.Nodup
import Mathlib.Data.List.Perm.Subperm

/-! # The registry of live metrics sessions

A session is live under a key until it is detached: its key is then marked as
being archived, the archiving I/O runs outside the registry mutex, and the key is
released when that is done. The functions here are the sections that run under
the mutex. Times are nanoseconds since the epoch, and a section reads the clock
and each session's snapshot once.
-/

namespace Adai.Metrics

/-- The fields of a session's snapshot that the registry looks at. -/
structure TrainingMetricsSnapshot where
  sessionId : Int := 0
  isTraining : Bool := false
  isStale : Bool := false
  lastUpdateTime : Int := 0
  totalEpochs : Int := 0
  totalSamples : Int := 0
  totalSamplesTrained : Int := 0
  deriving DecidableEq, Repr

/-- A live session: its service object, told apart by a serial number, and what
the service reports. -/
structure SessionEntry where
  service : Nat
  snapshot : TrainingMetricsSnapshot := {}
  createdAt : Int
  claimed : Bool := false
  deriving DecidableEq, Repr

/-- The live sessions in the iteration order of the hash map. -/
structure SessionMap where
  entries : List (String × SessionEntry) := []
  distinct : (entries.map Prod.fst).Nodup := by decide

namespace SessionMap

variable (m : SessionMap) (key : String)

def keys : List String := m.entries.map Prod.fst

instance : Membership String SessionMap where
  mem m key := key ∈ m.keys

instance : Decidable (key ∈ m) := inferInstanceAs (Decidable (key ∈ m.keys))

theorem mem_keys {m : SessionMap} {key : String} : key ∈ m.keys ↔ key ∈ m := Iff.rfl

theorem mem_iff {m : SessionMap} {key : String} : key ∈ m ↔ ∃ e, (key, e) ∈ m.entries := by
  refine List.mem_map.trans ⟨?_, ?_⟩
  · rintro ⟨⟨k, e⟩, member, rfl⟩
    exact ⟨e, member⟩
  · rintro ⟨e, member⟩
    exact ⟨(key, e), member, rfl⟩

/-- The session under a key. -/
def find : Option SessionEntry := m.entries.lookup key

def erase : SessionMap where
  entries := m.entries.filter fun x => x.1 ≠ key
  distinct := m.distinct.sublist (List.filter_sublist.map Prod.fst)

/-- A key that is present keeps its session. -/
def emplace (e : SessionEntry) : SessionMap :=
  if fresh : key ∈ m then m
  else
    { entries := m.entries ++ [(key, e)]
      distinct := by
        rw [List.map_append, List.nodup_append]
        refine ⟨m.distinct, List.nodup_singleton _, ?_⟩
        rintro k member k' single rfl
        obtain rfl : k = key := by simpa using single
        exact fresh member }

def modify (f : SessionEntry → SessionEntry) : SessionMap where
  entries := m.entries.map fun x => if x.1 = key then (x.1, f x.2) else x
  distinct := by
    have keys : (m.entries.map fun x => if x.1 = key then (x.1, f x.2) else x).map Prod.fst =
        m.entries.map Prod.fst := by
      rw [List.map_map]
      refine List.map_congr_left fun x _ => ?_
      simp only [Function.comp_apply]
      split <;> rfl
    rw [keys]
    exact m.distinct

/-- Another iteration order of the same sessions. -/
def rehash (entries : List (String × SessionEntry)) (same : entries.Perm m.entries) :
    SessionMap where
  entries := entries
  distinct := (same.map Prod.fst).nodup_iff.mpr m.distinct

end SessionMap

/-- A session that left the live map and waits for its archiving I/O. -/
structure PendingArchive where
  key : String
  archivedKey : String
  service : Nat
  deriving DecidableEq, Repr

structure MetricsSessionRegistry where
  sessions : SessionMap := {}
  archivingKeys : Finset String := ∅
  maxLiveSessions : Nat := 16
  completedTtlSeconds : Int := 3600
  archiveCounter : Nat := 0
  nextService : Nat := 0

/-! ## When a session may be replaced -/

def hasStarted (snapshot : TrainingMetricsSnapshot) : Bool :=
  snapshot.sessionId ≠ 0 || snapshot.totalEpochs ≠ 0 || snapshot.totalSamples ≠ 0 ||
    snapshot.totalSamplesTrained ≠ 0

/-- Completed normally, or its trainer died without ending it. -/
def shouldReplaceCompletedSession (e : SessionEntry) : Bool :=
  if !hasStarted e.snapshot then false
  else if !e.snapshot.isTraining then true
  else e.snapshot.isStale

def lastActivity (e : SessionEntry) : Int :=
  if 0 < e.snapshot.lastUpdateTime then e.snapshot.lastUpdateTime else e.createdAt

/-- Completed or stale for at least `maxAgeSeconds`. -/
def isCompletedAndStale (now : Int) (e : SessionEntry) (maxAgeSeconds : Int) : Bool :=
  if !hasStarted e.snapshot then false
  else if e.snapshot.isTraining && !e.snapshot.isStale then false
  else decide (1000000000 * max 0 maxAgeSeconds ≤ now - lastActivity e)

theorem shouldReplace_of_completedAndStale {now maxAgeSeconds : Int} {e : SessionEntry}
    (due : isCompletedAndStale now e maxAgeSeconds = true) :
    shouldReplaceCompletedSession e = true := by
  unfold isCompletedAndStale at due
  unfold shouldReplaceCompletedSession
  cases started : hasStarted e.snapshot <;> cases training : e.snapshot.isTraining <;>
    cases stale : e.snapshot.isStale <;> simp [started, training, stale] at due ⊢

def archivedKeyMarker : String := "_archived_"

/-- The session behind the legacy flat routes; it takes no slot. -/
def defaultSessionKey : String := "0-default"

def makeArchivedKey (now : Int) (r : MetricsSessionRegistry) (key : String) : String :=
  key ++ archivedKeyMarker ++ toString (now / 1000000) ++ "_" ++ toString r.archiveCounter

/-! ## Detaching and creating, under the mutex -/

def detachLocked (now : Int) (r : MetricsSessionRegistry) (key : String) (e : SessionEntry) :
    PendingArchive × MetricsSessionRegistry :=
  (⟨key, makeArchivedKey now r key, e.service⟩,
    { r with
      archivingKeys := insert key r.archivingKeys
      sessions := r.sessions.erase key
      archiveCounter := r.archiveCounter + 1 })

/-- Detach the sessions under the given keys, one after the other. -/
def detachKeys (now : Int) : List String → MetricsSessionRegistry → List PendingArchive →
    MetricsSessionRegistry × List PendingArchive
  | [], r, pending => (r, pending)
  | key :: keys, r, pending =>
      match r.sessions.find key with
      | none => detachKeys now keys r pending
      | some e =>
          let (p, r') := detachLocked now r key e
          detachKeys now keys r' (pending ++ [p])

def evictCompletedSessionsLocked (now : Int) (maxAgeSeconds : Int) (r : MetricsSessionRegistry)
    (pending : List PendingArchive) : MetricsSessionRegistry × List PendingArchive :=
  let expired := r.sessions.entries.filter fun x => isCompletedAndStale now x.2 maxAgeSeconds
  detachKeys now (expired.map Prod.fst) r pending

def createLocked (now : Int) (r : MetricsSessionRegistry) (key : String) :
    Nat × MetricsSessionRegistry :=
  (r.nextService,
    { r with
      sessions := r.sessions.emplace key { service := r.nextService, createdAt := now }
      nextService := r.nextService + 1 })

/-- The sessions that take a slot. -/
def countedSessionsLocked (r : MetricsSessionRegistry) : Nat :=
  r.sessions.entries.length - if defaultSessionKey ∈ r.sessions then 1 else 0

/-- The replaceable session, other than the default one, that was active longest
ago; among equals the first in iteration order. -/
def victim (r : MetricsSessionRegistry) : Option (String × SessionEntry) :=
  (r.sessions.entries.filter fun x =>
      x.1 ≠ defaultSessionKey && shouldReplaceCompletedSession x.2).foldl
    (fun best x =>
      match best with
      | none => some x
      | some b => if lastActivity x.2 < lastActivity b.2 then some x else best) none

/-- Every round archives one session, so as many rounds as there are sessions,
and one to see that the room is there, are enough. -/
def makeRoomLoop (now : Int) : Nat → MetricsSessionRegistry → List PendingArchive →
    Bool × MetricsSessionRegistry × List PendingArchive
  | 0, r, pending => (false, r, pending)
  | fuel + 1, r, pending =>
      if countedSessionsLocked r < r.maxLiveSessions then (true, r, pending)
      else
        match victim r with
        | none => (false, r, pending)
        | some (key, e) =>
            let (p, r') := detachLocked now r key e
            makeRoomLoop now fuel r' (pending ++ [p])

def makeRoomLocked (now : Int) (r : MetricsSessionRegistry) (pending : List PendingArchive) :
    Bool × MetricsSessionRegistry × List PendingArchive :=
  makeRoomLoop now (r.sessions.entries.length + 1) r pending

/-! ## The locked sections of the public calls -/

inductive SessionCall
  | createOrGetSession (key : String)
  | startSessionOrConflict (key : String)
  | evictCompletedSessions (maxAgeSeconds : Int)
  deriving DecidableEq, Repr

/-- How a section ends: the call goes round again, or returns a service (`none`
when there is no room) and whether it met a conflict. -/
inductive SectionResult
  | retry
  | done (service : Option Nat) (conflict : Bool)
  deriving DecidableEq, Repr

structure Section where
  result : SectionResult
  registry : MetricsSessionRegistry
  pending : List PendingArchive

def createOrGetSection (now : Int) (key : String) (r : MetricsSessionRegistry) : Section :=
  let (r, pending) := evictCompletedSessionsLocked now r.completedTtlSeconds r []
  match r.sessions.find key with
  | some e =>
      if !shouldReplaceCompletedSession e then ⟨.done (some e.service) false, r, pending⟩
      else
        let (p, r) := detachLocked now r key e
        ⟨.retry, r, pending ++ [p]⟩
  | none =>
      let (room, r, pending) := makeRoomLocked now r pending
      if room then
        let (service, r) := createLocked now r key
        ⟨.done (some service) false, r, pending⟩
      else ⟨.done none false, r, pending⟩

def claim (r : MetricsSessionRegistry) (key : String) : MetricsSessionRegistry :=
  { r with sessions := r.sessions.modify key fun e => { e with claimed := true } }

def startSection (now : Int) (key : String) (r : MetricsSessionRegistry) : Section :=
  let (r, pending) := evictCompletedSessionsLocked now r.completedTtlSeconds r []
  match r.sessions.find key with
  | some e =>
      if shouldReplaceCompletedSession e then
        let (p, r) := detachLocked now r key e
        ⟨.retry, r, pending ++ [p]⟩
      else if hasStarted e.snapshot || e.claimed then ⟨.done none true, r, pending⟩
      else ⟨.done (some e.service) false, claim r key, pending⟩
  | none =>
      let (room, r, pending) := makeRoomLocked now r pending
      if room then
        let (service, r) := createLocked now r key
        ⟨.done (some service) false, claim r key, pending⟩
      else ⟨.done none false, r, pending⟩

def evictSection (now maxAgeSeconds : Int) (r : MetricsSessionRegistry) : Section :=
  let (r, pending) := evictCompletedSessionsLocked now maxAgeSeconds r []
  ⟨.done none false, r, pending⟩

/-- The key whose archive a call waits for before its section. -/
def SessionCall.key : SessionCall → Option String
  | .createOrGetSession key => some key
  | .startSessionOrConflict key => some key
  | .evictCompletedSessions _ => none

def SessionCall.locked (now : Int) (call : SessionCall) (r : MetricsSessionRegistry) : Section :=
  match call with
  | .createOrGetSession key => createOrGetSection now key r
  | .startSessionOrConflict key => startSection now key r
  | .evictCompletedSessions maxAgeSeconds => evictSection now maxAgeSeconds r

/-! ## Clients -/

/-- Where a client's call stands: before its section, or doing the archiving I/O
of the sessions it has detached. -/
inductive ClientPhase
  | idle
  | calling (call : SessionCall)
  | archiving (call : SessionCall) (pending : List PendingArchive) (result : SectionResult)
  deriving DecidableEq, Repr

/-- The phase after a section, or after its archiving I/O. -/
def ClientPhase.next (call : SessionCall) : SectionResult → ClientPhase
  | .retry => .calling call
  | .done _ _ => .idle

structure SessionSystem (Client : Type*) where
  registry : MetricsSessionRegistry
  now : Int
  clients : Client → ClientPhase

inductive SessionLabel (Client : Type*)
  | call (c : Client) (call : SessionCall)
  | enter (c : Client)
  | archived (c : Client)
  | report (key : String) (snapshot : TrainingMetricsSnapshot)
  | clock (nanoseconds : Nat)
  | rehash (entries : List (String × SessionEntry))
  | configure (maxLiveSessions : Nat) (completedTtlSeconds : Int)

section System

variable {Client : Type*} [DecidableEq Client]

/-- The section of a call whose key is not being archived. -/
def SessionSystem.enter (s : SessionSystem Client) (c : Client) (call : SessionCall) :
    SessionSystem Client :=
  let sec := call.locked s.now s.registry
  { s with
    registry := sec.registry
    clients := Function.update s.clients c
      (if sec.pending.isEmpty then .next call sec.result
        else .archiving call sec.pending sec.result) }

/-- One step. The last four labels are the environment: a service reports, time
passes, the hash map changes its order, an administrator changes a setting. -/
def SessionSystem.next (s : SessionSystem Client) :
    SessionLabel Client → Option (SessionSystem Client)
  | .call c call =>
      match s.clients c with
      | .idle => some { s with clients := Function.update s.clients c (.calling call) }
      | _ => none
  | .enter c =>
      match s.clients c with
      | .calling call =>
          if call.key.any fun key => key ∈ s.registry.archivingKeys then none
          else some (s.enter c call)
      | _ => none
  | .archived c =>
      match s.clients c with
      | .archiving call pending result =>
          some
            { s with
              registry := { s.registry with
                archivingKeys := s.registry.archivingKeys \ (pending.map PendingArchive.key).toFinset }
              clients := Function.update s.clients c (.next call result) }
      | _ => none
  | .report key snapshot =>
      some { s with registry := { s.registry with
        sessions := s.registry.sessions.modify key fun e => { e with snapshot := snapshot } } }
  | .clock nanoseconds => some { s with now := s.now + nanoseconds }
  | .rehash entries =>
      if same : entries.Perm s.registry.sessions.entries then
        some { s with registry := { s.registry with
          sessions := s.registry.sessions.rehash entries same } }
      else none
  | .configure maxLiveSessions completedTtlSeconds =>
      some { s with registry := { s.registry with
        maxLiveSessions := maxLiveSessions, completedTtlSeconds := completedTtlSeconds } }

def SessionStep (before : SessionSystem Client) (label : SessionLabel Client)
    (after : SessionSystem Client) : Prop :=
  before.next label = some after

end System

end Adai.Metrics
