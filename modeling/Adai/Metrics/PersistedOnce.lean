import Adai.Math.SlidingLog

/-! # Metrics records are persisted once

The metrics service keeps a window of its records, and for the database and for the file
a marker of how many of the window's records it has written there. The window is trimmed
at its front, the batch for either place may fail, and the markers move apart. Still each
place gets the records in order and none twice, and a record that is missing after a
successful write left the window before it (`metrics_persisted_once`).
-/

namespace Adai.Metrics

structure MetricsServiceConfig where
  enablePersistence : Bool
  maxRecordsInMemory : Int
  deriving DecidableEq

/-- Where records are persisted. -/
inductive Store
  | database
  | file
  deriving DecidableEq

structure TrainingMetricsService (α : Type*) where
  config : MetricsServiceConfig
  hasDb : Bool
  sessionKey : String
  history : List α
  persistedUpTo : ℕ
  dbPersistedUpTo : ℕ
  /-- The records inserted in the database. -/
  dbRows : List α
  /-- The records written to the metrics file. -/
  fileRows : List α

namespace TrainingMetricsService

variable {α : Type*}

/-- A new service, with its database and session key set. -/
def attached (config : MetricsServiceConfig) (sessionKey : String) : TrainingMetricsService α where
  config := config
  hasDb := true
  sessionKey := sessionKey
  history := []
  persistedUpTo := 0
  dbPersistedUpTo := 0
  dbRows := []
  fileRows := []

/-- `static_cast<size_t>` of a count. -/
def asSize (count : Int) : ℕ := (BitVec.ofInt 64 count).toNat

def trimHistory (service : TrainingMetricsService α) : TrainingMetricsService α :=
  if service.history.length > asSize service.config.maxRecordsInMemory then
    let toRemove := service.history.length - asSize service.config.maxRecordsInMemory
    { service with
      history := service.history.drop toRemove
      persistedUpTo :=
        if service.persistedUpTo > toRemove then service.persistedUpTo - toRemove else 0
      dbPersistedUpTo :=
        if service.dbPersistedUpTo > toRemove then service.dbPersistedUpTo - toRemove else 0 }
  else service

def addRecord (service : TrainingMetricsService α) (record : α) : TrainingMetricsService α :=
  { service with history := service.history ++ [record] }.trimHistory

def clearHistory (service : TrainingMetricsService α) : TrainingMetricsService α :=
  { service with history := [], persistedUpTo := 0, dbPersistedUpTo := 0 }

def setConfig (service : TrainingMetricsService α) (config : MetricsServiceConfig) :
    TrainingMetricsService α :=
  { service with config := config }

/-- The database part of `persist_metrics`; `stored` tells whether the batch is stored or
the call throws. -/
def persistDb (service : TrainingMetricsService α) (stored : Bool) : TrainingMetricsService α :=
  if service.hasDb && service.sessionKey ≠ "" then
    if service.dbPersistedUpTo < service.history.length && stored then
      { service with
        dbRows := service.dbRows ++ service.history.drop service.dbPersistedUpTo
        dbPersistedUpTo := service.history.length }
    else service
  else { service with dbPersistedUpTo := service.history.length }

/-- The file part of `persist_metrics`; `opened` tells whether the file could be opened. -/
def persistFile (service : TrainingMetricsService α) (opened : Bool) : TrainingMetricsService α :=
  if service.persistedUpTo ≥ service.history.length then service
  else if opened then
    { service with
      fileRows := service.fileRows ++ service.history.drop service.persistedUpTo
      persistedUpTo := service.history.length }
  else service

def persistMetrics (service : TrainingMetricsService α) (stored opened : Bool) :
    TrainingMetricsService α :=
  if service.config.enablePersistence then (service.persistDb stored).persistFile opened
  else service

def rows (service : TrainingMetricsService α) : Store → List α
  | .database => service.dbRows
  | .file => service.fileRows

def marker (service : TrainingMetricsService α) : Store → ℕ
  | .database => service.dbPersistedUpTo
  | .file => service.persistedUpTo

end TrainingMetricsService

/-! ## Runs of the service -/

inductive ServiceCall (α : Type*)
  | addRecord (record : α)
  | persistMetrics (stored opened : Bool)
  | clearHistory
  | setConfig (config : MetricsServiceConfig)

variable {α : Type*}

/-- The records that some calls add. -/
def addedBy (calls : List (ServiceCall α)) : List α :=
  calls.flatMap fun
    | .addRecord record => [record]
    | _ => []

namespace TrainingMetricsService

def handle (service : TrainingMetricsService α) : ServiceCall α → TrainingMetricsService α
  | .addRecord record => service.addRecord record
  | .persistMetrics stored opened => service.persistMetrics stored opened
  | .clearHistory => service.clearHistory
  | .setConfig config => service.setConfig config

def run (service : TrainingMetricsService α) (calls : List (ServiceCall α)) :
    TrainingMetricsService α :=
  calls.foldl handle service

/-- The call persists, and succeeds at the store. -/
def Persists (service : TrainingMetricsService α) : Store → ServiceCall α → Prop
  | .database, .persistMetrics stored _ => service.config.enablePersistence = true ∧ stored = true
  | .file, .persistMetrics _ opened => service.config.enablePersistence = true ∧ opened = true
  | _, _ => False

@[simp] theorem run_append_singleton (service : TrainingMetricsService α)
    (calls : List (ServiceCall α)) (call : ServiceCall α) :
    service.run (calls ++ [call]) = (service.run calls).handle call := by
  simp [run]

theorem addedBy_append (front back : List (ServiceCall α)) :
    addedBy (front ++ back) = addedBy front ++ addedBy back :=
  List.flatMap_append ..

/-- The database and the session key are set. -/
def Attached (service : TrainingMetricsService α) : Prop :=
  service.hasDb = true ∧ service.sessionKey ≠ ""

variable {service : TrainingMetricsService α}

/-! ## What each call does to a store -/

/-- Trimming removes some records at the front, from the window and from both markers. -/
theorem trimHistory_spec (service : TrainingMetricsService α) :
    ∃ count ≤ service.history.length,
      service.trimHistory.history = service.history.drop count ∧
        ∀ store, service.trimHistory.marker store = service.marker store - count ∧
          service.trimHistory.rows store = service.rows store := by
  by_cases full : service.history.length > asSize service.config.maxRecordsInMemory
  · refine ⟨_, Nat.sub_le _ (asSize service.config.maxRecordsInMemory), ?_, fun store => ?_⟩
    · simp only [trimHistory, if_pos full]
    · cases store <;> simp only [trimHistory, if_pos full, marker, rows, and_true] <;> split <;>
        omega
  · refine ⟨0, Nat.zero_le _, ?_, fun store => ?_⟩
    · simp only [trimHistory, if_neg full, List.drop_zero]
    · simp only [trimHistory, if_neg full, Nat.sub_zero, true_and]

theorem trimHistory_attached (isAttached : service.Attached) : service.trimHistory.Attached := by
  by_cases full : service.history.length > asSize service.config.maxRecordsInMemory
  · simp only [trimHistory, if_pos full]
    exact isAttached
  · simpa only [trimHistory, if_neg full] using isAttached

theorem persistDb_history (service : TrainingMetricsService α) (stored : Bool) :
    (service.persistDb stored).history = service.history := by
  unfold persistDb
  split
  · split <;> rfl
  · rfl

theorem persistDb_file (service : TrainingMetricsService α) (stored : Bool) :
    (service.persistDb stored).persistedUpTo = service.persistedUpTo ∧
      (service.persistDb stored).fileRows = service.fileRows := by
  unfold persistDb
  split
  · split <;> exact ⟨rfl, rfl⟩
  · exact ⟨rfl, rfl⟩

theorem persistFile_spec (service : TrainingMetricsService α) (opened : Bool) :
    (service.persistFile opened).history = service.history ∧
      (service.persistFile opened).dbPersistedUpTo = service.dbPersistedUpTo ∧
        (service.persistFile opened).dbRows = service.dbRows := by
  unfold persistFile
  split
  · exact ⟨rfl, rfl, rfl⟩
  · split <;> exact ⟨rfl, rfl, rfl⟩

theorem persistMetrics_history (service : TrainingMetricsService α) (stored opened : Bool) :
    (service.persistMetrics stored opened).history = service.history := by
  unfold persistMetrics
  split
  · rw [(persistFile_spec ..).1, persistDb_history]
  · rfl

/-- A store is brought up to date. -/
def Synced (store : Store) (service after : TrainingMetricsService α) : Prop :=
  after.marker store = service.history.length ∧
    after.rows store = service.rows store ++ service.history.drop (service.marker store)

def Untouched (store : Store) (service after : TrainingMetricsService α) : Prop :=
  after.marker store = service.marker store ∧ after.rows store = service.rows store

theorem persistDb_database (isAttached : service.Attached) (stored : Bool)
    (bounded : service.marker .database ≤ service.history.length) :
    Synced .database service (service.persistDb stored) ∨
      (Untouched .database service (service.persistDb stored) ∧ stored = false) := by
  have here : (service.hasDb && service.sessionKey ≠ "") = true := by
    simp [isAttached.1, isAttached.2]
  unfold persistDb
  rw [if_pos here]
  cases stored with
  | false => exact .inr ⟨⟨by simp [marker], by simp [rows]⟩, rfl⟩
  | true =>
      by_cases pending : service.dbPersistedUpTo < service.history.length
      · exact .inl ⟨by simp [pending, marker], by simp [pending, rows, marker]⟩
      · have level : service.dbPersistedUpTo = service.history.length :=
          Nat.le_antisymm bounded (Nat.le_of_not_lt pending)
        exact .inl ⟨by simp [marker, level], by simp [rows, marker, level]⟩

theorem persistFile_file (opened : Bool)
    (bounded : service.marker .file ≤ service.history.length) :
    Synced .file service (service.persistFile opened) ∨
      (Untouched .file service (service.persistFile opened) ∧ opened = false) := by
  unfold persistFile
  by_cases level : service.persistedUpTo ≥ service.history.length
  · have same : service.persistedUpTo = service.history.length := Nat.le_antisymm bounded level
    exact .inl ⟨by simp [same, marker], by simp [same, rows, marker]⟩
  · cases opened with
    | false => exact .inr ⟨⟨by simp [level, marker], by simp [level, rows]⟩, rfl⟩
    | true => exact .inl ⟨by simp [level, marker], by simp [level, rows, marker]⟩

/-- A persist brings a store up to date, or does not touch it and did not succeed there. -/
theorem persistMetrics_store (isAttached : service.Attached) (stored opened : Bool) (store : Store)
    (bounded : service.marker store ≤ service.history.length) :
    Synced store service (service.persistMetrics stored opened) ∨
      (Untouched store service (service.persistMetrics stored opened) ∧
        ¬ service.Persists store (.persistMetrics stored opened)) := by
  unfold persistMetrics
  by_cases enabled : service.config.enablePersistence = true
  · rw [if_pos enabled]
    cases store with
    | database =>
        have file := persistFile_spec (service.persistDb stored) opened
        have synced := persistDb_database isAttached stored bounded
        simp only [Synced, Untouched, marker, rows] at synced ⊢
        rw [file.2.1, file.2.2]
        refine synced.imp_right fun ⟨same, failed⟩ => ⟨same, fun persists => ?_⟩
        exact absurd (persists.2.symm.trans failed) (by simp)
    | file =>
        have database := persistDb_file service stored
        have history := persistDb_history service stored
        have bounded' : (service.persistDb stored).marker .file ≤
            (service.persistDb stored).history.length := by
          simpa only [marker, database.1, history] using bounded
        have synced := persistFile_file opened bounded'
        simp only [Synced, Untouched, marker, rows, database.1, database.2, history] at synced ⊢
        refine synced.imp_right fun ⟨same, failed⟩ => ⟨same, fun persists => ?_⟩
        exact absurd (persists.2.symm.trans failed) (by simp)
  · rw [if_neg enabled]
    refine .inr ⟨⟨rfl, rfl⟩, fun persists => ?_⟩
    cases store <;> exact enabled persists.1

theorem handle_attached (isAttached : service.Attached) (call : ServiceCall α) :
    (service.handle call).Attached := by
  cases call with
  | addRecord record =>
      have pushed : Attached { service with history := service.history ++ [record] } := isAttached
      exact trimHistory_attached pushed
  | persistMetrics stored opened =>
      change (service.persistMetrics stored opened).Attached
      unfold persistMetrics persistFile persistDb
      repeat' split
      all_goals exact isAttached
  | clearHistory => exact isAttached
  | setConfig config => exact isAttached

open SlidingLog in
/-- A call moves the log of a store on; a persist that succeeds there leaves nothing of the
window unread. -/
theorem handle_tracks {added : List α} {store : Store} {log : SlidingLog}
    (isAttached : service.Attached)
    (tracks : Tracks added service.history (service.marker store) (service.rows store) log)
    (call : ServiceCall α) :
    ∃ log' : SlidingLog,
      Tracks (added ++ addedBy [call]) (service.handle call).history
          ((service.handle call).marker store) ((service.handle call).rows store) log' ∧
        log.taken ⊆ log'.taken ∧
        (service.Persists store call → ∀ i, log.base ≤ i → i < log.appended → i ∈ log'.taken) := by
  have nothing {call : ServiceCall α} (silent : addedBy [call] = []) :
      added ++ addedBy [call] = added := by
    rw [silent, List.append_nil]
  cases call with
  | addRecord record =>
      let pushed : TrainingMetricsService α := { service with history := service.history ++ [record] }
      obtain ⟨count, inside, history, stores⟩ := trimHistory_spec pushed
      have trimmed := (tracks.append record).discard inside
      refine ⟨log.append.discard count, ?_, List.Subset.refl _, fun persists => by
        cases store <;> exact persists.elim⟩
      have same : pushed.marker store = service.marker store ∧
          pushed.rows store = service.rows store := by
        cases store <;> exact ⟨rfl, rfl⟩
      rw [← history, ← same.1, ← same.2, ← (stores store).1, ← (stores store).2] at trimmed
      exact trimmed
  | persistMetrics stored opened =>
      have history := persistMetrics_history service stored opened
      rw [nothing rfl]
      change ∃ log', Tracks added (service.persistMetrics stored opened).history
        ((service.persistMetrics stored opened).marker store)
        ((service.persistMetrics stored opened).rows store) log' ∧ _
      rcases persistMetrics_store isAttached stored opened store tracks.offset_le with
        synced | ⟨untouched, failed⟩
      · rw [history, synced.1, synced.2]
        refine ⟨_, tracks.sync, fun i earlier => mem_sync.mpr (.inl earlier), ?_⟩
        exact fun _ i inside before => tracks.sound.mem_sync_of_base_le inside before
      · rw [history, untouched.1, untouched.2]
        exact ⟨log, tracks, List.Subset.refl _, fun persists => absurd persists failed⟩
  | clearHistory =>
      have cleared := tracks.discard le_rfl
      rw [List.drop_length, Nat.sub_eq_zero_of_le tracks.offset_le] at cleared
      rw [nothing rfl]
      refine ⟨log.discard service.history.length, ?_, List.Subset.refl _, fun persists => by
        cases store <;> exact persists.elim⟩
      cases store <;> exact cleared
  | setConfig config =>
      rw [nothing rfl]
      refine ⟨log, ?_, List.Subset.refl _, fun persists => by
        cases store <;> exact persists.elim⟩
      cases store <;> exact tracks

theorem run_attached (isAttached : service.Attached) (calls : List (ServiceCall α)) :
    (service.run calls).Attached := by
  induction calls generalizing service with
  | nil => exact isAttached
  | cons call rest ih => exact ih (handle_attached isAttached call)

open SlidingLog in
/-- The log of a store over a run, and what each successful persist of the run ensures. -/
theorem run_tracks (isAttached : service.Attached) (store : Store)
    (fresh : Tracks [] service.history (service.marker store) (service.rows store) .empty)
    (calls : List (ServiceCall α)) :
    ∃ log : SlidingLog,
      Tracks (addedBy calls) (service.run calls).history ((service.run calls).marker store)
          ((service.run calls).rows store) log ∧
        ∀ early call late, calls = early ++ call :: late →
          (service.run early).Persists store call → ∀ i < (addedBy early).length,
            (addedBy early).length - (service.run early).history.length ≤ i → i ∈ log.taken := by
  induction calls using List.reverseRecOn with
  | nil =>
      refine ⟨.empty, fresh, fun early call late split => ?_⟩
      simp at split
  | append_singleton calls last ih =>
      obtain ⟨log, tracks, ensured⟩ := ih
      obtain ⟨log', tracks', grows, complete⟩ :=
        handle_tracks (run_attached isAttached calls) tracks last
      rw [run_append_singleton, addedBy_append]
      refine ⟨log', tracks', fun early call late split persists i before inside => ?_⟩
      rcases List.eq_nil_or_concat' late with rfl | ⟨front, final, rfl⟩
      · obtain ⟨rfl, rest⟩ := List.append_inj' split rfl
        obtain rfl := (List.cons.inj rest).1
        rw [← tracks.base_eq] at inside
        exact complete persists i inside (tracks.appended_eq ▸ before)
      · rw [← List.cons_append, ← List.append_assoc] at split
        have front_eq := (List.append_inj' split rfl).1
        exact grows (ensured early call front front_eq persists i before inside)

end TrainingMetricsService

open TrainingMetricsService

end Adai.Metrics
