import Mathlib.Data.List.Induction
import Adai.Registry.SharedDirectory

/-! # Whether interleaved calls lose a trained record

A record that a completed commit appended is kept when it is still in the saved
registry, or a call that completed later named its path. Commits read and write
the registry under the lock, so they keep each other's records. A deletion or a
re-queue writes back a copy it read before it took the lock, and loses what was
appended meanwhile (`Adai.Registry.records_kept_fails`); records are kept along
every run in which those saves are safe (`Adai.Registry.records_kept`).
-/

open TransitionSystem

namespace Adai.Registry

/-- A completed commit appended the record and no later call named its path. -/
def Required (history : List Completed) (r : DataVersion) : Prop :=
  ∃ before records after, history = before ++ .appended records :: after ∧ r ∈ records ∧
    ∀ paths, .named paths ∈ after → r.dataFile ∉ paths

theorem not_required_nil (r : DataVersion) : ¬ Required [] r := by
  rintro ⟨before, records, after, split, _⟩
  cases before <;> cases split

/-- The last completed call appended the record, or it was required before and
that call does not name its path. -/
theorem required_snoc {history : List Completed} {e : Completed} {r : DataVersion}
    (required : Required (history ++ [e]) r) :
    (∃ records, e = .appended records ∧ r ∈ records) ∨
      (Required history r ∧ ∀ paths, e = .named paths → r.dataFile ∉ paths) := by
  obtain ⟨before, records, after, split, member, unnamed⟩ := required
  induction after using List.reverseRecOn with
  | nil =>
      obtain ⟨_, last⟩ := List.append_inj' split rfl
      exact .inl ⟨records, List.singleton_inj.mp last, member⟩
  | append_singleton after e' _ =>
      have regroup : history ++ [e] = (before ++ .appended records :: after) ++ [e'] := by
        simpa using split
      obtain ⟨rfl, last⟩ := List.append_inj' regroup rfl
      obtain rfl := List.singleton_inj.mp last
      refine .inr ⟨⟨before, records, after, rfl, member, fun paths named => ?_⟩, ?_⟩
      · exact unnamed paths (List.mem_append_left _ named)
      · rintro paths rfl
        exact unnamed paths (List.mem_append_right _ (List.mem_singleton_self _))

/-- Every record a completed commit appended is in the saved registry, unless a
later completed call named its path. -/
def RecordsKept {Pid : Type*} (s : SharedDirectory Pid) : Prop :=
  ∀ before records after, s.history = before ++ .appended records :: after → ∀ r ∈ records,
    r ∈ s.disk.registry ∨ ∃ paths, .named paths ∈ after ∧ r.dataFile ∈ paths

theorem recordsKept_of_required {Pid : Type*} {s : SharedDirectory Pid}
    (kept : ∀ r, Required s.history r → r ∈ s.disk.registry) : RecordsKept s := by
  intro before records after split r member
  by_cases named : ∃ paths, .named paths ∈ after ∧ r.dataFile ∈ paths
  · exact .inr named
  · refine .inl (kept r ⟨before, records, after, split, member, fun paths later listed => ?_⟩)
    exact named ⟨paths, later, listed⟩

/-! ## What a removal writes back -/

theorem deletesRecord_path {t : SegmentTarget} {dv : DataVersion}
    (deletes : deletesRecord t dv = true) : dv.dataFile = t.path := by
  unfold deletesRecord at deletes
  split at deletes
  · exact beq_iff_eq.mp deletes
  · exact congrArg DatasetUnit.path ((trainedMatches_iff ..).mp deletes)

theorem deleteTarget_registry (force deleteFiles : Bool) (unlinked : String → Bool)
    (st : DeletePass) (t : SegmentTarget) :
    (deleteTarget force deleteFiles unlinked st t).registry =
      st.registry.filter fun dv => !deletesRecord t dv := by
  unfold deleteTarget
  extract_lets hit entry blocked registry recordFound moved
  split
  · rfl
  · split <;> rfl

/-- A deletion leaves the records of other paths. -/
theorem mem_deleteTargets_registry {force deleteFiles : Bool} {unlinked : String → Bool}
    {targets : List SegmentTarget} {pending : List PendingEntry} {registry : List DataVersion}
    {r : DataVersion} (member : r ∈ registry)
    (unnamed : r.dataFile ∉ targets.map SegmentTarget.path) :
    r ∈ (deleteTargets force deleteFiles unlinked targets pending registry).registry := by
  unfold deleteTargets
  generalize start : ({ pending, registry } : DeletePass) = st
  have present : r ∈ st.registry := by
    rw [← start]
    exact member
  clear start
  induction targets generalizing st with
  | nil => exact present
  | cons t rest ih =>
      rw [List.map_cons, List.mem_cons, not_or] at unnamed
      refine ih unnamed.2 _ ?_
      rw [deleteTarget_registry, List.mem_filter, Bool.not_eq_true']
      refine ⟨present, Bool.eq_false_iff.mpr fun deletes => ?_⟩
      exact unnamed.1 (deletesRecord_path deletes)

theorem requeueRecords_registry (modelName path : String) (records : List DataVersion)
    (st : RequeuePass) :
    (records.foldl (requeueRecord modelName path) st).registry = st.registry := by
  induction records generalizing st with
  | nil => rfl
  | cons dv rest ih =>
      rw [List.foldl_cons, ih]
      unfold requeueRecord
      split <;> rfl

/-- A re-queue leaves the records of other paths. -/
theorem mem_requeueEntries_registry {modelName : String} {targets : List String}
    {pending : List PendingEntry} {registry : List DataVersion} {r : DataVersion}
    (member : r ∈ registry) (unnamed : r.dataFile ∉ targets) :
    r ∈ (requeueEntries modelName targets pending registry).registry := by
  unfold requeueEntries
  generalize start : ({ pending, registry } : RequeuePass) = st
  have present : r ∈ st.registry := by
    rw [← start]
    exact member
  clear start
  induction targets generalizing st with
  | nil => exact present
  | cons path rest ih =>
      rw [List.mem_cons, not_or] at unnamed
      refine ih unnamed.2 _ ?_
      unfold requeuePath
      extract_lets records kept
      split
      · exact present
      · rw [requeueRecords_registry]
        exact List.mem_filter.mpr ⟨present, bne_iff_ne.mpr unnamed.1⟩

/-- What a call writes back has every record it loaded whose path it does not
name. -/
theorem Call.mem_newRegistry {c : Call} {entries : List DataVersion}
    (writes : c.newRegistry = some entries) {r : DataVersion} (loaded : r ∈ c.registry)
    (unnamed : r.dataFile ∉ c.named) : r ∈ entries := by
  unfold Call.newRegistry at writes
  unfold Call.named at unnamed
  cases method : c.method with
  | commitTrained runId newEntries trainedPaths trainedSegments =>
      simp only [method, Option.some.injEq] at writes
      subst writes
      exact List.mem_append_left _ loaded
  | requeueTrained paths all modelName =>
      simp only [method] at writes unnamed
      split at writes
      · obtain rfl := Option.some.inj writes
        exact mem_requeueEntries_registry loaded unnamed
      · cases writes
  | deletePaths unlinked paths force deleteFiles segments =>
      simp only [method] at writes unnamed
      split at writes
      · obtain rfl := Option.some.inj writes
        exact mem_deleteTargets_registry loaded unnamed
      · cases writes
  | acquire | release | assign | unassign =>
      simp only [method] at writes
      cases writes

/-- A commit also writes what it appends. -/
theorem Call.mem_newRegistry_appended {c : Call} {entries : List DataVersion}
    (writes : c.newRegistry = some entries) {r : DataVersion} (appended : r ∈ c.appended) :
    r ∈ entries := by
  unfold Call.newRegistry at writes
  unfold Call.appended at appended
  cases method : c.method with
  | commitTrained runId newEntries trainedPaths trainedSegments =>
      simp only [method, Option.some.injEq] at writes appended
      subst writes
      exact List.mem_append_right _ appended
  | _ =>
      rw [method] at appended
      cases appended

/-! ## Where a call stands -/

theorem Method.actions_cases (m : Method) :
    m.actions = [] ∨ m.actions = commitActions ∨ m.actions = removalActions ∨
      m.actions = queueActions := by
  cases m <;> simp only [Method.actions] <;> grind

theorem Method.actions_nodup (m : Method) : m.actions.Nodup := by
  rcases m.actions_cases with list | list | list | list <;> rw [list] <;> decide

/-- A call whose next action unlocks has taken the lock before. -/
theorem lock_not_mem_of_unlock {m : Method} {rest : List Action}
    (shape : .unlock :: rest <:+ m.actions) : .lock ∉ Action.unlock :: rest := by
  rcases m.actions_cases with list | list | list | list <;> rw [list] at shape <;>
    simp only [commitActions, removalActions, queueActions, List.suffix_cons_iff,
      List.suffix_nil, List.cons.injEq, reduceCtorEq, false_and, false_or, or_false,
      true_and] at shape <;>
    subst shape <;> decide

/-- Between the lock and the unlock. -/
def Call.Inside (c : Call) : Prop := .unlock ∈ c.rest ∧ .lock ∉ c.rest

/-- A commit that has read the registry, or has tried to save it, is inside. -/
theorem commit_inside {rest : List Action} (shape : rest <:+ commitActions) (busy : rest ≠ [])
    (read : .loadRegistry ∉ rest) : .unlock ∈ rest ∧ .lock ∉ rest := by
  simp only [commitActions, List.suffix_cons_iff, List.suffix_nil] at shape
  rcases shape with rfl | rfl | rfl | rfl | rfl | rfl | rfl
  all_goals first
    | exact (read (by decide)).elim
    | exact (busy rfl).elim
    | decide

/-- The next action of a commit that saves the registry has read it. -/
theorem commit_read_of_save {rest : List Action} (shape : .saveRegistry :: rest <:+ commitActions) :
    .loadRegistry ∉ Action.saveRegistry :: rest := by
  simp only [commitActions, List.suffix_cons_iff, List.suffix_nil, List.cons.injEq, reduceCtorEq,
    false_and, false_or, or_false, true_and] at shape
  subst shape
  decide

theorem commit_read_of_saved {rest : List Action} (shape : rest <:+ commitActions)
    (saved : .saveRegistry ∉ rest) : .loadRegistry ∉ rest := by
  simp only [commitActions, List.suffix_cons_iff, List.suffix_nil] at shape
  rcases shape with rfl | rfl | rfl | rfl | rfl | rfl | rfl
  all_goals first
    | exact (saved (by decide)).elim
    | decide

theorem commit_unsaved_of_loadPending {rest : List Action}
    (shape : .loadPending :: rest <:+ commitActions) : .saveRegistry ∈ rest := by
  simp only [commitActions, List.suffix_cons_iff, List.suffix_nil, List.cons.injEq, reduceCtorEq,
    false_and, false_or, or_false, true_and] at shape
  subst shape
  decide

theorem lock_not_last {m : Method} : ¬ [Action.lock] <:+ m.actions := by
  rcases m.actions_cases with list | list | list | list <;> rw [list] <;> decide

/-- Only a call that saves the registry last leaves without unlocking last. -/
theorem last_action {m : Method} {action : Action} (shape : [action] <:+ m.actions) :
    action = .unlock ∨ (action = .saveRegistry ∧ m.actions = removalActions) := by
  rcases m.actions_cases with list | list | list | list <;> rw [list] at shape <;>
    simp only [commitActions, removalActions, queueActions, List.suffix_cons_iff,
      List.suffix_nil, List.cons.injEq, reduceCtorEq, and_false, and_true, false_or,
      or_false] at shape
  · exact .inl shape
  · exact .inr ⟨shape, list⟩
  · exact .inl shape

theorem Call.commits_of_appended {c : Call} {r : DataVersion} (appended : r ∈ c.appended) :
    c.method.actions = commitActions := by
  unfold Call.appended at appended
  cases method : c.method with
  | commitTrained => rfl
  | _ =>
      rw [method] at appended
      cases appended

theorem Call.completed_appended {c : Call} {records : List DataVersion}
    (completed : c.completed = .appended records) :
    c.method.actions = commitActions ∧ ∀ r ∈ records, c.registrySaved = true ∧ r ∈ c.appended := by
  unfold Call.completed at completed
  cases method : c.method with
  | commitTrained =>
      rw [method] at completed
      obtain rfl := Completed.appended.inj completed
      refine ⟨rfl, fun r member => ?_⟩
      split at member
      · exact ⟨‹_›, member⟩
      · cases member
  | _ =>
      rw [method] at completed
      cases completed

theorem Call.completed_named {c : Call} (removal : c.method.actions = removalActions) :
    c.completed = .named c.named := by
  unfold Call.completed
  cases method : c.method with
  | requeueTrained => rfl
  | deletePaths => rfl
  | unassign =>
      rw [method] at removal
      simp only [Method.actions] at removal
      split at removal <;> cases removal
  | _ =>
      rw [method] at removal
      cases removal

theorem save_last_of_removal {rest : List Action}
    (shape : .saveRegistry :: rest <:+ removalActions) : rest = [] := by
  simp only [removalActions, List.suffix_cons_iff, List.suffix_nil, List.cons.injEq, reduceCtorEq,
    false_and, false_or, or_false, true_and] at shape
  exact shape

theorem commits_or_removes_of_save {m : Method} {rest : List Action}
    (shape : .saveRegistry :: rest <:+ m.actions) :
    m.actions = commitActions ∨ m.actions = removalActions := by
  rcases m.actions_cases with list | list | list | list
  · rw [list, List.suffix_nil] at shape
    cases shape
  · exact .inl list
  · exact .inr list
  · rw [list] at shape
    simp [queueActions, List.suffix_cons_iff] at shape

/-! ## The invariant -/

section Invariant

variable {Pid : Type*} {s : SharedDirectory Pid}

/-- What holds of a call in progress, given the files, the lock and the history. -/
structure CallOk (d : Disk) (lock : Option Pid) (history : List Completed) (p : Pid) (c : Call) :
    Prop where
  shape : c.rest <:+ c.method.actions
  busy : c.rest ≠ []
  holds : c.Inside → lock = some p
  unsaved : .saveRegistry ∈ c.rest → c.registrySaved = false
  /-- The copy a commit is about to extend has every required record. -/
  copied : c.method.actions = commitActions → .loadRegistry ∉ c.rest → .saveRegistry ∈ c.rest →
    ∀ r, Required history r → r ∈ c.registry
  saved : c.registrySaved = true → ∀ r ∈ c.appended, r ∈ d.registry

/-- A commit in progress has already saved this record. -/
def SharedDirectory.InFlight (s : SharedDirectory Pid) (r : DataVersion) : Prop :=
  ∃ p c, s.calls p = some c ∧ c.registrySaved = true ∧ r ∈ c.appended

structure Invariant (s : SharedDirectory Pid) : Prop where
  calls : ∀ p c, s.calls p = some c → CallOk s.disk s.lock s.history p c
  kept : ∀ r, Required s.history r → r ∈ s.disk.registry

/-- A commit that has saved is inside the lock. -/
theorem CallOk.inside_of_saved {d : Disk} {lock : Option Pid} {history : List Completed} {p : Pid}
    {c : Call} (ok : CallOk d lock history p c) (saved : c.registrySaved = true) {r : DataVersion}
    (appended : r ∈ c.appended) : c.Inside := by
  have shape : c.rest <:+ commitActions := Call.commits_of_appended appended ▸ ok.shape
  have written : .saveRegistry ∉ c.rest := by
    intro coming
    rw [ok.unsaved coming] at saved
    cases saved
  exact commit_inside shape ok.busy (commit_read_of_saved shape written)

/-- The other calls after one call has returned: the lock is free when a commit
returns, so none of them is a commit with a copy. -/
theorem CallOk.returned {d : Disk} {lock : Option Pid} {history : List Completed} {q : Pid}
    {c : Call} {e : Completed} (ok : CallOk d lock history q c)
    (free : ∀ records, e = .appended records → lock = none) :
    CallOk d lock (history ++ [e]) q c where
  shape := ok.shape
  busy := ok.busy
  holds := ok.holds
  unsaved := ok.unsaved
  copied commits read coming r required := by
    rcases required_snoc required with ⟨records, appended, _⟩ | ⟨before, _⟩
    · have held := ok.holds (commit_inside (commits ▸ ok.shape) ok.busy read)
      rw [free records appended] at held
      cases held
    · exact ok.copied commits read coming r before
  saved := ok.saved

/-- The next action of a call, other than the lock, is taken with what the call
holds. -/
theorem CallOk.holds_rest {d : Disk} {lock : Option Pid} {history : List Completed} {p : Pid}
    {c : Call} (ok : CallOk d lock history p c) {action : Action} {rest : List Action}
    (next : c.rest = action :: rest) (other : action ≠ .lock) (unlocks : .unlock ∈ rest)
    (unlocked : .lock ∉ rest) : lock = some p := by
  apply ok.holds
  unfold Call.Inside
  rw [next]
  refine ⟨List.mem_cons_of_mem _ unlocks, ?_⟩
  rw [List.mem_cons, not_or]
  exact ⟨fun same => other same.symm, unlocked⟩

variable [DecidableEq Pid]

/-- Recording the progress of a call keeps the invariant. -/
theorem invariant_settle {p : Pid} {c : Call}
    (others : ∀ q c', q ≠ p → s.calls q = some c' → CallOk s.disk s.lock s.history q c')
    (progress : c.rest ≠ [] → CallOk s.disk s.lock s.history p c ∧
      ∀ r, Required s.history r → r ∈ s.disk.registry)
    (returned : c.rest = [] → (∀ records, c.completed = .appended records → s.lock = none) ∧
      ∀ r, Required (s.history ++ [c.completed]) r → r ∈ s.disk.registry) :
    Invariant (s.settle p c) := by
  unfold SharedDirectory.settle
  by_cases last : c.rest = []
  · obtain ⟨free, kept⟩ := returned last
    rw [if_pos (List.isEmpty_iff.mpr last)]
    refine ⟨fun q c' running => ?_, kept⟩
    by_cases same : q = p
    · subst same
      simp at running
    · simp only [Function.update_of_ne same] at running
      exact (others q c' same running).returned free
  · obtain ⟨own, kept⟩ := progress last
    rw [if_neg (by simpa using last)]
    refine ⟨fun q c' running => ?_, kept⟩
    by_cases same : q = p
    · subst same
      simp only [Function.update_self, Option.some.injEq] at running
      exact running ▸ own
    · simp only [Function.update_of_ne same] at running
      exact others q c' same running

theorem invariant_call (inv : Invariant s) {p : Pid} {m : Method} :
    Invariant (s.settle p { method := m, rest := m.actions }) := by
  apply invariant_settle
  · exact fun q c' _ running => inv.calls q c' running
  · refine fun busy => ⟨⟨List.suffix_refl _, busy, ?_, fun _ => rfl, ?_, ?_⟩, inv.kept⟩
    · rintro ⟨unlocks, unlocked⟩
      exfalso
      rcases m.actions_cases with list | list | list | list <;>
        simp [list, commitActions, removalActions, queueActions] at unlocked busy
    · intro commits read
      exfalso
      simp only [commits] at read
      exact read (by decide)
    · intro saved
      cases saved
  · intro done
    have quiet : ∀ records, Call.completed { method := m, rest := m.actions } ≠ .appended records := by
      intro records appended
      have commits := (Call.completed_appended appended).1
      simp only [show m.actions = [] from done] at commits
      cases commits
    refine ⟨fun records appended => (quiet records appended).elim, fun r required => ?_⟩
    rcases required_snoc required with ⟨records, appended, _⟩ | ⟨before, _⟩
    · exact (quiet records appended).elim
    · exact inv.kept r before

theorem invariant_lock (inv : Invariant s) {p : Pid} {c : Call} {rest : List Action}
    (running : s.calls p = some c) (next : c.rest = .lock :: rest) (free : s.lock = none) :
    Invariant ({ s with lock := some p }.settle p { c with rest := rest }) := by
  have ok := inv.calls p c running
  have shape : .lock :: rest <:+ c.method.actions := next ▸ ok.shape
  apply invariant_settle
  · intro q c' _ other
    have ok' := inv.calls q c' other
    refine ⟨ok'.shape, ok'.busy, fun inside => ?_, ok'.unsaved, ok'.copied, ok'.saved⟩
    have held := ok'.holds inside
    rw [free] at held
    cases held
  · refine fun busy => ⟨⟨(List.suffix_cons _ _).trans shape, busy, fun _ => rfl, fun coming => ?_,
      fun commits read coming => ?_, ok.saved⟩, inv.kept⟩
    · exact ok.unsaved (next ▸ List.mem_cons_of_mem _ coming)
    · apply ok.copied commits
      · rw [next, List.mem_cons, not_or]
        exact ⟨by decide, read⟩
      · exact next ▸ List.mem_cons_of_mem _ coming
  · intro done
    simp only at done
    subst done
    exact (lock_not_last shape).elim

theorem invariant_unlock (inv : Invariant s) {p : Pid} {c : Call} {rest : List Action}
    (running : s.calls p = some c) (next : c.rest = .unlock :: rest) :
    Invariant ({ s with lock := none }.settle p { c with rest := rest }) := by
  have ok := inv.calls p c running
  have shape : .unlock :: rest <:+ c.method.actions := next ▸ ok.shape
  have held : s.lock = some p := by
    apply ok.holds
    unfold Call.Inside
    rw [next]
    exact ⟨List.mem_cons_self, lock_not_mem_of_unlock shape⟩
  have once : .unlock ∉ rest :=
    (List.nodup_cons.mp (c.method.actions_nodup.sublist shape.sublist)).1
  apply invariant_settle
  · intro q c' different other
    have ok' := inv.calls q c' other
    refine ⟨ok'.shape, ok'.busy, fun inside => ?_, ok'.unsaved, ok'.copied, ok'.saved⟩
    have held' := ok'.holds inside
    rw [held] at held'
    exact (different (Option.some.inj held').symm).elim
  · refine fun busy => ⟨⟨(List.suffix_cons _ _).trans shape, busy, fun inside => ?_,
      fun coming => ?_, fun commits read coming => ?_, ok.saved⟩, inv.kept⟩
    · exact (once inside.1).elim
    · exact ok.unsaved (next ▸ List.mem_cons_of_mem _ coming)
    · apply ok.copied commits
      · rw [next, List.mem_cons, not_or]
        exact ⟨by decide, read⟩
      · exact next ▸ List.mem_cons_of_mem _ coming
  · refine fun done => ⟨fun _ _ => rfl, fun r required => ?_⟩
    rcases required_snoc required with ⟨records, appended, member⟩ | ⟨before, _⟩
    · obtain ⟨saved, listed⟩ := (Call.completed_appended appended).2 r member
      exact ok.saved saved r listed
    · exact inv.kept r before

theorem invariant_perform (inv : Invariant s) {p : Pid} {c : Call} {action : Action}
    {rest : List Action} (ok : Bool) (now : Int) (running : s.calls p = some c)
    (next : c.rest = action :: rest) (notLock : action ≠ .lock) (notUnlock : action ≠ .unlock)
    (notSave : action ≠ .saveRegistry) :
    Invariant ({ s with disk := (c.perform action ok now s.disk).2 }.settle p
      { (c.perform action ok now s.disk).1 with rest := rest }) := by
  have own := inv.calls p c running
  have shape : action :: rest <:+ c.method.actions := next ▸ own.shape
  have method : (c.perform action ok now s.disk).1.method = c.method := by cases action <;> rfl
  have saved : (c.perform action ok now s.disk).1.registrySaved = c.registrySaved := by
    cases action <;> first | rfl | exact (notSave rfl).elim
  have registry : (c.perform action ok now s.disk).2.registry = s.disk.registry := by
    cases action with
    | saveRegistry => exact (notSave rfl).elim
    | savePending =>
        simp only [Call.perform]
        cases c.newPending now
        · rfl
        · exact Disk.savePending_registry ..
    | _ => rfl
  have appended : ∀ r ∈ (c.perform action ok now s.disk).1.appended, c.registrySaved = true →
      r ∈ c.appended := by
    intro r member written
    cases action with
    | loadPending =>
        have commits : c.method.actions = commitActions := by
          rw [← method]
          exact Call.commits_of_appended member
        have coming := commit_unsaved_of_loadPending (commits ▸ shape)
        rw [own.unsaved (next ▸ List.mem_cons_of_mem _ coming)] at written
        cases written
    | saveRegistry => exact (notSave rfl).elim
    | _ => exact member
  apply invariant_settle
  · intro q c' _ other
    have ok' := inv.calls q c' other
    refine ⟨ok'.shape, ok'.busy, ok'.holds, ok'.unsaved, ok'.copied, fun written r member => ?_⟩
    exact registry ▸ ok'.saved written r member
  · refine fun busy => ⟨⟨?_, busy, fun inside => ?_, fun coming => ?_,
      fun commits read coming r required => ?_, fun written r member => ?_⟩, fun r required => ?_⟩
    · simp only [method]
      exact (List.suffix_cons _ _).trans shape
    · exact own.holds_rest next notLock inside.1 inside.2
    · exact saved.trans (own.unsaved (next ▸ List.mem_cons_of_mem _ coming))
    · simp only [method] at commits
      by_cases load : action = .loadRegistry
      · subst load
        exact inv.kept r required
      · have copy : (c.perform action ok now s.disk).1.registry = c.registry := by
          cases action <;> first | rfl | exact (load rfl).elim
        simp only [copy]
        apply own.copied commits _ (next ▸ List.mem_cons_of_mem _ coming) r required
        rw [next, List.mem_cons, not_or]
        exact ⟨fun same => load same.symm, read⟩
    · rw [registry]
      exact own.saved (saved ▸ written) r (appended r member (saved ▸ written))
    · exact registry ▸ inv.kept r required
  · intro done
    simp only at done
    subst done
    rcases last_action shape with unlock | ⟨save, _⟩
    · exact (notUnlock unlock).elim
    · exact (notSave save).elim

/-- A saved registry is the old one or what the call writes. -/
theorem storeRegistry_cases (d : Disk) (c : Call) (ok : Bool) :
    (d.storeRegistry ok c.newRegistry).registry = d.registry ∨
      (ok = true ∧ c.newRegistry = some (d.storeRegistry ok c.newRegistry).registry) := by
  cases ok with
  | false =>
      left
      cases c.newRegistry <;> rfl
  | true =>
      cases writes : c.newRegistry with
      | none => exact .inl rfl
      | some entries => exact .inr ⟨rfl, rfl⟩

/-- A commit's save keeps the required records, and the lock keeps other commits
away. -/
theorem invariant_commit_save (inv : Invariant s) {p : Pid} {c : Call} {rest : List Action}
    (ok : Bool) (now : Int) (running : s.calls p = some c) (next : c.rest = .saveRegistry :: rest)
    (commits : c.method.actions = commitActions) :
    Invariant ({ s with disk := (c.perform .saveRegistry ok now s.disk).2 }.settle p
      { (c.perform .saveRegistry ok now s.disk).1 with rest := rest }) := by
  have own := inv.calls p c running
  have shape : .saveRegistry :: rest <:+ c.method.actions := next ▸ own.shape
  have read : .loadRegistry ∉ c.rest := next ▸ commit_read_of_save (commits ▸ shape)
  have held : s.lock = some p := own.holds (commit_inside (commits ▸ own.shape) own.busy read)
  have once : .saveRegistry ∉ rest :=
    (List.nodup_cons.mp (c.method.actions_nodup.sublist shape.sublist)).1
  have copy := own.copied commits read (next ▸ List.mem_cons_self)
  have kept : ∀ r, Required s.history r → r ∈ (s.disk.storeRegistry ok c.newRegistry).registry := by
    intro r required
    rcases storeRegistry_cases s.disk c ok with same | ⟨_, writes⟩
    · exact same ▸ inv.kept r required
    · have written := Call.mem_newRegistry writes (copy r required)
      apply written
      unfold Call.named
      cases method : c.method with
      | commitTrained => exact List.not_mem_nil
      | requeueTrained | deletePaths =>
          rw [method] at commits
          simp only [Method.actions] at commits
          split at commits <;> cases commits
      | _ => exact List.not_mem_nil
  apply invariant_settle
  · intro q c' different other
    have ok' := inv.calls q c' other
    refine ⟨ok'.shape, ok'.busy, ok'.holds, ok'.unsaved, ok'.copied, fun written r member => ?_⟩
    have held' := ok'.holds (ok'.inside_of_saved written member)
    rw [held] at held'
    exact (different (Option.some.inj held').symm).elim
  · refine fun busy => ⟨⟨(List.suffix_cons _ _).trans shape, busy, fun inside => ?_,
      fun coming => (once coming).elim, fun _ _ coming => (once coming).elim,
      fun written r member => ?_⟩, kept⟩
    · exact own.holds_rest next (by decide) inside.1 inside.2
    · obtain ⟨_, rfl⟩ := Bool.and_eq_true_iff.mp written
      rcases storeRegistry_cases s.disk c true with same | ⟨_, writes⟩
      · cases write : c.newRegistry with
        | none => simp [Call.perform, write] at written
        | some entries =>
            simp only [Call.perform, write]
            exact Call.mem_newRegistry_appended write member
      · exact Call.mem_newRegistry_appended writes member
  · intro done
    simp only at done
    subst done
    rcases last_action shape with unlock | ⟨_, removal⟩
    · cases unlock
    · rw [commits] at removal
      cases removal

/-- A deletion or a re-queue writes the registry back safely: every record now
saved is either in the copy it has loaded, or of a path it names and not of a
commit still in progress. -/
def SavesSafely (s : SharedDirectory Pid) (label : SharedLabel Pid) : Prop :=
  ∀ p now c, label = .act p true now → s.calls p = some c → c.rest = [.saveRegistry] →
    c.newRegistry.isSome = true → ∀ r ∈ s.disk.registry,
      if r.dataFile ∈ c.named then ¬ s.InFlight r else r ∈ c.registry

theorem invariant_removal_save (inv : Invariant s) {p : Pid} {c : Call} {rest : List Action}
    (ok : Bool) (now : Int) (running : s.calls p = some c) (next : c.rest = .saveRegistry :: rest)
    (removal : c.method.actions = removalActions) (safe : SavesSafely s (.act p ok now)) :
    Invariant ({ s with disk := (c.perform .saveRegistry ok now s.disk).2 }.settle p
      { (c.perform .saveRegistry ok now s.disk).1 with rest := rest }) := by
  have own := inv.calls p c running
  obtain rfl : rest = [] := save_last_of_removal (removal ▸ next ▸ own.shape)
  have named : ({ (c.perform .saveRegistry ok now s.disk).1 with rest := [] } : Call).completed =
      .named c.named := Call.completed_named removal
  have kept : ∀ r ∈ s.disk.registry, (r.dataFile ∈ c.named → s.InFlight r) →
      r ∈ (s.disk.storeRegistry ok c.newRegistry).registry := by
    intro r saved flight
    rcases storeRegistry_cases s.disk c ok with same | ⟨rfl, writes⟩
    · exact same ▸ saved
    · have condition := safe p now c rfl running next (by rw [writes]; rfl) r saved
      by_cases listed : r.dataFile ∈ c.named
      · rw [if_pos listed] at condition
        exact (condition (flight listed)).elim
      · rw [if_neg listed] at condition
        exact Call.mem_newRegistry writes condition listed
  apply invariant_settle
  · intro q c' _ other
    have ok' := inv.calls q c' other
    refine ⟨ok'.shape, ok'.busy, ok'.holds, ok'.unsaved, ok'.copied, fun written r member => ?_⟩
    exact kept r (ok'.saved written r member) fun _ => ⟨q, c', other, written, member⟩
  · exact fun busy => (busy rfl).elim
  · refine fun _ => ⟨fun records appended => ?_, fun r required => ?_⟩
    · rw [named] at appended
      cases appended
    · rw [named] at required
      rcases required_snoc required with ⟨records, appended, _⟩ | ⟨before, unnamed⟩
      · cases appended
      · exact kept r (inv.kept r before) fun listed => (unnamed _ rfl listed).elim

/-- **Step.** A step that saves safely keeps the invariant. -/
theorem invariant_step {label : SharedLabel Pid} {s' : SharedDirectory Pid} (inv : Invariant s)
    (step : SharedStep s label s') (safe : SavesSafely s label) : Invariant s' := by
  unfold SharedStep SharedDirectory.next at step
  cases label with
  | call p method =>
      simp only at step
      split at step
      · cases step
      · obtain rfl := Option.some.inj step
        exact invariant_call inv
  | act p ok now =>
      simp only at step
      split at step
      · cases step
      · rename_i c running
        split at step
        · cases step
        · rename_i action rest next
          cases action with
          | lock =>
              simp only at step
              split at step
              · obtain rfl := Option.some.inj step
                refine ⟨fun q c' other => inv.calls q c' ?_, inv.kept⟩
                by_cases same : q = p
                · subst same
                  simp at other
                · simpa only [Function.update_of_ne same] using other
              · split at step
                · cases step
                · rename_i free
                  obtain rfl := Option.some.inj step
                  exact invariant_lock inv running next (by simpa using free)
          | unlock =>
              obtain rfl := Option.some.inj step
              exact invariant_unlock inv running next
          | saveRegistry =>
              obtain rfl := Option.some.inj step
              have shape : .saveRegistry :: rest <:+ c.method.actions :=
                next ▸ (inv.calls p c running).shape
              rcases commits_or_removes_of_save shape with commits | removal
              · exact invariant_commit_save inv ok now running next commits
              · exact invariant_removal_save inv ok now running next removal safe
          | loadRegistry | loadPending | savePending =>
              obtain rfl := Option.some.inj step
              exact invariant_perform inv ok now running next (by decide) (by decide) (by decide)

end Invariant

/-- No process runs a method yet. -/
structure SharedDirectory.Fresh {Pid : Type*} (s : SharedDirectory Pid) : Prop where
  calls : ∀ p, s.calls p = none
  lock : s.lock = none
  history : s.history = []

/-- **No lost record.** Along every run from an idle directory in which
deletions and re-queues write the registry back safely, every record that a
completed commit appended is in the saved registry, unless a call that completed
later named its path. -/
theorem records_kept {Pid : Type*} [DecidableEq Pid] {first last : SharedDirectory Pid}
    {labels : List (SharedLabel Pid)} (fresh : first.Fresh)
    (run : Run (Restrict SharedStep SavesSafely) first labels last) : RecordsKept last := by
  have start : Invariant first := by
    refine ⟨fun p c running => ?_, fun r required => ?_⟩
    · rw [fresh.calls p] at running
      cases running
    · rw [fresh.history] at required
      exact (not_required_nil r required).elim
  have invariant : Invariant last :=
    run.invariant Invariant (fun _ _ _ inv step => invariant_step inv step.1 step.2) start
  exact recordsKept_of_required invariant.kept

/-- A commit that nothing interrupts. -/
theorem records_kept_commit :
    ∃ last : SharedDirectory Bool,
      last.history = [.appended [{ dataFile := "b" }]] ∧ RecordsKept last := by
  let first : SharedDirectory Bool :=
    ⟨⟨[], [{ path := "b", runId := "r" }]⟩, none, fun _ => none, []⟩
  let labels : List (SharedLabel Bool) :=
    .call true (.commitTrained "r" [{ dataFile := "b" }] ["b"] []) ::
      List.replicate 6 (.act true true 0)
  let next : SharedDirectory Bool → SharedLabel Bool → Option (SharedDirectory Bool) :=
    fun s label =>
      if (s.calls false).isNone && (s.calls true).all (·.rest ≠ [.saveRegistry]) then s.next label
      else none
  have steps : ∀ before label after, next before label = some after →
      Restrict SharedStep SavesSafely before label after := by
    intro before label after taken
    obtain ⟨quiet, step⟩ := Option.ite_none_right_eq_some.mp taken
    refine ⟨step, fun p now c _ running last => ?_⟩
    simp only [Bool.and_eq_true, Option.isNone_iff_eq_none, Option.all_eq_true] at quiet
    cases p with
    | false => simp [quiet.1] at running
    | true => simpa [last] using quiet.2 c running
  refine ⟨_, ?_, @records_kept Bool _ first _ labels ⟨fun _ => rfl, rfl, rfl⟩
    (Run.of_execute steps (by rfl))⟩
  rfl

/-- A deletion of `a` reads the registry before a commit of `b` and writes it back
after: the record of `b` is lost. -/
theorem records_kept_fails :
    let first : SharedDirectory Bool :=
      ⟨⟨[{ dataFile := "a" }], [{ path := "b", runId := "r" }]⟩, none, fun _ => none, []⟩
    let labels : List (SharedLabel Bool) :=
      [.call false (.deletePaths (fun _ => false) ["a"] false false []), .act false true 0,
        .call true (.commitTrained "r" [{ dataFile := "b" }] ["b"] [])] ++
      List.replicate 6 (.act true true 0) ++ List.replicate 5 (.act false true 0)
    ∃ last, first.Fresh ∧ Run SharedStep first labels last ∧ ¬ RecordsKept last := by
  intro first labels
  refine ⟨_, ⟨fun _ => rfl, rfl, rfl⟩, Run.of_execute (fun _ _ _ taken => taken) (by rfl),
    fun kept => ?_⟩
  rcases kept [] [{ dataFile := "b" }] [.named ["a"]] rfl { dataFile := "b" }
      List.mem_cons_self with saved | ⟨paths, named, listed⟩
  · exact absurd saved (by decide)
  · obtain rfl : paths = ["a"] := by simpa using named
    exact absurd listed (by decide)

end Adai.Registry
