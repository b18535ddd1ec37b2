import Mathlib.Logic.Function.Basic
import Adai.Math.TransitionSystem
import Adai.Registry.LocalTransport

/-! # Processes sharing one data directory

Any number of processes run the local transport's methods on the same two files.
A method is its sequence of atomic actions (`Adai.Registry.Method.actions`), and
the processes interleave between them; the file lock is held by at most one. Run
without interference, the actions compute what the method computes
(`Adai.Registry.Method.alone_eq_method`).

The history records what each completed call promised: the records a commit
appended, the paths a re-queue or a deletion named.
-/

namespace Adai.Registry

inductive Action
  | loadRegistry
  | lock
  | loadPending
  | saveRegistry
  | savePending
  | unlock
  deriving DecidableEq, Repr

/-- A call of one of the methods, with its arguments. -/
inductive Method
  | commitTrained (runId : String) (newEntries : List DataVersion) (trainedPaths : List String)
      (trainedSegments : List SegmentTarget)
  | requeueTrained (paths : List String) (all : Bool) (modelName : String)
  | deletePaths (unlinked : String → Bool) (paths : List String) (force deleteFiles : Bool)
      (segments : List SegmentTarget)
  | acquire (runId : String) (maxFiles : Int) (modelName : String)
  | release (runId : String) (paths : List String) (segments : List SegmentTarget)
  | assign (modelName : String) (paths : List String) (count : Int)
      (segments : List SegmentTarget)
  | unassign (modelName : String) (paths : List String) (force : Bool)
      (segments : List SegmentTarget)

/-- The actions of a commit: both files are read and written under the lock. -/
def commitActions : List Action :=
  [.lock, .loadPending, .loadRegistry, .saveRegistry, .savePending, .unlock]

/-- The actions of a deletion or a re-queue: the registry is read before the lock
is taken and written after it is dropped. -/
def removalActions : List Action :=
  [.loadRegistry, .lock, .loadPending, .savePending, .unlock, .saveRegistry]

/-- The actions of a method that works on the queue alone. -/
def queueActions : List Action :=
  [.lock, .loadPending, .savePending, .unlock]

/-- A call that has nothing to do returns at once. -/
def Method.actions : Method → List Action
  | .commitTrained .. => commitActions
  | .requeueTrained paths all _ => if paths.isEmpty && !all then [] else removalActions
  | .deletePaths _ paths _ _ segments =>
      if paths.isEmpty && segments.isEmpty then [] else removalActions
  | .unassign modelName paths _ segments =>
      if paths.isEmpty && segments.isEmpty && modelName.isEmpty then [] else queueActions
  | .acquire .. | .release .. | .assign .. => queueActions

/-- A call in progress: the actions still to come, the copies it has loaded and
the outcome of its saves so far. -/
structure Call where
  method : Method
  rest : List Action
  registry : List DataVersion := []
  pending : List PendingEntry := []
  registrySaved : Bool := false
  pendingFailed : Bool := false

/-- The registry a call writes, when it writes one. -/
def Call.newRegistry (c : Call) : Option (List DataVersion) :=
  match c.method with
  | .commitTrained runId newEntries _ _ =>
      some (commitRegistry runId c.pending newEntries c.registry)
  | .requeueTrained paths all modelName =>
      let pass := requeueEntries modelName (requeueTargets paths all c.registry) c.pending c.registry
      if pass.changed && !c.pendingFailed then some pass.registry else none
  | .deletePaths unlinked paths force deleteFiles segments =>
      let pass := deleteTargets force deleteFiles unlinked (deleteWorklist paths segments)
        c.pending c.registry
      if pass.registryChanged then some pass.registry else none
  | _ => none

/-- The queue a call writes, when it writes one. -/
def Call.newPending (now : Int) (c : Call) : Option (List PendingEntry) :=
  match c.method with
  | .commitTrained runId _ trainedPaths trainedSegments =>
      some (commitPending runId trainedPaths trainedSegments c.pending)
  | .requeueTrained paths all modelName =>
      let pass := requeueEntries modelName (requeueTargets paths all c.registry) c.pending c.registry
      if pass.changed then some pass.pending else none
  | .deletePaths unlinked paths force deleteFiles segments =>
      let pass := deleteTargets force deleteFiles unlinked (deleteWorklist paths segments)
        c.pending c.registry
      if pass.pendingChanged then some pass.pending else none
  | .acquire runId maxFiles modelName =>
      let pass := LocalTransport.acquireEntries runId maxFiles modelName now c.pending
      if pass.acquired.isEmpty then none else some pass.entries
  | .release runId paths segments =>
      some (LocalTransport.releaseEntries runId paths segments c.pending)
  | .assign modelName paths count segments =>
      let pass := assignEntries modelName paths count segments c.pending
      if pass.paths.isEmpty && pass.segments.isEmpty then none else some pass.entries
  | .unassign modelName paths force segments =>
      let pass := unassignEntries modelName paths force segments c.pending
      if pass.paths.isEmpty && pass.segments.isEmpty then none else some pass.entries

/-- A save that is made only when there is something to write. -/
def Disk.storeRegistry (d : Disk) (saved : Bool) : Option (List DataVersion) → Disk
  | none => d
  | some entries => d.saveRegistry saved entries

def Disk.storePending (d : Disk) (saved : Bool) : Option (List PendingEntry) → Disk
  | none => d
  | some entries => d.savePending saved entries

/-- The effect of one action on the call's copies and on the files. -/
def Call.perform (c : Call) (action : Action) (ok : Bool) (now : Int) (d : Disk) : Call × Disk :=
  match action with
  | .loadRegistry => ({ c with registry := d.registry }, d)
  | .loadPending => ({ c with pending := d.pending }, d)
  | .saveRegistry =>
      ({ c with registrySaved := c.newRegistry.isSome && ok }, d.storeRegistry ok c.newRegistry)
  | .savePending =>
      ({ c with pendingFailed := (c.newPending now).isSome && !ok },
        d.storePending ok (c.newPending now))
  | .lock | .unlock => (c, d)

/-! ## Calls without interference -/

/-- Whether an action succeeds, given the outcomes of one call. -/
def IoOutcome.allows (io : IoOutcome) : Action → Bool
  | .lock => io.lockTaken
  | .saveRegistry => io.registrySaved
  | .savePending => io.pendingSaved
  | _ => true

/-- The actions one after the other; a lock that is not taken ends the call. -/
def Call.finish (io : IoOutcome) (now : Int) : List Action → Call → Disk → Disk
  | [], _, d => d
  | action :: rest, c, d =>
      if action = .lock && !io.lockTaken then d
      else
        let (c', d') := c.perform action (io.allows action) now d
        Call.finish io now rest c' d'

/-- The call run alone. -/
def Method.alone (m : Method) (io : IoOutcome) (now : Int) (d : Disk) : Disk :=
  Call.finish io now m.actions { method := m, rest := m.actions } d

/-- The files after the transport's method of that name. -/
def Method.run (m : Method) (io : IoOutcome) (now : Int) (d : Disk) : Disk :=
  match m with
  | .commitTrained runId newEntries trainedPaths trainedSegments =>
      LocalTransport.commitTrained io runId newEntries trainedPaths trainedSegments d
  | .requeueTrained paths all modelName => (LocalTransport.requeueTrained io paths all modelName d).2
  | .deletePaths unlinked paths force deleteFiles segments =>
      (LocalTransport.deletePaths io unlinked paths force deleteFiles segments d).2
  | .acquire runId maxFiles modelName => (LocalTransport.acquire io now runId maxFiles modelName d).2
  | .release runId paths segments => LocalTransport.release io runId paths segments d
  | .assign modelName paths count segments =>
      (LocalTransport.assign io modelName paths count segments d).2
  | .unassign modelName paths force segments =>
      (LocalTransport.unassign io modelName paths force segments d).2

/-- A method that works on the queue alone, action by action. -/
theorem Call.finish_queueActions (io : IoOutcome) (now : Int) (c : Call) (d : Disk) :
    Call.finish io now queueActions c d =
      if io.lockTaken then
        d.storePending io.pendingSaved (({ c with pending := d.pending } : Call).newPending now)
      else d := by
  cases locked : io.lockTaken <;>
    simp [Call.finish, queueActions, Call.perform, IoOutcome.allows, locked]

/-- A deletion or a re-queue, action by action. -/
theorem Call.finish_removalActions (io : IoOutcome) (now : Int) (c : Call) (d : Disk) :
    Call.finish io now removalActions c d =
      if io.lockTaken then
        let loaded : Call := { c with registry := d.registry, pending := d.pending }
        (d.storePending io.pendingSaved (loaded.newPending now)).storeRegistry io.registrySaved
          ({ loaded with
            pendingFailed := (loaded.newPending now).isSome && !io.pendingSaved } : Call).newRegistry
      else d := by
  cases locked : io.lockTaken <;>
    simp [Call.finish, removalActions, Call.perform, IoOutcome.allows, locked]

/-- **The actions compute the method.** -/
theorem Method.alone_eq_method (m : Method) (io : IoOutcome) (now : Int) (d : Disk) :
    m.alone io now d = m.run io now d := by
  unfold Method.alone
  cases m with
  | commitTrained runId newEntries trainedPaths trainedSegments =>
      cases locked : io.lockTaken <;>
        simp [Method.actions, commitActions, Call.finish, Call.perform, Call.newRegistry,
          Call.newPending, IoOutcome.allows, Method.run, LocalTransport.commitTrained,
          Disk.storeRegistry, Disk.storePending, locked]
  | requeueTrained paths all modelName =>
      unfold Method.actions Method.run LocalTransport.requeueTrained
      by_cases idle : (paths.isEmpty && !all) = true
      · simp only [idle, ↓reduceIte, Call.finish]
      · simp only [idle, Bool.false_eq_true, ↓reduceIte, Call.finish_removalActions,
          Call.newPending, Call.newRegistry]
        generalize requeueEntries modelName (requeueTargets paths all d.registry) d.pending
          d.registry = pass
        cases io.lockTaken <;> cases pass.changed <;> cases io.pendingSaved <;> rfl
  | deletePaths unlinked paths force deleteFiles segments =>
      unfold Method.actions Method.run LocalTransport.deletePaths
      by_cases idle : (paths.isEmpty && segments.isEmpty) = true
      · simp only [idle, ↓reduceIte, Call.finish]
      · simp only [idle, Bool.false_eq_true, ↓reduceIte, Call.finish_removalActions,
          Call.newPending, Call.newRegistry]
        generalize deleteTargets force deleteFiles unlinked (deleteWorklist paths segments)
          d.pending d.registry = pass
        cases io.lockTaken <;> cases pass.pendingChanged <;> cases pass.registryChanged <;> rfl
  | acquire runId maxFiles modelName =>
      refine (Call.finish_queueActions io now _ d).trans ?_
      simp only [Call.newPending, Method.run, LocalTransport.acquire]
      generalize LocalTransport.acquireEntries runId maxFiles modelName now d.pending = pass
      cases io.lockTaken <;> cases pass.acquired.isEmpty <;> cases io.pendingSaved <;> rfl
  | release runId paths segments =>
      refine (Call.finish_queueActions io now _ d).trans ?_
      simp only [Call.newPending, Method.run, LocalTransport.release]
      cases io.lockTaken <;> rfl
  | assign modelName paths count segments =>
      refine (Call.finish_queueActions io now _ d).trans ?_
      simp only [Call.newPending, Method.run, LocalTransport.assign]
      generalize assignEntries modelName paths count segments d.pending = pass
      cases io.lockTaken <;> cases pass.paths.isEmpty && pass.segments.isEmpty <;>
        cases io.pendingSaved <;> rfl
  | unassign modelName paths force segments =>
      unfold Method.actions Method.run LocalTransport.unassign
      by_cases idle : (paths.isEmpty && segments.isEmpty && modelName.isEmpty) = true
      · simp only [idle, ↓reduceIte, Call.finish]
      · simp only [idle, Bool.false_eq_true, ↓reduceIte, Call.finish_queueActions,
          Call.newPending]
        generalize unassignEntries modelName paths force segments d.pending = pass
        cases io.lockTaken <;> cases pass.paths.isEmpty && pass.segments.isEmpty <;>
          cases io.pendingSaved <;> rfl

/-! ## Interleaved calls -/

/-- What a completed call promised: the records that a commit appended, or the
paths that a re-queue or a deletion named. -/
inductive Completed
  | appended (records : List DataVersion)
  | named (paths : List String)
  | queueOnly
  deriving DecidableEq, Repr

/-- The records a commit appends to the copy it has loaded. -/
def Call.appended (c : Call) : List DataVersion :=
  match c.method with
  | .commitTrained runId newEntries _ _ => newEntries.filter (commitAccepts runId c.pending)
  | _ => []

/-- The paths a re-queue or a deletion names; a re-queue of everything names the
paths of the records it has loaded. -/
def Call.named (c : Call) : List String :=
  match c.method with
  | .requeueTrained paths all _ => requeueTargets paths all c.registry
  | .deletePaths _ paths _ _ segments => (deleteWorklist paths segments).map SegmentTarget.path
  | _ => []

/-- The entry of the history for a call that has returned. -/
def Call.completed (c : Call) : Completed :=
  match c.method with
  | .commitTrained .. => .appended (if c.registrySaved then c.appended else [])
  | .requeueTrained .. | .deletePaths .. => .named c.named
  | _ => .queueOnly

/-- The two files, the file lock, the calls in progress and the completed ones. -/
structure SharedDirectory (Pid : Type*) where
  disk : Disk
  lock : Option Pid
  calls : Pid → Option Call
  history : List Completed

/-- A process starts a method, or takes the next action of the one it runs. -/
inductive SharedLabel (Pid : Type*)
  | call (p : Pid) (method : Method)
  | act (p : Pid) (ok : Bool) (now : Int)

section System

variable {Pid : Type*} [DecidableEq Pid]

/-- Record the progress of a call; one without further actions has returned. -/
def SharedDirectory.settle (s : SharedDirectory Pid) (p : Pid) (c : Call) : SharedDirectory Pid :=
  if c.rest.isEmpty then
    { s with calls := Function.update s.calls p none, history := s.history ++ [c.completed] }
  else { s with calls := Function.update s.calls p (some c) }

/-- One step; a process waits while another holds the lock, and gives up its call
when the lock file cannot be opened. -/
def SharedDirectory.next (s : SharedDirectory Pid) : SharedLabel Pid → Option (SharedDirectory Pid)
  | .call p method =>
      if (s.calls p).isSome then none
      else some (s.settle p { method := method, rest := method.actions })
  | .act p ok now =>
      match s.calls p with
      | none => none
      | some c =>
          match c.rest with
          | [] => none
          | action :: rest =>
              match action with
              | .lock =>
                  if !ok then some { s with calls := Function.update s.calls p none }
                  else if s.lock.isSome then none
                  else some ({ s with lock := some p }.settle p { c with rest := rest })
              | .unlock => some ({ s with lock := none }.settle p { c with rest := rest })
              | action =>
                  let (performed, disk) := c.perform action ok now s.disk
                  some ({ s with disk := disk }.settle p { performed with rest := rest })

def SharedStep (before : SharedDirectory Pid) (label : SharedLabel Pid)
    (after : SharedDirectory Pid) : Prop :=
  before.next label = some after

end System

end Adai.Registry
