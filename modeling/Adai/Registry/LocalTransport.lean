import Mathlib.Algebra.Ring.Int.Defs
import Adai.Registry.Types

/-! # The flat-file transport

Each method of the local transport is a load of the lists it needs, a pass over
them, and the saves. The passes are separate functions, because the registry
server runs the same loops under its own guards and because the methods are
later cut into the steps that other processes can interleave with.

A method is given the outcome of its file operations (`IoOutcome`): whether the
lock was taken and whether each save succeeded. Lists are shorter than `2 ^ 31`,
so the casts of their sizes to `int` are exact, and no path handed to a deletion
is another spelling of the transport's own two files.
-/

namespace Adai.Registry

/-- What the file system answers during one method. -/
structure IoOutcome where
  lockTaken : Bool := true
  registrySaved : Bool := true
  pendingSaved : Bool := true
  deriving DecidableEq, Repr

/-! ## Claiming -/

/-- The result of a pass that claims entries: the queue, the entries claimed, in
order, and the paths refused for delivery. -/
structure ClaimPass where
  entries : List PendingEntry
  acquired : List PendingEntry
  rejected : List String
  deriving DecidableEq, Repr

/-- The claiming loop shared by both back ends: an entry that may be claimed is
taken for `runId` while fewer than `limit` have been. -/
def claimLoop (runId : String) (now : Int) (claimable deliverable : PendingEntry → Bool)
    (limit : Int) : List PendingEntry → Nat → ClaimPass
  | [], _ => ⟨[], [], []⟩
  | e :: rest, taken =>
      if claimable e && decide ((taken : Int) < limit) then
        if deliverable e then
          let claimed := { e with runId := runId, claimedUnix := now }
          let pass := claimLoop runId now claimable deliverable limit rest (taken + 1)
          ⟨claimed :: pass.entries, claimed :: pass.acquired, pass.rejected⟩
        else
          let pass := claimLoop runId now claimable deliverable limit rest taken
          ⟨e :: pass.entries, pass.acquired, e.path :: pass.rejected⟩
      else
        let pass := claimLoop runId now claimable deliverable limit rest taken
        ⟨e :: pass.entries, pass.acquired, pass.rejected⟩

/-- An entry is open to a model when it is unassigned or assigned to it. -/
def eligible (modelName : String) (e : PendingEntry) : Bool :=
  e.modelName.isEmpty || e.modelName == modelName

/-- What an acquire hands to its caller for one entry, on direct file access. -/
structure FileToken where
  registryPath : String
  segmentStart : Int := -1
  segmentCount : Int := -1
  deriving DecidableEq, Repr

def PendingEntry.token (e : PendingEntry) : FileToken :=
  ⟨e.path, e.segmentStart, e.segmentCount⟩

structure AcquireResponse where
  runId : String
  files : List FileToken := []
  failed : Bool := false
  claimLeaseSeconds : Int := 0
  deriving DecidableEq, Repr

/-! ## Releasing -/

/-- Whether a release request names this entry: whole-file paths name whole-file
entries, segment targets their own range. -/
def namesEntry (paths : List String) (segments : List SegmentTarget) (e : PendingEntry) : Bool :=
  (decide (e.segmentStart < 0) && paths.contains e.path) ||
    segments.any fun t => segmentMatches e t.path t.segmentStart t.segmentCount

/-! ## Assigning models -/

/-- Apply an update to the first element that satisfies a test. -/
def updateFirst {α : Type*} (test : α → Bool) (update : α → α) : List α → List α
  | [] => []
  | a :: rest => if test a then update a :: rest else a :: updateFirst test update rest

structure AssignPass where
  entries : List PendingEntry
  paths : List String := []
  segments : List SegmentTarget := []
  deriving DecidableEq, Repr

/-- The segment targets of an assignment, one after the other. -/
def assignSegments (modelName : String) :
    List SegmentTarget → List PendingEntry → AssignPass
  | [], entries => ⟨entries, [], []⟩
  | t :: targets, entries =>
      let hit := fun e => segmentMatches e t.path t.segmentStart t.segmentCount
      let pass := assignSegments modelName targets
        (updateFirst hit (fun e => { e with modelName := modelName }) entries)
      { pass with segments := if entries.any hit then t :: pass.segments else pass.segments }

/-- The pass over the queue of an assignment without segment targets: by path,
by count, or over every entry. -/
def assignLoop (modelName : String) (paths : List String) (count : Int) :
    List PendingEntry → Nat → AssignPass
  | [], _ => ⟨[], [], []⟩
  | e :: rest, assigned =>
      let byPaths := !paths.isEmpty
      let byCount := !byPaths && decide (0 < count)
      if byCount && decide (count ≤ (assigned : Int)) then ⟨e :: rest, [], []⟩
      else
        let found :=
          if byPaths then decide (e.segmentStart < 0) && paths.contains e.path
          else if byCount then decide (e.segmentStart < 0) && e.modelName.isEmpty
          else true
        if found then
          let pass := assignLoop modelName paths count rest (assigned + 1)
          ⟨{ e with modelName := modelName } :: pass.entries, e.path :: pass.paths, []⟩
        else
          let pass := assignLoop modelName paths count rest assigned
          ⟨e :: pass.entries, pass.paths, []⟩

def assignEntries (modelName : String) (paths : List String) (count : Int)
    (segments : List SegmentTarget) (entries : List PendingEntry) : AssignPass :=
  if segments.isEmpty then assignLoop modelName paths count entries 0
  else assignSegments modelName segments entries

structure UnassignPass where
  entries : List PendingEntry
  skipped : Nat := 0
  paths : List String := []
  segments : List SegmentTarget := []
  deriving DecidableEq, Repr

/-- An entry claimed by a run keeps its model unless the caller forces it. -/
def guarded (force : Bool) (e : PendingEntry) : Bool :=
  !e.runId.isEmpty && !force

def unassignSegments (modelName : String) (force : Bool) :
    List SegmentTarget → List PendingEntry → UnassignPass
  | [], entries => ⟨entries, 0, [], []⟩
  | t :: targets, entries =>
      let hit := fun e => segmentMatches e t.path t.segmentStart t.segmentCount &&
        (modelName.isEmpty || e.modelName == modelName)
      match entries.find? hit with
      | none => unassignSegments modelName force targets entries
      | some e =>
          if guarded force e then
            let pass := unassignSegments modelName force targets entries
            { pass with skipped := pass.skipped + 1 }
          else
            let pass := unassignSegments modelName force targets
              (updateFirst hit (fun e => { e with modelName := "" }) entries)
            { pass with segments := t :: pass.segments }

def unassignLoop (modelName : String) (paths : List String) (force : Bool) :
    List PendingEntry → UnassignPass
  | [] => ⟨[], 0, [], []⟩
  | e :: rest =>
      let pass := unassignLoop modelName paths force rest
      let found :=
        if paths.isEmpty then e.modelName == modelName
        else decide (e.segmentStart < 0) && paths.contains e.path &&
          (modelName.isEmpty || e.modelName == modelName)
      if !found then { pass with entries := e :: pass.entries }
      else if guarded force e then
        { pass with entries := e :: pass.entries, skipped := pass.skipped + 1 }
      else
        { pass with entries := { e with modelName := "" } :: pass.entries,
                    paths := e.path :: pass.paths }

def unassignEntries (modelName : String) (paths : List String) (force : Bool)
    (segments : List SegmentTarget) (entries : List PendingEntry) : UnassignPass :=
  if segments.isEmpty then unassignLoop modelName paths force entries
  else unassignSegments modelName force segments entries

/-! ## Committing trained units -/

/-- Whether a new record is taken: with a run id, only when that run claims the
unit; a whole-file record needs a claim on any entry of the path. -/
def commitAccepts (runId : String) (pending : List PendingEntry) (e : DataVersion) : Bool :=
  runId.isEmpty || pending.any fun p =>
    p.runId == runId &&
      (if e.segmentStart < 0 then p.path == e.dataFile
       else segmentMatches p e.dataFile e.segmentStart e.segmentCount)

def commitRegistry (runId : String) (pending : List PendingEntry)
    (newEntries registry : List DataVersion) : List DataVersion :=
  registry ++ newEntries.filter (commitAccepts runId pending)

/-- Whether a commit takes this entry off the queue. Without segment targets
every entry sharing a trained path goes, with them the trained units exactly. -/
def commitRemoves (runId : String) (trainedPaths : List String)
    (trainedSegments : List SegmentTarget) (e : PendingEntry) : Bool :=
  if !runId.isEmpty && e.runId != runId then false
  else if trainedSegments.isEmpty then trainedPaths.contains e.path
  else if e.segmentStart < 0 then trainedPaths.contains e.path
  else trainedSegments.any fun t => segmentMatches e t.path t.segmentStart t.segmentCount

def commitPending (runId : String) (trainedPaths : List String)
    (trainedSegments : List SegmentTarget) (pending : List PendingEntry) : List PendingEntry :=
  pending.filter fun e => !commitRemoves runId trainedPaths trainedSegments e

/-! ## Deleting -/

structure DeleteDetail where
  path : String
  status : String
  fileDeleted : Bool := false
  segmentStart : Int := -1
  segmentCount : Int := -1
  deriving DecidableEq, Repr

structure DeleteResult where
  deleted : Nat := 0
  skipped : Nat := 0
  notFound : Nat := 0
  details : List DeleteDetail := []
  deriving DecidableEq, Repr

/-- The lists a deletion works on, what it has changed and its report. -/
structure DeletePass where
  pending : List PendingEntry
  registry : List DataVersion
  pendingChanged : Bool := false
  registryChanged : Bool := false
  result : DeleteResult := {}
  deriving DecidableEq, Repr

/-- A whole-file target removes every trained record of its path, a segment
target exactly its own. -/
def deletesRecord (t : SegmentTarget) (dv : DataVersion) : Bool :=
  if t.segmentStart < 0 then dv.dataFile == t.path
  else trainedMatches dv t.path t.segmentStart t.segmentCount

def DeleteResult.report (r : DeleteResult) (t : SegmentTarget) (status : String)
    (fileDeleted : Bool) : DeleteResult :=
  { r with details := r.details ++ [⟨t.path, status, fileDeleted, t.segmentStart, t.segmentCount⟩] }

/-- One target of a deletion. `unlinked path` says whether the physical file is
removed when the caller asks for it; a segment target never unlinks. -/
def deleteTarget (force deleteFiles : Bool) (unlinked : String → Bool) (st : DeletePass)
    (t : SegmentTarget) : DeletePass :=
  let hit := fun e => segmentMatches e t.path t.segmentStart t.segmentCount
  let entry := st.pending.find? hit
  let blocked := entry.any (guarded force)
  let registry := st.registry.filter fun dv => !deletesRecord t dv
  let recordFound := decide (registry.length ≠ st.registry.length)
  let moved : DeletePass :=
    { st with
      pending := if entry.isSome && !blocked then st.pending.eraseP hit else st.pending
      pendingChanged := st.pendingChanged || (entry.isSome && !blocked)
      registry := registry
      registryChanged := st.registryChanged || recordFound }
  if blocked then
    { moved with result := { (st.result.report t "skipped_active_run" false) with
        skipped := st.result.skipped + 1 } }
  else if entry.isSome || recordFound then
    { moved with result := { (st.result.report t "deleted"
        (deleteFiles && decide (t.segmentStart < 0) && unlinked t.path)) with
        deleted := st.result.deleted + 1 } }
  else
    { moved with result := { (st.result.report t "not_found" false) with
        notFound := st.result.notFound + 1 } }

/-- Whole-file paths and segment targets form one worklist. -/
def deleteWorklist (paths : List String) (segments : List SegmentTarget) : List SegmentTarget :=
  paths.map (fun p => ⟨p, -1, -1⟩) ++ segments

def deleteTargets (force deleteFiles : Bool) (unlinked : String → Bool)
    (targets : List SegmentTarget) (pending : List PendingEntry)
    (registry : List DataVersion) : DeletePass :=
  targets.foldl (deleteTarget force deleteFiles unlinked) { pending, registry }

/-! ## Re-queueing -/

structure RequeueResult where
  requeued : Nat := 0
  alreadyPending : Nat := 0
  notFound : Nat := 0
  ok : Bool := true
  details : List (String × String) := []
  deriving DecidableEq, Repr

structure RequeuePass where
  pending : List PendingEntry
  registry : List DataVersion
  changed : Bool := false
  result : RequeueResult := {}
  deriving DecidableEq, Repr

/-- The pending entry a trained record comes back as. -/
def requeuedEntry (modelName path : String) (dv : DataVersion) : PendingEntry :=
  { path := path, modelName := modelName, source := dv.source, addedUtc := dv.addedUtc,
    checksum := dv.checksum, segmentStart := dv.segmentStart, segmentCount := dv.segmentCount }

/-- One trained record of the path goes back to the queue, unless its unit is
already there. -/
def requeueRecord (modelName path : String) (st : RequeuePass) (dv : DataVersion) : RequeuePass :=
  if st.pending.any fun e => segmentMatches e path dv.segmentStart dv.segmentCount then
    { st with changed := true, result := { st.result with
        alreadyPending := st.result.alreadyPending + 1
        details := st.result.details ++ [(path, "already_pending")] } }
  else
    { st with
      pending := st.pending ++ [requeuedEntry modelName path dv]
      changed := true
      result := { st.result with
        requeued := st.result.requeued + 1
        details := st.result.details ++ [(path, "requeued")] } }

/-- Every trained record of one path is re-queued and leaves the registry. -/
def requeuePath (modelName : String) (st : RequeuePass) (path : String) : RequeuePass :=
  let records := st.registry.filter fun dv => dv.dataFile == path
  let kept := st.registry.filter fun dv => dv.dataFile != path
  if records.isEmpty then
    { st with result := { st.result with
        notFound := st.result.notFound + 1
        details := st.result.details ++ [(path, "not_found")] } }
  else records.foldl (requeueRecord modelName path) { st with registry := kept }

/-- The paths to re-queue, without repetition: the listed ones, or all recorded. -/
def requeueTargets (paths : List String) (all : Bool) (registry : List DataVersion) :
    List String :=
  if all then (registry.map DataVersion.dataFile).eraseDups else paths.eraseDups

def requeueEntries (modelName : String) (targets : List String) (pending : List PendingEntry)
    (registry : List DataVersion) : RequeuePass :=
  targets.foldl (requeuePath modelName) { pending, registry }

/-! ## The methods -/

namespace LocalTransport

/-- `std::numeric_limits<int>::max()`. -/
def intMax : Int := 2 ^ 31 - 1

def acquireLimit (maxFiles : Int) : Int :=
  if 0 < maxFiles then maxFiles else intMax

/-- The claiming pass of the local transport: unclaimed entries and the run's own. -/
def acquireEntries (runId : String) (maxFiles : Int) (modelName : String) (now : Int)
    (entries : List PendingEntry) : ClaimPass :=
  claimLoop runId now
    (fun e => (e.runId.isEmpty || e.runId == runId) && eligible modelName e)
    (fun _ => true) (acquireLimit maxFiles) entries 0

def acquire (io : IoOutcome) (now : Int) (runId : String) (maxFiles : Int) (modelName : String)
    (d : Disk) : AcquireResponse × Disk :=
  if !io.lockTaken then ({ runId := runId, failed := true }, d)
  else
    let pass := acquireEntries runId maxFiles modelName now d.pending
    if pass.acquired.isEmpty then ({ runId := runId }, d)
    else if io.pendingSaved then
      ({ runId := runId, files := pass.acquired.map PendingEntry.token },
        d.savePending io.pendingSaved pass.entries)
    else ({ runId := runId, failed := true }, d)

/-- The local release clears the run of the named entries that the run holds and
leaves the claim time. -/
def releaseEntries (runId : String) (paths : List String) (segments : List SegmentTarget)
    (entries : List PendingEntry) : List PendingEntry :=
  entries.map fun e =>
    if e.runId == runId && namesEntry paths segments e then { e with runId := "" } else e

def release (io : IoOutcome) (runId : String) (paths : List String)
    (segments : List SegmentTarget) (d : Disk) : Disk :=
  if !io.lockTaken then d
  else d.savePending io.pendingSaved (releaseEntries runId paths segments d.pending)

/-- Both files are rewritten under the lock; a failed save is logged, and the
method goes on. -/
def commitTrained (io : IoOutcome) (runId : String) (newEntries : List DataVersion)
    (trainedPaths : List String) (trainedSegments : List SegmentTarget) (d : Disk) : Disk :=
  if !io.lockTaken then d
  else
    let recorded := d.saveRegistry io.registrySaved
      (commitRegistry runId d.pending newEntries d.registry)
    recorded.savePending io.pendingSaved
      (commitPending runId trainedPaths trainedSegments d.pending)

def assign (io : IoOutcome) (modelName : String) (paths : List String) (count : Int)
    (segments : List SegmentTarget) (d : Disk) : AssignPass × Disk :=
  if !io.lockTaken then (⟨d.pending, [], []⟩, d)
  else
    let pass := assignEntries modelName paths count segments d.pending
    if pass.paths.isEmpty && pass.segments.isEmpty then (pass, d)
    else if io.pendingSaved then (pass, d.savePending io.pendingSaved pass.entries)
    else (⟨d.pending, [], []⟩, d)

def unassign (io : IoOutcome) (modelName : String) (paths : List String) (force : Bool)
    (segments : List SegmentTarget) (d : Disk) : UnassignPass × Disk :=
  if paths.isEmpty && segments.isEmpty && modelName.isEmpty then (⟨d.pending, 0, [], []⟩, d)
  else if !io.lockTaken then (⟨d.pending, 0, [], []⟩, d)
  else
    let pass := unassignEntries modelName paths force segments d.pending
    if pass.paths.isEmpty && pass.segments.isEmpty then (pass, d)
    else if io.pendingSaved then (pass, d.savePending io.pendingSaved pass.entries)
    else (⟨d.pending, pass.skipped, [], []⟩, d)

def deletePaths (io : IoOutcome) (unlinked : String → Bool) (paths : List String)
    (force deleteFiles : Bool) (segments : List SegmentTarget) (d : Disk) : DeleteResult × Disk :=
  if paths.isEmpty && segments.isEmpty then ({}, d)
  else if !io.lockTaken then ({}, d)
  else
    let pass := deleteTargets force deleteFiles unlinked (deleteWorklist paths segments)
      d.pending d.registry
    let dequeued := if pass.pendingChanged then d.savePending io.pendingSaved pass.pending else d
    (pass.result,
      if pass.registryChanged then dequeued.saveRegistry io.registrySaved pass.registry
      else dequeued)

/-- The queue is written first; the registry only after that save succeeded. -/
def requeueTrained (io : IoOutcome) (paths : List String) (all : Bool) (modelName : String)
    (d : Disk) : RequeueResult × Disk :=
  if paths.isEmpty && !all then ({}, d)
  else if !io.lockTaken then ({ ok := false }, d)
  else
    let pass := requeueEntries modelName (requeueTargets paths all d.registry) d.pending d.registry
    if !pass.changed then (pass.result, d)
    else if !io.pendingSaved then ({ pass.result with ok := false }, d)
    else
      ({ pass.result with ok := io.registrySaved },
        (d.savePending io.pendingSaved pass.pending).saveRegistry io.registrySaved pass.registry)

end LocalTransport

end Adai.Registry
