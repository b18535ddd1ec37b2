import Adai.Registry.LocalTransport

/-! # The registry server's request handlers

Every handler runs under its group's mutex: it loads the lists, makes one pass
over them and saves. A handler is a function of the parsed request, of what the
environment answers (`ServerEnv`), of the outcome of its saves and of the two
lists on disk. A save that fails ends the handler with status 500, and what was
saved before it stays saved.

Replies carry the data of the JSON objects the handlers write. The per-file
transfer tokens of an acquire are issued by the FTP server and left out; whether
an entry may be delivered is asked of the environment.
-/

namespace Adai.Registry

/-- Size and fingerprint of a file that the server can read. -/
structure LocalFileStat where
  sizeBytes : Nat
  checksum : String
  deriving DecidableEq, Repr

/-- What the server reads from its surroundings during one request. -/
structure ServerEnv where
  utcNowString : String := ""
  statLocalFile : String → Option LocalFileStat := fun _ => none
  countJsonlEntries : String → Int := fun _ => -1
  ftpActive : Bool := false
  resolvesUnderDataDir : String → Bool := fun _ => true
  unlinked : String → Bool := fun _ => false

/-- Settings fixed for the lifetime of the server process. -/
structure ServerConfig where
  group : String := ""
  claimLeaseSeconds : Int := 30 * 60
  serverStartUnix : Nat := 0
  deriving DecidableEq, Repr

inductive Response
  | acquired (files : List FileToken) (claimLeaseSeconds : Int)
  | released (count : Nat)
  | renewed (count : Nat) (claimLeaseSeconds : Int)
  | assigned (count : Nat) (paths : List String) (segments : List SegmentTarget)
  | unassigned (count skipped : Nat) (paths : List String) (segments : List SegmentTarget)
  | deleted (result : DeleteResult)
  | requeued (result : RequeueResult)
  | trained (count : Nat) (rejected : List String)
  | added
  | alreadyPending
  | error (status : Nat) (message : String)
  deriving DecidableEq, Repr

/-- The files a reply hands out. -/
def Response.files : Response → List FileToken
  | .acquired files _ => files
  | _ => []

/-- The reply to a save that failed. -/
def saveError (group what : String) : Response :=
  .error 500 ("could not save the " ++ what ++ " of group '" ++ group ++
    "'; nothing was changed there")

/-! ## acquire -/

structure AcquireRequest where
  runId : String
  modelName : String := ""
  maxFiles : Int := 0
  deriving DecidableEq, Repr

/-- A claim older than the lease; a claim without a time counts from the start
of the server. -/
def claimExpired (cfg : ServerConfig) (now : Int) (e : PendingEntry) : Bool :=
  if cfg.claimLeaseSeconds ≤ 0 || e.runId.isEmpty then false
  else
    let since := if 0 < e.claimedUnix then e.claimedUnix else (cfg.serverStartUnix : Int)
    decide (cfg.claimLeaseSeconds ≤ now - since)

/-- Unclaimed, claimed by the calling run, or claimed under an expired lease. -/
def serverClaimable (cfg : ServerConfig) (now : Int) (req : AcquireRequest)
    (e : PendingEntry) : Bool :=
  let expired := e.runId != req.runId && claimExpired cfg now e
  (e.runId.isEmpty || e.runId == req.runId || expired) && eligible req.modelName e

def ftpDeliverable (env : ServerEnv) (e : PendingEntry) : Bool :=
  !env.ftpActive || env.resolvesUnderDataDir e.path

def serverClaim (cfg : ServerConfig) (env : ServerEnv) (now : Int) (req : AcquireRequest)
    (entries : List PendingEntry) : ClaimPass :=
  claimLoop req.runId now (serverClaimable cfg now req) (ftpDeliverable env)
    (if 0 < req.maxFiles then req.maxFiles else (entries.length : Int)) entries 0

def handleAcquire (cfg : ServerConfig) (env : ServerEnv) (io : IoOutcome) (now : Int)
    (req : AcquireRequest) (d : Disk) : Response × Disk :=
  if req.runId.isEmpty then (.error 400 "run_id required", d)
  else
    let pass := serverClaim cfg env now req d.pending
    let reply := Response.acquired (pass.acquired.map PendingEntry.token) cfg.claimLeaseSeconds
    if pass.acquired.isEmpty then (reply, d)
    else if io.pendingSaved then (reply, d.savePending io.pendingSaved pass.entries)
    else (saveError cfg.group "pending queue", d)

/-! ## release and renew -/

structure ReleaseRequest where
  runId : String
  files : List String := []
  segments : List SegmentTarget := []
  deriving DecidableEq, Repr

/-- A release naming a run touches that run's claims only; one naming no run
touches any. -/
def releases (req : ReleaseRequest) (e : PendingEntry) : Bool :=
  if !req.runId.isEmpty && e.runId != req.runId then false
  else namesEntry req.files req.segments e

def handleRelease (cfg : ServerConfig) (io : IoOutcome) (req : ReleaseRequest) (d : Disk) :
    Response × Disk :=
  let entries := d.pending.map fun e =>
    if releases req e then { e with runId := "", claimedUnix := 0 } else e
  if io.pendingSaved then
    (.released (d.pending.countP (releases req)), d.savePending io.pendingSaved entries)
  else (saveError cfg.group "pending queue", d)

def handleRenew (cfg : ServerConfig) (io : IoOutcome) (now : Int) (runId : String) (d : Disk) :
    Response × Disk :=
  if runId.isEmpty then (.error 400 "run_id required", d)
  else
    let entries := d.pending.map fun e =>
      if e.runId == runId then { e with claimedUnix := now } else e
    let renewed := d.pending.countP fun e => e.runId == runId
    let reply := Response.renewed renewed cfg.claimLeaseSeconds
    if renewed = 0 then (reply, d)
    else if io.pendingSaved then (reply, d.savePending io.pendingSaved entries)
    else (saveError cfg.group "pending queue", d)

/-! ## assign and unassign -/

/-- `^[A-Za-z0-9._-]*$`. -/
def isSafeModelName (s : String) : Bool :=
  s.toList.all fun c => c.isAlphanum || c == '.' || c == '_' || c == '-'

structure AssignRequest where
  modelName : String
  paths : List String := []
  count : Int := 0
  segments : List SegmentTarget := []
  deriving DecidableEq, Repr

def handleAssign (cfg : ServerConfig) (io : IoOutcome) (req : AssignRequest) (d : Disk) :
    Response × Disk :=
  if !isSafeModelName req.modelName || req.modelName.isEmpty then
    (.error 400 "non-empty model_name matching [A-Za-z0-9._-]+ required", d)
  else
    let pass := assignEntries req.modelName req.paths req.count req.segments d.pending
    let total := pass.paths.length + pass.segments.length
    let reply := Response.assigned total pass.paths pass.segments
    if total = 0 then (reply, d)
    else if io.pendingSaved then (reply, d.savePending io.pendingSaved pass.entries)
    else (saveError cfg.group "pending queue", d)

structure UnassignRequest where
  modelName : String := ""
  paths : List String := []
  force : Bool := false
  segments : List SegmentTarget := []
  deriving DecidableEq, Repr

def handleUnassign (cfg : ServerConfig) (io : IoOutcome) (req : UnassignRequest) (d : Disk) :
    Response × Disk :=
  if req.paths.isEmpty && req.segments.isEmpty && req.modelName.isEmpty then
    (.error 400 "paths, segments, or model_name (or a combination) required", d)
  else if !req.modelName.isEmpty && !isSafeModelName req.modelName then
    (.error 400 "model_name must match [A-Za-z0-9._-]+", d)
  else
    let pass := unassignEntries req.modelName req.paths req.force req.segments d.pending
    let total := pass.paths.length + pass.segments.length
    let reply := Response.unassigned total pass.skipped pass.paths pass.segments
    if total = 0 then (reply, d)
    else if io.pendingSaved then (reply, d.savePending io.pendingSaved pass.entries)
    else (saveError cfg.group "pending queue", d)

/-! ## delete and requeue -/

structure DeleteRequest where
  paths : List String := []
  force : Bool := false
  deleteFiles : Bool := false
  segments : List SegmentTarget := []
  deriving DecidableEq, Repr

/-- The queue is saved before the registry; a failed save of either ends the
request. -/
def handleDelete (cfg : ServerConfig) (env : ServerEnv) (io : IoOutcome) (req : DeleteRequest)
    (d : Disk) : Response × Disk :=
  if req.paths.isEmpty && req.segments.isEmpty then
    (.error 400 "paths or segments required", d)
  else
    let pass := deleteTargets req.force req.deleteFiles env.unlinked
      (deleteWorklist req.paths req.segments) d.pending d.registry
    if pass.pendingChanged && !io.pendingSaved then (saveError cfg.group "pending queue", d)
    else
      let dequeued := if pass.pendingChanged then d.savePending true pass.pending else d
      if pass.registryChanged && !io.registrySaved then
        (saveError cfg.group "trained registry", dequeued)
      else
        (.deleted pass.result,
          if pass.registryChanged then dequeued.saveRegistry true pass.registry else dequeued)

structure RequeueRequest where
  paths : List String := []
  all : Bool := false
  modelName : String := ""
  deriving DecidableEq, Repr

def handleRequeue (cfg : ServerConfig) (io : IoOutcome) (req : RequeueRequest) (d : Disk) :
    Response × Disk :=
  if req.paths.isEmpty && !req.all then (.error 400 "paths or all:true required", d)
  else
    let (result, after) := LocalTransport.requeueTrained io req.paths req.all req.modelName d
    if result.ok then (.requeued result, after)
    else (.error 500 ("could not save the requeue in group '" ++ cfg.group ++ "'"), after)

/-! ## trained -/

/-- The body of a commit: `segmentStarts` and `segmentCounts` are empty when the
client did not send them. -/
structure TrainedRequest where
  runId : String
  modelId : String := ""
  files : List String := []
  samples : List Int := []
  segmentStarts : List Int := []
  segmentCounts : List Int := []
  deriving DecidableEq, Repr

/-- The ranges are aligned with the files. -/
def TrainedRequest.exact (req : TrainedRequest) : Bool :=
  decide (req.segmentStarts.length = req.files.length) &&
    decide (req.segmentCounts.length = req.files.length) && !req.files.isEmpty

/-- Position `i` of the request's aligned lists. -/
structure ReportedUnit where
  file : String
  samples : Int := 0
  segmentStart : Int := -1
  segmentCount : Int := -1
  deriving DecidableEq, Repr

def TrainedRequest.reported (req : TrainedRequest) : List ReportedUnit :=
  req.files.zipIdx.map fun (file, i) =>
    { file := file
      samples := req.samples.getD i 0
      segmentStart := if req.exact then req.segmentStarts.getD i (-1) else -1
      segmentCount := if req.exact then req.segmentCounts.getD i (-1) else -1 }

/-- The caller holds a claim on the reported unit (on any entry of the path, when
the request carries no ranges). -/
def claimedByCaller (req : TrainedRequest) (pending : List PendingEntry) (u : ReportedUnit) : Bool :=
  pending.any fun e =>
    if e.runId != req.runId then false
    else if req.exact then segmentMatches e u.file u.segmentStart u.segmentCount
    else e.path == u.file

/-- The record made for a reported unit; source and time come from the last
pending entry of the path. -/
def trainedRecord (env : ServerEnv) (req : TrainedRequest) (pending : List PendingEntry)
    (u : ReportedUnit) : DataVersion :=
  let origin := (pending.filter fun e => e.path == u.file).getLast?
  let addedUtc := (origin.map PendingEntry.addedUtc).getD ""
  { dataFile := u.file
    checksum := ((env.statLocalFile u.file).map LocalFileStat.checksum).getD "REMOTE"
    numSamples := u.samples
    trained := true
    modelId := req.modelId
    addedUtc := if addedUtc.isEmpty then env.utcNowString else addedUtc
    source := (origin.map PendingEntry.source).getD ""
    segmentStart := u.segmentStart
    segmentCount := u.segmentCount }

structure TrainedPass where
  registry : List DataVersion
  recordedNow : List (String × Int × Int) := []
  rejected : List String := []
  trained : Nat := 0
  deriving DecidableEq, Repr

/-- One reported unit: skipped when listed before, recorded when the caller
claims it (or, without a run id, when it is not recorded yet), else rejected. -/
def trainedStep (env : ServerEnv) (req : TrainedRequest) (pending : List PendingEntry)
    (st : TrainedPass) (u : ReportedUnit) : TrainedPass :=
  let key := (u.file, u.segmentStart, u.segmentCount)
  if st.recordedNow.contains key then st
  else
    let mayRecord :=
      if req.runId.isEmpty then
        !st.registry.any fun dv => trainedMatches dv u.file u.segmentStart u.segmentCount
      else claimedByCaller req pending u
    if mayRecord then
      { st with
        registry := st.registry ++ [trainedRecord env req pending u]
        recordedNow := st.recordedNow ++ [key]
        trained := st.trained + 1 }
    else if req.runId.isEmpty then st
    else { st with rejected := st.rejected ++ [u.file] }

def trainedPass (env : ServerEnv) (req : TrainedRequest) (d : Disk) : TrainedPass :=
  req.reported.foldl (trainedStep env req d.pending) { registry := d.registry }

/-- Whether a commit takes this entry off the server's queue. -/
def trainedRemoves (req : TrainedRequest) (e : PendingEntry) : Bool :=
  if !req.runId.isEmpty && e.runId != req.runId then false
  else if !req.exact then req.files.contains e.path
  else req.reported.any fun u => segmentMatches e u.file u.segmentStart u.segmentCount

/-- The registry is saved before the queue. -/
def handleTrained (cfg : ServerConfig) (env : ServerEnv) (io : IoOutcome) (req : TrainedRequest)
    (d : Disk) : Response × Disk :=
  let pass := trainedPass env req d
  if !io.registrySaved then (saveError cfg.group "trained registry", d)
  else
    let recorded := d.saveRegistry io.registrySaved pass.registry
    if !io.pendingSaved then (saveError cfg.group "pending queue", recorded)
    else
      (.trained pass.trained pass.rejected,
        recorded.savePending io.pendingSaved
          (d.pending.filter fun e => !trainedRemoves req e))

/-! ## pending/add -/

/-- A queued path is not empty and has no control character. -/
def registryPathProblem (path : String) : String :=
  if path.isEmpty then "path is empty"
  else if path.toList.any fun c => c.val < 0x20 || (0x7F ≤ c.val && c.val ≤ 0x9F) then
    "path contains a control character (tab, newline, ...)"
  else ""

structure AddRequest where
  path : String
  source : String := "manual"
  knownNumEntries : Int := -1
  segmentStart : Int := -1
  segmentCount : Int := -1
  deriving DecidableEq, Repr

/-- The entry queued for a new unit. -/
def addedEntry (env : ServerEnv) (req : AddRequest) : PendingEntry :=
  let stat := env.statLocalFile req.path
  { path := req.path
    source := req.source
    addedUtc := env.utcNowString
    sizeBytes := (stat.map LocalFileStat.sizeBytes).getD 0
    numEntries :=
      if 0 ≤ req.segmentStart then req.segmentCount
      else if 0 ≤ req.knownNumEntries then req.knownNumEntries
      else env.countJsonlEntries req.path
    checksum := (stat.map LocalFileStat.checksum).getD ""
    segmentStart := req.segmentStart
    segmentCount := req.segmentCount }

/-- The shared queueing helper of `pending/add`, the fetches and the upload. -/
def addPendingPathLocked (cfg : ServerConfig) (env : ServerEnv) (io : IoOutcome) (req : AddRequest)
    (d : Disk) : Response × Disk :=
  if d.pending.any fun e => segmentMatches e req.path req.segmentStart req.segmentCount then
    (.alreadyPending, d)
  else if io.pendingSaved then
    (.added, d.savePending io.pendingSaved (d.pending ++ [addedEntry env req]))
  else (saveError cfg.group "pending queue", d)

def handlePendingAdd (cfg : ServerConfig) (env : ServerEnv) (io : IoOutcome) (req : AddRequest)
    (d : Disk) : Response × Disk :=
  if req.path.isEmpty then (.error 400 "path required", d)
  else if registryPathProblem req.path ≠ "" then (.error 400 (registryPathProblem req.path), d)
  else addPendingPathLocked cfg env io { req with source := "manual", knownNumEntries := -1 } d

/-! ## The server as a transition system -/

inductive Request
  | acquire (req : AcquireRequest)
  | renew (runId : String)
  | release (req : ReleaseRequest)
  | trained (req : TrainedRequest)
  | assign (req : AssignRequest)
  | unassign (req : UnassignRequest)
  | delete (req : DeleteRequest)
  | requeue (req : RequeueRequest)
  | pendingAdd (req : AddRequest)
  | fetched (req : AddRequest)
  deriving DecidableEq, Repr

def handle (cfg : ServerConfig) (env : ServerEnv) (io : IoOutcome) (now : Int) :
    Request → Disk → Response × Disk
  | .acquire req => handleAcquire cfg env io now req
  | .renew runId => handleRenew cfg io now runId
  | .release req => handleRelease cfg io req
  | .trained req => handleTrained cfg env io req
  | .assign req => handleAssign cfg io req
  | .unassign req => handleUnassign cfg io req
  | .delete req => handleDelete cfg env io req
  | .requeue req => handleRequeue cfg io req
  | .pendingAdd req => handlePendingAdd cfg env io req
  | .fetched req => addPendingPathLocked cfg env io req

/-- The lists of one group and the clock, in seconds of Unix time. -/
structure ServerState where
  disk : Disk
  nowUnix : Nat
  deriving DecidableEq, Repr

inductive ServerLabel
  | request (env : ServerEnv) (io : IoOutcome) (req : Request)
  | clock (seconds : Nat)

/-- A step serves one request or lets time pass. -/
def ServerState.next (cfg : ServerConfig) (s : ServerState) : ServerLabel → ServerState
  | .request env io req => { s with disk := (handle cfg env io s.nowUnix req s.disk).2 }
  | .clock seconds => { s with nowUnix := s.nowUnix + seconds }

def ServerStep (cfg : ServerConfig) (before : ServerState) (label : ServerLabel)
    (after : ServerState) : Prop :=
  after = before.next cfg label

end Adai.Registry
