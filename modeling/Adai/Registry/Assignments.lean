import Adai.Math.TransitionSystem
import Adai.Registry.QueueChanges
import Adai.Registry.SharedDirectory

/-! # Distinct units and respected assignments

The server's handlers, its uploads and the local transport's methods may run in
any order on one data directory. Whatever the order, no unit is queued twice, an
entry assigned to a model is never given to a run of another, and an assignment
ends only by an assign, an unassign or with the entry
(`Adai.Registry.assignments_respected`).
-/

namespace Adai.Registry

open TransitionSystem

/-! ## Adding through the local transport -/

namespace LocalTransport

/-- The method answers `true` for a unit that is queued already. -/
def addPending (io : IoOutcome) (path : String) (segmentStart segmentCount : Int) (d : Disk) :
    Bool × Disk :=
  if registryPathProblem path ≠ "" then (false, d)
  else if !io.lockTaken then (false, d)
  else if d.pending.any fun e => segmentMatches e path segmentStart segmentCount then (true, d)
  else (io.pendingSaved, d.savePending io.pendingSaved
    (d.pending ++ [{ path := path, segmentStart := segmentStart, segmentCount := segmentCount }]))

end LocalTransport

/-! ## Uploads -/

structure UploadRequest where
  filename : String
  bodyEmpty : Bool := false
  overwrite : Bool := false
  deriving DecidableEq, Repr

/-- Where uploads are stored and how the writes of one upload end. -/
structure UploadStore where
  dir : String
  written : Bool := true
  moved : Bool := true
  deriving DecidableEq, Repr

inductive UploadResponse
  | stored (replaced : Bool) (path : String)
  | refused (reason path : String)
  | writeFailed
  | error (status : Nat) (message : String)
  deriving DecidableEq, Repr

def isSafeUploadFilename (s : String) : Bool :=
  !(s.isEmpty || s == "." || s == ".." || s.contains '/' || s.contains '\\')

/-- What an upload refreshes of an entry whose file it replaced. -/
def refreshEntry (env : ServerEnv) (path : String) (e : PendingEntry) : PendingEntry :=
  let stat := env.statLocalFile path
  { e with
    sizeBytes := (stat.map LocalFileStat.sizeBytes).getD e.sizeBytes
    checksum := (stat.map LocalFileStat.checksum).getD e.checksum
    numEntries := env.countJsonlEntries path
    addedUtc := env.utcNowString }

/-- Why an upload may not replace the file: a claim, a trained record or entries
that a new version would break. -/
def uploadRefusal (overwrite : Bool) (path : String) (d : Disk) : Option String :=
  let queued := d.pending.filter fun e => e.path == path
  let queuedWhole := queued.any fun e => decide (e.segmentStart < 0)
  if queued.any fun e => !e.runId.isEmpty then some "claimed"
  else if (d.registry.any fun dv => dv.dataFile == path) && !overwrite then some "trained"
  else if !queued.isEmpty && !overwrite then some "already_queued"
  else if !queued.isEmpty && (decide (1 < queued.length) || !queuedWhole) then some "segmented"
  else none

def handleUpload (cfg : ServerConfig) (env : ServerEnv) (io : IoOutcome) (store : UploadStore)
    (req : UploadRequest) (d : Disk) : UploadResponse × Disk :=
  if !isSafeUploadFilename req.filename then
    (.error 400 "filename must be a bare basename with no path separators", d)
  else if registryPathProblem req.filename ≠ "" then
    (.error 400 ("filename: " ++ registryPathProblem req.filename), d)
  else if req.bodyEmpty then (.error 400 "empty request body", d)
  else
    let path := store.dir ++ "/" ++ req.filename
    if !store.written then (.writeFailed, d)
    else
      match uploadRefusal req.overwrite path d with
      | some reason => (.refused reason path, d)
      | none =>
          if !store.moved then (.writeFailed, d)
          else if d.pending.any fun e => e.path == path then
            let entries := d.pending.map fun e =>
              if e.path == path then refreshEntry env path e else e
            if io.pendingSaved then
              (.stored true path, d.savePending io.pendingSaved entries)
            else
              (.error 500 ("could not save the pending queue of group '" ++ cfg.group ++
                "'; nothing was changed there"), d)
          else
            match addPendingPathLocked cfg env io { path := path, source := "upload" } d with
            | (.error status message, after) => (.error status message, after)
            | (_, after) => (.stored false path, after)

/-! ## Operations on one data directory -/

/-- One request served, one upload, or one call of a local method. -/
inductive Operation
  | request (cfg : ServerConfig) (env : ServerEnv) (io : IoOutcome) (now : Int) (req : Request)
  | upload (cfg : ServerConfig) (env : ServerEnv) (io : IoOutcome) (store : UploadStore)
      (req : UploadRequest)
  | method (io : IoOutcome) (now : Int) (m : Method)
  | addPending (io : IoOutcome) (path : String) (segmentStart segmentCount : Int)

def Operation.apply (d : Disk) : Operation → Disk
  | .request cfg env io now req => (handle cfg env io now req d).2
  | .upload cfg env io store req => (handleUpload cfg env io store req d).2
  | .method io now m => m.run io now d
  | .addPending io path segmentStart segmentCount =>
      (LocalTransport.addPending io path segmentStart segmentCount d).2

/-- The operation is an acquire by a run of this model. -/
def Operation.acquiresAs : Operation → String → Prop
  | .request _ _ _ _ (.acquire req), modelName => req.modelName = modelName
  | .method _ _ (.acquire _ _ name), modelName => name = modelName
  | _, _ => False

/-- The files an acquire hands to its caller. -/
def Operation.given (d : Disk) : Operation → List FileToken
  | .request cfg env io now (.acquire req) => (handleAcquire cfg env io now req d).1.files
  | .method io now (.acquire runId maxFiles modelName) =>
      (LocalTransport.acquire io now runId maxFiles modelName d).1.files
  | _ => []

/-- The operation is an assign or an unassign. -/
def Operation.reassigns : Operation → Prop
  | .request _ _ _ _ (.assign _) | .request _ _ _ _ (.unassign _) => True
  | .method _ _ (.assign ..) | .method _ _ (.unassign ..) => True
  | _ => False

def OperationStep (before : Disk) (op : Operation) (after : Disk) : Prop :=
  after = op.apply before

/-! ## What an operation changes -/

section Changes

variable (cfg : ServerConfig) (env : ServerEnv) (io : IoOutcome) (now : Int) (d : Disk)
  {change : PendingEntry → PendingEntry → Prop}

/-- An upload changes neither the claim nor the model of an entry. -/
def UploadChange (e e' : PendingEntry) : Prop :=
  ∃ path, e' = refreshEntry env path e

theorem handleUpload_queueChange (store : UploadStore) (req : UploadRequest) :
    QueueChange (UploadChange env) d.pending
      (handleUpload cfg env io store req d).2.pending := by
  unfold handleUpload
  split
  · exact .refl _
  · split
    · exact .refl _
    · split
      · exact .refl _
      · extract_lets path entries
        split
        · exact .refl _
        · split
          · exact .refl _
          · split
            · exact .refl _
            · split
              · split
                · apply QueueChange.of_save
                  have refreshed := QueueChange.of_map (fun e => e.path == path)
                    (refreshEntry env path) (fun _ => rfl) d.pending
                  exact refreshed.imp fun _ _ updated => ⟨path, updated.2⟩
                · exact .refl _
              · have added : QueueChange (UploadChange env) d.pending
                    (addPendingPathLocked cfg env io { path := path, source := "upload" } d).2.pending :=
                  addPendingPathLocked_queueChange ..
                split <;> simp_all only

theorem addPending_queueChange (path : String) (segmentStart segmentCount : Int) :
    QueueChange change d.pending
      (LocalTransport.addPending io path segmentStart segmentCount d).2.pending := by
  unfold LocalTransport.addPending
  split
  · exact .refl _
  · split
    · exact .refl _
    · split
      · exact .refl _
      · rename_i unmatched
        apply QueueChange.of_save
        exact .queued (Enqueued.single rfl (any_segmentMatches_false unmatched))

/-- Whether the local acquire may take an entry. -/
def localClaimable (runId modelName : String) (e : PendingEntry) : Bool :=
  (e.runId.isEmpty || e.runId == runId) && eligible modelName e

/-- How a local method changes an entry that stays queued. -/
def MethodChange : Method → PendingEntry → PendingEntry → Prop
  | .acquire runId _ modelName => fun e e' =>
      localClaimable runId modelName e = true ∧
        e' = { e with runId := runId, claimedUnix := now }
  | .release runId paths segments => fun e e' =>
      (e.runId == runId && namesEntry paths segments e) = true ∧ e' = { e with runId := "" }
  | .assign .. | .unassign .. => OnlyModelChanges
  | .commitTrained .. | .requeueTrained .. | .deletePaths .. => fun _ _ => False

theorem acquire_queueChange (runId : String) (maxFiles : Int) (modelName : String) :
    QueueChange (MethodChange now (.acquire runId maxFiles modelName)) d.pending
      (LocalTransport.acquire io now runId maxFiles modelName d).2.pending := by
  unfold LocalTransport.acquire
  split
  · exact .refl _
  · extract_lets pass
    split
    · exact .refl _
    · split
      · apply QueueChange.of_save
        exact .rewritten (claimLoop_rewritten ..)
      · exact .refl _

theorem release_queueChange (runId : String) (paths : List String)
    (segments : List SegmentTarget) :
    QueueChange (MethodChange now (.release runId paths segments)) d.pending
      (LocalTransport.release io runId paths segments d).pending := by
  unfold LocalTransport.release
  split
  · exact .refl _
  · apply QueueChange.of_save
    exact QueueChange.of_map (fun e => e.runId == runId && namesEntry paths segments e)
      (fun e => { e with runId := "" }) (fun _ => rfl) d.pending

theorem assign_queueChange (modelName : String) (paths : List String) (count : Int)
    (segments : List SegmentTarget) :
    QueueChange OnlyModelChanges d.pending
      (LocalTransport.assign io modelName paths count segments d).2.pending := by
  unfold LocalTransport.assign
  split
  · exact .refl _
  · extract_lets pass
    split
    · exact .refl _
    · split
      · exact (QueueChange.of_onlyModelChanges (assignEntries_rewritten ..)).of_save _
      · exact .refl _

theorem unassign_queueChange (modelName : String) (paths : List String) (force : Bool)
    (segments : List SegmentTarget) :
    QueueChange OnlyModelChanges d.pending
      (LocalTransport.unassign io modelName paths force segments d).2.pending := by
  unfold LocalTransport.unassign
  split
  · exact .refl _
  · split
    · exact .refl _
    · extract_lets pass
      split
      · exact .refl _
      · split
        · exact (QueueChange.of_onlyModelChanges (unassignEntries_rewritten ..)).of_save _
        · exact .refl _

theorem commitTrained_queueChange (runId : String) (newEntries : List DataVersion)
    (trainedPaths : List String) (trainedSegments : List SegmentTarget) :
    QueueChange change d.pending
      (LocalTransport.commitTrained io runId newEntries trainedPaths trainedSegments d).pending := by
  unfold LocalTransport.commitTrained
  split
  · exact .refl _
  · extract_lets recorded
    have same : recorded.pending = d.pending := Disk.saveRegistry_pending ..
    rw [← same]
    exact QueueChange.of_save _ (.removed (List.filter_sublist.trans (List.Sublist.refl _)))

theorem deletePaths_queueChange (unlinked : String → Bool) (paths : List String)
    (force deleteFiles : Bool) (segments : List SegmentTarget) :
    QueueChange change d.pending
      (LocalTransport.deletePaths io unlinked paths force deleteFiles segments d).2.pending := by
  unfold LocalTransport.deletePaths
  split
  · exact .refl _
  · split
    · exact .refl _
    · extract_lets pass dequeued
      have removed : QueueChange change d.pending dequeued.pending := by
        by_cases queueChanged : pass.pendingChanged = true
        · simp only [dequeued, queueChanged, ↓reduceIte]
          exact (QueueChange.removed (deleteTargets_pending_sublist ..)).of_save _
        · simp only [dequeued, queueChanged, ↓reduceIte, Bool.false_eq_true]
          exact .refl _
      dsimp only
      split
      · simpa only [Disk.saveRegistry_pending] using removed
      · exact removed

theorem method_queueChange (m : Method) :
    QueueChange (MethodChange now m) d.pending (m.run io now d).pending := by
  cases m with
  | acquire => exact acquire_queueChange ..
  | release => exact release_queueChange ..
  | assign => exact assign_queueChange ..
  | unassign => exact unassign_queueChange ..
  | commitTrained => exact commitTrained_queueChange ..
  | requeueTrained => exact requeueTrained_queueChange ..
  | deletePaths => exact deletePaths_queueChange ..

end Changes

/-- How an operation changes an entry that stays queued. -/
def Operation.Change : Operation → PendingEntry → PendingEntry → Prop
  | .request cfg _ _ now req => RequestChange cfg now req
  | .upload _ env _ _ _ => UploadChange env
  | .method _ now m => MethodChange now m
  | .addPending .. => fun _ _ => False

theorem Operation.queueChange (op : Operation) (d : Disk) :
    QueueChange op.Change d.pending (op.apply d).pending := by
  cases op with
  | request cfg env io now req => exact handle_queueChange ..
  | upload cfg env io store req => exact handleUpload_queueChange ..
  | method io now m => exact method_queueChange ..
  | addPending => exact addPending_queueChange ..

/-- A unit that stays queued keeps its model unless the operation assigns models. -/
theorem Operation.model_kept {op : Operation} {d : Disk} (distinct : Distinct d.pending)
    {e e' : PendingEntry} (member : e ∈ d.pending) (member' : e' ∈ (op.apply d).pending)
    (same : e'.unit = e.unit) (other : ¬ op.reassigns) : e'.modelName = e.modelName := by
  rcases (op.queueChange d).changed distinct member member' same with rfl | change
  · rfl
  · cases op with
    | request cfg env io now req =>
        cases req with
        | acquire req => rw [change.2.2]
        | release req => rw [change.2]
        | renew runId => rw [change.2]
        | assign req => exact (other trivial).elim
        | unassign req => exact (other trivial).elim
        | _ => exact change.elim
    | upload cfg env io store req =>
        obtain ⟨path, rfl⟩ := change
        rfl
    | method io now m =>
        cases m with
        | acquire => rw [change.2]
        | release => rw [change.2]
        | assign => exact (other trivial).elim
        | unassign => exact (other trivial).elim
        | _ => exact change.elim
    | addPending => exact change.elim

/-! ## What an acquire hands out -/

theorem unit_of_token {e e' : PendingEntry} (same : e'.token = e.token) : e'.unit = e.unit := by
  obtain ⟨path, start, count⟩ := FileToken.mk.inj same
  unfold PendingEntry.unit
  rw [path, start, count]

theorem handleAcquire_files {cfg : ServerConfig} {env : ServerEnv} {io : IoOutcome} {now : Int}
    {req : AcquireRequest} {d : Disk} {file : FileToken}
    (member : file ∈ (handleAcquire cfg env io now req d).1.files) :
    file ∈ (serverClaim cfg env now req d.pending).acquired.map PendingEntry.token := by
  unfold handleAcquire at member
  split at member
  · cases member
  · extract_lets pass reply at member
    split at member
    · exact member
    · split at member
      · exact member
      · cases member

theorem acquire_files {io : IoOutcome} {now : Int} {runId : String} {maxFiles : Int}
    {modelName : String} {d : Disk} {file : FileToken}
    (member : file ∈ (LocalTransport.acquire io now runId maxFiles modelName d).1.files) :
    file ∈ (LocalTransport.acquireEntries runId maxFiles modelName now d.pending).acquired.map
      PendingEntry.token := by
  unfold LocalTransport.acquire at member
  split at member
  · exact (List.not_mem_nil member).elim
  · extract_lets pass at member
    split at member
    · exact (List.not_mem_nil member).elim
    · split at member
      · exact member
      · exact (List.not_mem_nil member).elim

/-- Every file of an acquire is the token of a queued entry open to its model. -/
theorem Operation.given_eligible {op : Operation} {modelName : String}
    (acquires : op.acquiresAs modelName) {d : Disk} {file : FileToken} (member : file ∈ op.given d) :
    ∃ e ∈ d.pending, eligible modelName e = true ∧ file = e.token := by
  cases op with
  | request cfg env io now req =>
      cases req with
      | acquire req =>
          obtain rfl : req.modelName = modelName := acquires
          obtain ⟨a, acquired, rfl⟩ := List.mem_map.mp (handleAcquire_files member)
          obtain ⟨e, present, able, rfl⟩ := claimLoop_acquired acquired
          exact ⟨e, present, (Bool.and_eq_true_iff.mp able).2, rfl⟩
      | _ => exact acquires.elim
  | method io now m =>
      cases m with
      | acquire runId maxFiles name =>
          obtain rfl : name = modelName := acquires
          obtain ⟨a, acquired, rfl⟩ := List.mem_map.mp (acquire_files member)
          obtain ⟨e, present, able, rfl⟩ := claimLoop_acquired acquired
          exact ⟨e, present, (Bool.and_eq_true_iff.mp able).2, rfl⟩
      | _ => exact acquires.elim
  | _ => exact acquires.elim

/-- An acquire changes an entry only when the entry is open to its model. -/
theorem Operation.change_eligible {op : Operation} {modelName : String}
    (acquires : op.acquiresAs modelName) {e e' : PendingEntry} (change : op.Change e e') :
    eligible modelName e = true := by
  cases op with
  | request cfg env io now req =>
      cases req with
      | acquire req =>
          obtain rfl : req.modelName = modelName := acquires
          exact (Bool.and_eq_true_iff.mp change.2.1).2
      | _ => exact acquires.elim
  | method io now m =>
      cases m with
      | acquire runId maxFiles name =>
          obtain rfl : name = modelName := acquires
          exact (Bool.and_eq_true_iff.mp change.1).2
      | _ => exact acquires.elim
  | _ => exact acquires.elim

theorem not_eligible {modelName : String} {e : PendingEntry} (assigned : e.modelName ≠ "")
    (other : e.modelName ≠ modelName) : ¬ eligible modelName e = true := by
  intro open_
  unfold eligible at open_
  rw [Bool.or_eq_true, String.isEmpty_iff, beq_iff_eq] at open_
  exact open_.elim assigned other

/-! ## Whole runs -/

/-- Runs of operations keep the queued units distinct. -/
theorem operations_distinct {first last : Disk} {ops : List Operation}
    (run : Run OperationStep first ops last) (start : Distinct first.pending) :
    Distinct last.pending := by
  apply run.invariant (fun d => Distinct d.pending) _ start
  intro before op after distinct step
  subst step
  exact (op.queueChange before).distinct distinct

/-- **Assignments.** After any sequence of operations from a queue of pairwise
distinct units the queue is one again. A further acquire by a run of a model hands
out no entry assigned to another, and leaves that entry unchanged whenever it
stays queued; and the model of a unit that stays queued changes only by an assign
or an unassign. -/
theorem assignments_respected (first before : Disk) (ops : List Operation)
    (start : first.pending.Pairwise fun e e' =>
      segmentMatches e e'.path e'.segmentStart e'.segmentCount = false)
    (run : Run OperationStep first ops before) :
    (before.pending.Pairwise fun e e' =>
      segmentMatches e e'.path e'.segmentStart e'.segmentCount = false) ∧
    (∀ (op : Operation) (modelName : String), op.acquiresAs modelName →
      ∀ e ∈ before.pending, e.modelName ≠ "" → e.modelName ≠ modelName →
        e.token ∉ op.given before ∧
        ∀ e' ∈ (op.apply before).pending, e'.unit = e.unit → e' = e) ∧
    (∀ op : Operation, ∀ e ∈ before.pending, ∀ e' ∈ (op.apply before).pending,
      e'.unit = e.unit → e'.modelName ≠ e.modelName → op.reassigns) := by
  have distinct : Distinct before.pending :=
    operations_distinct run ((distinct_iff_pairwise _).mpr start)
  refine ⟨(distinct_iff_pairwise _).mp distinct, ?_, ?_⟩
  · intro op modelName acquires e member assigned other
    have closed := not_eligible assigned other
    constructor
    · intro handed
      obtain ⟨source, present, open_, token⟩ := Operation.given_eligible acquires handed
      obtain rfl : e = source := distinct.eq_of_unit present member (unit_of_token token)
      exact closed open_
    · intro e' member' same
      rcases (op.queueChange before).changed distinct member member' same with kept | change
      · exact kept
      · exact (closed (Operation.change_eligible acquires change)).elim
  · intro op e member e' member' same changed
    by_contra other
    exact changed (Operation.model_kept distinct member member' same other)

/-- A file and a segment of it, queued after a re-queue of the segment's record. -/
theorem assignments_respected_requeue :
    let first : Disk := ⟨[{ dataFile := "a.jsonl", segmentStart := 0, segmentCount := 10 }],
      [{ path := "a.jsonl", modelName := "gpt" }]⟩
    let requeue := Operation.method {} 5 (.requeueTrained ["a.jsonl"] false "bert")
    let acquire := Operation.method {} 9 (.acquire "r1" 0 "bert")
    let second := requeue.apply first
    (second.pending.map PendingEntry.unit =
      [⟨"a.jsonl", none⟩, ⟨"a.jsonl", some (0, 10)⟩]) ∧
    acquire.given second = [⟨"a.jsonl", 0, 10⟩] ∧
    PendingEntry.token { path := "a.jsonl", modelName := "gpt" } ∉ acquire.given second := by
  intro first requeue acquire second
  have respected := assignments_respected first second [requeue] (by decide)
    (.cons rfl (.refl _))
  refine ⟨by decide, by decide, ?_⟩
  exact (respected.2.1 acquire "bert" rfl _ (by decide) (by decide) (by decide)).1

end Adai.Registry
