import Adai.Registry.Server

/-! # Local and remote claiming

The local transport and the server have a claiming loop and assignment loops each. With
no lease and no delivery by FTP they pick the same entries and leave the same queue
(`transports_agree`): the loops differ in the limit that stands for "no limit" only. They
part where the server refuses what a remote caller sends, a claim without a run id or a
model name with other characters; the local transport takes both
(`acquire_without_run_disagrees`).
-/

namespace Adai.Registry

/-- What a reply to an assignment names as touched. -/
def Response.assignedUnits : Response → List String × List SegmentTarget
  | .assigned _ paths segments => (paths, segments)
  | _ => ([], [])

/-- What a reply to an unassignment names as touched. -/
def Response.unassignedUnits : Response → List String × List SegmentTarget
  | .unassigned _ _ paths segments => (paths, segments)
  | _ => ([], [])

/-- Two claiming loops agree when the same entries are open to both and their limits
part only above what the queue can fill. -/
theorem claimLoop_congr {runId : String} {now : Int}
    {claimable claimable' deliverable : PendingEntry → Bool} {limit limit' : Int}
    (open_same : ∀ e, claimable e = claimable' e) (entries : List PendingEntry) (taken : Nat)
    (limits : ∀ k : Nat, k < taken + entries.length → ((k : Int) < limit ↔ (k : Int) < limit')) :
    claimLoop runId now claimable deliverable limit entries taken =
      claimLoop runId now claimable' deliverable limit' entries taken := by
  induction entries generalizing taken with
  | nil => rfl
  | cons e rest ih =>
      have room : decide ((taken : Int) < limit) = decide ((taken : Int) < limit') :=
        decide_eq_decide.mpr (limits taken (by simp))
      have next : claimLoop runId now claimable deliverable limit rest (taken + 1) =
          claimLoop runId now claimable' deliverable limit' rest (taken + 1) := by
        apply ih
        intro k below
        apply limits
        simp only [List.length_cons]
        omega
      have skip : claimLoop runId now claimable deliverable limit rest taken =
          claimLoop runId now claimable' deliverable limit' rest taken := by
        apply ih
        intro k below
        apply limits
        simp only [List.length_cons]
        omega
      unfold claimLoop
      simp only [open_same, room, next, skip]

theorem claimExpired_of_noLease {cfg : ServerConfig} (noLease : cfg.claimLeaseSeconds ≤ 0)
    (now : Int) (e : PendingEntry) : claimExpired cfg now e = false := by
  simp only [claimExpired, noLease, decide_true, Bool.true_or, ↓reduceIte]

/-- Without leases and FTP the server's claiming pass is the local one. -/
theorem serverClaim_eq {cfg : ServerConfig} {env : ServerEnv}
    (noLease : cfg.claimLeaseSeconds ≤ 0) (noGrant : env.ftpActive = false) (now : Int)
    (req : AcquireRequest) (entries : List PendingEntry)
    (fits : 0 < req.maxFiles ∨ (entries.length : Int) ≤ LocalTransport.intMax) :
    serverClaim cfg env now req entries =
      LocalTransport.acquireEntries req.runId req.maxFiles req.modelName now entries := by
  have delivers : ftpDeliverable env = fun _ => true := by
    funext e
    simp only [ftpDeliverable, noGrant, Bool.not_false, Bool.true_or]
  unfold serverClaim LocalTransport.acquireEntries
  rw [delivers]
  apply claimLoop_congr
  · intro e
    simp only [serverClaimable, claimExpired_of_noLease noLease, Bool.and_false, Bool.or_false]
  · intro k below
    unfold LocalTransport.acquireLimit
    by_cases limited : 0 < req.maxFiles
    · simp only [limited, ↓reduceIte]
    · have within := fits.resolve_left limited
      simp only [limited, ↓reduceIte]
      omega

/-! ## The result -/

section Agreement

variable {cfg : ServerConfig} {env : ServerEnv} {io : IoOutcome} {now : Int} {d : Disk}

theorem acquire_agrees (noLease : cfg.claimLeaseSeconds ≤ 0) (noGrant : env.ftpActive = false)
    (locked : io.lockTaken = true) {req : AcquireRequest} (named : req.runId ≠ "")
    (fits : 0 < req.maxFiles ∨ (d.pending.length : Int) ≤ LocalTransport.intMax) :
    (LocalTransport.acquire io now req.runId req.maxFiles req.modelName d).1.files =
        (handleAcquire cfg env io now req d).1.files ∧
      (LocalTransport.acquire io now req.runId req.maxFiles req.modelName d).2 =
        (handleAcquire cfg env io now req d).2 := by
  have nonempty : req.runId.isEmpty = false := by simpa using named
  simp only [LocalTransport.acquire, handleAcquire, locked, nonempty, Bool.not_true,
    Bool.false_eq_true, ↓reduceIte, serverClaim_eq noLease noGrant now req d.pending fits]
  generalize LocalTransport.acquireEntries req.runId req.maxFiles req.modelName now
    d.pending = pass
  by_cases none : pass.acquired.isEmpty = true
  · have empty : pass.acquired = [] := List.isEmpty_iff.mp none
    simp [empty, Response.files]
  · cases io.pendingSaved <;> simp [none, Response.files, saveError]

theorem assign_agrees (locked : io.lockTaken = true) {req : AssignRequest}
    (named : req.modelName ≠ "") (safe : isSafeModelName req.modelName = true) :
    ((LocalTransport.assign io req.modelName req.paths req.count req.segments d).1.paths,
        (LocalTransport.assign io req.modelName req.paths req.count req.segments d).1.segments) =
        (handleAssign cfg io req d).1.assignedUnits ∧
      (LocalTransport.assign io req.modelName req.paths req.count req.segments d).2 =
        (handleAssign cfg io req d).2 := by
  have nonempty : req.modelName.isEmpty = false := by simpa using named
  simp only [LocalTransport.assign, handleAssign, locked, nonempty, safe, Bool.not_true,
    Bool.or_false, Bool.false_eq_true, ↓reduceIte]
  generalize assignEntries req.modelName req.paths req.count req.segments d.pending = pass
  by_cases none : pass.paths = [] ∧ pass.segments = []
  · simp [none, Response.assignedUnits]
  · cases io.pendingSaved <;> simp [none, Response.assignedUnits, saveError]

theorem unassign_agrees (locked : io.lockTaken = true) {req : UnassignRequest}
    (safe : isSafeModelName req.modelName = true) :
    ((LocalTransport.unassign io req.modelName req.paths req.force req.segments d).1.paths,
        (LocalTransport.unassign io req.modelName req.paths req.force req.segments d).1.segments) =
        (handleUnassign cfg io req d).1.unassignedUnits ∧
      (LocalTransport.unassign io req.modelName req.paths req.force req.segments d).2 =
        (handleUnassign cfg io req d).2 := by
  unfold LocalTransport.unassign handleUnassign
  by_cases nothing : (req.paths.isEmpty && req.segments.isEmpty && req.modelName.isEmpty) = true
  · simp [nothing, Response.unassignedUnits]
  · simp only [nothing, locked, safe, Bool.not_true, Bool.and_false, Bool.false_eq_true, ↓reduceIte]
    generalize unassignEntries req.modelName req.paths req.force req.segments d.pending = pass
    by_cases none : pass.paths = [] ∧ pass.segments = []
    · simp [none, Response.unassignedUnits]
    · cases io.pendingSaved <;> simp [none, Response.unassignedUnits, saveError]

end Agreement

/-- **Both back ends pick the same entries.** For a server without leases and FTP, and a
lock that is taken: a claim that names its run hands out the same entries in the same
order and leaves the same lists, as does an assignment to a model with a safe name, and
an unassignment whose model is none or has a safe name. A claim without a limit needs a
queue whose length is an `int`. -/
theorem transports_agree (cfg : ServerConfig) (env : ServerEnv) (io : IoOutcome) (now : Int)
    (d : Disk) (noLease : cfg.claimLeaseSeconds ≤ 0) (noGrant : env.ftpActive = false)
    (locked : io.lockTaken = true) :
    (∀ req : AcquireRequest, req.runId ≠ "" →
      (0 < req.maxFiles ∨ (d.pending.length : Int) ≤ LocalTransport.intMax) →
      (LocalTransport.acquire io now req.runId req.maxFiles req.modelName d).1.files =
          (handleAcquire cfg env io now req d).1.files ∧
        (LocalTransport.acquire io now req.runId req.maxFiles req.modelName d).2 =
          (handleAcquire cfg env io now req d).2) ∧
    (∀ req : AssignRequest, req.modelName ≠ "" → isSafeModelName req.modelName = true →
      ((LocalTransport.assign io req.modelName req.paths req.count req.segments d).1.paths,
          (LocalTransport.assign io req.modelName req.paths req.count req.segments d).1.segments) =
          (handleAssign cfg io req d).1.assignedUnits ∧
        (LocalTransport.assign io req.modelName req.paths req.count req.segments d).2 =
          (handleAssign cfg io req d).2) ∧
    (∀ req : UnassignRequest, isSafeModelName req.modelName = true →
      ((LocalTransport.unassign io req.modelName req.paths req.force req.segments d).1.paths,
          (LocalTransport.unassign io req.modelName req.paths req.force req.segments d).1.segments) =
          (handleUnassign cfg io req d).1.unassignedUnits ∧
        (LocalTransport.unassign io req.modelName req.paths req.force req.segments d).2 =
          (handleUnassign cfg io req d).2) := by
  refine ⟨?acquire, ?assign, ?unassign⟩
  case acquire =>
    intro req named fits
    exact acquire_agrees noLease noGrant locked named fits
  case assign =>
    intro req named safe
    exact assign_agrees locked named safe
  case unassign =>
    intro req safe
    exact unassign_agrees locked safe

/-- A queue of an entry without a model and one of model `m`. -/
def twoEntries : Disk := ⟨[], [{ path := "a" }, { path := "b", modelName := "m" }]⟩

theorem transports_agree_on_two :
    (LocalTransport.acquire {} 7 "r" 0 "" twoEntries).1.files =
        (handleAcquire { claimLeaseSeconds := 0 } {} {} 7 { runId := "r" } twoEntries).1.files ∧
      (LocalTransport.assign {} "m" ["a"] 0 [] twoEntries).2 =
        (handleAssign { claimLeaseSeconds := 0 } {} { modelName := "m", paths := ["a"] }
          twoEntries).2 ∧
      (LocalTransport.unassign {} "m" [] false [] twoEntries).2 =
        (handleUnassign { claimLeaseSeconds := 0 } {} { modelName := "m" } twoEntries).2 := by
  have agrees := transports_agree { claimLeaseSeconds := 0 } {} {} 7 twoEntries (by decide) rfl rfl
  have claims := agrees.1 { runId := "r" } (by decide) (.inr (by decide))
  have assigns := agrees.2.1 { modelName := "m", paths := ["a"] } (by decide) (by decide)
  have unassigns := agrees.2.2 { modelName := "m" } (by decide)
  exact ⟨claims.1, assigns.2, unassigns.2⟩

/-- A claim without a run id: the local transport hands the entry out, the server
refuses. -/
theorem acquire_without_run_disagrees :
    (LocalTransport.acquire {} 7 "" 0 "" ⟨[], [{ path := "a" }]⟩).1.files ≠
      (handleAcquire { claimLeaseSeconds := 0 } {} {} 7 { runId := "" }
        ⟨[], [{ path := "a" }]⟩).1.files := by
  decide

end Adai.Registry
