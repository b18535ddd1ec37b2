import Adai.Registry.QueuePasses

/-! # What the handlers do to the queue

Every handler of the server, and every method of the local transport, does one of
three things to the queue: it rewrites entries without touching their units, it
removes entries, or it queues unclaimed entries of new units
(`Adai.Registry.QueueChange`). So the queue stays free of double units
(`Adai.Registry.QueueChange.distinct`), and a unit that is in the queue before and
after has an entry that is unchanged or changed as the operation says
(`Adai.Registry.QueueChange.changed`).
-/

namespace Adai.Registry

/-- The effect of one operation on the queue. -/
inductive QueueChange (change : PendingEntry → PendingEntry → Prop)
    (old new : List PendingEntry) : Prop
  | rewritten (entries : Rewritten (fun e e' => e' = e ∨ change e e') old new)
  | removed (kept : new.Sublist old)
  | queued (added : Enqueued old new)

section QueueChange

variable {change other : PendingEntry → PendingEntry → Prop} {old new : List PendingEntry}

theorem QueueChange.refl (pending : List PendingEntry) : QueueChange change pending pending :=
  .removed (List.Sublist.refl _)

theorem QueueChange.distinct (effect : QueueChange change old new) (distinct : Distinct old) :
    Distinct new := by
  cases effect with
  | rewritten entries => exact entries.distinct distinct
  | removed kept => exact distinct.sublist kept
  | queued added => exact added.distinct distinct

/-- The two entries of a unit that stays queued are equal or related by the change. -/
theorem QueueChange.changed (effect : QueueChange change old new) (distinct : Distinct old)
    {e e' : PendingEntry} (member : e ∈ old) (member' : e' ∈ new) (same : e'.unit = e.unit) :
    e' = e ∨ change e e' := by
  cases effect with
  | rewritten entries => exact entries.changed distinct member member' same
  | removed kept => exact .inl (distinct.eq_of_unit member (kept.subset member') same)
  | queued added =>
      have distinct' := added.distinct distinct
      obtain ⟨fresh, rfl, _⟩ := added.appended
      exact .inl (distinct'.eq_of_unit (List.mem_append_left _ member) member' same)

theorem QueueChange.imp (effect : QueueChange change old new)
    (weaker : ∀ e e', change e e' → other e e') : QueueChange other old new := by
  cases effect with
  | rewritten entries => exact .rewritten (entries.imp fun e e' => Or.imp_right (weaker e e'))
  | removed kept => exact .removed kept
  | queued added => exact .queued added

theorem QueueChange.of_onlyModelChanges (entries : Rewritten OnlyModelChanges old new) :
    QueueChange OnlyModelChanges old new :=
  .rewritten (entries.imp fun _ _ => Or.inr)

/-- A pass that updates the entries satisfying a test. -/
theorem QueueChange.of_map (test : PendingEntry → Bool) (update : PendingEntry → PendingEntry)
    (units : ∀ e, (update e).unit = e.unit) (pending : List PendingEntry) :
    QueueChange (fun e e' => test e = true ∧ e' = update e) pending
      (pending.map fun e => if test e then update e else e) := by
  apply QueueChange.rewritten
  apply Rewritten.of_map
  · intro e
    split
    · exact units e
    · rfl
  · intro e
    by_cases chosen : test e = true
    · simp only [chosen, ↓reduceIte, true_and, or_true]
    · simp only [chosen, ↓reduceIte, Bool.false_eq_true, true_or]

/-- A save that fails leaves the queue as it was. -/
theorem QueueChange.of_save {d : Disk} (saved : Bool)
    (effect : QueueChange change d.pending new) :
    QueueChange change d.pending (d.savePending saved new).pending := by
  cases saved with
  | true => exact effect
  | false => exact .refl _

end QueueChange

/-! ## The server's handlers -/

section Handlers

variable (cfg : ServerConfig) (env : ServerEnv) (io : IoOutcome) (now : Int) (d : Disk)
  {change : PendingEntry → PendingEntry → Prop}

/-- An acquire gives claimable entries to a run with a name. -/
def AcquireChange (req : AcquireRequest) (e e' : PendingEntry) : Prop :=
  req.runId ≠ "" ∧ serverClaimable cfg now req e = true ∧
    e' = { e with runId := req.runId, claimedUnix := now }

theorem handleAcquire_queueChange (req : AcquireRequest) :
    QueueChange (AcquireChange cfg now req) d.pending
      (handleAcquire cfg env io now req d).2.pending := by
  unfold handleAcquire
  split
  · exact .refl _
  · rename_i named
    have effect : QueueChange (AcquireChange cfg now req) d.pending
        (serverClaim cfg env now req d.pending).entries := by
      apply QueueChange.rewritten
      apply (claimLoop_rewritten ..).imp
      intro e e' claimed
      exact claimed.imp_right fun taken =>
        ⟨fun empty => named (String.isEmpty_iff.mpr empty), taken⟩
    extract_lets pass reply
    split
    · exact .refl _
    · split
      · exact effect.of_save _
      · exact .refl _

/-- A release returns the named entries to the pool. -/
def ReleaseChange (req : ReleaseRequest) (e e' : PendingEntry) : Prop :=
  releases req e = true ∧ e' = { e with runId := "", claimedUnix := 0 }

theorem handleRelease_queueChange (req : ReleaseRequest) :
    QueueChange (ReleaseChange req) d.pending (handleRelease cfg io req d).2.pending := by
  unfold handleRelease
  extract_lets entries
  split
  · apply QueueChange.of_save
    exact QueueChange.of_map (releases req)
      (fun e => { e with runId := "", claimedUnix := 0 }) (fun _ => rfl) d.pending
  · exact .refl _

def RenewChange (runId : String) (e e' : PendingEntry) : Prop :=
  (e.runId == runId) = true ∧ e' = { e with claimedUnix := now }

theorem handleRenew_queueChange (runId : String) :
    QueueChange (RenewChange now runId) d.pending
      (handleRenew cfg io now runId d).2.pending := by
  unfold handleRenew
  split
  · exact .refl _
  · extract_lets entries renewed reply
    split
    · exact .refl _
    · split
      · apply QueueChange.of_save
        exact QueueChange.of_map (fun e => e.runId == runId)
          (fun e => { e with claimedUnix := now }) (fun _ => rfl) d.pending
      · exact .refl _

theorem handleAssign_queueChange (req : AssignRequest) :
    QueueChange OnlyModelChanges d.pending (handleAssign cfg io req d).2.pending := by
  unfold handleAssign
  split
  · exact .refl _
  · extract_lets pass total reply
    split
    · exact .refl _
    · split
      · exact (QueueChange.of_onlyModelChanges (assignEntries_rewritten ..)).of_save _
      · exact .refl _

theorem handleUnassign_queueChange (req : UnassignRequest) :
    QueueChange OnlyModelChanges d.pending (handleUnassign cfg io req d).2.pending := by
  unfold handleUnassign
  split
  · exact .refl _
  · split
    · exact .refl _
    · extract_lets pass total reply
      split
      · exact .refl _
      · split
        · exact (QueueChange.of_onlyModelChanges (unassignEntries_rewritten ..)).of_save _
        · exact .refl _

theorem handleDelete_queueChange (req : DeleteRequest) :
    QueueChange change d.pending (handleDelete cfg env io req d).2.pending := by
  unfold handleDelete
  split
  · exact .refl _
  · extract_lets pass dequeued
    have removed : QueueChange change d.pending dequeued.pending := by
      by_cases queueChanged : pass.pendingChanged = true
      · simp only [dequeued, queueChanged, ↓reduceIte]
        exact (QueueChange.removed (deleteTargets_pending_sublist ..)).of_save true
      · simp only [dequeued, queueChanged, ↓reduceIte, Bool.false_eq_true]
        exact .refl _
    split
    · exact .refl _
    · split
      · exact removed
      · dsimp only
        split
        · simpa only [Disk.saveRegistry_pending] using removed
        · exact removed

theorem requeueTrained_queueChange (paths : List String) (all : Bool) (modelName : String) :
    QueueChange change d.pending
      (LocalTransport.requeueTrained io paths all modelName d).2.pending := by
  unfold LocalTransport.requeueTrained
  split
  · exact .refl _
  · split
    · exact .refl _
    · extract_lets pass
      split
      · exact .refl _
      · split
        · exact .refl _
        · simp only [Disk.saveRegistry_pending]
          exact (QueueChange.queued (requeueEntries_enqueued ..)).of_save _

theorem handleRequeue_queueChange (req : RequeueRequest) :
    QueueChange change d.pending (handleRequeue cfg io req d).2.pending := by
  unfold handleRequeue
  split
  · exact .refl _
  · dsimp only
    split <;> exact requeueTrained_queueChange ..

theorem addPendingPathLocked_queueChange (req : AddRequest) :
    QueueChange change d.pending (addPendingPathLocked cfg env io req d).2.pending := by
  unfold addPendingPathLocked
  split
  · exact .refl _
  · rename_i unmatched
    split
    · apply QueueChange.of_save
      exact .queued (Enqueued.single rfl (any_segmentMatches_false unmatched))
    · exact .refl _

theorem handlePendingAdd_queueChange (req : AddRequest) :
    QueueChange change d.pending (handlePendingAdd cfg env io req d).2.pending := by
  unfold handlePendingAdd
  split
  · exact .refl _
  · split
    · exact .refl _
    · exact addPendingPathLocked_queueChange ..

/-- The queue after a commit: the old one, or the entries the commit keeps. -/
theorem handleTrained_pending (req : TrainedRequest) :
    (handleTrained cfg env io req d).2.pending = d.pending ∨
      (handleTrained cfg env io req d).2.pending =
        d.pending.filter fun e => !trainedRemoves req e := by
  unfold handleTrained
  extract_lets pass recorded
  split
  · exact .inl rfl
  · split
    · left
      simp only [recorded, Disk.saveRegistry_pending]
    · rename_i saved
      have written : io.pendingSaved = true := by simpa using saved
      right
      simp only [written, Disk.savePending_true]

theorem handleTrained_queueChange (req : TrainedRequest) :
    QueueChange change d.pending (handleTrained cfg env io req d).2.pending := by
  rcases handleTrained_pending cfg env io d req with kept | filtered
  · rw [kept]
    exact .refl _
  · rw [filtered]
    exact .removed List.filter_sublist

/-- How a request changes an entry that stays queued. -/
def RequestChange : Request → PendingEntry → PendingEntry → Prop
  | .acquire req => AcquireChange cfg now req
  | .release req => ReleaseChange req
  | .renew runId => RenewChange now runId
  | .assign _ | .unassign _ => OnlyModelChanges
  | .trained _ | .delete _ | .requeue _ | .pendingAdd _ | .fetched _ => fun _ _ => False

/-- **One request.** The queue changes as the request says. -/
theorem handle_queueChange (req : Request) :
    QueueChange (RequestChange cfg now req) d.pending
      (handle cfg env io now req d).2.pending := by
  cases req with
  | acquire req => exact handleAcquire_queueChange ..
  | renew runId => exact handleRenew_queueChange ..
  | release req => exact handleRelease_queueChange ..
  | trained req => exact handleTrained_queueChange ..
  | assign req => exact handleAssign_queueChange ..
  | unassign req => exact handleUnassign_queueChange ..
  | delete req => exact handleDelete_queueChange ..
  | requeue req => exact handleRequeue_queueChange ..
  | pendingAdd req => exact handlePendingAdd_queueChange ..
  | fetched req => exact addPendingPathLocked_queueChange ..

end Handlers

end Adai.Registry
