import Adai.Math.TransitionSystem
import Adai.Registry.QueueChanges

/-! # Claims change hands only by a release or an expired lease

From a queue of distinct units, every handler keeps the units distinct, and an
entry claimed by a run loses that run in two ways only: an acquire takes it after
its lease has run out, or a release that names the run (or no run) returns it to
the pool (`Adai.Registry.handle_evolves`). Over whole runs of the server this is
`Adai.Registry.server_claim_safety`.
-/

namespace Adai.Registry

open TransitionSystem

/-- The request is an acquire by this run. -/
def Request.acquiresFor : Request → String → Prop
  | .acquire req, runId => req.runId = runId
  | _, _ => False

/-- The request is a release that names this run (none, when empty). -/
def Request.releaseNames : Request → String → Prop
  | .release req, runId => req.runId = runId
  | _, _ => False

/-- The request is a commit by this run. -/
def Request.commitsFor : Request → String → Prop
  | .trained req, runId => req.runId = runId
  | _, _ => False

/-- The ways a claimed entry may change its run: an acquire under an expired
lease, or a release. -/
def MayTransfer (cfg : ServerConfig) (now : Int) (req : Request) (e : PendingEntry)
    (runId : String) : Prop :=
  (runId ≠ "" ∧ req.acquiresFor runId ∧ 0 < cfg.claimLeaseSeconds ∧
      cfg.claimLeaseSeconds ≤ now - e.claimedUnix) ∨
    (runId = "" ∧ (req.releaseNames e.runId ∨ req.releaseNames ""))

/-- One queue becomes another without a unit queued twice and without a claimed
entry changing its run except as allowed. -/
structure Evolves (allowed : PendingEntry → String → Prop) (old new : List PendingEntry) :
    Prop where
  distinct : Distinct old → Distinct new
  holder : Distinct old → ∀ e ∈ old, ∀ e' ∈ new, e'.unit = e.unit → e.runId ≠ "" →
    e'.runId ≠ e.runId → allowed e e'.runId

/-- A queue change moves claims as its change of entries does. -/
theorem Evolves.of_queueChange {allowed : PendingEntry → String → Prop}
    {change : PendingEntry → PendingEntry → Prop} {old new : List PendingEntry}
    (effect : QueueChange change old new)
    (transfers : ∀ e e', change e e' → e.runId ≠ "" → e'.runId ≠ e.runId →
      allowed e e'.runId) :
    Evolves allowed old new where
  distinct := effect.distinct
  holder := by
    intro distinct e member e' member' same claimed moved
    rcases effect.changed distinct member member' same with rfl | change
    · exact (moved rfl).elim
    · exact transfers e e' change claimed moved

theorem Evolves.refl {allowed : PendingEntry → String → Prop} (pending : List PendingEntry) :
    Evolves allowed pending pending :=
  .of_queueChange (@QueueChange.refl (fun _ _ => False) pending) fun _ _ => False.elim

section Handlers

variable (cfg : ServerConfig) (env : ServerEnv) (io : IoOutcome) (now : Int) (d : Disk)

/-- An entry taken from another run was held under an expired lease. -/
theorem serverClaimable_transfer {cfg : ServerConfig} {now : Int} {req : AcquireRequest}
    {e : PendingEntry} (claimable : serverClaimable cfg now req e = true) (claimed : e.runId ≠ "")
    (other : req.runId ≠ e.runId) :
    0 < cfg.claimLeaseSeconds ∧ cfg.claimLeaseSeconds ≤ now - e.claimedUnix := by
  have expired : claimExpired cfg now e = true := by
    simp only [serverClaimable, Bool.and_eq_true, Bool.or_eq_true, String.isEmpty_iff,
      beq_iff_eq] at claimable
    rcases claimable.1 with (unclaimed | own) | expired
    · exact (claimed unclaimed).elim
    · exact (other own.symm).elim
    · exact expired.2
  unfold claimExpired at expired
  split at expired
  · cases expired
  · rename_i leased
    simp only [Bool.or_eq_true, decide_eq_true_eq, String.isEmpty_iff, not_or] at leased
    have aged := of_decide_eq_true expired
    refine ⟨by omega, ?_⟩
    by_cases stamped : 0 < e.claimedUnix
    · simpa only [stamped, ↓reduceIte] using aged
    · simp only [stamped, ↓reduceIte] at aged
      omega

/-- A release changes the run of an entry when it names that run or none. -/
theorem releases_names {req : ReleaseRequest} {e : PendingEntry} (named : releases req e = true) :
    req.runId = e.runId ∨ req.runId = "" := by
  unfold releases at named
  split at named
  · cases named
  · rename_i ownership
    by_cases anonymous : req.runId = ""
    · exact .inr anonymous
    · left
      have owned : e.runId = req.runId := by
        simpa only [Bool.and_eq_true, Bool.not_eq_true', String.isEmpty_eq_false_iff, bne_iff_ne,
          ne_eq, not_and, not_not, anonymous, not_false_eq_true, forall_const] using ownership
      exact owned.symm

/-- A commit by a run takes only that run's entries off the queue. -/
theorem handleTrained_removes_own (req : TrainedRequest) (named : req.runId ≠ "")
    {e : PendingEntry} (member : e ∈ d.pending)
    (removed : e ∉ (handleTrained cfg env io req d).2.pending) : e.runId = req.runId := by
  rcases handleTrained_pending cfg env io d req with kept | filtered
  · rw [kept] at removed
    exact (removed member).elim
  · rw [filtered, List.mem_filter] at removed
    have taken : trainedRemoves req e = true := by simpa [member] using removed
    unfold trainedRemoves at taken
    split at taken
    · cases taken
    · rename_i own
      simpa [named] using own

/-- **One request.** Every handler keeps the queue free of double units and moves
a claim only as allowed. -/
theorem handle_evolves (req : Request) :
    Evolves (MayTransfer cfg now req) d.pending (handle cfg env io now req d).2.pending := by
  apply Evolves.of_queueChange (handle_queueChange cfg env io now d req)
  intro e e' change claimed moved
  cases req with
  | acquire req =>
      obtain ⟨named, claimable, rfl⟩ := change
      have expiry := serverClaimable_transfer claimable claimed moved
      exact .inl ⟨named, rfl, expiry.1, expiry.2⟩
  | release req =>
      obtain ⟨named, rfl⟩ := change
      exact .inr ⟨rfl, releases_names named⟩
  | renew runId =>
      obtain ⟨_, rfl⟩ := change
      exact (moved rfl).elim
  | assign _ | unassign _ => exact (moved (OnlyModelChanges.runId change)).elim
  | _ => exact change.elim

end Handlers

/-- The request of a label, if it serves one. -/
def ServerLabel.request? : ServerLabel → Option Request
  | .request _ _ req => some req
  | .clock _ => none

theorem serverStep_evolves {cfg : ServerConfig} {before after : ServerState}
    {label : ServerLabel} (step : ServerStep cfg before label after) :
    Evolves (fun e runId => ∃ req, label.request? = some req ∧
      MayTransfer cfg before.nowUnix req e runId) before.disk.pending after.disk.pending := by
  cases label with
  | request env io req =>
      subst step
      have evolves := handle_evolves cfg env io before.nowUnix before.disk req
      exact ⟨evolves.distinct, fun distinct e member e' member' same claimed changed =>
        ⟨req, rfl, evolves.holder distinct e member e' member' same claimed changed⟩⟩
  | clock seconds =>
      subst step
      exact .refl _

/-- Runs of the server keep the queued units distinct. -/
theorem server_distinct {cfg : ServerConfig} {first last : ServerState}
    {labels : List ServerLabel} (run : Run (ServerStep cfg) first labels last)
    (start : Distinct first.disk.pending) : Distinct last.disk.pending :=
  run.invariant (fun s => Distinct s.disk.pending)
    (fun _ _ _ distinct step => (serverStep_evolves step).distinct distinct) start

/-- **Claim safety.** Along every run of the server from a queue of distinct
units, and for every further step: a claimed entry changes its run only through
an acquire by the new run after the lease has run out, or through a release
naming its run or none; no unit is held by two runs; and a commit by a run takes
only that run's entries off the queue. -/
theorem server_claim_safety (cfg : ServerConfig) (first before after : ServerState)
    (labels : List ServerLabel) (label : ServerLabel) (start : Distinct first.disk.pending)
    (run : Run (ServerStep cfg) first labels before) (step : ServerStep cfg before label after) :
    (∀ e ∈ before.disk.pending, ∀ e' ∈ after.disk.pending, e'.unit = e.unit →
      e.runId ≠ "" → e'.runId ≠ e.runId →
        (e'.runId ≠ "" ∧ (∃ req, label.request? = some req ∧ req.acquiresFor e'.runId) ∧
          0 < cfg.claimLeaseSeconds ∧ cfg.claimLeaseSeconds ≤ before.nowUnix - e.claimedUnix) ∨
        (e'.runId = "" ∧ ∃ req, label.request? = some req ∧
          (req.releaseNames e.runId ∨ req.releaseNames ""))) ∧
    Distinct after.disk.pending ∧
    (∀ e ∈ after.disk.pending, ∀ e' ∈ after.disk.pending, e'.unit = e.unit →
      e'.runId = e.runId) ∧
    (∀ req runId, label.request? = some req → req.commitsFor runId → runId ≠ "" →
      ∀ e ∈ before.disk.pending, e ∉ after.disk.pending → e.runId = runId) := by
  have distinct : Distinct before.disk.pending := server_distinct run start
  have evolves := serverStep_evolves step
  have distinct' : Distinct after.disk.pending := evolves.distinct distinct
  refine ⟨?_, distinct', ?_, ?_⟩
  · intro e member e' member' same claimed changed
    obtain ⟨req, served, transfer⟩ :=
      evolves.holder distinct e member e' member' same claimed changed
    rcases transfer with ⟨named, acquires, leased, aged⟩ | ⟨cleared, named⟩
    · exact .inl ⟨named, ⟨req, served, acquires⟩, leased, aged⟩
    · exact .inr ⟨cleared, req, served, named⟩
  · intro e member e' member' same
    rw [distinct'.eq_of_unit member member' same]
  · intro req runId served commits named e member removed
    cases label with
    | clock seconds => cases served
    | request env io request =>
        subst step
        obtain rfl : request = req := Option.some.inj served
        cases request with
        | trained req =>
            obtain rfl : req.runId = runId := commits
            exact handleTrained_removes_own cfg env io before.disk req named member removed
        | _ => exact commits.elim

/-- A second run takes over a unit whose lease of thirty minutes has run out. -/
theorem server_claim_safety_takeover :
    let first : ServerState := ⟨⟨[], [{ path := "a.jsonl", runId := "r1", claimedUnix := 5 }]⟩, 100⟩
    let label := ServerLabel.request {} {} (.acquire { runId := "r2" })
    let before := first.next {} (.clock 2000)
    Distinct (before.next {} label).disk.pending ∧
      ((before.next {} label).disk.pending.map PendingEntry.runId) = ["r2"] :=
  ⟨(server_claim_safety {} _ _ _ [.clock 2000] _ (by decide)
    (.cons rfl (.refl _)) rfl).2.1, by decide⟩

end Adai.Registry
