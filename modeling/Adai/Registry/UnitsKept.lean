import Adai.Registry.DatasetRegistry

/-! # Whether a local commit or re-queue loses a unit

A unit is kept by the two files when a pending entry or a trained record covers
it; a whole file covers its ranges. A re-queue keeps every unit whatever saves
fail. A commit goes on to the queue after the registry could not be saved, and
loses a unit exactly when it then strands an entry: one it removes that no
record and no remaining entry covers (`Adai.Registry.local_units_kept`).
-/

namespace Adai.Registry

/-- A unit covers itself, and a whole file each of its ranges. -/
def DatasetUnit.Covers (u v : DatasetUnit) : Prop :=
  u.path = v.path ∧ (u.segment = none ∨ u.segment = v.segment)

instance (u v : DatasetUnit) : Decidable (u.Covers v) :=
  inferInstanceAs (Decidable (_ ∧ _))

theorem DatasetUnit.Covers.refl (u : DatasetUnit) : u.Covers u :=
  ⟨rfl, .inr rfl⟩

theorem DatasetUnit.Covers.trans {u v w : DatasetUnit} (first : u.Covers v)
    (second : v.Covers w) : u.Covers w := by
  refine ⟨first.1.trans second.1, ?_⟩
  rcases first.2 with whole | same
  · exact .inl whole
  · rw [same]
    exact second.2

/-- The unit is pending or recorded on disk. -/
def Disk.Keeps (d : Disk) (u : DatasetUnit) : Prop :=
  (∃ e ∈ d.pending, e.unit.Covers u) ∨ ∃ dv ∈ d.registry, dv.unit.Covers u

instance (d : Disk) (u : DatasetUnit) : Decidable (d.Keeps u) :=
  inferInstanceAs (Decidable (_ ∨ _))

theorem Disk.Keeps.of_covers {d : Disk} {u v : DatasetUnit} (keeps : d.Keeps u)
    (covers : u.Covers v) : d.Keeps v := by
  rcases keeps with ⟨e, member, first⟩ | ⟨dv, member, first⟩
  · exact .inl ⟨e, member, first.trans covers⟩
  · exact .inr ⟨dv, member, first.trans covers⟩

theorem Disk.Keeps.of_pending {d : Disk} {e : PendingEntry} (member : e ∈ d.pending) :
    d.Keeps e.unit :=
  .inl ⟨e, member, .refl _⟩

theorem Disk.Keeps.of_registry {d : Disk} {dv : DataVersion} (member : dv ∈ d.registry) :
    d.Keeps dv.unit :=
  .inr ⟨dv, member, .refl _⟩

/-- Every unit kept before is kept after. -/
def NoUnitLost (before after : Disk) : Prop :=
  ∀ u, before.Keeps u → after.Keeps u

/-- It is enough to look at the units of the entries and records themselves. -/
theorem noUnitLost_iff {before after : Disk} :
    NoUnitLost before after ↔
      (∀ e ∈ before.pending, after.Keeps e.unit) ∧ ∀ dv ∈ before.registry, after.Keeps dv.unit := by
  constructor
  · intro kept
    exact ⟨fun e member => kept _ (.of_pending member), fun dv member =>
      kept _ (.of_registry member)⟩
  · rintro ⟨entries, records⟩ u (⟨e, member, covers⟩ | ⟨dv, member, covers⟩)
    · exact (entries e member).of_covers covers
    · exact (records dv member).of_covers covers

theorem NoUnitLost.refl (d : Disk) : NoUnitLost d d := fun _ keeps => keeps

/-! ## Commits -/

section Commit

variable (io : IoOutcome) (env : TrainerEnv) (runId : String) (units : List PendingFileRange)
  (sampleCounts : List Int) (d : Disk)

/-- A record of a unit that the run claims is accepted. -/
theorem commitAccepts_of_claim {runId : String} {pending : List PendingEntry} {e : PendingEntry}
    {dv : DataVersion} (member : e ∈ pending) (own : runId = "" ∨ e.runId = runId)
    (claims : (dv.segmentStart < 0 ∧ e.path = dv.dataFile) ∨ e.unit = dv.unit) :
    commitAccepts runId pending dv = true := by
  unfold commitAccepts
  rcases own with rfl | held
  · simp
  · rw [Bool.or_eq_true]
    refine .inr (List.any_eq_true.mpr ⟨e, member, ?_⟩)
    rw [Bool.and_eq_true]
    refine ⟨beq_iff_eq.mpr held, ?_⟩
    by_cases whole : dv.segmentStart < 0
    · rw [if_pos whole]
      rcases claims with ⟨_, path⟩ | same
      · exact beq_iff_eq.mpr path
      · exact beq_iff_eq.mpr (congrArg DatasetUnit.path same)
    · rw [if_neg whole]
      rcases claims with ⟨negative, _⟩ | same
      · exact (whole negative).elim
      · exact (segmentMatches_iff e dv.dataFile dv.segmentStart dv.segmentCount).mpr same

/-- What taking an entry off the queue says about it. -/
theorem commitRemoves_cases {runId : String} {paths : List String}
    {segments : List SegmentTarget} {e : PendingEntry}
    (removed : commitRemoves runId paths segments e = true) :
    (runId = "" ∨ e.runId = runId) ∧
      (e.path ∈ paths ∨ ∃ t ∈ segments, e.unit = t.unit) := by
  unfold commitRemoves at removed
  split at removed
  · cases removed
  · rename_i own
    constructor
    · by_cases anonymous : runId = ""
      · exact .inl anonymous
      · exact .inr (by simpa [anonymous] using own)
    · split at removed
      · exact .inl (by simpa using removed)
      · split at removed
        · exact .inl (by simpa using removed)
        · obtain ⟨t, member, matching⟩ := List.any_eq_true.mp removed
          exact .inr ⟨t, member, (segmentMatches_iff ..).mp matching⟩

/-- The registry a commit writes covers every entry it takes off the queue. -/
theorem commitRegistry_covers_removed {e : PendingEntry} (member : e ∈ d.pending)
    (removed : commitRemoves runId
      (DatasetRegistry.markTrained env runId units sampleCounts d.registry).trainedPaths
      (DatasetRegistry.markTrained env runId units sampleCounts d.registry).trainedSegments e =
        true) :
    ∃ dv ∈ commitRegistry runId d.pending
        (DatasetRegistry.markTrained env runId units sampleCounts d.registry).newEntries d.registry,
      dv.unit.Covers e.unit := by
  obtain ⟨own, named⟩ := commitRemoves_cases removed
  have accepted : ∀ u ∈ units, u.unit.Covers e.unit →
      (∀ dv : DataVersion, dv.unit = u.unit →
        (dv.segmentStart < 0 ∧ e.path = dv.dataFile) ∨ e.unit = dv.unit) →
      ∃ dv ∈ commitRegistry runId d.pending
          (DatasetRegistry.markTrained env runId units sampleCounts d.registry).newEntries
          d.registry, dv.unit.Covers e.unit := by
    intro u listed covers claims
    unfold commitRegistry
    rcases DatasetRegistry.markTrained_complete env runId units sampleCounts d.registry listed with
      ⟨dv, new, same⟩ | ⟨_, dv, old, same⟩
    · refine ⟨dv, List.mem_append_right _ (List.mem_filter.mpr ⟨new, ?_⟩), same ▸ covers⟩
      exact commitAccepts_of_claim member own (claims dv same)
    · exact ⟨dv, List.mem_append_left _ old, same ▸ covers⟩
  rcases named with path | ⟨t, target, same⟩
  · obtain ⟨u, listed, whole⟩ :=
      (DatasetRegistry.markTrained_paths env runId units sampleCounts d.registry).mp path
    apply accepted u listed
    · rw [whole]
      exact ⟨rfl, .inl rfl⟩
    · intro dv equal
      rw [whole] at equal
      left
      exact ⟨(unitOf_segment_none_iff dv.dataFile dv.segmentStart dv.segmentCount).mp
        (congrArg DatasetUnit.segment equal), (congrArg DatasetUnit.path equal).symm⟩
  · obtain ⟨_, u, listed, path, start, count⟩ :=
      (DatasetRegistry.markTrained_segments env runId units sampleCounts d.registry).mp target
    have unit : u.unit = e.unit := by
      rw [same]
      unfold PendingFileRange.unit SegmentTarget.unit
      rw [path, start, count]
    apply accepted u listed
    · rw [unit]
      exact .refl _
    · intro dv equal
      exact .inr (unit.symm.trans equal.symm)

/-- An entry the commit removes that neither a record on disk nor an entry it
leaves in the queue covers. -/
def Stranded (runId : String) (call : CommitCall) (d : Disk) (e : PendingEntry) : Prop :=
  e ∈ d.pending ∧ commitRemoves runId call.trainedPaths call.trainedSegments e = true ∧
    (∀ dv ∈ d.registry, ¬ dv.unit.Covers e.unit) ∧
    ∀ e' ∈ d.pending, commitRemoves runId call.trainedPaths call.trainedSegments e' = false →
      ¬ e'.unit.Covers e.unit

/-- A commit with a failed registry save and a successful queue save keeps every
unit exactly when it strands no entry. -/
theorem commit_queue_only_iff (call : CommitCall) :
    NoUnitLost d (d.savePending true
        (commitPending runId call.trainedPaths call.trainedSegments d.pending)) ↔
      ¬ ∃ e, Stranded runId call d e := by
  rw [noUnitLost_iff]
  have staying : ∀ e, e ∈ commitPending runId call.trainedPaths call.trainedSegments d.pending ↔
      e ∈ d.pending ∧ commitRemoves runId call.trainedPaths call.trainedSegments e = false := by
    intro e
    simp only [commitPending, List.mem_filter, Bool.not_eq_true']
  constructor
  · rintro ⟨entries, _⟩ ⟨e, member, _, records, queue⟩
    rcases entries e member with ⟨e', stays, covers⟩ | ⟨dv, recorded, covers⟩
    · exact queue e' ((staying e').mp stays).1 ((staying e').mp stays).2 covers
    · exact records dv recorded covers
  · intro none
    refine ⟨fun e member => ?_, fun dv member => .of_registry member⟩
    cases removed : commitRemoves runId call.trainedPaths call.trainedSegments e with
    | false => exact .of_pending ((staying e).mpr ⟨member, removed⟩)
    | true =>
        by_contra lost
        refine none ⟨e, member, removed, ?_, ?_⟩
        · intro dv recorded covers
          exact lost (.inr ⟨dv, recorded, covers⟩)
        · intro e' member' stays covers
          exact lost (.inl ⟨e', (staying e').mpr ⟨member', stays⟩, covers⟩)

/-- **Commits.** The exact condition under which a local commit of the units of a
pass keeps every unit. -/
theorem commitTrained_noUnitLost_iff :
    NoUnitLost d (LocalTransport.commitTrained io runId
        (DatasetRegistry.markTrained env runId units sampleCounts d.registry).newEntries
        (DatasetRegistry.markTrained env runId units sampleCounts d.registry).trainedPaths
        (DatasetRegistry.markTrained env runId units sampleCounts d.registry).trainedSegments d) ↔
      ¬ (io.lockTaken = true ∧ io.registrySaved = false ∧ io.pendingSaved = true ∧
        ∃ e, Stranded runId (DatasetRegistry.markTrained env runId units sampleCounts d.registry)
          d e) := by
  have covered := @commitRegistry_covers_removed env runId units sampleCounts d
  generalize DatasetRegistry.markTrained env runId units sampleCounts d.registry = call at *
  unfold LocalTransport.commitTrained
  have grown : ∀ dv ∈ d.registry, dv ∈ commitRegistry runId d.pending call.newEntries d.registry :=
    fun dv member => List.mem_append_left _ member
  cases locked : io.lockTaken with
  | false => simp [NoUnitLost.refl]
  | true =>
      cases queued : io.pendingSaved with
      | false =>
          simp only [Bool.not_true, Bool.false_eq_true, ↓reduceIte, Disk.savePending_false,
            false_and, and_false, not_false_eq_true, iff_true]
          rw [noUnitLost_iff]
          refine ⟨fun e member => .of_pending (by simpa using member), fun dv member => ?_⟩
          cases io.registrySaved with
          | false => exact .of_registry member
          | true => exact .of_registry (grown dv member)
      | true =>
          cases recorded : io.registrySaved with
          | false =>
              simp only [Bool.not_true, Bool.false_eq_true, ↓reduceIte, Disk.saveRegistry_false,
                true_and]
              exact commit_queue_only_iff runId d call
          | true =>
              simp only [Bool.not_true, Bool.false_eq_true, ↓reduceIte, Bool.true_eq_false,
                false_and, and_false, not_false_eq_true, iff_true]
              rw [noUnitLost_iff]
              refine ⟨fun e member => ?_, fun dv member => .of_registry (by simpa using grown dv member)⟩
              cases removed : commitRemoves runId call.trainedPaths call.trainedSegments e with
              | false =>
                  refine .of_pending ?_
                  simp [commitPending, member, removed]
              | true =>
                  obtain ⟨dv, place, covers⟩ := covered member removed
                  exact .inr ⟨dv, by simpa using place, covers⟩

end Commit

/-! ## Re-queues -/

/-- What a re-queue pass has kept so far: every queued entry, and every record
either still recorded or back in the queue. -/
structure Requeued (d : Disk) (st : RequeuePass) : Prop where
  pending : ∀ e ∈ d.pending, e ∈ st.pending
  registry : ∀ dv ∈ d.registry, dv ∈ st.registry ∨ ∃ e ∈ st.pending, e.unit = dv.unit

theorem requeueRecord_pending {modelName path : String} {st : RequeuePass} {dv : DataVersion}
    (named : dv.dataFile = path) :
    (∀ e ∈ st.pending, e ∈ (requeueRecord modelName path st dv).pending) ∧
      (requeueRecord modelName path st dv).registry = st.registry ∧
      ∃ e ∈ (requeueRecord modelName path st dv).pending, e.unit = dv.unit := by
  unfold requeueRecord
  split
  · rename_i queued
    obtain ⟨e, member, matching⟩ := List.any_eq_true.mp queued
    refine ⟨fun _ place => place, rfl, e, member, ?_⟩
    rw [(segmentMatches_iff ..).mp matching, ← named]
    rfl
  · refine ⟨fun _ place => List.mem_append_left _ place, rfl, requeuedEntry modelName path dv,
      List.mem_append_right _ (List.mem_singleton_self _), ?_⟩
    subst named
    rfl

theorem requeueRecords_pending (modelName path : String) (records : List DataVersion)
    (st : RequeuePass) (named : ∀ dv ∈ records, dv.dataFile = path) :
    let after := records.foldl (requeueRecord modelName path) st
    (∀ e ∈ st.pending, e ∈ after.pending) ∧ after.registry = st.registry ∧
      ∀ dv ∈ records, ∃ e ∈ after.pending, e.unit = dv.unit := by
  induction records generalizing st with
  | nil => exact ⟨fun _ member => member, rfl, by simp⟩
  | cons dv rest ih =>
      obtain ⟨first, untouched, back⟩ := @requeueRecord_pending modelName path st dv
        (named dv List.mem_cons_self)
      obtain ⟨kept, same, queued⟩ :=
        ih (requeueRecord modelName path st dv) fun other member =>
          named other (List.mem_cons_of_mem _ member)
      refine ⟨fun e member => kept e (first e member), same.trans untouched, ?_⟩
      intro other member
      rcases List.mem_cons.mp member with rfl | later
      · obtain ⟨e, present, unit⟩ := back
        exact ⟨e, kept e present, unit⟩
      · exact queued other later

theorem Requeued.step {d : Disk} {st : RequeuePass} (kept : Requeued d st) (modelName path : String) :
    Requeued d (requeuePath modelName st path) := by
  unfold requeuePath
  extract_lets records remaining
  split
  · exact ⟨kept.pending, kept.registry⟩
  · obtain ⟨queue, registry, queued⟩ := requeueRecords_pending modelName path records
      { st with registry := remaining } fun dv member => by
        simpa using (List.mem_filter.mp member).2
    refine ⟨fun e member => queue e (kept.pending e member), fun dv member => ?_⟩
    rcases kept.registry dv member with recorded | ⟨e, present, unit⟩
    · by_cases named : dv.dataFile = path
      · exact .inr (queued dv (List.mem_filter.mpr ⟨recorded, beq_iff_eq.mpr named⟩))
      · left
        rw [registry]
        exact List.mem_filter.mpr ⟨recorded, bne_iff_ne.mpr named⟩
    · exact .inr ⟨e, queue e present, unit⟩

theorem requeueEntries_requeued (modelName : String) (targets : List String) (d : Disk) :
    Requeued d (requeueEntries modelName targets d.pending d.registry) := by
  have fold : ∀ st, Requeued d st → Requeued d (targets.foldl (requeuePath modelName) st) := by
    induction targets with
    | nil => exact fun st kept => kept
    | cons path rest ih => exact fun st kept => ih _ (kept.step modelName path)
  exact fold _ ⟨fun _ member => member, fun _ member => .inl member⟩

/-- **Re-queues.** Whatever saves fail, a local re-queue keeps every unit. -/
theorem requeueTrained_noUnitLost (io : IoOutcome) (paths : List String) (all : Bool)
    (modelName : String) (d : Disk) :
    NoUnitLost d (LocalTransport.requeueTrained io paths all modelName d).2 := by
  have kept := requeueEntries_requeued modelName (requeueTargets paths all d.registry) d
  unfold LocalTransport.requeueTrained
  generalize requeueEntries modelName (requeueTargets paths all d.registry) d.pending
    d.registry = pass at kept
  split
  · exact .refl d
  · split
    · exact .refl d
    · dsimp only
      split
      · exact .refl d
      · split
        · exact .refl d
        · rename_i saved
          have queued : io.pendingSaved = true := by simpa using saved
          rw [noUnitLost_iff]
          refine ⟨fun e member => .of_pending ?_, fun dv member => ?_⟩
          · simpa only [Disk.saveRegistry_pending, queued, Disk.savePending_true] using
              kept.pending e member
          · rcases kept.registry dv member with recorded | ⟨e, present, unit⟩
            · refine .of_registry ?_
              cases io.registrySaved with
              | false => simpa using member
              | true => exact recorded
            · rw [← unit]
              refine .of_pending ?_
              simpa only [Disk.saveRegistry_pending, queued, Disk.savePending_true] using present

/-- **Units kept by the local transport.** A commit keeps every unit unless the
lock is taken, the registry save fails, the queue save succeeds and some entry is
stranded; a re-queue keeps every unit always. -/
theorem local_units_kept (io : IoOutcome) (env : TrainerEnv) (runId : String)
    (units : List PendingFileRange) (sampleCounts : List Int) (d : Disk) :
    (NoUnitLost d (LocalTransport.commitTrained io runId
        (DatasetRegistry.markTrained env runId units sampleCounts d.registry).newEntries
        (DatasetRegistry.markTrained env runId units sampleCounts d.registry).trainedPaths
        (DatasetRegistry.markTrained env runId units sampleCounts d.registry).trainedSegments d) ↔
      ¬ (io.lockTaken = true ∧ io.registrySaved = false ∧ io.pendingSaved = true ∧
        ∃ e, Stranded runId (DatasetRegistry.markTrained env runId units sampleCounts d.registry)
          d e)) ∧
    ∀ (paths : List String) (all : Bool) (modelName : String),
      NoUnitLost d (LocalTransport.requeueTrained io paths all modelName d).2 :=
  ⟨commitTrained_noUnitLost_iff io env runId units sampleCounts d,
    fun paths all modelName => requeueTrained_noUnitLost io paths all modelName d⟩

/-- A full disk at the registry save: the queue is rewritten all the same. -/
theorem local_units_kept_fails :
    let d : Disk := ⟨[], [{ path := "a.jsonl", runId := "r1" }]⟩
    let call := DatasetRegistry.markTrained {} "r1" [{ path := "a.jsonl" }] [7] d.registry
    ¬ NoUnitLost d (LocalTransport.commitTrained { registrySaved := false } "r1" call.newEntries
      call.trainedPaths call.trainedSegments d) := by
  intro d call
  rw [noUnitLost_iff]
  decide

end Adai.Registry
