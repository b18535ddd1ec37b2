import Mathlib.Data.Set.Basic
import Adai.Registry.DatasetRegistry

/-! # The local and the remote commit of one pass

A pass commits the same call through either back end: the local transport
filters the new records itself, the remote one sends aligned lists that the
server matches again. Both take the same entries off the queue
(`Adai.Registry.trainedRemoves_trainedBody`). Their records agree unless the
call names segments and a run commits a whole file that it claims only through
ranges of that file, or a whole file spelled otherwise than by `-1` and `-1`
(`Adai.Registry.commits_agree_iff`).
-/

namespace Adai.Registry

/-- The recorded units with their sample counts. -/
def Disk.recorded (d : Disk) : Set (DatasetUnit × Int) :=
  { record | ∃ dv ∈ d.registry, (dv.unit, dv.numSamples) = record }

/-- The units in the queue. -/
def Disk.queued (d : Disk) : Set DatasetUnit :=
  { unit | ∃ e ∈ d.pending, e.unit = unit }

/-- The run claims the unit. -/
def ClaimsUnit (runId : String) (pending : List PendingEntry) (unit : DatasetUnit) : Prop :=
  ∃ e ∈ pending, e.runId = runId ∧ e.unit = unit

/-- The run claims some entry of the path. -/
def ClaimsPath (runId : String) (pending : List PendingEntry) (path : String) : Prop :=
  ∃ e ∈ pending, e.runId = runId ∧ e.path = path

theorem ClaimsUnit.path {runId : String} {pending : List PendingEntry} {unit : DatasetUnit}
    (claims : ClaimsUnit runId pending unit) : ClaimsPath runId pending unit.path := by
  obtain ⟨e, member, own, rfl⟩ := claims
  exact ⟨e, member, own, rfl⟩

/-- With a run id a local commit records a whole file on any claim of its path,
a range on a claim of that range. -/
theorem commitAccepts_iff {runId : String} (named : runId ≠ "") (pending : List PendingEntry)
    (dv : DataVersion) :
    commitAccepts runId pending dv = true ↔
      if dv.segmentStart < 0 then ClaimsPath runId pending dv.dataFile
      else ClaimsUnit runId pending dv.unit := by
  unfold commitAccepts ClaimsPath ClaimsUnit
  split
  · simp [named]
  · simp only [Bool.or_eq_true, String.isEmpty_iff, named, List.any_eq_true, Bool.and_eq_true,
      beq_iff_eq, segmentMatches_iff, false_or]
    rfl

def ReportedUnit.unit (u : ReportedUnit) : DatasetUnit :=
  unitOf u.file u.segmentStart u.segmentCount

/-- A reported unit as it is spelled. -/
def ReportedUnit.key (u : ReportedUnit) : String × Int × Int :=
  (u.file, u.segmentStart, u.segmentCount)

theorem ReportedUnit.unit_eq_of_key {u v : ReportedUnit} (same : u.key = v.key) :
    u.unit = v.unit := by
  unfold key at same
  unfold unit
  simp only [Prod.mk.injEq] at same
  rw [same.1, same.2.1, same.2.2]

/-! ## The units on the wire -/

namespace RemoteTransport

theorem addUnit_eq (sent : List ReportedUnit) (u : ReportedUnit) :
    addUnit sent u = if u.key ∈ sent.map ReportedUnit.key then sent else sent ++ [u] := by
  unfold addUnit
  have listed : (sent.any fun v => v.file == u.file && v.segmentStart == u.segmentStart &&
      v.segmentCount == u.segmentCount) = decide (u.key ∈ sent.map ReportedUnit.key) := by
    rw [Bool.eq_iff_iff]
    simp only [List.any_eq_true, Bool.and_eq_true, beq_iff_eq, decide_eq_true_eq, List.mem_map,
      ReportedUnit.key, Prod.mk.injEq, and_assoc]
  rw [listed]
  simp only [decide_eq_true_eq]

/-- What sending more units appends: each key once, none of those sent before. -/
structure Sends (sent us after : List ReportedUnit) : Prop where
  appended : ∃ added, after = sent ++ added ∧
    ∀ w ∈ added, w ∈ us ∧ w.key ∉ sent.map ReportedUnit.key
  complete : ∀ u ∈ us, u.key ∈ after.map ReportedUnit.key
  nodup : (sent.map ReportedUnit.key).Nodup → (after.map ReportedUnit.key).Nodup

theorem sends_fold (sent us : List ReportedUnit) : Sends sent us (us.foldl addUnit sent) := by
  induction us generalizing sent with
  | nil => exact ⟨⟨[], (List.append_nil _).symm, by simp⟩, by simp, id⟩
  | cons u rest ih =>
      rw [List.foldl_cons, addUnit_eq]
      by_cases listed : u.key ∈ sent.map ReportedUnit.key
      · rw [if_pos listed]
        obtain ⟨⟨added, split, fresh⟩, complete, nodup⟩ := ih sent
        refine ⟨⟨added, split, fun w member => ?_⟩, fun v member => ?_, nodup⟩
        · exact ⟨List.mem_cons_of_mem _ (fresh w member).1, (fresh w member).2⟩
        · rcases List.mem_cons.mp member with rfl | later
          · rw [split, List.map_append]
            exact List.mem_append_left _ listed
          · exact complete v later
      · rw [if_neg listed]
        obtain ⟨⟨added, split, fresh⟩, complete, nodup⟩ := ih (sent ++ [u])
        refine ⟨⟨u :: added, ?_, fun w member => ?_⟩, fun v member => ?_, fun start => nodup ?_⟩
        · rw [split, List.append_assoc]
          rfl
        · rcases List.mem_cons.mp member with rfl | later
          · exact ⟨List.mem_cons_self, listed⟩
          · refine ⟨List.mem_cons_of_mem _ (fresh w later).1, fun before => (fresh w later).2 ?_⟩
            rw [List.map_append]
            exact List.mem_append_left _ before
        · rcases List.mem_cons.mp member with rfl | later
          · rw [split]
            simp
          · exact complete v later
        · rw [List.map_append, List.nodup_append]
          refine ⟨start, List.nodup_singleton _, ?_⟩
          rintro key member other single rfl
          obtain rfl : key = u.key := by simpa using single
          exact listed member

/-- Units spelled differently are all sent, in order. -/
theorem fold_of_nodup {us : List ReportedUnit} (nodup : (us.map ReportedUnit.key).Nodup) :
    us.foldl addUnit [] = us := by
  induction us using List.reverseRecOn with
  | nil => rfl
  | append_singleton us u ih =>
      rw [List.map_append, List.nodup_append] at nodup
      rw [List.foldl_append, ih nodup.1, List.foldl_cons, List.foldl_nil, addUnit_eq, if_neg]
      exact fun listed => nodup.2.2 _ listed _ (by simp) rfl

end RemoteTransport

/-! ## The server's pass over the reported units -/

section Server

variable (env : ServerEnv) (req : TrainedRequest) (pending : List PendingEntry)

theorem trainedRecord_unit (u : ReportedUnit) : (trainedRecord env req pending u).unit = u.unit :=
  rfl

theorem trainedStep_listed {st : TrainedPass} {u : ReportedUnit} (listed : u.key ∈ st.recordedNow) :
    trainedStep env req pending st u = st := by
  have seen : (u.file, u.segmentStart, u.segmentCount) ∈ st.recordedNow := listed
  simp [trainedStep, seen]

/-- With a run id an unlisted unit is recorded when the caller claims it. -/
theorem trainedStep_claimed (named : req.runId ≠ "") {st : TrainedPass} {u : ReportedUnit}
    (unlisted : u.key ∉ st.recordedNow) (claimed : claimedByCaller req pending u = true) :
    trainedStep env req pending st u =
      { st with
        registry := st.registry ++ [trainedRecord env req pending u]
        recordedNow := st.recordedNow ++ [u.key]
        trained := st.trained + 1 } := by
  have unseen : (u.file, u.segmentStart, u.segmentCount) ∉ st.recordedNow := unlisted
  simp [trainedStep, unseen, named, claimed, ReportedUnit.key]

/-- With a run id a unit that the caller does not claim is not recorded. -/
theorem trainedStep_unclaimed (named : req.runId ≠ "") (st : TrainedPass) {u : ReportedUnit}
    (unclaimed : claimedByCaller req pending u = false) :
    (trainedStep env req pending st u).registry = st.registry ∧
      (trainedStep env req pending st u).recordedNow = st.recordedNow := by
  by_cases listed : u.key ∈ st.recordedNow
  · rw [trainedStep_listed env req pending listed]
    exact ⟨rfl, rfl⟩
  · have unseen : (u.file, u.segmentStart, u.segmentCount) ∉ st.recordedNow := listed
    simp [trainedStep, unseen, named, unclaimed]

/-- With a run id, units reported under different keys are recorded when claimed. -/
theorem trainedFold_distinct (named : req.runId ≠ "") (us : List ReportedUnit) (st : TrainedPass)
    (nodup : (us.map ReportedUnit.key).Nodup)
    (fresh : ∀ u ∈ us, u.key ∉ st.recordedNow) :
    (us.foldl (trainedStep env req pending) st).registry = st.registry ++
        (us.filter (claimedByCaller req pending)).map (trainedRecord env req pending) ∧
      (us.foldl (trainedStep env req pending) st).recordedNow = st.recordedNow ++
        (us.filter (claimedByCaller req pending)).map ReportedUnit.key := by
  induction us generalizing st with
  | nil => simp
  | cons u rest ih =>
      have later : ∀ v ∈ rest, v.key ≠ u.key := by
        intro v member same
        exact (List.nodup_cons.mp nodup).1 (same ▸ List.mem_map_of_mem member)
      rw [List.foldl_cons]
      cases claimed : claimedByCaller req pending u with
      | true =>
          rw [trainedStep_claimed env req pending named (fresh u List.mem_cons_self) claimed,
            List.filter_cons_of_pos claimed]
          have fresh' : ∀ v ∈ rest, v.key ∉ st.recordedNow ++ [u.key] := by
            intro v member listed
            rcases List.mem_append.mp listed with before | now
            · exact fresh v (List.mem_cons_of_mem _ member) before
            · exact later v member (List.mem_singleton.mp now)
          obtain ⟨registry, keys⟩ := ih
            { st with
              registry := st.registry ++ [trainedRecord env req pending u]
              recordedNow := st.recordedNow ++ [u.key]
              trained := st.trained + 1 } (List.nodup_cons.mp nodup).2 fresh'
          rw [registry, keys]
          simp only [List.append_assoc, List.singleton_append, List.map_cons, and_self]
      | false =>
          obtain ⟨same, listed⟩ :=
            trainedStep_unclaimed env req pending named st claimed
          obtain ⟨registry, keys⟩ := ih (trainedStep env req pending st u)
            (List.nodup_cons.mp nodup).2 (fun v member => by
              rw [listed]
              exact fresh v (List.mem_cons_of_mem _ member))
          rw [registry, keys, same, listed, List.filter_cons_of_neg (by simp [claimed])]
          exact ⟨rfl, rfl⟩

/-- Units recorded in this request already, or not claimed, add nothing. -/
theorem trainedFold_repeated (named : req.runId ≠ "") (us : List ReportedUnit) (st : TrainedPass)
    (repeated : ∀ u ∈ us, u.key ∈ st.recordedNow ∨ claimedByCaller req pending u = false) :
    (us.foldl (trainedStep env req pending) st).registry = st.registry := by
  induction us generalizing st with
  | nil => rfl
  | cons u rest ih =>
      have step : (trainedStep env req pending st u).registry = st.registry ∧
          (trainedStep env req pending st u).recordedNow = st.recordedNow := by
        rcases repeated u List.mem_cons_self with listed | unclaimed
        · rw [trainedStep_listed env req pending listed]
          exact ⟨rfl, rfl⟩
        · exact trainedStep_unclaimed env req pending named st unclaimed
      rw [List.foldl_cons, ih _ (fun v member => by
        rw [step.2]
        exact repeated v (List.mem_cons_of_mem _ member)), step.1]

/-- Every key recorded in this request names a recorded unit. -/
def TrainedPass.Consistent (st : TrainedPass) : Prop :=
  ∀ u : ReportedUnit, u.key ∈ st.recordedNow → ∃ dv ∈ st.registry, dv.unit = u.unit

/-- Without a run id a unit that is recorded adds nothing. -/
theorem trainedStep_recorded (anonymous : req.runId = "") (st : TrainedPass) (u : ReportedUnit)
    (recorded : ∃ dv ∈ st.registry, dv.unit = u.unit) :
    trainedStep env req pending st u = st := by
  have present : (st.registry.any fun dv =>
      trainedMatches dv u.file u.segmentStart u.segmentCount) = true :=
    DatasetRegistry.any_trainedMatches.mpr recorded
  unfold trainedStep
  simp [anonymous, present]

/-- Without a run id a unit that is not recorded is recorded. -/
theorem trainedStep_new (anonymous : req.runId = "") (st : TrainedPass) (u : ReportedUnit)
    (consistent : st.Consistent) (absent : ∀ dv ∈ st.registry, dv.unit ≠ u.unit) :
    (trainedStep env req pending st u).registry =
        st.registry ++ [trainedRecord env req pending u] ∧
      (trainedStep env req pending st u).Consistent := by
  have unseen : (u.file, u.segmentStart, u.segmentCount) ∉ st.recordedNow := by
    intro listed
    obtain ⟨dv, member, same⟩ := consistent u listed
    exact absent dv member same
  have missing : (st.registry.any fun dv =>
      trainedMatches dv u.file u.segmentStart u.segmentCount) = false := by
    rw [Bool.eq_false_iff]
    intro present
    obtain ⟨dv, member, same⟩ := DatasetRegistry.any_trainedMatches.mp present
    exact absent dv member same
  have step : trainedStep env req pending st u =
      { st with
        registry := st.registry ++ [trainedRecord env req pending u]
        recordedNow := st.recordedNow ++ [u.key]
        trained := st.trained + 1 } := by
    simp [trainedStep, unseen, anonymous, missing, ReportedUnit.key]
  rw [step]
  refine ⟨rfl, fun v listed => ?_⟩
  rcases List.mem_append.mp listed with before | now
  · obtain ⟨dv, member, same⟩ := consistent v before
    exact ⟨dv, List.mem_append_left _ member, same⟩
  · refine ⟨_, List.mem_append_right _ (List.mem_singleton_self _), ?_⟩
    rw [trainedRecord_unit]
    exact (ReportedUnit.unit_eq_of_key (by simpa using now)).symm

/-- Without a run id, distinct units that are not recorded are all recorded. -/
theorem trainedFold_new (anonymous : req.runId = "") (us : List ReportedUnit) (st : TrainedPass)
    (consistent : st.Consistent) (nodup : (us.map ReportedUnit.unit).Nodup)
    (absent : ∀ u ∈ us, ∀ dv ∈ st.registry, dv.unit ≠ u.unit) :
    (us.foldl (trainedStep env req pending) st).registry =
      st.registry ++ us.map (trainedRecord env req pending) := by
  induction us generalizing st with
  | nil => simp
  | cons u rest ih =>
      obtain ⟨step, kept⟩ := trainedStep_new env req pending anonymous st u consistent
        (absent u List.mem_cons_self)
      rw [List.foldl_cons, ih _ kept (List.nodup_cons.mp nodup).2, step]
      · simp
      · intro v member dv recorded same
        rw [step] at recorded
        rcases List.mem_append.mp recorded with before | now
        · exact absent v (List.mem_cons_of_mem _ member) dv before same
        · obtain rfl : dv = trainedRecord env req pending u := by simpa using now
          refine (List.nodup_cons.mp nodup).1 ?_
          rw [← trainedRecord_unit env req pending u, same]
          exact List.mem_map_of_mem member

/-- Without a run id, recorded units add nothing. -/
theorem trainedFold_recorded (anonymous : req.runId = "") (us : List ReportedUnit)
    (st : TrainedPass) (recorded : ∀ u ∈ us, ∃ dv ∈ st.registry, dv.unit = u.unit) :
    us.foldl (trainedStep env req pending) st = st := by
  induction us with
  | nil => rfl
  | cons u rest ih =>
      rw [List.foldl_cons, trainedStep_recorded env req pending anonymous st u
        (recorded u List.mem_cons_self)]
      exact ih fun v member => recorded v (List.mem_cons_of_mem _ member)

end Server

/-! ## What the server reads from the request body -/

section Wire

variable (tenv : TrainerEnv) (runId : String) (units : List PendingFileRange)
  (sampleCounts : List Int) (registry : List DataVersion)

/-- A unit as the server reads it from a request without ranges. -/
def ReportedUnit.wholeFile (u : ReportedUnit) : ReportedUnit :=
  { file := u.file, samples := u.samples }

namespace RemoteTransport

theorem recordUnit_unit (dv : DataVersion) : (recordUnit dv).unit = dv.unit := rfl

theorem segmentUnit_unit (t : SegmentTarget) : (segmentUnit t).unit = t.unit := rfl

theorem pathUnit_unit (path : String) : (pathUnit path).unit = ⟨path, none⟩ := rfl

theorem trainedBody_exact {call : CommitCall} (segments : call.trainedSegments ≠ []) :
    (trainedBody runId call).exact = true := by
  obtain ⟨t, rest, target⟩ := List.exists_cons_of_ne_nil segments
  obtain ⟨_, complete, _⟩ := sends_fold [] (call.newEntries.map recordUnit ++
    call.trainedPaths.map pathUnit ++ call.trainedSegments.map segmentUnit)
  have sent : wireUnits call ≠ [] := by
    intro empty
    have key := complete (segmentUnit t) (by simp [target])
    rw [← wireUnits, empty] at key
    cases key
  simp [TrainedRequest.exact, trainedBody, segments, sent]

theorem trainedBody_not_exact {call : CommitCall} (segments : call.trainedSegments = []) :
    (trainedBody runId call).exact = false := by
  cases sent : wireUnits call <;> simp [TrainedRequest.exact, trainedBody, segments, sent]

/-- With segments the server reads the units as they were sent. -/
theorem trainedBody_reported {call : CommitCall} (segments : call.trainedSegments ≠ []) :
    (trainedBody runId call).reported = wireUnits call := by
  unfold TrainedRequest.reported
  rw [trainedBody_exact runId segments]
  apply List.ext_getElem
  · simp [trainedBody]
  · intro i bound _
    have inside : i < (wireUnits call).length := by simpa [trainedBody] using bound
    simp [trainedBody, segments, inside]

/-- Without segments it reads whole files. -/
theorem trainedBody_reported_whole {call : CommitCall} (segments : call.trainedSegments = []) :
    (trainedBody runId call).reported = (wireUnits call).map ReportedUnit.wholeFile := by
  unfold TrainedRequest.reported
  rw [trainedBody_not_exact runId segments]
  apply List.ext_getElem
  · simp [trainedBody]
  · intro i bound _
    have inside : i < (wireUnits call).length := by simpa [trainedBody] using bound
    simp [trainedBody, inside, ReportedUnit.wholeFile]

end RemoteTransport

open DatasetRegistry RemoteTransport

/-- The units sent are the committed ones. -/
theorem wireUnits_unit_iff (v : DatasetUnit) :
    (∃ w ∈ wireUnits (markTrained tenv runId units sampleCounts registry), w.unit = v) ↔
      ∃ u ∈ units, u.unit = v := by
  have origin := @markTrained_origin tenv runId units sampleCounts registry
  have paths := @markTrained_paths tenv runId units sampleCounts registry
  have segments := @markTrained_segments tenv runId units sampleCounts registry
  generalize markTrained tenv runId units sampleCounts registry = call at *
  obtain ⟨⟨added, split, listed⟩, complete, _⟩ := sends_fold [] (call.newEntries.map recordUnit ++
    call.trainedPaths.map pathUnit ++ call.trainedSegments.map segmentUnit)
  rw [← wireUnits, List.nil_append] at split
  rw [← wireUnits] at complete
  subst split
  constructor
  · rintro ⟨w, member, rfl⟩
    rcases List.mem_append.mp (listed w member).1 with front | segment
    · rcases List.mem_append.mp front with record | path
      · obtain ⟨dv, new, rfl⟩ := List.mem_map.mp record
        obtain ⟨u, place, file, start, count⟩ := origin new
        refine ⟨u, place, ?_⟩
        rw [recordUnit_unit]
        unfold PendingFileRange.unit DataVersion.unit
        rw [file, start, count]
      · obtain ⟨p, trained, rfl⟩ := List.mem_map.mp path
        exact paths.mp trained
    · obtain ⟨t, trained, rfl⟩ := List.mem_map.mp segment
      obtain ⟨_, u, place, file, start, count⟩ := segments.mp trained
      refine ⟨u, place, ?_⟩
      rw [segmentUnit_unit]
      unfold PendingFileRange.unit SegmentTarget.unit
      rw [file, start, count]
  · rintro ⟨u, member, rfl⟩
    have sent : ∃ w ∈ call.newEntries.map recordUnit ++ call.trainedPaths.map pathUnit ++
        call.trainedSegments.map segmentUnit, w.unit = u.unit := by
      by_cases whole : u.segmentStart < 0
      · have path : u.path ∈ call.trainedPaths := paths.mpr ⟨u, member, by
          simp [PendingFileRange.unit, unitOf, whole]⟩
        refine ⟨pathUnit u.path, List.mem_append_left _
          (List.mem_append_right _ (List.mem_map_of_mem path)), ?_⟩
        simp [pathUnit_unit, PendingFileRange.unit, unitOf, whole]
      · have target : (⟨u.path, u.segmentStart, u.segmentCount⟩ : SegmentTarget) ∈
            call.trainedSegments :=
          segments.mpr ⟨Int.not_lt.mp whole, u, member, rfl, rfl, rfl⟩
        refine ⟨segmentUnit ⟨u.path, u.segmentStart, u.segmentCount⟩, ?_, rfl⟩
        exact List.mem_append_right _ (List.mem_map_of_mem target)
    obtain ⟨w, place, same⟩ := sent
    obtain ⟨w', sent, key⟩ := List.mem_map.mp (complete w place)
    exact ⟨w', sent, (ReportedUnit.unit_eq_of_key key).trans same⟩

/-- Both back ends take the same entries off the queue. -/
theorem trainedRemoves_trainedBody (e : PendingEntry) :
    trainedRemoves (trainedBody runId (markTrained tenv runId units sampleCounts registry)) e =
      commitRemoves runId (markTrained tenv runId units sampleCounts registry).trainedPaths
        (markTrained tenv runId units sampleCounts registry).trainedSegments e := by
  have sent := wireUnits_unit_iff tenv runId units sampleCounts registry
  have paths := @markTrained_paths tenv runId units sampleCounts registry
  have segments := @markTrained_segments tenv runId units sampleCounts registry
  generalize markTrained tenv runId units sampleCounts registry = call at *
  unfold trainedRemoves commitRemoves
  have sameRun : (trainedBody runId call).runId = runId := rfl
  rw [sameRun]
  by_cases others : (!runId.isEmpty && e.runId != runId) = true
  · rw [if_pos others, if_pos others]
  · rw [if_neg others, if_neg others]
    by_cases none : call.trainedSegments = []
    · have whole : ∀ u ∈ units, u.segmentStart < 0 := by
        intro u member
        by_contra range
        have target : (⟨u.path, u.segmentStart, u.segmentCount⟩ : SegmentTarget) ∈
            call.trainedSegments :=
          segments.mpr ⟨Int.not_lt.mp range, u, member, rfl, rfl, rfl⟩
        rw [none] at target
        cases target
      have files : (trainedBody runId call).files = (wireUnits call).map ReportedUnit.file := rfl
      simp only [trainedBody_not_exact runId none, Bool.not_false, ↓reduceIte, none,
        List.isEmpty_nil, files]
      rw [Bool.eq_iff_iff, List.contains_iff_mem, List.contains_iff_mem, List.mem_map, paths]
      constructor
      · rintro ⟨w, member, file⟩
        obtain ⟨u, place, same⟩ := (sent w.unit).mp ⟨w, member, rfl⟩
        have path : u.path = e.path := (congrArg DatasetUnit.path same).trans file
        refine ⟨u, place, ?_⟩
        simp [PendingFileRange.unit, unitOf, whole u place, path]
      · intro place
        obtain ⟨w, member, same⟩ := (sent _).mpr place
        exact ⟨w, member, congrArg DatasetUnit.path same⟩
    · simp only [trainedBody_exact runId none, Bool.not_true, Bool.false_eq_true, ↓reduceIte,
        List.isEmpty_iff, none, trainedBody_reported runId none]
      have removed : ((wireUnits call).any fun u =>
          segmentMatches e u.file u.segmentStart u.segmentCount) = true ↔
            ∃ u ∈ units, u.unit = e.unit := by
        rw [← sent, List.any_eq_true]
        simp only [segmentMatches_iff]
        exact exists_congr fun w => and_congr_right fun _ => eq_comm
      rw [Bool.eq_iff_iff, removed]
      by_cases whole : e.segmentStart < 0
      · rw [if_pos whole, List.contains_iff_mem, paths]
        have unit : e.unit = ⟨e.path, Option.none⟩ := by simp [PendingEntry.unit, unitOf, whole]
        rw [unit]
      · rw [if_neg whole, List.any_eq_true]
        simp only [segmentMatches_iff]
        constructor
        · rintro ⟨u, member, same⟩
          have range : 0 ≤ u.segmentStart := by
            have none_iff := unitOf_segment_none_iff u.path u.segmentStart u.segmentCount
            have segment := congrArg DatasetUnit.segment same
            rw [← PendingFileRange.unit, segment, PendingEntry.unit,
              unitOf_segment_none_iff] at none_iff
            omega
          exact ⟨⟨u.path, u.segmentStart, u.segmentCount⟩,
            segments.mpr ⟨range, u, member, rfl, rfl, rfl⟩, same.symm⟩
        · rintro ⟨t, target, same⟩
          obtain ⟨_, u, member, file, start, count⟩ := segments.mp target
          refine ⟨u, member, ?_⟩
          rw [same]
          unfold PendingFileRange.unit
          rw [file, start, count]

/-- The new records are sent first and as they are; what follows is spelled
otherwise. -/
theorem wireUnits_sends :
    Sends ((markTrained tenv runId units sampleCounts registry).newEntries.map recordUnit)
      ((markTrained tenv runId units sampleCounts registry).trainedPaths.map pathUnit ++
        (markTrained tenv runId units sampleCounts registry).trainedSegments.map segmentUnit)
      (wireUnits (markTrained tenv runId units sampleCounts registry)) := by
  have nodup := markTrained_nodup tenv runId units sampleCounts registry
  generalize markTrained tenv runId units sampleCounts registry = call at *
  have keys : ((call.newEntries.map recordUnit).map ReportedUnit.key).Nodup := by
    rw [List.map_map]
    refine List.Nodup.of_map (fun key : String × Int × Int => unitOf key.1 key.2.1 key.2.2) ?_
    rw [List.map_map]
    exact nodup
  unfold wireUnits
  rw [List.append_assoc, List.foldl_append, fold_of_nodup keys]
  exact sends_fold _ _

end Wire

/-! ## The records of both back ends -/

section Agreement

open DatasetRegistry RemoteTransport

variable (cfg : ServerConfig) (env : ServerEnv) (tenv : TrainerEnv) (runId : String)
  (units : List PendingFileRange) (sampleCounts : List Int) (d : Disk)

/-- The commit of the units through the local transport. -/
def localCommit : Disk :=
  let call := markTrained tenv runId units sampleCounts d.registry
  LocalTransport.commitTrained {} runId call.newEntries call.trainedPaths call.trainedSegments d

/-- The commit of the units through the remote transport and the server. -/
def remoteCommit : Disk :=
  let call := markTrained tenv runId units sampleCounts d.registry
  (handleTrained cfg env {} (trainedBody runId call) d).2

/-- Both back ends leave the same queue, entry by entry. -/
theorem localCommit_pending :
    (localCommit tenv runId units sampleCounts d).pending =
      (remoteCommit cfg env tenv runId units sampleCounts d).pending := by
  unfold localCommit remoteCommit LocalTransport.commitTrained handleTrained commitPending
  simp only [Bool.not_true, Bool.false_eq_true, ↓reduceIte, Disk.savePending_true,
    trainedRemoves_trainedBody]

theorem mem_localCommit_recorded (record : DatasetUnit × Int) :
    record ∈ (localCommit tenv runId units sampleCounts d).recorded ↔
      record ∈ d.recorded ∨
        ∃ dv ∈ (markTrained tenv runId units sampleCounts d.registry).newEntries,
          commitAccepts runId d.pending dv = true ∧ (dv.unit, dv.numSamples) = record := by
  simp only [localCommit, LocalTransport.commitTrained, Disk.recorded, commitRegistry,
    Bool.not_true, Bool.false_eq_true, ↓reduceIte, Disk.savePending_registry,
    Disk.saveRegistry_true, Set.mem_ofPred_eq, List.mem_append, List.mem_filter, or_and_right,
    exists_or, and_assoc]

theorem mem_remoteCommit_recorded (record : DatasetUnit × Int) :
    record ∈ (remoteCommit cfg env tenv runId units sampleCounts d).recorded ↔
      ∃ dv ∈ (trainedPass env (trainedBody runId
        (markTrained tenv runId units sampleCounts d.registry)) d).registry,
          (dv.unit, dv.numSamples) = record := by
  simp only [remoteCommit, handleTrained, Disk.recorded, Bool.not_true, Bool.false_eq_true,
    ↓reduceIte, Disk.savePending_registry, Disk.saveRegistry_true, Set.mem_ofPred_eq]

/-- The records a list of reported units leaves behind. -/
theorem mem_trainedRecords (req : TrainedRequest) (pending : List PendingEntry)
    (us : List ReportedUnit) (record : DatasetUnit × Int) :
    (∃ dv ∈ d.registry ++ us.map (trainedRecord env req pending),
        (dv.unit, dv.numSamples) = record) ↔
      record ∈ d.recorded ∨ ∃ u ∈ us, (u.unit, u.samples) = record := by
  simp only [List.mem_append, List.mem_map, or_and_right, exists_or, Disk.recorded,
    Set.mem_ofPred_eq]
  refine or_congr_right ⟨?_, ?_⟩
  · rintro ⟨dv, ⟨u, member, rfl⟩, same⟩
    exact ⟨u, member, same⟩
  · rintro ⟨u, member, same⟩
    exact ⟨_, ⟨u, member, rfl⟩, same⟩

/-- What the server reads: the new records first, then further committed units. -/
theorem reported_split :
    ∃ front back,
      (trainedBody runId (markTrained tenv runId units sampleCounts d.registry)).reported =
        front ++ back ∧
      front.map (fun u => (u.unit, u.samples)) =
        (markTrained tenv runId units sampleCounts d.registry).newEntries.map
          (fun dv => (dv.unit, dv.numSamples)) ∧
      ∀ w ∈ back, ∃ u ∈ units, u.unit = w.unit := by
  have sent := wireUnits_unit_iff tenv runId units sampleCounts d.registry
  have origin := @markTrained_origin tenv runId units sampleCounts d.registry
  have segments := @markTrained_segments tenv runId units sampleCounts d.registry
  obtain ⟨added, split, _⟩ :=
    (wireUnits_sends tenv runId units sampleCounts d.registry).appended
  generalize markTrained tenv runId units sampleCounts d.registry = call at *
  have listed : ∀ w ∈ added, ∃ u ∈ units, u.unit = w.unit := by
    intro w member
    exact (sent w.unit).mp ⟨w, split ▸ List.mem_append_right _ member, rfl⟩
  by_cases none : call.trainedSegments = []
  · have whole : ∀ u ∈ units, u.segmentStart < 0 := by
      intro u member
      by_contra range
      have target : (⟨u.path, u.segmentStart, u.segmentCount⟩ : SegmentTarget) ∈
          call.trainedSegments :=
        segments.mpr ⟨Int.not_lt.mp range, u, member, rfl, rfl, rfl⟩
      rw [none] at target
      cases target
    refine ⟨(call.newEntries.map recordUnit).map ReportedUnit.wholeFile,
      added.map ReportedUnit.wholeFile, ?_, ?_, ?_⟩
    · rw [trainedBody_reported_whole runId none, split, List.map_append]
    · rw [List.map_map, List.map_map]
      refine List.map_congr_left fun dv member => ?_
      obtain ⟨u, place, _, start, _⟩ := origin member
      have negative : dv.segmentStart < 0 := start ▸ whole u place
      simp [recordUnit, ReportedUnit.wholeFile, ReportedUnit.unit, DataVersion.unit, unitOf,
        negative]
    · intro w member
      obtain ⟨v, place, rfl⟩ := List.mem_map.mp member
      obtain ⟨u, unit, same⟩ := listed v place
      refine ⟨u, unit, ?_⟩
      have path : u.path = v.file := congrArg DatasetUnit.path same
      simp [ReportedUnit.wholeFile, ReportedUnit.unit, PendingFileRange.unit, unitOf,
        whole u unit, path]
  · refine ⟨call.newEntries.map recordUnit, added, ?_, ?_, listed⟩
    · rw [trainedBody_reported runId none, split]
    · rw [List.map_map]
      rfl

/-- Pairs of a unit and a sample count, listed two ways. -/
theorem exists_pair_iff {us : List ReportedUnit} {records : List DataVersion}
    (same : us.map (fun u => (u.unit, u.samples)) =
      records.map (fun dv => (dv.unit, dv.numSamples))) (record : DatasetUnit × Int) :
    (∃ u ∈ us, (u.unit, u.samples) = record) ↔
      ∃ dv ∈ records, (dv.unit, dv.numSamples) = record := by
  have listed := congrArg (record ∈ ·) same
  simpa only [List.mem_map, eq_iff_iff] using listed

/-! ### Without a run id -/

/-- A commit without a run id leaves the same records on both sides. -/
theorem commits_agree_anonymous (anonymous : runId = "") :
    (localCommit tenv runId units sampleCounts d).recorded =
      (remoteCommit cfg env tenv runId units sampleCounts d).recorded := by
  obtain ⟨front, back, split, same, listed⟩ := reported_split tenv runId units sampleCounts d
  have nodup := markTrained_nodup tenv runId units sampleCounts d.registry
  have fresh := @markTrained_fresh tenv runId units sampleCounts d.registry anonymous
  have complete := @markTrained_complete tenv runId units sampleCounts d.registry
  ext record
  rw [mem_localCommit_recorded, mem_remoteCommit_recorded]
  generalize markTrained tenv runId units sampleCounts d.registry = call at *
  have frontUnits : front.map ReportedUnit.unit = call.newEntries.map DataVersion.unit := by
    have firsts := congrArg (List.map Prod.fst) same
    rw [List.map_map, List.map_map] at firsts
    exact firsts
  have accepted : ∀ dv : DataVersion, commitAccepts runId d.pending dv = true := fun dv => by
    simp [commitAccepts, anonymous]
  have absent : ∀ u ∈ front, ∀ dv ∈ d.registry, dv.unit ≠ u.unit := by
    intro u member dv recorded equal
    have listed : u.unit ∈ call.newEntries.map DataVersion.unit :=
      frontUnits ▸ List.mem_map_of_mem member
    obtain ⟨new, place, unit⟩ := List.mem_map.mp listed
    exact fresh place recorded (equal.trans unit.symm)
  have first := trainedFold_new env (trainedBody runId call) d.pending anonymous front
    { registry := d.registry } (fun u member => by cases member) (frontUnits ▸ nodup) absent
  have second := trainedFold_recorded env (trainedBody runId call) d.pending anonymous back
    (front.foldl (trainedStep env (trainedBody runId call) d.pending) { registry := d.registry })
    (by
      intro w member
      obtain ⟨u, place, unit⟩ := listed w member
      rw [first]
      rcases complete place with ⟨new, there, equal⟩ | ⟨_, old, there, equal⟩
      · have listed : new.unit ∈ front.map ReportedUnit.unit :=
          frontUnits ▸ List.mem_map_of_mem there
        obtain ⟨v, reported, same⟩ := List.mem_map.mp listed
        exact ⟨_, List.mem_append_right _ (List.mem_map_of_mem reported),
          (trainedRecord_unit ..).trans (same.trans (equal.trans unit))⟩
      · exact ⟨old, List.mem_append_left _ there, equal.trans unit⟩)
  unfold trainedPass
  rw [split, List.foldl_append, second, first, mem_trainedRecords, exists_pair_iff same]
  simp only [accepted, true_and]

/-! ### With a run id, whole files only -/

/-- Without ranges a claim on any entry of the path counts. -/
theorem claimedByCaller_whole_iff {call : CommitCall} (none : call.trainedSegments = [])
    (pending : List PendingEntry) (u : ReportedUnit) :
    claimedByCaller (trainedBody runId call) pending u = true ↔ ClaimsPath runId pending u.file := by
  have sameRun : (trainedBody runId call).runId = runId := rfl
  simp only [claimedByCaller, trainedBody_not_exact runId none, sameRun, ClaimsPath,
    List.any_eq_true, Bool.false_eq_true, ↓reduceIte, Bool.if_false_left, Bool.and_eq_true,
    Bool.not_eq_true', beq_iff_eq, decide_eq_false_iff_not, bne_iff_ne,
    Decidable.not_not]

/-- With ranges only a claim on the unit itself does. -/
theorem claimedByCaller_exact_iff {call : CommitCall} (segments : call.trainedSegments ≠ [])
    (pending : List PendingEntry) (u : ReportedUnit) :
    claimedByCaller (trainedBody runId call) pending u = true ↔ ClaimsUnit runId pending u.unit := by
  have sameRun : (trainedBody runId call).runId = runId := rfl
  simp only [claimedByCaller, trainedBody_exact runId segments, sameRun, ClaimsUnit,
    List.any_eq_true, ↓reduceIte, Bool.if_false_left, Bool.and_eq_true, Bool.not_eq_true',
    segmentMatches_iff, decide_eq_false_iff_not, bne_iff_ne, Decidable.not_not,
    ReportedUnit.unit]

/-- A new record as the server reads it from a request without ranges. -/
def recordFile (dv : DataVersion) : ReportedUnit :=
  { file := dv.dataFile, samples := dv.numSamples }

theorem recordFile_unit {dv : DataVersion} (whole : dv.segmentStart < 0) :
    (recordFile dv).unit = dv.unit := by
  simp [recordFile, ReportedUnit.unit, DataVersion.unit, unitOf, whole]

theorem map_wholeFile_recordUnit (records : List DataVersion) :
    (records.map recordUnit).map ReportedUnit.wholeFile = records.map recordFile := by
  rw [List.map_map]
  rfl

theorem commits_agree_whole (named : runId ≠ "") (whole : ∀ u ∈ units, u.segmentStart < 0) :
    (localCommit tenv runId units sampleCounts d).recorded =
      (remoteCommit cfg env tenv runId units sampleCounts d).recorded := by
  have nodup := markTrained_nodup tenv runId units sampleCounts d.registry
  have complete := @markTrained_complete tenv runId units sampleCounts d.registry
  have origin := @markTrained_origin tenv runId units sampleCounts d.registry
  have sent := wireUnits_unit_iff tenv runId units sampleCounts d.registry
  have none : (markTrained tenv runId units sampleCounts d.registry).trainedSegments = [] := by
    simp only [markTrained, List.map_eq_nil_iff, List.filter_eq_nil_iff]
    intro u member
    simp [whole u member]
  obtain ⟨added, split, _⟩ :=
    (wireUnits_sends tenv runId units sampleCounts d.registry).appended
  ext record
  rw [mem_localCommit_recorded, mem_remoteCommit_recorded]
  generalize markTrained tenv runId units sampleCounts d.registry = call at *
  have negative : ∀ dv ∈ call.newEntries, dv.segmentStart < 0 := by
    intro dv member
    obtain ⟨u, place, _, start, _⟩ := origin member
    exact start ▸ whole u place
  have keys : ((call.newEntries.map recordFile).map ReportedUnit.key).Nodup := by
    refine List.Nodup.of_map (fun key : String × Int × Int => unitOf key.1 key.2.1 key.2.2) ?_
    rw [List.map_map, List.map_map]
    refine (List.map_congr_left fun dv member => ?_) ▸ nodup
    exact (recordFile_unit (negative dv member)).symm
  obtain ⟨registry, recorded⟩ := trainedFold_distinct env (trainedBody runId call) d.pending named
    (call.newEntries.map recordFile) { registry := d.registry } keys
    (fun u member listed => by cases listed)
  have again := trainedFold_repeated env (trainedBody runId call) d.pending named
    (added.map ReportedUnit.wholeFile)
    ((call.newEntries.map recordFile).foldl
      (trainedStep env (trainedBody runId call) d.pending) { registry := d.registry }) (by
      intro w member
      obtain ⟨v, place, rfl⟩ := List.mem_map.mp member
      obtain ⟨u, unit, same⟩ := (sent v.unit).mp ⟨v, split ▸ List.mem_append_right _ place, rfl⟩
      rcases complete unit with ⟨dv, new, equal⟩ | ⟨anonymous, _⟩
      · have file : dv.dataFile = v.file := congrArg DatasetUnit.path (equal.trans same)
        have key : (recordFile dv).key = v.wholeFile.key := by
          simp [ReportedUnit.key, ReportedUnit.wholeFile, recordFile, file]
        cases claimed : claimedByCaller (trainedBody runId call) d.pending v.wholeFile with
        | false => exact .inr rfl
        | true =>
            left
            rw [recorded, ← key]
            refine List.mem_append_right _ (List.mem_map_of_mem (List.mem_filter.mpr
              ⟨List.mem_map_of_mem new, ?_⟩))
            rw [claimedByCaller_whole_iff runId none] at claimed ⊢
            rw [show (recordFile dv).file = v.wholeFile.file from file]
            exact claimed
      · exact (named anonymous).elim)
  unfold trainedPass
  rw [trainedBody_reported_whole runId none, split, List.map_append, map_wholeFile_recordUnit,
    List.foldl_append, again, registry, mem_trainedRecords]
  refine or_congr_right ⟨?_, ?_⟩
  · rintro ⟨dv, new, accepted, same⟩
    rw [commitAccepts_iff named, if_pos (negative dv new)] at accepted
    refine ⟨recordFile dv, List.mem_filter.mpr ⟨List.mem_map_of_mem new, ?_⟩, ?_⟩
    · rw [claimedByCaller_whole_iff runId none]
      exact accepted
    · rw [recordFile_unit (negative dv new)]
      exact same
  · rintro ⟨w, member, same⟩
    obtain ⟨place, claimed⟩ := List.mem_filter.mp member
    obtain ⟨dv, new, rfl⟩ := List.mem_map.mp place
    rw [claimedByCaller_whole_iff runId none] at claimed
    rw [recordFile_unit (negative dv new)] at same
    refine ⟨dv, new, ?_, same⟩
    rw [commitAccepts_iff named, if_pos (negative dv new)]
    exact claimed

/-! ### With a run id and segments -/

/-- A whole file, listed first at position `i`, that the two back ends record
differently when the call names segments: claimed only through ranges of it, or
spelled otherwise than the path-wide unit that the server is sent as well. -/
structure RecordsDiffer (runId : String) (units : List PendingFileRange) (sampleCounts : List Int)
    (d : Disk) (i : Nat) (u : PendingFileRange) : Prop where
  first : FirstListed units i u
  whole : u.segmentStart < 0
  differs :
    (ClaimsPath runId d.pending u.path ∧ ¬ ClaimsUnit runId d.pending u.unit ∧
      (u.unit, sampleCounts.getD i 0) ∉ d.recorded) ∨
    (ClaimsUnit runId d.pending u.unit ∧ (u.segmentStart ≠ -1 ∨ u.segmentCount ≠ -1) ∧
      sampleCounts.getD i 0 ≠ 0 ∧ (u.unit, 0) ∉ d.recorded)

/-- The records of a call with segments that the server makes. -/
theorem mem_remoteCommit_segments (named : runId ≠ "") (segment : ∃ u ∈ units, 0 ≤ u.segmentStart)
    (record : DatasetUnit × Int) :
    record ∈ (remoteCommit cfg env tenv runId units sampleCounts d).recorded ↔
      record ∈ d.recorded ∨ ∃ i u, FirstListed units i u ∧ ClaimsUnit runId d.pending u.unit ∧
        ((u.unit, sampleCounts.getD i 0) = record ∨
          (u.segmentStart < 0 ∧ (u.segmentStart ≠ -1 ∨ u.segmentCount ≠ -1) ∧
            (u.unit, 0) = record)) := by
  have complete := @markTrained_complete tenv runId units sampleCounts d.registry
  have origin := @markTrained_first tenv runId units sampleCounts d.registry
  have newest := @markTrained_of_first tenv runId units sampleCounts d.registry named
  have paths := @markTrained_paths tenv runId units sampleCounts d.registry
  have segments := @markTrained_segments tenv runId units sampleCounts d.registry
  obtain ⟨⟨added, split, extra⟩, sent, _⟩ :=
    wireUnits_sends tenv runId units sampleCounts d.registry
  have keys : ((wireUnits (markTrained tenv runId units sampleCounts d.registry)).map
      ReportedUnit.key).Nodup :=
    (sends_fold [] _).nodup List.nodup_nil
  rw [mem_remoteCommit_recorded]
  generalize markTrained tenv runId units sampleCounts d.registry = call at *
  have exactMode : call.trainedSegments ≠ [] := by
    obtain ⟨u, member, range⟩ := segment
    intro none
    have target : (⟨u.path, u.segmentStart, u.segmentCount⟩ : SegmentTarget) ∈
        call.trainedSegments := segments.mpr ⟨range, u, member, rfl, rfl, rfl⟩
    rw [none] at target
    cases target
  obtain ⟨registry, _⟩ := trainedFold_distinct env (trainedBody runId call) d.pending named
    (wireUnits call) { registry := d.registry } keys (fun u member listed => by cases listed)
  unfold trainedPass
  rw [trainedBody_reported runId exactMode, registry, mem_trainedRecords]
  refine or_congr_right ⟨?_, ?_⟩
  · rintro ⟨w, member, same⟩
    obtain ⟨place, claimed⟩ := List.mem_filter.mp member
    rw [claimedByCaller_exact_iff runId exactMode] at claimed
    rw [split] at place
    rcases List.mem_append.mp place with record | later
    · obtain ⟨dv, new, rfl⟩ := List.mem_map.mp record
      obtain ⟨i, u, first, rfl⟩ := origin new
      exact ⟨i, u, first, claimed, .inl same⟩
    · obtain ⟨listed, unlisted⟩ := extra w later
      rcases List.mem_append.mp listed with path | segment
      · obtain ⟨p, trained, rfl⟩ := List.mem_map.mp path
        obtain ⟨u, unit, whole⟩ := paths.mp trained
        rcases complete unit with ⟨dv, new, equal⟩ | ⟨anonymous, _⟩
        · obtain ⟨i, v, first, rfl⟩ := origin new
          have wholeUnit : v.unit = ⟨p, none⟩ := equal.trans whole
          refine ⟨i, v, first, wholeUnit ▸ claimed, .inr ⟨?_, ?_, ?_⟩⟩
          · exact (unitOf_segment_none_iff ..).mp (congrArg DatasetUnit.segment wholeUnit)
          · by_contra spelled
            obtain ⟨start, count⟩ : v.segmentStart = -1 ∧ v.segmentCount = -1 := by omega
            refine unlisted ?_
            have key : (pathUnit p).key = (recordUnit (newVersion tenv sampleCounts v i)).key := by
              simp [ReportedUnit.key, pathUnit, recordUnit, newVersion, start, count,
                show v.path = p from congrArg DatasetUnit.path wholeUnit]
            rw [key]
            exact List.mem_map_of_mem (List.mem_map_of_mem new)
          · rw [wholeUnit]
            exact same
        · exact (named anonymous).elim
      · obtain ⟨t, trained, rfl⟩ := List.mem_map.mp segment
        obtain ⟨range, u, unit, file, start, count⟩ := segments.mp trained
        rcases complete unit with ⟨dv, new, equal⟩ | ⟨anonymous, _⟩
        · refine (unlisted ?_).elim
          have spelled := (unitOf_eq_iff ..).mp equal
          rw [if_neg (by omega)] at spelled
          have key : (segmentUnit t).key = (recordUnit dv).key := by
            simp [ReportedUnit.key, segmentUnit, recordUnit, spelled, file, start, count]
          rw [key]
          exact List.mem_map_of_mem (List.mem_map_of_mem new)
        · exact (named anonymous).elim
  · rintro ⟨i, u, first, claims, same | ⟨whole, spelled, same⟩⟩
    · refine ⟨recordUnit (newVersion tenv sampleCounts u i), List.mem_filter.mpr ⟨?_, ?_⟩, same⟩
      · rw [split]
        exact List.mem_append_left _ (List.mem_map_of_mem (newest first))
      · rw [claimedByCaller_exact_iff runId exactMode]
        exact claims
    · have wholeUnit : u.unit = ⟨u.path, none⟩ := by
        simp [PendingFileRange.unit, unitOf, whole]
      have trained : u.path ∈ call.trainedPaths :=
        paths.mpr ⟨u, List.mem_of_getElem? first.listed, wholeUnit⟩
      obtain ⟨w, place, key⟩ := List.mem_map.mp
        (sent (pathUnit u.path) (List.mem_append_left _ (List.mem_map_of_mem trained)))
      have unit : w.unit = u.unit :=
        (ReportedUnit.unit_eq_of_key key).trans (wholeUnit ▸ pathUnit_unit u.path)
      have samples : w.samples = 0 := by
        rw [split] at place
        rcases List.mem_append.mp place with record | later
        · obtain ⟨dv, new, rfl⟩ := List.mem_map.mp record
          obtain ⟨j, v, there, rfl⟩ := origin new
          obtain ⟨_, rfl⟩ := first.unique there unit.symm
          simp only [ReportedUnit.key, recordUnit, newVersion, pathUnit, Prod.mk.injEq] at key
          omega
        · rcases List.mem_append.mp (extra w later).1 with path | segment
          · obtain ⟨p, _, rfl⟩ := List.mem_map.mp path
            rfl
          · obtain ⟨t, _, rfl⟩ := List.mem_map.mp segment
            rfl
      refine ⟨w, List.mem_filter.mpr ⟨place, ?_⟩, ?_⟩
      · rw [claimedByCaller_exact_iff runId exactMode, unit]
        exact claims
      · rw [unit, samples]
        exact same

theorem mem_localCommit_named (named : runId ≠ "") (record : DatasetUnit × Int) :
    record ∈ (localCommit tenv runId units sampleCounts d).recorded ↔
      record ∈ d.recorded ∨ ∃ i u, FirstListed units i u ∧
        (if u.segmentStart < 0 then ClaimsPath runId d.pending u.path
          else ClaimsUnit runId d.pending u.unit) ∧ (u.unit, sampleCounts.getD i 0) = record := by
  rw [mem_localCommit_recorded]
  refine or_congr_right ⟨?_, ?_⟩
  · rintro ⟨dv, new, accepted, same⟩
    obtain ⟨i, u, first, rfl⟩ := markTrained_first tenv runId units sampleCounts d.registry new
    exact ⟨i, u, first, (commitAccepts_iff named d.pending _).mp accepted, same⟩
  · rintro ⟨i, u, first, accepted, same⟩
    exact ⟨newVersion tenv sampleCounts u i,
      markTrained_of_first tenv runId units sampleCounts d.registry named first,
      (commitAccepts_iff named d.pending _).mpr accepted, same⟩

/-- With segments the records agree unless some whole file is recorded
differently. -/
theorem commits_agree_segments_iff (named : runId ≠ "")
    (segment : ∃ u ∈ units, 0 ≤ u.segmentStart) :
    (localCommit tenv runId units sampleCounts d).recorded =
        (remoteCommit cfg env tenv runId units sampleCounts d).recorded ↔
      ¬ ∃ i u, RecordsDiffer runId units sampleCounts d i u := by
  rw [Set.ext_iff]
  simp only [mem_localCommit_named tenv runId units sampleCounts d named,
    mem_remoteCommit_segments cfg env tenv runId units sampleCounts d named segment]
  constructor
  · rintro agree ⟨i, u, first, whole, ⟨path, unclaimed, new⟩ | ⟨claims, spelled, samples, new⟩⟩
    · rcases (agree (u.unit, sampleCounts.getD i 0)).mp
          (.inr ⟨i, u, first, by rwa [if_pos whole], rfl⟩) with old | ⟨j, v, _, claims, same⟩
      · exact new old
      · have unit : v.unit = u.unit := by
          rcases same with same | ⟨_, _, same⟩
          · exact congrArg Prod.fst same
          · exact congrArg Prod.fst same
        exact unclaimed (unit ▸ claims)
    · rcases (agree (u.unit, 0)).mpr
          (.inr ⟨i, u, first, claims, .inr ⟨whole, spelled, rfl⟩⟩) with old | ⟨j, v, there, _, same⟩
      · exact new old
      · obtain ⟨unit, none⟩ := Prod.mk.inj same
        obtain ⟨rfl, _⟩ := first.unique there unit.symm
        exact samples none
  · intro alike record
    constructor
    · rintro (old | ⟨i, u, first, accepted, same⟩)
      · exact .inl old
      · by_cases claims : ClaimsUnit runId d.pending u.unit
        · exact .inr ⟨i, u, first, claims, .inl same⟩
        · by_cases whole : u.segmentStart < 0
          · rw [if_pos whole] at accepted
            left
            by_contra new
            exact alike ⟨i, u, first, whole, .inl ⟨accepted, claims, same ▸ new⟩⟩
          · rw [if_neg whole] at accepted
            exact (claims accepted).elim
    · rintro (old | ⟨i, u, first, claims, same | ⟨whole, spelled, same⟩⟩)
      · exact .inl old
      · refine .inr ⟨i, u, first, ?_, same⟩
        split
        · exact claims.path
        · exact claims
      · by_cases none : sampleCounts.getD i 0 = 0
        · exact .inr ⟨i, u, first, by rw [if_pos whole]; exact claims.path, by rw [none, same]⟩
        · left
          by_contra new
          exact alike ⟨i, u, first, whole, .inr ⟨claims, spelled, none, same ▸ new⟩⟩

/-- A run with an id commits segments together with a whole file that the two
back ends record differently. -/
def CommitsDiverge (runId : String) (units : List PendingFileRange) (sampleCounts : List Int)
    (d : Disk) : Prop :=
  runId ≠ "" ∧ (∃ u ∈ units, 0 ≤ u.segmentStart) ∧
    ∃ i u, RecordsDiffer runId units sampleCounts d i u

/-- **Agreement of the two back ends.** They leave the same recorded units with
sample counts and the same queued units, unless the call diverges. -/
theorem commits_agree_iff :
    ((localCommit tenv runId units sampleCounts d).recorded =
          (remoteCommit cfg env tenv runId units sampleCounts d).recorded ∧
        (localCommit tenv runId units sampleCounts d).queued =
          (remoteCommit cfg env tenv runId units sampleCounts d).queued) ↔
      ¬ CommitsDiverge runId units sampleCounts d := by
  have queued : (localCommit tenv runId units sampleCounts d).queued =
      (remoteCommit cfg env tenv runId units sampleCounts d).queued := by
    unfold Disk.queued
    rw [localCommit_pending cfg env]
  rw [and_iff_left queued]
  by_cases anonymous : runId = ""
  · exact iff_of_true (commits_agree_anonymous cfg env tenv runId units sampleCounts d anonymous)
      fun diverge => diverge.1 anonymous
  · by_cases segment : ∃ u ∈ units, 0 ≤ u.segmentStart
    · rw [commits_agree_segments_iff cfg env tenv runId units sampleCounts d anonymous segment]
      exact not_congr ⟨fun differ => ⟨anonymous, segment, differ⟩, fun diverge => diverge.2.2⟩
    · have whole : ∀ u ∈ units, u.segmentStart < 0 := fun u member =>
        Int.not_le.mp fun range => segment ⟨u, member, range⟩
      exact iff_of_true (commits_agree_whole cfg env tenv runId units sampleCounts d anonymous whole)
        fun diverge => segment diverge.2.1

/-- A run holding ranges of two files commits one range and the other file as a
whole: only the local transport records the whole file. -/
theorem commits_agree_fails :
    let d : Disk := ⟨[], [{ path := "p", runId := "r", segmentStart := 0, segmentCount := 5 },
      { path := "q", runId := "r", segmentStart := 0, segmentCount := 3 }]⟩
    let units : List PendingFileRange := [{ path := "p" }, ⟨"q", 0, 3⟩]
    (localCommit {} "r" units [4, 3] d).recorded ≠
      (remoteCommit {} {} {} "r" units [4, 3] d).recorded := by
  intro d units same
  have agree : (∃ dv ∈ (localCommit {} "r" units [4, 3] d).registry,
        (dv.unit, dv.numSamples) = (⟨"p", none⟩, 4)) ↔
      ∃ dv ∈ (remoteCommit {} {} {} "r" units [4, 3] d).registry,
        (dv.unit, dv.numSamples) = (⟨"p", none⟩, 4) :=
    Set.ext_iff.mp same (⟨"p", none⟩, 4)
  revert agree
  decide

end Agreement

end Adai.Registry
