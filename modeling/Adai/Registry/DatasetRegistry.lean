import Mathlib.Data.List.Induction
import Adai.Registry.QueuePasses

/-! # The commit a trainer sends

`DatasetRegistry::mark_trained` turns the units of a finished pass into one
`commit_trained` call: the records to append, the whole-file paths and the
segments. The remote transport sends the same call as aligned lists of a request
body. -/

namespace Adai.Registry

/-- What the trainer reads from its surroundings while it builds records. -/
structure TrainerEnv where
  computeChecksum : String → String := fun _ => ""
  utcNowString : String := ""

/-- The arguments of `commit_trained` after the run id. -/
structure CommitCall where
  newEntries : List DataVersion
  trainedPaths : List String
  trainedSegments : List SegmentTarget
  deriving DecidableEq, Repr

namespace DatasetRegistry

/-- The new records and the in-memory registry, which grow together. -/
structure BuildState where
  newEntries : List DataVersion := []
  registry : List DataVersion
  deriving DecidableEq, Repr

/-- The record of the unit at position `i`. -/
def newVersion (env : TrainerEnv) (sampleCounts : List Int) (u : PendingFileRange) (i : Nat) :
    DataVersion :=
  { dataFile := u.path
    checksum := env.computeChecksum u.path
    numSamples := sampleCounts.getD i 0
    trained := true
    addedUtc := env.utcNowString
    segmentStart := u.segmentStart
    segmentCount := u.segmentCount }

/-- A unit listed twice is built once; one already recorded is built again only
for a commit that carries a run id. -/
def buildStep (env : TrainerEnv) (sampleCounts : List Int) (recordAgain : Bool)
    (st : BuildState) (unit : PendingFileRange × Nat) : BuildState :=
  let u := unit.1
  let recorded := st.registry.any fun dv => trainedMatches dv u.path u.segmentStart u.segmentCount
  let listedTwice :=
    st.newEntries.any fun dv => trainedMatches dv u.path u.segmentStart u.segmentCount
  if listedTwice || (recorded && !recordAgain) then st
  else
    let dv := newVersion env sampleCounts u unit.2
    { newEntries := st.newEntries ++ [dv], registry := st.registry ++ [dv] }

def buildNewVersions (env : TrainerEnv) (units : List PendingFileRange) (sampleCounts : List Int)
    (registry : List DataVersion) (recordAgain : Bool) : List DataVersion :=
  (units.zipIdx.foldl (buildStep env sampleCounts recordAgain) { registry }).newEntries

def wholeFileUnits (paths : List String) : List PendingFileRange :=
  paths.map fun p => { path := p }

/-- The call for a list of units; `registry` is the in-memory copy. -/
def markTrained (env : TrainerEnv) (runId : String) (units : List PendingFileRange)
    (sampleCounts : List Int) (registry : List DataVersion) : CommitCall where
  newEntries := buildNewVersions env units sampleCounts registry (!runId.isEmpty)
  trainedPaths := (units.filter fun u => decide (u.segmentStart < 0)).map PendingFileRange.path
  trainedSegments := (units.filter fun u => !decide (u.segmentStart < 0)).map fun u =>
    ⟨u.path, u.segmentStart, u.segmentCount⟩

/-- The call of the bare-path overload. -/
def markTrainedPaths (env : TrainerEnv) (runId : String) (paths : List String)
    (sampleCounts : List Int) (registry : List DataVersion) : CommitCall where
  newEntries := buildNewVersions env (wholeFileUnits paths) sampleCounts registry (!runId.isEmpty)
  trainedPaths := paths
  trainedSegments := []

/-- The bare-path overload is the general one on whole files. -/
theorem markTrainedPaths_eq (env : TrainerEnv) (runId : String) (paths : List String)
    (sampleCounts : List Int) (registry : List DataVersion) :
    markTrainedPaths env runId paths sampleCounts registry =
      markTrained env runId (wholeFileUnits paths) sampleCounts registry := by
  unfold markTrainedPaths markTrained wholeFileUnits
  simp only [Int.reduceNeg, List.filter_map, List.map_map, CommitCall.mk.injEq, true_and]
  constructor
  · simp [Function.comp_def]
  · simp [Function.comp_def]

/-- Position `i` lists the unit of `u` for the first time. -/
structure FirstListed (units : List PendingFileRange) (i : Nat) (u : PendingFileRange) : Prop where
  listed : units[i]? = some u
  first : ∀ j < i, ∀ v, units[j]? = some v → v.unit ≠ u.unit

theorem FirstListed.unique {units : List PendingFileRange} {i j : Nat} {u v : PendingFileRange}
    (here : FirstListed units i u) (there : FirstListed units j v) (same : u.unit = v.unit) :
    i = j ∧ u = v := by
  obtain rfl : i = j := by
    by_contra different
    rcases Nat.lt_or_gt_of_ne different with earlier | later
    · exact there.first i earlier u here.listed same
    · exact here.first j later v there.listed same.symm
  exact ⟨rfl, Option.some.inj (here.listed.symm.trans there.listed)⟩

/-- A list of records names the units of another list. -/
theorem any_trainedMatches {registry : List DataVersion} {path : String} {start count : Int} :
    (registry.any fun dv => trainedMatches dv path start count) = true ↔
      ∃ dv ∈ registry, dv.unit = unitOf path start count := by
  simp only [List.any_eq_true, trainedMatches_iff]

/-- What holds of the records built from some of the units. -/
structure Built (env : TrainerEnv) (sampleCounts : List Int) (recordAgain : Bool)
    (registry : List DataVersion) (units : List (PendingFileRange × Nat)) (st : BuildState) :
    Prop where
  grown : st.registry = registry ++ st.newEntries
  nodup : (st.newEntries.map DataVersion.unit).Nodup
  origin : ∀ dv ∈ st.newEntries, ∃ before unit after, units = before ++ unit :: after ∧
    dv = newVersion env sampleCounts unit.1 unit.2 ∧ ∀ v ∈ before, v.1.unit ≠ unit.1.unit
  complete : ∀ unit ∈ units, (∃ dv ∈ st.newEntries, dv.unit = unit.1.unit) ∨
    (recordAgain = false ∧ ∃ dv ∈ registry, dv.unit = unit.1.unit)
  fresh : recordAgain = false → ∀ dv ∈ st.newEntries, ∀ dv' ∈ registry, dv'.unit ≠ dv.unit

section Built

variable {env : TrainerEnv} {sampleCounts : List Int} {recordAgain : Bool}
  {registry : List DataVersion} {units : List (PendingFileRange × Nat)} {st : BuildState}

theorem Built.step (built : Built env sampleCounts recordAgain registry units st)
    (unit : PendingFileRange × Nat) :
    Built env sampleCounts recordAgain registry (units ++ [unit])
      (buildStep env sampleCounts recordAgain st unit) := by
  have widen : ∀ dv ∈ st.newEntries, ∃ before u after, units ++ [unit] = before ++ u :: after ∧
      dv = newVersion env sampleCounts u.1 u.2 ∧ ∀ v ∈ before, v.1.unit ≠ u.1.unit := by
    intro dv member
    obtain ⟨before, u, after, split, same, first⟩ := built.origin dv member
    refine ⟨before, u, after ++ [unit], ?_, same, first⟩
    rw [split, List.append_assoc, List.cons_append]
  unfold buildStep
  extract_lets u recorded listedTwice dv
  by_cases skipped : (listedTwice || (recorded && !recordAgain)) = true
  · rw [if_pos skipped]
    refine ⟨built.grown, built.nodup, widen, ?_, built.fresh⟩
    intro other member
    rcases List.mem_append.mp member with earlier | last
    · exact built.complete other earlier
    · obtain rfl : other = unit := by simpa using last
      rcases Bool.or_eq_true_iff.mp skipped with twice | again
      · exact .inl (any_trainedMatches.mp twice)
      · obtain ⟨present, once⟩ := Bool.and_eq_true_iff.mp again
        obtain ⟨old, place, same⟩ := any_trainedMatches.mp present
        rw [built.grown] at place
        rcases List.mem_append.mp place with before | now
        · exact .inr ⟨by simpa using once, old, before, same⟩
        · exact .inl ⟨old, now, same⟩
  · rw [if_neg skipped]
    obtain ⟨single, absent⟩ := Bool.or_eq_false_iff.mp (Bool.eq_false_iff.mpr skipped)
    have unit_dv : dv.unit = u.unit := rfl
    have notListed : ∀ old ∈ st.newEntries, old.unit ≠ u.unit := by
      intro old member same
      have listed : listedTwice = true := any_trainedMatches.mpr ⟨old, member, same⟩
      rw [listed] at single
      cases single
    refine ⟨?_, ?_, ?_, ?_, ?_⟩
    · simp only [built.grown, List.append_assoc]
    · rw [List.map_append, List.nodup_append]
      refine ⟨built.nodup, List.nodup_singleton _, ?_⟩
      intro old member new last
      obtain ⟨record, place, rfl⟩ := List.mem_map.mp member
      obtain rfl : new = u.unit := by simpa [unit_dv] using last
      exact notListed record place
    · intro record member
      rcases List.mem_append.mp member with earlier | last
      · exact widen record earlier
      · obtain rfl : record = dv := by simpa using last
        refine ⟨units, unit, [], rfl, rfl, fun v listed same => ?_⟩
        rcases built.complete v listed with ⟨old, place, equal⟩ | ⟨once, old, place, equal⟩
        · exact notListed old place (equal.trans same)
        · have present : recorded = true := any_trainedMatches.mpr
            ⟨old, by rw [built.grown]; exact List.mem_append_left _ place, equal.trans same⟩
          rw [present, once] at absent
          cases absent
    · intro other member
      rcases List.mem_append.mp member with earlier | last
      · rcases built.complete other earlier with ⟨record, place, same⟩ | old
        · exact .inl ⟨record, List.mem_append_left _ place, same⟩
        · exact .inr old
      · obtain rfl : other = unit := by simpa using last
        exact .inl ⟨dv, List.mem_append_right _ (List.mem_singleton_self _), rfl⟩
    · intro once record member old place
      rcases List.mem_append.mp member with earlier | last
      · exact built.fresh once record earlier old place
      · obtain rfl : record = dv := by simpa using last
        intro same
        have present : recorded = true := any_trainedMatches.mpr
          ⟨old, by rw [built.grown]; exact List.mem_append_left _ place, same⟩
        rw [present, once] at absent
        cases absent

theorem built_fold (registry : List DataVersion) (units : List (PendingFileRange × Nat)) :
    Built env sampleCounts recordAgain registry units
      (units.foldl (buildStep env sampleCounts recordAgain) { registry }) := by
  induction units using List.reverseRecOn with
  | nil =>
      refine ⟨by simp, by simp, by simp, by simp, by simp⟩
  | append_singleton units unit ih =>
      rw [List.foldl_append]
      exact ih.step unit

end Built

section Call

variable (env : TrainerEnv) (runId : String) (units : List PendingFileRange)
  (sampleCounts : List Int) (registry : List DataVersion)

theorem markTrained_built :
    Built env sampleCounts (!runId.isEmpty) registry units.zipIdx
      (units.zipIdx.foldl (buildStep env sampleCounts (!runId.isEmpty)) { registry }) :=
  built_fold registry units.zipIdx

theorem markTrained_nodup :
    ((markTrained env runId units sampleCounts registry).newEntries.map DataVersion.unit).Nodup :=
  (markTrained_built env runId units sampleCounts registry).nodup

/-- Every new record is built from the first listing of its unit. -/
theorem markTrained_first {dv : DataVersion}
    (member : dv ∈ (markTrained env runId units sampleCounts registry).newEntries) :
    ∃ i u, FirstListed units i u ∧ dv = newVersion env sampleCounts u i := by
  obtain ⟨before, unit, after, split, rfl, first⟩ :=
    (markTrained_built env runId units sampleCounts registry).origin dv member
  obtain ⟨u, i⟩ := unit
  have place : units.zipIdx[before.length]? = some (u, i) := by rw [split]; simp
  rw [List.getElem?_zipIdx, Option.map_eq_some_iff] at place
  obtain ⟨u', listed, same⟩ := place
  obtain ⟨rfl, rfl⟩ : u' = u ∧ 0 + before.length = i := by simpa using same
  rw [Nat.zero_add] at *
  refine ⟨before.length, u', ⟨listed, fun j earlier v other => ?_⟩, rfl⟩
  have entry : units.zipIdx[j]? = some (v, j) := by simp [other]
  rw [split, List.getElem?_append_left earlier] at entry
  exact first (v, j) (List.mem_of_getElem? entry)

/-- Every new record carries the range of a committed unit, as it is spelled. -/
theorem markTrained_origin {dv : DataVersion}
    (member : dv ∈ (markTrained env runId units sampleCounts registry).newEntries) :
    ∃ u ∈ units, dv.dataFile = u.path ∧ dv.segmentStart = u.segmentStart ∧
      dv.segmentCount = u.segmentCount := by
  obtain ⟨i, u, first, rfl⟩ := markTrained_first env runId units sampleCounts registry member
  exact ⟨u, List.mem_of_getElem? first.listed, rfl, rfl, rfl⟩

/-- With a run id the first listing of every unit is recorded. -/
theorem markTrained_of_first (named : runId ≠ "") {i : Nat} {u : PendingFileRange}
    (first : FirstListed units i u) :
    newVersion env sampleCounts u i ∈
      (markTrained env runId units sampleCounts registry).newEntries := by
  rcases (markTrained_built env runId units sampleCounts registry).complete (u, i)
      (List.mk_mem_zipIdx_iff_getElem?.mpr first.listed) with
    ⟨dv, new, same⟩ | ⟨once, _⟩
  · obtain ⟨j, v, there, rfl⟩ := markTrained_first env runId units sampleCounts registry new
    obtain ⟨rfl, rfl⟩ := first.unique there same.symm
    exact new
  · exact (named (by simpa using once)).elim

/-- Every committed unit has a new record, or the commit carries no run id and
the unit is recorded already. -/
theorem markTrained_complete {u : PendingFileRange} (member : u ∈ units) :
    (∃ dv ∈ (markTrained env runId units sampleCounts registry).newEntries, dv.unit = u.unit) ∨
      (runId = "" ∧ ∃ dv ∈ registry, dv.unit = u.unit) := by
  obtain ⟨i, place⟩ := List.mem_iff_getElem?.mp member
  rcases (markTrained_built env runId units sampleCounts registry).complete (u, i)
      (List.mk_mem_zipIdx_iff_getElem?.mpr place) with
    new | ⟨once, old⟩
  · exact .inl new
  · exact .inr ⟨by simpa using once, old⟩

/-- Without a run id no new record repeats a recorded unit. -/
theorem markTrained_fresh (anonymous : runId = "") {dv dv' : DataVersion}
    (member : dv ∈ (markTrained env runId units sampleCounts registry).newEntries)
    (recorded : dv' ∈ registry) : dv'.unit ≠ dv.unit :=
  (markTrained_built env runId units sampleCounts registry).fresh (by simp [anonymous]) dv member
    dv' recorded

theorem markTrained_paths {path : String} :
    path ∈ (markTrained env runId units sampleCounts registry).trainedPaths ↔
      ∃ u ∈ units, u.unit = ⟨path, none⟩ := by
  simp only [markTrained, List.mem_map, List.mem_filter, decide_eq_true_eq, PendingFileRange.unit,
    DatasetUnit.mk.injEq, unitOf]
  constructor
  · rintro ⟨u, ⟨member, whole⟩, rfl⟩
    exact ⟨u, member, rfl, by simp only [whole, ↓reduceIte]⟩
  · rintro ⟨u, member, rfl, whole⟩
    exact ⟨u, ⟨member, (unitOf_segment_none_iff u.path _ u.segmentCount).mp whole⟩, rfl⟩

theorem markTrained_segments {t : SegmentTarget} :
    t ∈ (markTrained env runId units sampleCounts registry).trainedSegments ↔
      0 ≤ t.segmentStart ∧ ∃ u ∈ units, u.path = t.path ∧ u.segmentStart = t.segmentStart ∧
        u.segmentCount = t.segmentCount := by
  simp only [markTrained, List.mem_map, List.mem_filter, Bool.not_eq_true', decide_eq_false_iff_not,
    Int.not_lt]
  constructor
  · rintro ⟨u, ⟨member, range⟩, rfl⟩
    exact ⟨range, u, member, rfl, rfl, rfl⟩
  · rintro ⟨range, u, member, path, start, count⟩
    cases t
    simp only at path start count
    subst path start count
    exact ⟨u, ⟨member, range⟩, rfl⟩

end Call

end DatasetRegistry

/-! ## The request body of the remote transport -/

namespace RemoteTransport

/-- A unit is sent once, compared as it is spelled. -/
def addUnit (sent : List ReportedUnit) (u : ReportedUnit) : List ReportedUnit :=
  if sent.any fun v => v.file == u.file && v.segmentStart == u.segmentStart &&
      v.segmentCount == u.segmentCount then sent
  else sent ++ [u]

def recordUnit (e : DataVersion) : ReportedUnit :=
  ⟨e.dataFile, e.numSamples, e.segmentStart, e.segmentCount⟩

def pathUnit (path : String) : ReportedUnit :=
  { file := path }

def segmentUnit (t : SegmentTarget) : ReportedUnit :=
  ⟨t.path, 0, t.segmentStart, t.segmentCount⟩

/-- The new records first, since they carry the sample counts; then every path
and segment, so that its pending entry goes even when it was recorded before. -/
def wireUnits (call : CommitCall) : List ReportedUnit :=
  (call.newEntries.map recordUnit ++ call.trainedPaths.map pathUnit ++
    call.trainedSegments.map segmentUnit).foldl addUnit []

/-- The ranges are sent only when the call names segments. -/
def trainedBody (runId : String) (call : CommitCall) : TrainedRequest :=
  let units := wireUnits call
  { runId := runId
    files := units.map ReportedUnit.file
    samples := units.map ReportedUnit.samples
    segmentStarts :=
      if call.trainedSegments.isEmpty then [] else units.map ReportedUnit.segmentStart
    segmentCounts :=
      if call.trainedSegments.isEmpty then [] else units.map ReportedUnit.segmentCount }

end RemoteTransport

end Adai.Registry
