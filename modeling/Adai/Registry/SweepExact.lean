import Adai.Registry.ClaimSafety
import Adai.Registry.StartupSweep

/-! # What the startup sweep leaves

The sweep should leave a needed download and its sidecar, no other regular file, and the claims
of other runs. It does so exactly if every file whose name ends like a sidecar's outlasts its
visit when it is wanted and only then (`sweep_right_iff`): a download with such a name is
deleted as a sidecar whose download is gone (`needed_download_deleted`).
-/

namespace Adai.Registry.StartupSweep

/-! ## The property and its condition -/

/-- A needed download or the sidecar of one. -/
def Wanted (pending : List String) (dir : DownloadDir) (e : DirEntry) : Prop :=
  Needed pending e ∨
    ∃ download ∈ dir.entries, Needed pending download ∧ e.name = download.name ++ checksumSuffix

/-- An entry of the queue whose claim is cleared. -/
def Released (before after : PendingEntry) : Prop :=
  ∃ claimedUnix, after = { before with runId := "", claimedUnix := claimedUnix }

/-- A claim of this run on a file whose download is empty. -/
def StaleClaim (runId : String) (dir : DownloadDir) (entry : PendingEntry) : Prop :=
  entry.runId = runId ∧
    ∃ e ∈ dir.entries, e.kind = .regular 0 ∧ e.name = downloadFileName entry.path

/-- The outcome that the sweep of a directory is to have. -/
structure SweepRight (runId : String) (dir : DownloadDir) (d : Disk) (after : SweepState) :
    Prop where
  kept : ∀ e ∈ dir.entries, Needed (pendingFiles d) e → e ∈ after.left
  sidecarKept : ∀ e ∈ dir.entries, Needed (pendingFiles d) e → ∀ c ∈ dir.entries,
    c.name = e.name ++ checksumSuffix → c ∈ after.left
  gone : ∀ e ∈ dir.entries, e.Regular → ¬ Wanted (pendingFiles d) dir e → e ∉ after.left
  released : Rewritten (fun before entry => entry = before ∨
    Released before entry ∧ StaleClaim runId dir before) d.pending after.disk.pending

/-- A file that the sweep deletes as its own visit comes, at an earlier position. -/
def DoomedBefore (pending : List String) (dir : DownloadDir) (download : FileName)
    (position : Nat) : Prop :=
  ∃ x ∈ dir.entries, Doomed pending x ∧ x.name = download ∧ dir.position x < position

/-- Where the listing reaches the visit that can remove a file named like a sidecar: that of
the file whose name it extends, or its own if this one is no file that is deleted by name. -/
def Deadline (pending : List String) (dir : DownloadDir) (e : DirEntry) (position : Nat) : Prop :=
  ∃ download, sidecarOf e.name = some download ∧
    ((∃ x ∈ dir.entries, Doomed pending x ∧ x.name = download ∧ position < dir.position x) ∨
      (∀ x ∈ dir.entries, Doomed pending x → x.name ≠ download) ∧ position < dir.position e)

/-- The name that a sidecar's name extends is there when the listing reaches a position, and
stays what it is. -/
inductive Outlasts (pending : List String) (dir : DownloadDir) (position : Nat)
    (download : FileName) : Prop
  | dot (isDot : isDot download = true)
  | file (e : DirEntry) (listed : e ∈ dir.entries) (named : e.name = download)
      (plain : sidecarOf download = none) (needed : Needed pending e)
  | sidecar (e : DirEntry) (listed : e ∈ dir.entries) (named : e.name = download)
      (regular : e.Regular) (like : sidecarOf download ≠ none)
      (there : Wanted pending dir e ∨ Deadline pending dir e position)
  | other (e : DirEntry) (listed : e ∈ dir.entries) (named : e.name = download)
      (irregular : ¬ e.Regular) (there : e.kind.found = true)
      (kept : e.kind.removable = true → ∀ base, sidecarOf download = some base →
        ¬ DoomedBefore pending dir base position)

/-- Every file named like a sidecar is wanted exactly if the name it extends outlasts its
visit. -/
def SidecarsExact (pending : List String) (dir : DownloadDir) : Prop :=
  ∀ e ∈ dir.entries, e.Regular → ∀ download, sidecarOf e.name = some download →
    (Outlasts pending dir (dir.position e) download ↔ Wanted pending dir e)

/-! ## What removes an entry -/

section Removal

variable {pending : List String} {dir : DownloadDir} {left : List DirEntry} {x e : DirEntry}

theorem name_eq_of_sidecarOf {name : FileName} (there : x ∈ dir.entries)
    (named : name = x.name ++ checksumSuffix) : sidecarOf name = some x.name :=
  sidecarOf_eq_some.mpr ⟨named, (dir.plain x there).1⟩

theorem removes_plain_iff (listed : e ∈ dir.entries) (there : x ∈ dir.entries)
    (regular : e.Regular) (plain : sidecarOf e.name = none) :
    Removes pending left x e ↔ x = e ∧ ¬ Needed pending e := by
  constructor
  · rintro ⟨-, ⟨doomed, same | named⟩ | ⟨-, same, download, like, -⟩⟩
    · obtain rfl := DownloadDir.eq_of_name listed there same
      exact ⟨rfl, doomed.notNeeded⟩
    · rw [name_eq_of_sidecarOf there named] at plain
      cases plain
    · rw [← same, plain] at like
      cases like
  · rintro ⟨rfl, notNeeded⟩
    exact ⟨regular.removable, .inl ⟨⟨regular, plain, notNeeded⟩, .inl rfl⟩⟩

theorem removes_sidecar_iff (listed : e ∈ dir.entries) (there : x ∈ dir.entries)
    (regular : e.Regular) {download : FileName} (like : sidecarOf e.name = some download) :
    Removes pending left x e ↔
      Doomed pending x ∧ x.name = download ∨ x = e ∧ found left download = false := by
  constructor
  · rintro ⟨-, ⟨doomed, same | named⟩ | ⟨-, same, other, likeOther, gone⟩⟩
    · rw [same, doomed.notSidecar] at like
      cases like
    · rw [name_eq_of_sidecarOf there named] at like
      exact .inl ⟨doomed, Option.some.inj like⟩
    · obtain rfl := DownloadDir.eq_of_name listed there same
      obtain rfl := Option.some.inj (like.symm.trans likeOther)
      exact .inr ⟨rfl, gone⟩
  · rintro (⟨doomed, rfl⟩ | ⟨rfl, gone⟩)
    · exact ⟨regular.removable, .inl ⟨doomed, .inr (sidecarOf_eq_some.mp like).1⟩⟩
    · exact ⟨regular.removable, .inr ⟨regular, rfl, download, like, gone⟩⟩

theorem removes_other_iff (listed : e ∈ dir.entries) (there : x ∈ dir.entries)
    (irregular : ¬ e.Regular) :
    Removes pending left x e ↔ e.kind.removable = true ∧ Doomed pending x ∧
      sidecarOf e.name = some x.name := by
  constructor
  · rintro ⟨removable, ⟨doomed, same | named⟩ | ⟨regular, same, -⟩⟩
    · obtain rfl := DownloadDir.eq_of_name listed there same
      exact absurd doomed.regular irregular
    · exact ⟨removable, doomed, name_eq_of_sidecarOf there named⟩
    · obtain rfl := DownloadDir.eq_of_name listed there same
      exact absurd regular irregular
  · rintro ⟨removable, doomed, like⟩
    exact ⟨removable, .inl ⟨doomed, .inr (sidecarOf_eq_some.mp like).1⟩⟩

end Removal

/-! ## How long an entry is left -/

section Left

variable {env : SweepEnv} {pending trained : List String} {dir : DownloadDir} {d : Disk}
  {e : DirEntry} {i : Nat}

theorem plain_left_iff (inside : i ≤ dir.entries.length) (listed : e ∈ dir.entries)
    (regular : e.Regular) (plain : sidecarOf e.name = none) :
    e ∈ leftAt env pending trained dir d i ↔ Needed pending e ∨ i ≤ dir.position e := by
  rw [mem_leftAt inside, and_iff_right listed]
  constructor
  · intro kept
    by_contra neither
    rw [not_or, not_le] at neither
    exact kept e listed neither.2
      ((removes_plain_iff listed listed regular plain).mpr ⟨rfl, neither.1⟩)
  · rintro left x there before removed
    obtain ⟨rfl, notNeeded⟩ := (removes_plain_iff listed there regular plain).mp removed
    rcases left with needed | later
    · exact notNeeded needed
    · omega

theorem sidecar_left_iff (inside : i ≤ dir.entries.length) (listed : e ∈ dir.entries)
    (regular : e.Regular) {download : FileName} (like : sidecarOf e.name = some download) :
    e ∈ leftAt env pending trained dir d i ↔ ¬ DoomedBefore pending dir download i ∧
      (dir.position e < i →
        found (leftAt env pending trained dir d (dir.position e)) download = true) := by
  rw [mem_leftAt inside, and_iff_right listed]
  constructor
  · intro kept
    refine ⟨?_, fun before => ?_⟩
    · rintro ⟨x, there, doomed, named, before⟩
      exact kept x there before
        ((removes_sidecar_iff listed there regular like).mpr (.inl ⟨doomed, named⟩))
    · by_contra gone
      exact kept e listed before ((removes_sidecar_iff listed listed regular like).mpr
        (.inr ⟨rfl, Bool.not_eq_true _ ▸ gone⟩))
  · rintro ⟨noneDoomed, whenVisited⟩ x there before removed
    rcases (removes_sidecar_iff listed there regular like).mp removed with doomed | ⟨rfl, gone⟩
    · exact noneDoomed ⟨x, there, doomed.1, doomed.2, before⟩
    · rw [whenVisited before] at gone
      cases gone

theorem other_left_iff (inside : i ≤ dir.entries.length) (listed : e ∈ dir.entries)
    (irregular : ¬ e.Regular) :
    e ∈ leftAt env pending trained dir d i ↔ (e.kind.removable = true → ∀ base,
      sidecarOf e.name = some base → ¬ DoomedBefore pending dir base i) := by
  rw [mem_leftAt inside, and_iff_right listed]
  constructor
  · rintro kept removable base like ⟨x, there, doomed, rfl, before⟩
    exact kept x there before
      ((removes_other_iff listed there irregular).mpr ⟨removable, doomed, like⟩)
  · intro kept x there before removed
    obtain ⟨removable, doomed, like⟩ := (removes_other_iff listed there irregular).mp removed
    exact kept removable x.name like ⟨x, there, doomed, rfl, before⟩

theorem found_iff {left : List DirEntry} {name : FileName} :
    found left name = true ↔
      isDot name = true ∨ ∃ e ∈ left, e.name = name ∧ e.kind.found = true := by
  unfold found
  simp only [Bool.or_eq_true, List.any_eq_true, Bool.and_eq_true, beq_iff_eq]

/-- A name that a listed entry has is found as long as this entry is left. -/
theorem found_leftAt_iff (inside : i ≤ dir.entries.length) (listed : e ∈ dir.entries) :
    found (leftAt env pending trained dir d i) e.name = true ↔
      e ∈ leftAt env pending trained dir d i ∧ e.kind.found = true := by
  rw [found_iff, (dir.plain e listed).2]
  constructor
  · rintro (isDot | ⟨other, left, same, there⟩)
    · cases isDot
    · obtain rfl := DownloadDir.eq_of_name (mem_of_mem_leftAt inside left) listed same
      exact ⟨left, there⟩
  · rintro ⟨left, there⟩
    exact .inr ⟨e, left, rfl, there⟩

theorem Doomed.before_end {x : DirEntry} (there : x ∈ dir.entries) (doomed : Doomed pending x) :
    DoomedBefore pending dir x.name dir.entries.length :=
  ⟨x, there, doomed, rfl, DownloadDir.position_lt there⟩

end Left

/-! ## Files named like sidecars -/

section Sidecars

variable {env : SweepEnv} {pending trained : List String} {dir : DownloadDir} {d : Disk}
  {e b : DirEntry}

theorem sidecar_kept_iff (listed : e ∈ dir.entries) (regular : e.Regular) {download : FileName}
    (like : sidecarOf e.name = some download) :
    e ∈ leftAt env pending trained dir d dir.entries.length ↔
      ¬ DoomedBefore pending dir download dir.entries.length ∧
        found (leftAt env pending trained dir d (dir.position e)) download = true := by
  have visited := DownloadDir.position_lt listed
  rw [sidecar_left_iff le_rfl listed regular like, imp_iff_right visited]

theorem ne_of_sidecarOf (like : sidecarOf e.name = some b.name) : e ≠ b := by
  rintro rfl
  have longer := congrArg List.length (sidecarOf_eq_some.mp like).1
  rw [List.length_append] at longer
  have suffix : 0 < checksumSuffix.length := by decide
  omega

theorem position_ne (listed : e ∈ dir.entries) (other : e ≠ b) :
    dir.position e ≠ dir.position b :=
  fun same => other ((DownloadDir.position_inj listed).mp same)

/-- A file named like a sidecar is left when the listing reaches its own sidecar exactly if it
is kept or the visit that removes it comes later. -/
theorem sidecar_left_iff_deadline (listed : e ∈ dir.entries)
    (like : sidecarOf e.name = some b.name) (there : b ∈ dir.entries) (regular : b.Regular)
    (likeBase : sidecarOf b.name ≠ none) :
    b ∈ leftAt env pending trained dir d (dir.position e) ↔
      b ∈ leftAt env pending trained dir d dir.entries.length ∨
        Deadline pending dir b (dir.position e) := by
  obtain ⟨base, isBase⟩ := Option.ne_none_iff_exists'.mp likeBase
  have inside := DownloadDir.position_le listed
  rw [sidecar_left_iff inside there regular isBase, sidecar_kept_iff there regular isBase]
  by_cases someDoomed : ∃ x ∈ dir.entries, Doomed pending x ∧ x.name = base
  · -- `b` goes when the file whose name it extends is visited
    obtain ⟨x, member, doomed, rfl⟩ := someDoomed
    have apart : dir.position e ≠ dir.position x := by
      refine position_ne listed fun same => ?_
      rw [same, doomed.notSidecar] at like
      cases like
    have only {i : Nat} : DoomedBefore pending dir x.name i ↔ dir.position x < i := by
      constructor
      · rintro ⟨other, otherMember, -, named, before⟩
        rwa [DownloadDir.eq_of_name otherMember member named] at before
      · exact fun before => ⟨x, member, doomed, rfl, before⟩
    have later : Deadline pending dir b (dir.position e) ↔
        dir.position e < dir.position x := by
      constructor
      · rintro ⟨download, named, ⟨other, otherMember, -, rfl, before⟩ | ⟨none, -⟩⟩
        · have same := Option.some.inj (isBase.symm.trans named)
          rwa [DownloadDir.eq_of_name member otherMember same]
        · exact absurd (Option.some.inj (isBase.symm.trans named)) (none x member doomed)
      · exact fun before => ⟨x.name, isBase, .inl ⟨x, member, doomed, rfl, before⟩⟩
    rw [only, only, later, or_iff_right fun kept => kept.1 (DownloadDir.position_lt member)]
    constructor
    · rintro ⟨notYet, -⟩
      omega
    · refine fun before => ⟨by omega, fun visited => ?_⟩
      rw [found_leftAt_iff (DownloadDir.position_le there) member,
        plain_left_iff (DownloadDir.position_le there) member doomed.regular doomed.notSidecar]
      exact ⟨.inr (by omega), doomed.regular.found⟩
  · -- `b` goes at its own visit
    have none : ∀ x ∈ dir.entries, Doomed pending x → x.name ≠ base :=
      fun x member doomed named => someDoomed ⟨x, member, doomed, named⟩
    have notBefore (i : Nat) : ¬ DoomedBefore pending dir base i :=
      fun ⟨x, member, doomed, named, _⟩ => none x member doomed named
    have apart : dir.position e ≠ dir.position b := position_ne listed (ne_of_sidecarOf like)
    have later : Deadline pending dir b (dir.position e) ↔
        dir.position e < dir.position b := by
      constructor
      · rintro ⟨download, named, ⟨x, member, doomed, rfl, -⟩ | ⟨-, before⟩⟩
        · exact absurd (Option.some.inj (named.symm.trans isBase)) (none x member doomed)
        · exact before
      · exact fun before => ⟨base, isBase, .inr ⟨none, before⟩⟩
    rw [and_iff_right (notBefore _), and_iff_right (notBefore _), later, imp_iff_or_not, not_lt]
    exact or_congr_right ⟨fun notBefore => lt_of_le_of_ne notBefore apart, le_of_lt⟩

/-- A file named like a sidecar is kept exactly if the name it extends outlasts its visit, where
shorter files named so are kept exactly if they are wanted. -/
theorem sidecar_kept_iff_outlasts (listed : e ∈ dir.entries) (regular : e.Regular)
    {download : FileName} (like : sidecarOf e.name = some download)
    (shorter : ∀ b ∈ dir.entries, b.Regular → b.name = download → sidecarOf download ≠ none →
      (b ∈ leftAt env pending trained dir d dir.entries.length ↔ Wanted pending dir b)) :
    e ∈ leftAt env pending trained dir d dir.entries.length ↔
      Outlasts pending dir (dir.position e) download := by
  have inside := DownloadDir.position_le listed
  rw [sidecar_kept_iff listed regular like]
  constructor
  · rintro ⟨noneDoomed, there⟩
    rcases found_iff.mp there with dot | ⟨b, left, rfl, found⟩
    · exact .dot dot
    · have member := mem_of_mem_leftAt inside left
      by_cases bRegular : b.Regular
      · by_cases plain : sidecarOf b.name = none
        · refine .file b member rfl plain (by_contra fun notNeeded => noneDoomed ?_)
          exact Doomed.before_end member ⟨bRegular, plain, notNeeded⟩
        · refine .sidecar b member rfl bRegular plain ?_
          rw [← shorter b member bRegular rfl plain]
          exact (sidecar_left_iff_deadline listed like member bRegular plain).mp left
      · exact .other b member rfl bRegular found ((other_left_iff inside member bRegular).mp left)
  · intro outlasts
    cases outlasts with
    | dot isDot =>
        refine ⟨?_, found_iff.mpr (.inl isDot)⟩
        rintro ⟨x, member, -, rfl, -⟩
        rw [(dir.plain x member).2] at isDot
        cases isDot
    | file b member named plain needed =>
        subst named
        refine ⟨?_, ?_⟩
        · rintro ⟨x, other, doomed, named, -⟩
          exact doomed.notNeeded (DownloadDir.eq_of_name other member named ▸ needed)
        · rw [found_leftAt_iff inside member]
          exact ⟨(plain_left_iff inside member needed.regular plain).mpr (.inl needed),
            needed.regular.found⟩
    | sidecar b member named bRegular likeBase there =>
        subst named
        refine ⟨?_, ?_⟩
        · rintro ⟨x, other, doomed, named, -⟩
          rw [← named] at likeBase
          exact likeBase doomed.notSidecar
        · rw [found_leftAt_iff inside member]
          rw [← shorter b member bRegular rfl likeBase] at there
          exact ⟨(sidecar_left_iff_deadline listed like member bRegular likeBase).mpr there,
            bRegular.found⟩
    | other b member named irregular found kept =>
        subst named
        refine ⟨?_, ?_⟩
        · rintro ⟨x, other, doomed, named, -⟩
          exact irregular (DownloadDir.eq_of_name other member named ▸ doomed.regular)
        · rw [found_leftAt_iff inside member]
          exact ⟨(other_left_iff inside member irregular).mpr kept, found⟩

/-- The condition tells which regular files are kept. -/
theorem sidecarsExact_iff :
    SidecarsExact pending dir ↔ ∀ e ∈ dir.entries, e.Regular → sidecarOf e.name ≠ none →
      (e ∈ leftAt env pending trained dir d dir.entries.length ↔ Wanted pending dir e) := by
  constructor
  · intro exact
    -- over the length of a name: what a name extends is shorter
    suffices all : ∀ length, ∀ e ∈ dir.entries, e.name.length = length → e.Regular →
        sidecarOf e.name ≠ none →
        (e ∈ leftAt env pending trained dir d dir.entries.length ↔ Wanted pending dir e) from
      fun e listed => all _ e listed rfl
    intro length
    induction length using Nat.strong_induction_on with
    | _ length ih =>
        rintro e listed rfl regular likeDownload
        obtain ⟨download, like⟩ := Option.ne_none_iff_exists'.mp likeDownload
        rw [← exact e listed regular download like]
        refine sidecar_kept_iff_outlasts listed regular like ?_
        rintro b member bRegular rfl likeBase
        refine ih b.name.length ?_ b member rfl bRegular likeBase
        rw [(sidecarOf_eq_some.mp like).1, List.length_append]
        exact Nat.lt_add_of_pos_right (by decide)
  · intro right e listed regular download like
    rw [← right e listed regular (by rw [like]; exact Option.some_ne_none _)]
    refine (sidecar_kept_iff_outlasts listed regular like ?_).symm
    rintro b member bRegular rfl likeBase
    exact right b member bRegular likeBase

end Sidecars

/-! ## Releases -/

section Releases

variable {runId : String}

theorem namesEntry_path {path : String} {e : PendingEntry}
    (named : namesEntry [path] [] e = true) : e.path = path := by
  unfold namesEntry at named
  rw [List.any_nil, Bool.or_false, Bool.and_eq_true] at named
  exact List.mem_singleton.mp (List.contains_iff_mem.mp named.2)

/-- One release clears claims of this run on the path. -/
theorem releasePending_rewritten (named : runId ≠ "") (backend : Backend) (io : IoOutcome)
    (path : String) (d : Disk) :
    Rewritten (fun before entry => entry = before ∨
      Released before entry ∧ before.runId = runId ∧ before.path = path) d.pending
      (releasePending backend io runId path d).pending := by
  have unchanged : Rewritten (fun before entry => entry = before ∨
      Released before entry ∧ before.runId = runId ∧ before.path = path) d.pending d.pending :=
    .refl (fun _ => .inl rfl) _
  cases backend with
  | files =>
      change Rewritten _ _ (LocalTransport.release io runId [path] [] d).pending
      unfold LocalTransport.release
      split
      · exact unchanged
      · cases io.pendingSaved with
        | false => exact unchanged
        | true =>
            refine .of_map (fun e => by split <;> rfl) (fun e => ?_) d.pending
            split
            · next chosen =>
                rw [Bool.and_eq_true, beq_iff_eq] at chosen
                exact .inr ⟨⟨e.claimedUnix, rfl⟩, chosen.1, namesEntry_path chosen.2⟩
            · exact .inl rfl
  | server cfg =>
      change Rewritten _ _ (handleRelease cfg io ⟨runId, [path], []⟩ d).2.pending
      unfold handleRelease
      extract_lets entries
      split
      · next saved =>
          rw [saved]
          refine .of_map (fun e => by split <;> rfl) (fun e => ?_) d.pending
          split
          · next chosen =>
              have owned := (releases_names chosen).resolve_right named
              unfold releases at chosen
              split at chosen
              · cases chosen
              · exact .inr ⟨⟨0, rfl⟩, owned.symm, namesEntry_path chosen⟩
          · exact .inl rfl
      · exact unchanged

variable {env : SweepEnv} {trained : List String} {dir : DownloadDir} {d : Disk}

/-- What the visits so far have released. -/
theorem stateAt_released (named : env.runId ≠ "") {pending : List String} {i : Nat}
    (inside : i ≤ dir.entries.length) :
    Rewritten (fun before entry => entry = before ∨
      Released before entry ∧ StaleClaim env.runId dir before) d.pending
      (stateAt env pending trained dir d i).disk.pending := by
  induction i with
  | zero => exact .refl (fun _ => .inl rfl) _
  | succ i ih =>
      have here : i < dir.entries.length := inside
      refine (ih (by omega)).trans ?_ ?_
      · rintro e e' e'' (rfl | ⟨released, stale⟩) (rfl | ⟨again, staleAgain⟩)
        · exact .inl rfl
        · exact .inr ⟨again, staleAgain⟩
        · exact .inr ⟨released, stale⟩
        · obtain ⟨claimedUnix, rfl⟩ := released
          exact absurd staleAgain.1.symm named
      · rw [stateAt_succ here]
        rcases visit_disk env (stateAt env pending trained dir d i) dir.entries[i] with
          same | ⟨empty, path, isDownload, released⟩
        · rw [same]
          exact .refl (fun _ => .inl rfl) _
        · rw [released]
          refine (releasePending_rewritten named ..).imp fun before entry => Or.imp_right ?_
          rintro ⟨cleared, own, rfl⟩
          exact ⟨cleared, own, dir.entries[i], List.getElem_mem here, empty, isDownload.symm⟩

end Releases

/-! ## The sweep -/

section Sweep

variable {env : SweepEnv} {dir : DownloadDir} {d : Disk}

theorem not_wanted_of_plain {pending : List String} {e : DirEntry}
    (plain : sidecarOf e.name = none) : Wanted pending dir e ↔ Needed pending e := by
  refine or_iff_left ?_
  rintro ⟨download, there, -, named⟩
  rw [name_eq_of_sidecarOf there named] at plain
  cases plain

/-- The sweep has the outcome it should have exactly if it keeps the regular files that are
wanted. -/
theorem sweepRight_iff_kept {trained : List String} (named : env.runId ≠ "") :
    SweepRight env.runId dir d (stateAt env (pendingFiles d) trained dir d dir.entries.length) ↔
      ∀ e ∈ dir.entries, e.Regular → sidecarOf e.name ≠ none →
        (e ∈ leftAt env (pendingFiles d) trained dir d dir.entries.length ↔
          Wanted (pendingFiles d) dir e) := by
  have plainKept {e : DirEntry} (listed : e ∈ dir.entries) (regular : e.Regular)
      (plain : sidecarOf e.name = none) :
      e ∈ leftAt env (pendingFiles d) trained dir d dir.entries.length ↔
        Needed (pendingFiles d) e := by
    have visited := DownloadDir.position_lt listed
    rw [plain_left_iff le_rfl listed regular plain, or_iff_left (by omega)]
  constructor
  · intro right e listed regular _
    constructor
    · intro left
      by_contra notWanted
      exact right.gone e listed regular notWanted left
    · rintro (needed | ⟨download, there, needed, isSidecar⟩)
      · exact right.kept e listed needed
      · exact right.sidecarKept download there needed e listed isSidecar
  · intro exact
    have regularKept {e : DirEntry} (listed : e ∈ dir.entries) (regular : e.Regular) :
        e ∈ leftAt env (pendingFiles d) trained dir d dir.entries.length ↔
          Wanted (pendingFiles d) dir e := by
      by_cases plain : sidecarOf e.name = none
      · rw [plainKept listed regular plain, not_wanted_of_plain plain]
      · exact exact e listed regular plain
    refine ⟨fun e listed needed => ?_, fun e listed needed c there isSidecar => ?_,
      fun e listed regular notWanted left => notWanted ((regularKept listed regular).mp left),
      stateAt_released named le_rfl⟩
    · exact (regularKept listed needed.regular).mpr (.inl needed)
    · by_cases regular : c.Regular
      · exact (regularKept there regular).mpr (.inr ⟨e, listed, needed, isSidecar⟩)
      · refine (other_left_iff le_rfl there regular).mpr fun _ base like => ?_
        have isBase := Option.some.inj (like.symm.trans (name_eq_of_sidecarOf listed isSidecar))
        rintro ⟨x, member, doomed, same, -⟩
        have isDownload := DownloadDir.eq_of_name member listed (same.trans isBase)
        exact doomed.notNeeded (isDownload ▸ needed)

theorem startupSweep_eq (loads : env.pendingLoads = true) :
    startupSweep env (some dir) d = stateAt env (pendingFiles d)
      (if env.registryLoads then trainedFiles d else []) dir d dir.entries.length := by
  unfold startupSweep stateAt
  rw [List.take_length, loads]
  rfl

/-- The sweep of a directory leaves each needed download with its sidecar, no other regular file
and every claim but those of this run on an empty download, exactly if every file named like a
sidecar is wanted if and only if the name it extends outlasts its visit. -/
theorem sweep_right_iff (env : SweepEnv) (dir : DownloadDir) (d : Disk) (named : env.runId ≠ "")
    (loads : env.pendingLoads = true) :
    SweepRight env.runId dir d (startupSweep env (some dir) d) ↔
      SidecarsExact (pendingFiles d) dir := by
  rw [startupSweep_eq loads, sweepRight_iff_kept named]
  exact sidecarsExact_iff.symm

/-- A queued file, its download and the sidecar of that. -/
def queuedDisk (path : String) : Disk := ⟨[], [{ path := path }]⟩

def downloadEntry (path : String) : DirEntry := ⟨downloadFileName path, .regular 1⟩

def sidecarEntry (path : String) : DirEntry :=
  ⟨downloadFileName path ++ checksumSuffix, .regular 1⟩

def orphanedDir : DownloadDir where
  entries := [sidecarEntry "d/x", ⟨nameBytes "y", .regular 1⟩, downloadEntry "d/x"]
  nodup := by decide
  plain := by decide

theorem sweep_right_of_sidecar :
    SweepRight "run" orphanedDir (queuedDisk "d/x")
      (startupSweep { runId := "run" } (some orphanedDir) (queuedDisk "d/x")) := by
  refine (sweep_right_iff { runId := "run" } orphanedDir (queuedDisk "d/x") (by decide) rfl).mpr ?_
  have needed : Needed ["d/x"] (downloadEntry "d/x") :=
    ⟨⟨1, rfl, Nat.one_ne_zero⟩, "d/x", List.mem_singleton_self _, rfl⟩
  have there : downloadEntry "d/x" ∈ orphanedDir.entries := by decide
  have like : sidecarOf (sidecarEntry "d/x").name = some (downloadFileName "d/x") := by decide
  have plain : sidecarOf (downloadFileName "d/x") = none := by decide
  intro e listed _ download isDownload
  have isSidecar : e = sidecarEntry "d/x" := by
    have none : ∀ e ∈ orphanedDir.entries, e = sidecarEntry "d/x" ∨ sidecarOf e.name = none := by
      decide
    refine (none e listed).resolve_right fun plain => ?_
    rw [plain] at isDownload
    cases isDownload
  obtain rfl := isSidecar
  obtain rfl := Option.some.inj (like.symm.trans isDownload)
  exact iff_of_true (.file _ there rfl plain needed) (.inr ⟨_, there, needed, rfl⟩)

def clashingDir : DownloadDir where
  entries := [downloadEntry "d/x.checksum"]
  nodup := by decide
  plain := by decide

/-- The download of a queued file whose name ends in ".checksum" is deleted as a sidecar. -/
theorem needed_download_deleted :
    ¬ SweepRight "run" clashingDir (queuedDisk "d/x.checksum")
      (startupSweep { runId := "run" } (some clashingDir) (queuedDisk "d/x.checksum")) := by
  intro right
  have needed : Needed ["d/x.checksum"] (downloadEntry "d/x.checksum") :=
    ⟨⟨1, rfl, Nat.one_ne_zero⟩, "d/x.checksum", List.mem_singleton_self _, rfl⟩
  have deleted : (startupSweep { runId := "run" } (some clashingDir)
      (queuedDisk "d/x.checksum")).left = [] := by decide
  have kept := right.kept _ (List.mem_singleton_self _) needed
  rw [deleted] at kept
  cases kept

end Sweep

end Adai.Registry.StartupSweep
