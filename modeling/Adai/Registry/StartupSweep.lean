import Adai.Registry.Server

/-! # The startup sweep

Before a pass acquires files, `startup_sweep` cleans the download directory. It tells downloads,
sidecars and orphans apart by name alone, while it removes files, in the order in which the
directory is listed. What one visit removes (`mem_visit`) gives the position in the listing up
to which each entry is left (`mem_leftAt`).
-/

namespace Adai.Registry.StartupSweep

open String (utf8EncodeChar)

/-! ## Download names -/

/-- The bytes of a file name. -/
abbrev FileName := List UInt8

def nameBytes (text : String) : FileName := text.toList.flatMap utf8EncodeChar

def fnv1a (bytes : List UInt8) : UInt64 :=
  bytes.foldl (fun h c => (h ^^^ c.toUInt64) * 1099511628211) 1469598103934665603

def hexDigits : FileName := nameBytes "0123456789abcdef"

/-- The lowest `count` hexadecimal digits, filled in from the back. -/
def hexName : Nat → UInt64 → FileName → FileName
  | 0, _, filled => filled
  | count + 1, h, filled =>
      hexName count (h >>> 4) (hexDigits.getD (h &&& 0xF).toNat 0 :: filled)

/-- The part of a path behind the last slash of either kind. -/
def basename (path : FileName) : FileName :=
  (path.reverse.takeWhile fun c => c != 0x2F && c != 0x5C).reverse

def downloadFileName (registryPath : String) : FileName :=
  let bytes := nameBytes registryPath
  hexName 16 (fnv1a bytes) [] ++ nameBytes "_" ++ basename bytes

def checksumSuffix : FileName := nameBytes ".checksum"

/-- The name of the download, if a name is longer than the suffix and ends in it. -/
def sidecarOf (name : FileName) : Option FileName :=
  let start := name.length - checksumSuffix.length
  if checksumSuffix.length < name.length ∧ name.drop start = checksumSuffix then
    some (name.take start)
  else none

theorem sidecarOf_eq_some {name download : FileName} :
    sidecarOf name = some download ↔ name = download ++ checksumSuffix ∧ download ≠ [] := by
  unfold sidecarOf
  extract_lets start
  constructor
  · intro named
    split_ifs at named with ends
    obtain rfl := Option.some.inj named
    refine ⟨?_, ?_⟩
    · conv_lhs => rw [← List.take_append_drop start name, ends.2]
    · intro empty
      have length := congrArg List.length empty
      rw [List.length_take, List.length_nil] at length
      have longer := ends.1
      omega
  · rintro ⟨rfl, nonempty⟩
    have positive : 0 < download.length := List.length_pos_iff.mpr nonempty
    have atDownload : start = download.length := by
      simp only [start, List.length_append, Nat.add_sub_cancel]
    rw [atDownload, List.drop_left, List.take_left, if_pos]
    refine ⟨?_, rfl⟩
    rw [List.length_append]
    omega

/-! ## The directory -/

/-- A regular file with its size, or anything else with what `exists` says of it and whether a
removal succeeds. -/
inductive EntryKind
  | regular (size : Nat)
  | other (found removable : Bool)
  deriving DecidableEq, Repr

def EntryKind.found : EntryKind → Bool
  | .regular _ => true
  | .other found _ => found

def EntryKind.removable : EntryKind → Bool
  | .regular _ => true
  | .other _ removable => removable

structure DirEntry where
  name : FileName
  kind : EntryKind
  deriving DecidableEq, Repr

def DirEntry.Regular (e : DirEntry) : Prop := ∃ size, e.kind = .regular size

theorem DirEntry.Regular.found {e : DirEntry} (regular : e.Regular) : e.kind.found = true := by
  obtain ⟨size, kind⟩ := regular
  rw [kind]
  rfl

theorem DirEntry.Regular.removable {e : DirEntry} (regular : e.Regular) :
    e.kind.removable = true := by
  obtain ⟨size, kind⟩ := regular
  rw [kind]
  rfl

/-- The names of the directory itself and of its parent. -/
def isDot (name : FileName) : Bool := name == nameBytes "." || name == nameBytes ".."

/-- The entries of a directory in the order in which it is listed. -/
structure DownloadDir where
  entries : List DirEntry
  nodup : (entries.map DirEntry.name).Nodup
  plain : ∀ e ∈ entries, e.name ≠ [] ∧ isDot e.name = false

/-! ## The sweep -/

/-- The transport of the registry. A request that does not reach the server changes its list as
little as one whose save fails. -/
inductive Backend
  | files
  | server (cfg : ServerConfig)

def releasePending (backend : Backend) (io : IoOutcome) (runId path : String) (d : Disk) : Disk :=
  match backend with
  | .files => LocalTransport.release io runId [path] [] d
  | .server cfg => (handleRelease cfg io ⟨runId, [path], []⟩ d).2

/-- What the sweep is called with and what it meets: whether the two lists can be loaded, and
the file operations of each release. -/
structure SweepEnv where
  runId : String
  backend : Backend := .files
  io : FileName → IoOutcome := fun _ => {}
  pendingLoads : Bool := true
  registryLoads : Bool := true

def pendingFiles (d : Disk) : List String := d.pending.map PendingEntry.path

def trainedFiles (d : Disk) : List String :=
  (d.registry.filter DataVersion.trained).map DataVersion.dataFile

/-- `assigned_by_filename`: a later path replaces an earlier one of the same name. -/
def assignedByFilename (pending : List String) (filename : FileName) : Option String :=
  pending.reverse.find? fun p => downloadFileName p == filename

/-- The entries that are left, and the registry. -/
structure SweepState where
  left : List DirEntry
  disk : Disk
  deriving DecidableEq, Repr

/-- `fs::exists` of a name in the directory. -/
def found (left : List DirEntry) (name : FileName) : Bool :=
  isDot name || left.any fun e => e.name == name && e.kind.found

/-- `fs::remove`, whose errors are ignored. -/
def removeEntry (name : FileName) (left : List DirEntry) : List DirEntry :=
  left.filter fun e => !(e.name == name && e.kind.removable)

def removeWithSidecar (name : FileName) (left : List DirEntry) : List DirEntry :=
  removeEntry (name ++ checksumSuffix) (removeEntry name left)

def visit (env : SweepEnv) (pending trained : List String) (s : SweepState) (entry : DirEntry) :
    SweepState :=
  match entry.kind with
  | .other _ _ => s
  | .regular size =>
      let filename := entry.name
      match sidecarOf filename with
      | some download =>
          if found s.left download then s else { s with left := removeEntry filename s.left }
      | none =>
          if (trained.map downloadFileName).contains filename &&
              (assignedByFilename pending filename).isNone then
            { s with left := removeWithSidecar filename s.left }  -- D
          else
            match assignedByFilename pending filename with
            | none => { s with left := removeWithSidecar filename s.left }  -- G
            | some registryPath =>
                if size = 0 then  -- A
                  { left := removeWithSidecar filename s.left
                    disk := releasePending env.backend (env.io filename) env.runId registryPath
                      s.disk }
                else s  -- B, C

def startupSweep (env : SweepEnv) (downloadDir : Option DownloadDir) (d : Disk) : SweepState :=
  match downloadDir with
  | none => ⟨[], d⟩
  | some dir =>
      if !env.pendingLoads then ⟨dir.entries, d⟩
      else
        let trained := if env.registryLoads then trainedFiles d else []
        dir.entries.foldl (visit env (pendingFiles d) trained) ⟨dir.entries, d⟩

/-! ## One visit -/

/-- A file that is not empty and has the name of a pending path's download. -/
def Needed (pending : List String) (e : DirEntry) : Prop :=
  (∃ size, e.kind = .regular size ∧ size ≠ 0) ∧ ∃ p ∈ pending, downloadFileName p = e.name

theorem Needed.regular {pending : List String} {e : DirEntry} (needed : Needed pending e) :
    e.Regular := by
  obtain ⟨⟨size, kind, -⟩, -⟩ := needed
  exact ⟨size, kind⟩

/-- A file that the sweep deletes by its conditions D, G and A. -/
structure Doomed (pending : List String) (e : DirEntry) : Prop where
  regular : e.Regular
  notSidecar : sidecarOf e.name = none
  notNeeded : ¬ Needed pending e

/-- What the visit of an entry removes. -/
def Removes (pending : List String) (left : List DirEntry) (entry e : DirEntry) : Prop :=
  e.kind.removable = true ∧
    (Doomed pending entry ∧ (e.name = entry.name ∨ e.name = entry.name ++ checksumSuffix) ∨
      entry.Regular ∧ e.name = entry.name ∧
        ∃ download, sidecarOf entry.name = some download ∧ found left download = false)

section Visit

variable {pending trained : List String}

theorem assignedByFilename_eq_none {filename : FileName} :
    assignedByFilename pending filename = none ↔
      ∀ p ∈ pending, downloadFileName p ≠ filename := by
  unfold assignedByFilename
  rw [List.find?_eq_none]
  simp only [List.mem_reverse, beq_iff_eq, ne_eq]

theorem of_assignedByFilename {filename : FileName} {path : String}
    (assigned : assignedByFilename pending filename = some path) :
    path ∈ pending ∧ downloadFileName path = filename :=
  have same := List.find?_some assigned
  ⟨List.mem_reverse.mp (List.mem_of_find?_eq_some assigned), eq_of_beq same⟩

theorem mem_removeEntry {name : FileName} {left : List DirEntry} {e : DirEntry} :
    e ∈ removeEntry name left ↔ e ∈ left ∧ ¬ (e.kind.removable = true ∧ e.name = name) := by
  unfold removeEntry
  rw [List.mem_filter]
  refine and_congr_right fun _ => ?_
  rw [Bool.not_eq_true', Bool.and_eq_false_iff, beq_eq_false_iff_ne]
  rw [not_and_or, Bool.not_eq_true, or_comm]

theorem mem_removeWithSidecar {name : FileName} {left : List DirEntry} {e : DirEntry} :
    e ∈ removeWithSidecar name left ↔ e ∈ left ∧
      ¬ (e.kind.removable = true ∧ (e.name = name ∨ e.name = name ++ checksumSuffix)) := by
  unfold removeWithSidecar
  rw [mem_removeEntry, mem_removeEntry]
  tauto

/-- The file is assigned and not empty exactly if it is needed. -/
theorem doomed_of_none {e : DirEntry} (regular : e.Regular) (plain : sidecarOf e.name = none)
    (unassigned : assignedByFilename pending e.name = none) : Doomed pending e :=
  ⟨regular, plain, fun needed =>
    let ⟨p, member, named⟩ := needed.2
    assignedByFilename_eq_none.mp unassigned p member named⟩

theorem removes_sidecar {left : List DirEntry} {entry e : DirEntry} {download : FileName}
    (regular : entry.Regular) (named : sidecarOf entry.name = some download) :
    Removes pending left entry e ↔
      e.kind.removable = true ∧ e.name = entry.name ∧ found left download = false := by
  refine and_congr_right fun _ => ?_
  constructor
  · rintro (⟨doomed, -⟩ | ⟨-, same, other, otherNamed, gone⟩)
    · rw [doomed.notSidecar] at named
      cases named
    · obtain rfl := Option.some.inj (named.symm.trans otherNamed)
      exact ⟨same, gone⟩
  · rintro ⟨same, gone⟩
    exact .inr ⟨regular, same, download, named, gone⟩

theorem removes_plain {left : List DirEntry} {entry e : DirEntry}
    (plain : sidecarOf entry.name = none) :
    Removes pending left entry e ↔ e.kind.removable = true ∧ Doomed pending entry ∧
      (e.name = entry.name ∨ e.name = entry.name ++ checksumSuffix) := by
  refine and_congr_right fun _ => or_iff_left ?_
  rintro ⟨-, -, download, named, -⟩
  rw [plain] at named
  cases named

theorem mem_visit (env : SweepEnv) (s : SweepState) (entry e : DirEntry) :
    e ∈ (visit env pending trained s entry).left ↔
      e ∈ s.left ∧ ¬ Removes pending s.left entry e := by
  unfold visit
  split
  · next kind =>
      have irregular : ¬ entry.Regular := by
        rintro ⟨size, isRegular⟩
        rw [kind] at isRegular
        cases isRegular
      refine (and_iff_left ?_).symm
      rintro ⟨-, ⟨doomed, -⟩ | ⟨regular, -⟩⟩
      · exact irregular doomed.regular
      · exact irregular regular
  · next size kind =>
      have regular : entry.Regular := ⟨size, kind⟩
      extract_lets filename
      split
      · next download named =>
          rw [removes_sidecar regular named]
          split_ifs with there
          · refine (and_iff_left ?_).symm
            rintro ⟨-, -, gone⟩
            rw [there] at gone
            cases gone
          · rw [Bool.not_eq_true] at there
            simp only [mem_removeEntry, there, and_true, filename]
      · next plain =>
          rw [removes_plain plain]
          have whenDoomed (doomed : Doomed pending entry) :
              e ∈ removeWithSidecar filename s.left ↔ e ∈ s.left ∧ ¬ (e.kind.removable = true ∧
                Doomed pending entry ∧
                  (e.name = filename ∨ e.name = filename ++ checksumSuffix)) := by
            rw [mem_removeWithSidecar]
            simp only [doomed, true_and]
          split
          · next isTrained =>
              rw [Bool.and_eq_true, Option.isNone_iff_eq_none] at isTrained
              exact whenDoomed (doomed_of_none regular plain isTrained.2)
          · split
            · next unassigned => exact whenDoomed (doomed_of_none regular plain unassigned)
            · next path assigned =>
                split
                · next empty =>
                    refine whenDoomed ⟨regular, plain, ?_⟩
                    rintro ⟨⟨other, isOther, nonempty⟩, -⟩
                    rw [kind] at isOther
                    cases isOther
                    exact nonempty empty
                · next nonempty =>
                    refine (and_iff_left ?_).symm
                    rintro ⟨-, doomed, -⟩
                    exact doomed.notNeeded
                      ⟨⟨size, kind, nonempty⟩, path, of_assignedByFilename assigned⟩

/-- A visit releases the path of an empty download at most. -/
theorem visit_disk (env : SweepEnv) (s : SweepState) (entry : DirEntry) :
    (visit env pending trained s entry).disk = s.disk ∨
      entry.kind = .regular 0 ∧ ∃ path, downloadFileName path = entry.name ∧
        (visit env pending trained s entry).disk =
          releasePending env.backend (env.io entry.name) env.runId path s.disk := by
  unfold visit
  split
  · exact .inl rfl
  · next size kind =>
      extract_lets filename
      split
      · split
        · exact .inl rfl
        · exact .inl rfl
      · split
        · exact .inl rfl
        · split
          · exact .inl rfl
          · next path assigned =>
              split
              · next empty =>
                  exact .inr ⟨empty ▸ kind, path, (of_assignedByFilename assigned).2, rfl⟩
              · exact .inl rfl

end Visit

/-! ## The listing -/

section Listing

variable {env : SweepEnv} {pending trained : List String} {dir : DownloadDir} {d : Disk}
  {e other : DirEntry}

/-- The state after so many visits. -/
def stateAt (env : SweepEnv) (pending trained : List String) (dir : DownloadDir) (d : Disk)
    (visits : Nat) : SweepState :=
  (dir.entries.take visits).foldl (visit env pending trained) ⟨dir.entries, d⟩

/-- What is left after so many visits. -/
def leftAt (env : SweepEnv) (pending trained : List String) (dir : DownloadDir) (d : Disk)
    (visits : Nat) : List DirEntry :=
  (stateAt env pending trained dir d visits).left

/-- Where the listing reaches an entry. -/
def DownloadDir.position (dir : DownloadDir) (e : DirEntry) : Nat := dir.entries.idxOf e

theorem DownloadDir.eq_of_name (listed : e ∈ dir.entries) (there : other ∈ dir.entries)
    (same : e.name = other.name) : e = other :=
  List.inj_on_of_nodup_map dir.nodup listed there same

theorem DownloadDir.position_lt (listed : e ∈ dir.entries) :
    dir.position e < dir.entries.length :=
  List.idxOf_lt_length_iff.mpr listed

theorem DownloadDir.position_le (listed : e ∈ dir.entries) :
    dir.position e ≤ dir.entries.length :=
  Nat.le_of_lt (position_lt listed)

theorem DownloadDir.position_inj (listed : e ∈ dir.entries) :
    dir.position e = dir.position other ↔ e = other :=
  List.idxOf_inj listed

theorem DownloadDir.position_getElem {i : Nat} (inside : i < dir.entries.length) :
    dir.position dir.entries[i] = i :=
  (List.Nodup.of_map _ dir.nodup).idxOf_getElem i inside

theorem stateAt_succ {i : Nat} (inside : i < dir.entries.length) :
    stateAt env pending trained dir d (i + 1) =
      visit env pending trained (stateAt env pending trained dir d i) dir.entries[i] := by
  unfold stateAt
  rw [List.take_succ_eq_append_getElem inside, List.foldl_append, List.foldl_cons, List.foldl_nil]

/-- An entry is left as long as no entry visited before removes it. -/
theorem mem_leftAt {i : Nat} (inside : i ≤ dir.entries.length) :
    e ∈ leftAt env pending trained dir d i ↔ e ∈ dir.entries ∧
      ∀ x ∈ dir.entries, dir.position x < i →
        ¬ Removes pending (leftAt env pending trained dir d (dir.position x)) x e := by
  induction i with
  | zero => exact (and_iff_left fun x _ before => absurd before (Nat.not_lt_zero _)).symm
  | succ i ih =>
      have here : i < dir.entries.length := inside
      unfold leftAt
      rw [stateAt_succ here, mem_visit]
      change e ∈ leftAt env pending trained dir d i ∧ _ ↔ _
      rw [ih (by omega)]
      constructor
      · rintro ⟨⟨listed, earlier⟩, now⟩
        refine ⟨listed, fun x member before => ?_⟩
        rcases Nat.lt_succ_iff_lt_or_eq.mp before with sooner | same
        · exact earlier x member sooner
        · have isThis : dir.entries[i] = x := by
            have position : dir.position dir.entries[i] = dir.position x :=
              (DownloadDir.position_getElem here).trans same.symm
            exact (DownloadDir.position_inj (List.getElem_mem here)).mp position
          rw [same, ← isThis]
          exact now
      · rintro ⟨listed, kept⟩
        refine ⟨⟨listed, fun x member before => kept x member (by omega)⟩, ?_⟩
        have now := kept _ (List.getElem_mem here)
          (by rw [DownloadDir.position_getElem here]; omega)
        rw [DownloadDir.position_getElem here] at now
        exact now

theorem mem_of_mem_leftAt {i : Nat} (inside : i ≤ dir.entries.length)
    (left : e ∈ leftAt env pending trained dir d i) : e ∈ dir.entries :=
  ((mem_leftAt inside).mp left).1

end Listing

end Adai.Registry.StartupSweep
