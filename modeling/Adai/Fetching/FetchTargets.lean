import Adai.Math.JoinedNames
import Adai.Registry.Server

/-! # The targets of dataset fetches and the files kept for them

A fetch names a dataset, a split and a model. The dataset's download is cached in
a directory named after the dataset and the split, and the next row to serve is
kept in a cursor file named after all three. Both names are built by flattening
separators to `_` and joining with `_`, so that two targets may share a file:
they do exactly when they are spelt with the same words
(`Adai.Fetching.fetch_targets_kept_apart_iff`).
-/

namespace Adai.Fetching

open Adai.Registry

/-! ## Accepted requests -/

/-- `[A-Za-z0-9._-]+`, and never `.` or `..`. -/
def isSafeHfComponent (s : String) : Bool :=
  !s.isEmpty && s != "." && s != ".." &&
    s.toList.all fun c => c.isAlphanum || c == '.' || c == '_' || c == '-'

/-- `name` or `org/name`: one or more safe components joined by `/`. -/
def isSafeHfDatasetId (s : String) : Bool :=
  !s.isEmpty && s.toList.head? != some '/' && s.toList.getLast? != some '/' &&
    (s.toList.splitOn '/').all fun component => isSafeHfComponent (String.ofList component)

/-- The names in a fetch request. -/
structure FetchRequest where
  datasetId : String
  split : String := ""
  modelName : String := ""
  deriving DecidableEq, Repr

/-- What an accepted request fetches. -/
structure FetchTarget where
  datasetId : String
  split : String
  modelName : String
  safeId : isSafeHfDatasetId datasetId = true
  safeSplit : isSafeHfComponent split = true
  safeModel : isSafeModelName modelName = true
  deriving DecidableEq, Repr

/-- The checks of `handle_fetch_huggingface`. -/
def fetchTarget (req : FetchRequest) : Except (Nat × String) FetchTarget :=
  let split := if req.split.isEmpty then "train" else req.split
  if names : isSafeHfDatasetId req.datasetId = true ∧ isSafeHfComponent split = true then
    if model : isSafeModelName req.modelName = true then
      .ok ⟨req.datasetId, split, req.modelName, names.1, names.2, model⟩
    else .error (400, "model_name must match [A-Za-z0-9._-]*")
  else .error (400, "dataset_id must be name or org/name and split one name, each " ++
    "[A-Za-z0-9._-]+ and never . or ..")

/-! ## The files of a target -/

/-- The first character of a group name is not a dot. -/
def groupCharacter (c : Char) (first : Bool) : Bool :=
  c.isAlphanum || c == '_' || c == '-' || (!first && c == '.')

def validGroupName (group : String) : Bool :=
  match group.toList with
  | [] => false
  | c :: rest => group.utf8ByteSize ≤ 128 && groupCharacter c true &&
      rest.all fun c => groupCharacter c false

/-- A group of the registry and the kind of model its data is for. Every route refuses
another name before its handler runs. -/
structure Group where
  name : String
  kind : String := ""
  valid : validGroupName name = true
  deriving DecidableEq, Repr

def groupDir (dataDir : String) (group : Group) : String :=
  if group.kind.isEmpty then dataDir ++ "/" ++ group.name
  else dataDir ++ "/" ++ group.name ++ "/" ++ group.kind

def replaceChar (old new : Char) (s : String) : String :=
  s.map fun c => if c = old then new else c

/-- The directory of a dataset's download. -/
def hfDatasetDirName (datasetId split : String) : String :=
  replaceChar '\\' '_' (replaceChar '/' '_' (datasetId ++ "_" ++ split))

def flattenForPath (s : String) : String := replaceChar '/' '_' s

/-- The name a model has in paths. -/
def safeModelName (modelName : String) : String :=
  if modelName.isEmpty then "_unassigned" else flattenForPath modelName

def hfCursorPath (dataDir : String) (group : Group) (datasetId split modelName : String) :
    String :=
  groupDir dataDir group ++ "/fetch_cursors/hf_" ++ flattenForPath datasetId ++ "__" ++
    flattenForPath split ++ "__" ++ safeModelName modelName ++ ".txt"

namespace FetchTarget

def dirName (target : FetchTarget) : String := hfDatasetDirName target.datasetId target.split

def cursorPath (dataDir : String) (group : Group) (target : FetchTarget) : String :=
  hfCursorPath dataDir group target.datasetId target.split target.modelName

end FetchTarget

/-! ## The cursors -/

/-- The offsets in the cursor files, by path. -/
abbrev CursorFiles := String → Option Int

def readCursor (files : CursorFiles) (path : String) : Int :=
  match files path with
  | none => 0
  | some offset => if 0 ≤ offset then offset else 0

def writeCursor (files : CursorFiles) (path : String) (offset : Int) : CursorFiles :=
  Function.update files path (some offset)

/-- The next row that is served for `target`. -/
def progress (dataDir : String) (group : Group) (files : CursorFiles) (target : FetchTarget) :
    Int :=
  readCursor files (target.cursorPath dataDir group)

/-- A fetch for `target` served the rows up to `next`. -/
def advance (dataDir : String) (group : Group) (files : CursorFiles) (target : FetchTarget)
    (next : Nat) : CursorFiles :=
  writeCursor files (target.cursorPath dataDir group) next

/-! ## Names spelt with the same words -/

/-- The words of a name between underscores and slashes. -/
def pathWords (s : String) : List (List Char) :=
  JoinedNames.words '_' (fun c => c == '/') s.toList

/-- The words of a name between underscores and slashes of both kinds. -/
def dirWords (s : String) : List (List Char) :=
  JoinedNames.words '_' (fun c => c == '\\' || c == '/') s.toList

/-- The dataset and the split of both pairs are spelt with the same words, which may be
divided differently. -/
def SameDirWords (datasetId split otherId otherSplit : String) : Prop :=
  dirWords datasetId ++ dirWords split = dirWords otherId ++ dirWords otherSplit

instance (datasetId split otherId otherSplit : String) :
    Decidable (SameDirWords datasetId split otherId otherSplit) :=
  inferInstanceAs (Decidable (_ = _))

/-- The words of a target, with an empty word between its three names. -/
def FetchTarget.words (target : FetchTarget) : List (List Char) :=
  pathWords target.datasetId ++ [[]] ++ pathWords target.split ++ [[]] ++
    pathWords (if target.modelName.isEmpty then "_unassigned" else target.modelName)

/-- Both targets are spelt with the same words. -/
def SameWords (target other : FetchTarget) : Prop := target.words = other.words

instance (target other : FetchTarget) : Decidable (SameWords target other) :=
  inferInstanceAs (Decidable (_ = _))

theorem toList_flattenForPath (s : String) :
    (flattenForPath s).toList = JoinedNames.flatten '_' (fun c => c == '/') s.toList := by
  simp [flattenForPath, replaceChar, JoinedNames.flatten]

theorem safeModelName_eq (modelName : String) :
    safeModelName modelName =
      flattenForPath (if modelName.isEmpty then "_unassigned" else modelName) := by
  cases empty : modelName.isEmpty with
  | true =>
    rw [← String.toList_inj, toList_flattenForPath]
    simp only [safeModelName, empty, if_true]
    decide
  | false => simp [safeModelName, empty]

theorem hfDatasetDirName_eq_iff (datasetId split otherId otherSplit : String) :
    hfDatasetDirName datasetId split = hfDatasetDirName otherId otherSplit ↔
      SameDirWords datasetId split otherId otherSplit := by
  have flattened (id split : String) : (hfDatasetDirName id split).toList =
      JoinedNames.flatten '_' (fun c => c == '\\' || c == '/')
        (id.toList ++ '_' :: split.toList) := by
    have joined : (id ++ "_" ++ split).toList = id.toList ++ '_' :: split.toList := by simp
    simp only [hfDatasetDirName, replaceChar, String.toList_map, joined, List.map_map,
      JoinedNames.flatten]
    apply List.map_congr_left
    intro c _
    by_cases slash : c = '/'
    · simp [slash]
    · simp [slash]
  rw [← String.toList_inj, flattened, flattened, JoinedNames.flatten_eq_flatten_iff,
    JoinedNames.words_join, JoinedNames.words_join]
  exact Iff.rfl

/-- The part of a cursor's path after the fixed prefix spells the target's words. -/
theorem flatten_join_eq_iff (target other : FetchTarget) :
    flattenForPath target.datasetId ++ "__" ++ flattenForPath target.split ++ "__" ++
        safeModelName target.modelName =
      flattenForPath other.datasetId ++ "__" ++ flattenForPath other.split ++ "__" ++
        safeModelName other.modelName ↔ SameWords target other := by
  have flattened (id split model : String) :
      (flattenForPath id ++ "__" ++ flattenForPath split ++ "__" ++ flattenForPath model).toList =
        JoinedNames.flatten '_' (fun c => c == '/')
          (id.toList ++ '_' :: ([] ++ '_' :: (split.toList ++ '_' :: ([] ++ '_' :: model.toList)))) := by
    simp [toList_flattenForPath, JoinedNames.flatten]
  rw [safeModelName_eq, safeModelName_eq, ← String.toList_inj, flattened, flattened,
    JoinedNames.flatten_eq_flatten_iff]
  simp only [JoinedNames.words_join, JoinedNames.words_nil, SameWords, FetchTarget.words, pathWords,
    List.append_assoc]

theorem cursorPath_eq_iff (dataDir : String) (group : Group) (target other : FetchTarget) :
    target.cursorPath dataDir group = other.cursorPath dataDir group ↔
      SameWords target other := by
  rw [← flatten_join_eq_iff]
  simp only [FetchTarget.cursorPath, hfCursorPath, String.append_assoc, String.append_right_inj]
  simp only [← String.append_assoc, String.append_left_inj]

/-! ## Progress -/

theorem progress_advance_self (dataDir : String) (group : Group) (files : CursorFiles)
    (target : FetchTarget) (next : Nat) :
    progress dataDir group (advance dataDir group files target next) target = next := by
  simp [progress, advance, readCursor, writeCursor]

theorem progress_advance_of_not_sameWords {target other : FetchTarget} (dataDir : String)
    (group : Group) (files : CursorFiles) (next : Nat) (apart : ¬SameWords target other) :
    progress dataDir group (advance dataDir group files target next) other =
      progress dataDir group files other := by
  have paths : other.cursorPath dataDir group ≠ target.cursorPath dataDir group := by
    intro same
    exact apart ((cursorPath_eq_iff dataDir group target other).mp same.symm)
  simp [progress, advance, readCursor, writeCursor, Function.update_of_ne paths]

/-- The cursor files after a sequence of fetches. -/
def afterFetches (dataDir : String) (group : Group) (files : CursorFiles)
    (fetches : List (FetchTarget × Nat)) : CursorFiles :=
  fetches.foldl (fun files fetch => advance dataDir group files fetch.1 fetch.2) files

/-- No sequence of fetches for targets spelt with other words moves a target's progress. -/
theorem progress_afterFetches (dataDir : String) (group : Group) (target : FetchTarget)
    (fetches : List (FetchTarget × Nat)) (files : CursorFiles)
    (apart : ∀ fetch ∈ fetches, ¬SameWords fetch.1 target) :
    progress dataDir group (afterFetches dataDir group files fetches) target =
      progress dataDir group files target := by
  induction fetches generalizing files with
  | nil => rfl
  | cons fetch fetches hypothesis =>
    calc progress dataDir group (afterFetches dataDir group files (fetch :: fetches)) target
        = progress dataDir group (advance dataDir group files fetch.1 fetch.2) target :=
          hypothesis _ fun later member => apart later (List.mem_cons_of_mem _ member)
      _ = progress dataDir group files target :=
          progress_advance_of_not_sameWords dataDir group files fetch.2
            (apart fetch List.mem_cons_self)

/-- Two targets have their own cursors, and two datasets their own directories, exactly when
they are not spelt with the same words: an underscore in a name counts like a slash and like
the joint between two names. -/
theorem fetch_targets_kept_apart_iff (dataDir : String) (group : Group) :
    (∀ target other : FetchTarget,
      (target.cursorPath dataDir group ≠ other.cursorPath dataDir group ↔
        ¬SameWords target other) ∧
      ((∀ files next, progress dataDir group (advance dataDir group files target next) other =
          progress dataDir group files other) ↔ ¬SameWords target other)) ∧
    ∀ datasetId split otherId otherSplit,
      hfDatasetDirName datasetId split ≠ hfDatasetDirName otherId otherSplit ↔
        ¬SameDirWords datasetId split otherId otherSplit := by
  refine ⟨fun target other => ⟨not_congr (cursorPath_eq_iff dataDir group target other), ?_, ?_⟩,
    fun datasetId split otherId otherSplit =>
      not_congr (hfDatasetDirName_eq_iff datasetId split otherId otherSplit)⟩
  · intro kept same
    have shared := (cursorPath_eq_iff dataDir group target other).mpr same
    -- The row just served for `target` is what is read for `other`.
    have overwritten : progress dataDir group
        (advance dataDir group (fun _ => none) target 1) other = 1 := by
      simp only [progress, ← shared]
      exact progress_advance_self dataDir group _ target 1
    have untouched := kept (fun _ => none) 1
    rw [overwritten] at untouched
    exact absurd untouched (by simp [progress, readCursor])
  · intro apart files next
    exact progress_advance_of_not_sameWords dataDir group files next apart

/-- The data of an organisation `org` named `data`, and of a dataset named `org_data`. -/
theorem fetch_targets_share_files :
    ¬∀ (dataDir : String) (group : Group) (target other : FetchTarget), target ≠ other →
      target.cursorPath dataDir group ≠ other.cursorPath dataDir group ∧
        ((target.datasetId, target.split) ≠ (other.datasetId, other.split) →
          target.dirName ≠ other.dirName) := by
  intro kept
  have apart := kept "/data" ⟨"group", "", by decide⟩
    ⟨"org/data", "train", "model", by decide, by decide, by decide⟩
    ⟨"org_data", "train", "model", by decide, by decide, by decide⟩ (by decide)
  exact apart.1 ((cursorPath_eq_iff _ _ _ _).mpr (by decide))

end Adai.Fetching
