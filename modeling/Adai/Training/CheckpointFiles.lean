import Adai.Checkpoint.RoundTrip
import Adai.Training.SessionDirectory

/-! # The files of a session's checkpoint

A checkpoint is a set of files whose names start with its base name. `checkpoint_files` finds
them by that start, `session_checkpoint_base_of` tells the base from the name of a file, where
the first `.bin` ends that is followed by the end, a dot or an underscore. The two agree
(`isFileOf_iff`), so each file of a session's checkpoint belongs to it alone
(`checkpoint_files_attributed`).
-/

namespace Adai.Training

open Checkpoint

/-! ## Names -/

def Base.name : Base → String
  | checkpoint id => "session_" ++ toString id ++ "_checkpoint.bin"
  | best id => "session_" ++ toString id ++ "_best.bin"
  | autoSave id => "auto_save_session_" ++ toString id ++ ".bin"

def Base.path (sessionDir : String) (base : Base) : String := sessionDir ++ "/" ++ base.name

/-- The part of a path behind the last slash. -/
def fileName (path : String) : String :=
  String.ofList (path.toList.reverse.takeWhile (· != '/')).reverse

/-- What may follow a base name. -/
def startsSuffix (rest : List Char) : Bool := rest.head? == some '.' || rest.head? == some '_'

def isFileOf (name f : String) : Bool :=
  f == name ||
    name.toList.isPrefixOf f.toList && startsSuffix (f.toList.drop name.toList.length)

/-- `entries` are the names in the directory of the base path. -/
def checkpointFiles (entries : List String) (basePath : String) : List String :=
  if basePath = "" then [] else entries.filter (isFileOf (fileName basePath))

/-- Where the first ".bin" ends that is followed by the end, a dot or an underscore. -/
def baseEnd : List Char → Option Nat
  | [] => none
  | c :: rest =>
      if ".bin".toList.isPrefixOf (c :: rest) &&
          ((rest.drop 3).isEmpty || startsSuffix (rest.drop 3)) then some 4
      else (baseEnd rest).map (· + 1)

def sessionCheckpointBaseOf (filename : String) : String :=
  if !("session_".toList.isPrefixOf filename.toList) &&
      !("auto_save_session_".toList.isPrefixOf filename.toList) then ""
  else
    match baseEnd filename.toList with
    | some length => String.ofList (filename.toList.take length)
    | none => ""

/-- The names that are left in the directory. -/
def removeModelFiles (entries : List String) (basePath : String) : List String :=
  (checkpointFiles entries basePath).foldl (fun left f => left.filter (· != f)) entries

variable {arch : Architecture}

/-- The files that a save of a model, of the training state and of the metrics writes. -/
def writtenPaths (m : EncoderDecoderModel arch) (basePath : String) : List String :=
  m.fileNames basePath ++ [basePath ++ ".vocab.tmp", basePath ++ ".optimizer",
    basePath ++ ".optimizer.tmp", basePath ++ ".metrics.csv"]

/-! ## Base names -/

/-- A name is plain in front of its ending if it has no dot and no slash there. -/
def PlainStem (name : String) (stem : List Char) : Prop :=
  name.toList = stem ++ ".bin".toList ∧ '.' ∉ stem ∧ '/' ∉ stem

theorem plainStem_numbered (opening ending : String)
    (plain : (opening.toList ++ ending.toList).all (fun c => c != '.' && c != '/') = true)
    (id : Nat) : PlainStem (opening ++ toString id ++ (ending ++ ".bin"))
      (opening.toList ++ ((toString id).toList ++ ending.toList)) := by
  simp only [List.all_eq_true, Bool.and_eq_true, bne_iff_ne] at plain
  have noMember (c : Char) (noDigit : c.isDigit = false) (other : c ∉ opening.toList ++ ending.toList) :
      c ∉ opening.toList ++ ((toString id).toList ++ ending.toList) := by
    rw [List.mem_append, List.mem_append, toList_toString]
    rintro (member | member | member)
    · exact other (List.mem_append_left _ member)
    · rw [Nat.isDigit_of_mem_toDigits (by omega) (by omega) member] at noDigit
      cases noDigit
    · exact other (List.mem_append_right _ member)
  refine ⟨?_, noMember '.' rfl fun member => (plain _ member).1 rfl,
    noMember '/' rfl fun member => (plain _ member).2 rfl⟩
  simp only [String.toList_append, List.append_assoc]

/-- A base name has one dot, that of its ending. -/
theorem Base.name_eq (base : Base) : ∃ stem : List Char, PlainStem base.name stem ∧
    ("session_".toList <+: stem ∨ "auto_save_session_".toList <+: stem) := by
  cases base with
  | checkpoint id =>
      exact ⟨_, plainStem_numbered "session_" "_checkpoint" (by decide) id,
        .inl (List.prefix_append ..)⟩
  | best id =>
      exact ⟨_, plainStem_numbered "session_" "_best" (by decide) id,
        .inl (List.prefix_append ..)⟩
  | autoSave id =>
      exact ⟨_, plainStem_numbered "auto_save_session_" "" (by decide) id,
        .inr (List.prefix_append ..)⟩

/-- The base ends at the first ".bin" if no dot is in front of it. -/
theorem baseEnd_append {stem rest : List Char} (noDot : '.' ∉ stem)
    (ends : rest = [] ∨ startsSuffix rest = true) :
    baseEnd (stem ++ (".bin".toList ++ rest)) = some (stem.length + 4) := by
  induction stem with
  | nil =>
      change (if (rest.isEmpty || startsSuffix rest) = true then some 4 else _) = some 4
      refine if_pos ?_
      rcases ends with rfl | suffix
      · rfl
      · rw [suffix, Bool.or_true]
  | cons c stem ih =>
      have other : ('.' == c) = false := beq_false_of_ne fun same => noDot (same ▸ List.mem_cons_self)
      rw [List.cons_append, baseEnd, ih fun member => noDot (List.mem_cons_of_mem _ member)]
      rw [if_neg]
      · rfl
      · change ¬ (('.' == c && _) && _) = true
        rw [other]
        exact Bool.false_ne_true

theorem baseEnd_some {text : List Char} {length : Nat} (found : baseEnd text = some length) :
    text.drop length = [] ∨ startsSuffix (text.drop length) = true := by
  induction text generalizing length with
  | nil => cases found
  | cons c rest ih =>
      rw [baseEnd] at found
      split at found
      · rename_i here
        obtain rfl := Option.some.inj found
        rw [Bool.and_eq_true, Bool.or_eq_true] at here
        exact here.2.imp_left List.isEmpty_iff.mp
      · obtain ⟨shorter, later, rfl⟩ := Option.map_eq_some_iff.mp found
        exact ih later

/-! ## The two agree -/

theorem isFileOf_iff_append (name f : String) :
    isFileOf name f = true ↔ ∃ rest, f.toList = name.toList ++ rest ∧
      (rest = [] ∨ startsSuffix rest = true) := by
  unfold isFileOf
  rw [Bool.or_eq_true, Bool.and_eq_true, beq_iff_eq, List.isPrefixOf_iff_prefix]
  constructor
  · rintro (rfl | ⟨⟨rest, is⟩, suffix⟩)
    · exact ⟨[], (List.append_nil _).symm, .inl rfl⟩
    · rw [← is, List.drop_left] at suffix
      exact ⟨rest, is.symm, .inr suffix⟩
  · rintro ⟨rest, is, rfl | suffix⟩
    · rw [List.append_nil] at is
      exact .inl (String.toList_inj.mp is)
    · rw [is, List.drop_left]
      exact .inr ⟨List.prefix_append .., suffix⟩

/-- A file is one of a session's checkpoint exactly if its name has that base. -/
theorem isFileOf_iff (base : Base) (f : String) :
    isFileOf base.name f = true ↔ sessionCheckpointBaseOf f = base.name := by
  obtain ⟨stem, ⟨named, noDot, -⟩, opened⟩ := base.name_eq
  rw [isFileOf_iff_append]
  constructor
  · rintro ⟨rest, is, ends⟩
    have found : baseEnd f.toList = some (stem.length + 4) := by
      rw [is, named, List.append_assoc]
      exact baseEnd_append noDot ends
    have start : stem <+: f.toList := by
      rw [is, named, List.append_assoc]
      exact List.prefix_append ..
    have front : f.toList.take (stem.length + 4) = base.name.toList := by
      rw [is, List.take_left' (by rw [named, List.length_append]; rfl)]
    have known : (!("session_".toList.isPrefixOf f.toList) &&
        !("auto_save_session_".toList.isPrefixOf f.toList)) = false := by
      rw [← Bool.not_or, Bool.not_eq_false', Bool.or_eq_true, List.isPrefixOf_iff_prefix,
        List.isPrefixOf_iff_prefix]
      exact opened.imp (List.IsPrefix.trans · start) (List.IsPrefix.trans · start)
    unfold sessionCheckpointBaseOf
    rw [known, found]
    change String.ofList (f.toList.take (stem.length + 4)) = base.name
    rw [front, String.ofList_toList]
  · intro is
    unfold sessionCheckpointBaseOf at is
    have some_ : base.name ≠ "" := by
      intro none
      rw [none] at named
      exact absurd (congrArg List.length named) (by simp)
    split at is
    · exact absurd is.symm some_
    · split at is
      · rename_i length found
        refine ⟨f.toList.drop length, ?_, baseEnd_some found⟩
        rw [← is, String.toList_ofList, List.take_append_drop]
      · exact absurd is.symm some_

/-! ## What a save writes -/

/-- A name in the same directory that starts with the base name. -/
def IsSuffix (suffix : String) : Prop := startsSuffix suffix.toList = true ∧ '/' ∉ suffix.toList

theorem isSuffix_numbered (opening ending : String) (first : startsSuffix opening.toList = true)
    (plain : (opening.toList ++ ending.toList).all (· != '/') = true) (id : Nat) :
    IsSuffix (opening ++ (toString id ++ ending)) := by
  simp only [List.all_eq_true, bne_iff_ne] at plain
  refine ⟨?_, ?_⟩
  · rw [String.toList_append]
    unfold startsSuffix at first ⊢
    cases starts : opening.toList with
    | nil =>
        rw [starts] at first
        cases first
    | cons c rest => rwa [starts] at first
  · rw [String.toList_append, String.toList_append, List.mem_append, List.mem_append, toList_toString]
    rintro (member | member | member)
    · exact plain _ (List.mem_append_left _ member) rfl
    · exact absurd (Nat.isDigit_of_mem_toDigits (by omega) (by omega) member) (by decide)
    · exact plain _ (List.mem_append_right _ member) rfl

theorem isSuffix_suffix (file : CheckpointFile) : IsSuffix file.suffix := by
  cases file with
  | encoderBlock i part =>
      cases part <;> exact isSuffix_numbered "_encoder_block_" _ rfl (by decide) i
  | decoderBlock i part =>
      cases part <;> exact isSuffix_numbered "_decoder_block_" _ rfl (by decide) i
  | _ => exact ⟨rfl, by decide⟩

theorem exists_suffix {m : EncoderDecoderModel arch} {basePath path : String}
    (written : path ∈ writtenPaths m basePath) :
    ∃ suffix, IsSuffix suffix ∧ path = basePath ++ suffix := by
  rcases List.mem_append.mp written with model | others
  · rcases List.mem_cons.mp model with rfl | model
    · exact ⟨_, isSuffix_suffix .config, rfl⟩
    · rcases List.mem_cons.mp model with rfl | model
      · exact ⟨_, isSuffix_suffix .vocab, rfl⟩
      · rw [EncoderDecoderModel.map_files] at model
        obtain ⟨file, -, rfl⟩ := List.mem_map.mp model
        exact ⟨_, isSuffix_suffix file, rfl⟩
  · simp only [List.mem_cons, List.not_mem_nil, or_false] at others
    rcases others with rfl | rfl | rfl | rfl <;> exact ⟨_, ⟨rfl, by decide⟩, rfl⟩

/-- The name of a path is what stands behind the directory. -/
theorem fileName_join (dir : String) {name : String} (noSlash : '/' ∉ name.toList) :
    fileName (dir ++ "/" ++ name) = name := by
  have reversed : (dir ++ "/" ++ name).toList.reverse =
      name.toList.reverse ++ '/' :: dir.toList.reverse := by
    simp [String.toList_append]
  unfold fileName
  rw [reversed, List.takeWhile_append_of_pos, List.takeWhile_cons_of_neg (by decide), List.append_nil,
    List.reverse_reverse, String.ofList_toList]
  intro c member
  exact bne_iff_ne.mpr fun same => noSlash (same ▸ List.mem_reverse.mp member)

theorem Base.fileName_path (base : Base) (dir : String) {suffix : String}
    (plain : '/' ∉ suffix.toList) : fileName (base.path dir ++ suffix) = base.name ++ suffix := by
  obtain ⟨stem, ⟨named, -, noSlash⟩, -⟩ := base.name_eq
  rw [path, String.append_assoc]
  refine fileName_join dir ?_
  rw [String.toList_append, named, List.mem_append, List.mem_append]
  rintro ((member | member) | member)
  · exact noSlash member
  · exact absurd member (by decide)
  · exact plain member

theorem mem_checkpointFiles {entries : List String} {dir : String} {base : Base} {f : String} :
    f ∈ checkpointFiles entries (base.path dir) ↔
      f ∈ entries ∧ sessionCheckpointBaseOf f = base.name := by
  have named : fileName (base.path dir) = base.name := by
    have plain := base.fileName_path dir (by decide : '/' ∉ "".toList)
    rwa [String.append_empty, String.append_empty] at plain
  have some_ : base.path dir ≠ "" := by
    intro none
    have size := congrArg String.length none
    simp [Base.path] at size
  unfold checkpointFiles
  rw [if_neg some_, List.mem_filter, named, isFileOf_iff]

theorem mem_removeModelFiles {entries : List String} {basePath f : String} :
    f ∈ removeModelFiles entries basePath ↔
      f ∈ entries ∧ f ∉ checkpointFiles entries basePath := by
  unfold removeModelFiles
  generalize checkpointFiles entries basePath = removed
  induction removed generalizing entries with
  | nil => simp
  | cons g removed ih =>
      rw [List.foldl_cons, ih, List.mem_filter, bne_iff_ne, List.mem_cons, not_or, and_assoc]

/-- Each file that a save writes for one of two sessions' checkpoints is attributed to it alone:
its name has that base, it is found and deleted as one of its files, and neither found nor
deleted as one of the other's. -/
theorem checkpoint_files_attributed (m : EncoderDecoderModel arch) (sessionDir : String)
    {base other : Base} (distinct : base.name ≠ other.name) {path : String}
    (written : path ∈ writtenPaths m (base.path sessionDir)) {entries : List String}
    (there : fileName path ∈ entries) :
    sessionCheckpointBaseOf (fileName path) = base.name ∧
      fileName path ∈ checkpointFiles entries (base.path sessionDir) ∧
      fileName path ∉ checkpointFiles entries (other.path sessionDir) ∧
      fileName path ∉ removeModelFiles entries (base.path sessionDir) ∧
      fileName path ∈ removeModelFiles entries (other.path sessionDir) := by
  obtain ⟨suffix, ⟨starts, plain⟩, rfl⟩ := exists_suffix written
  have attributed : sessionCheckpointBaseOf (fileName (base.path sessionDir ++ suffix)) = base.name := by
    rw [base.fileName_path sessionDir plain, ← isFileOf_iff, isFileOf_iff_append]
    exact ⟨suffix.toList, String.toList_append, .inr starts⟩
  have mine : fileName (base.path sessionDir ++ suffix) ∈
      checkpointFiles entries (base.path sessionDir) := mem_checkpointFiles.mpr ⟨there, attributed⟩
  have notOthers : fileName (base.path sessionDir ++ suffix) ∉
      checkpointFiles entries (other.path sessionDir) := fun member =>
    distinct (attributed.symm.trans (mem_checkpointFiles.mp member).2)
  exact ⟨attributed, mine, notOthers, fun left => (mem_removeModelFiles.mp left).2 mine,
    mem_removeModelFiles.mpr ⟨there, notOthers⟩⟩

theorem checkpoint_files_attributed_config :
    "session_1_checkpoint.bin.config" ∉
      checkpointFiles ["session_1_checkpoint.bin.config"] ((Base.checkpoint 10).path "sessions") := by
  have distinct : (Base.checkpoint 1).name ≠ (Base.checkpoint 10).name := by decide
  have written : (Base.checkpoint 1).path "sessions" ++ ".config" ∈
      writtenPaths (.alike tiny 0 bare ⟨2, 3, 0⟩) ((Base.checkpoint 1).path "sessions") :=
    List.mem_cons_self
  have there : fileName ((Base.checkpoint 1).path "sessions" ++ ".config") ∈
      ["session_1_checkpoint.bin.config"] := by decide
  exact (checkpoint_files_attributed _ "sessions" distinct written there).2.2.1

end Adai.Training
