import Adai.Math.AtomicReplace
import Adai.Registry.Types
import Mathlib.Algebra.Ring.Int.Defs
import Mathlib.Algebra.Ring.Nat

/-! # The texts of the two files

A list is saved as a header and one JSON object to a line, and loaded from such a text or,
without the header, from the older columns. A load is right for whatever text it meets: what
it returns is what is loaded again after it was saved (`Adai.Registry.files_read_back`). A
save replaces its file, so that processes which save at the same time, die or lose power
leave two files that load as what some of the saves put there, in their order
(`Adai.Registry.files_follow_saves`).

A text is Unicode, as the strings of the lists are. The JSON library is a parameter.
-/

namespace Adai.Registry.TextFiles

abbrev Text := List Char

/-! ## JSON lines -/

inductive JsonValue
  | string (text : String)
  | integer (n : Int)
  | boolean (value : Bool)
  | other
  deriving DecidableEq, Repr

abbrev Members := List (String × JsonValue)

def findMember (members : Members) (key : String) : Option JsonValue := members.lookup key

/-- `dump` of an object's members, and what `find` finds in the object that a line is. -/
structure JsonLibrary where
  dump : Members → Text
  parse : Text → Option (String → Option JsonValue)

/-- The library reads an object back from the line that it writes of it. -/
structure JsonLibrary.Keeps (library : JsonLibrary) (members : Members) : Prop where
  parse_dump : library.parse (library.dump members) = some (findMember members)
  oneLine : '\n' ∉ library.dump members
  brace : ∃ rest, library.dump members = '{' :: rest

def jsonStr (find : String → Option JsonValue) (key : String) : String :=
  match find key with
  | some (.string text) => text
  | _ => ""

def jsonBool (find : String → Option JsonValue) (key : String) : Bool :=
  match find key with
  | some (.boolean value) => value
  | _ => false

/-- `json_num`, with the cast to the type that is asked for. -/
def jsonNum {α : Type} (cast : Int → α) (find : String → Option JsonValue) (key : String)
    (fallback : α) : α :=
  match find key with
  | some (.integer n) => cast n
  | _ => fallback

def toInt (n : Int) : Int := n.bmod (2 ^ 32)

def toLongLong (n : Int) : Int := n.bmod (2 ^ 64)

def toSize (n : Int) : Nat := (n % 2 ^ 64).toNat

def registryMembers (dv : DataVersion) : Members :=
  [("data_file", .string dv.dataFile), ("checksum", .string dv.checksum),
    ("num_samples", .integer dv.numSamples), ("trained", .boolean dv.trained),
    ("model_id", .string dv.modelId), ("added_utc", .string dv.addedUtc),
    ("source", .string dv.source), ("segment_start", .integer dv.segmentStart),
    ("segment_count", .integer dv.segmentCount)]

def pendingMembers (e : PendingEntry) : Members :=
  [("path", .string e.path), ("run_id", .string e.runId), ("model_name", .string e.modelName),
    ("source", .string e.source), ("added_utc", .string e.addedUtc),
    ("size_bytes", .integer e.sizeBytes), ("num_entries", .integer e.numEntries),
    ("checksum", .string e.checksum), ("segment_start", .integer e.segmentStart),
    ("segment_count", .integer e.segmentCount), ("claimed_unix", .integer e.claimedUnix)]

def registryEntry (find : String → Option JsonValue) : DataVersion where
  dataFile := jsonStr find "data_file"
  checksum := jsonStr find "checksum"
  numSamples := jsonNum toInt find "num_samples" 0
  trained := jsonBool find "trained"
  modelId := jsonStr find "model_id"
  addedUtc := jsonStr find "added_utc"
  source := jsonStr find "source"
  segmentStart := jsonNum toInt find "segment_start" (-1)
  segmentCount := jsonNum toInt find "segment_count" (-1)

def pendingEntry (find : String → Option JsonValue) : PendingEntry where
  path := jsonStr find "path"
  runId := jsonStr find "run_id"
  modelName := jsonStr find "model_name"
  source := jsonStr find "source"
  addedUtc := jsonStr find "added_utc"
  sizeBytes := jsonNum toSize find "size_bytes" 0
  numEntries := jsonNum toInt find "num_entries" (-1)
  checksum := jsonStr find "checksum"
  segmentStart := jsonNum toInt find "segment_start" (-1)
  segmentCount := jsonNum toInt find "segment_count" (-1)
  claimedUnix := jsonNum toLongLong find "claimed_unix" 0

/-! ## Columns -/

def isSpace (c : Char) : Bool :=
  c == ' ' || c == '\t' || c == '\n' || c == '\x0b' || c == '\x0c' || c == '\r'

/-- The number in front, of an `int` or a wider type. -/
def leadingNumber (text : Text) : Option (Int × Text) :=
  let text := text.dropWhile isSpace
  let sign : Int := if text.head? = some '-' then -1 else 1
  let digits := if text.head? = some '-' || text.head? = some '+' then text.tail else text
  let number := digits.takeWhile Char.isDigit
  if number.isEmpty then none
  else some (sign * Nat.ofDigitChars 10 number 0, digits.dropWhile Char.isDigit)

/-- `iss >> token`. A stream that has failed is `none`. -/
def extractToken (stream : Option Text) : Option Text × Option Text :=
  match stream with
  | none => (none, none)
  | some text =>
    let text := text.dropWhile isSpace
    if text.isEmpty then (none, none)
    else (some (text.takeWhile fun c => !isSpace c), some (text.dropWhile fun c => !isSpace c))

/-- `iss >> n`: a number that does not fit becomes the nearest one that does. -/
def extractInt (stream : Option Text) : Int × Option Text :=
  match stream.bind leadingNumber with
  | none => (0, none)
  | some (n, rest) =>
    if n < -2 ^ 31 then (-2 ^ 31, none)
    else if 2 ^ 31 ≤ n then (2 ^ 31 - 1, none)
    else (n, some rest)

/-- A dash stands for an empty column. -/
def dashed (token : Option Text) : String :=
  match token with
  | none => ""
  | some token => if token = ['-'] then "" else String.ofList token

def parseLegacyRegistryLine (line : Text) : DataVersion :=
  let file := extractToken (some line)
  let checksum := extractToken file.2
  let samples := extractInt checksum.2
  let trained := extractInt samples.2
  let model := extractToken trained.2
  let added := extractToken model.2
  let source := extractToken added.2
  let start := extractInt source.2
  let count := extractInt start.2
  { dataFile := (file.1.map String.ofList).getD ""
    checksum := dashed checksum.1
    numSamples := samples.1
    trained := trained.1 = 1
    modelId := dashed model.1
    addedUtc := dashed added.1
    source := dashed source.1
    segmentStart := if count.2.isSome then start.1 else -1
    segmentCount := if count.2.isSome then count.1 else -1 }

/-- `std::stoi` and `std::stoll`: what does not fit is refused. -/
def stringToSigned (bits : Nat) (text : Text) : Option Int :=
  (leadingNumber text).bind fun number =>
    if -2 ^ (bits - 1) ≤ number.1 ∧ number.1 < 2 ^ (bits - 1) then some number.1 else none

/-- `std::stoull`: a number with a minus sign wraps around. -/
def stoull (text : Text) : Option Nat :=
  (leadingNumber text).bind fun number =>
    if number.1.natAbs < 2 ^ 64 then some (toSize number.1) else none

/-- A column that is missing, empty or no number leaves the default. -/
def column {α : Type} (convert : Text → Option α) (columns : List Text) (i : Nat) (default : α) :
    α :=
  match columns[i]? with
  | none => default
  | some text => if text.isEmpty then default else (convert text).getD default

def parseLegacyPendingLine (line : Text) : PendingEntry :=
  let columns := line.splitOn '\t'
  let text := fun i => column (fun t => some (String.ofList t)) columns i ""
  { path := text 0
    runId := text 1
    modelName := text 2
    source := text 3
    addedUtc := text 4
    sizeBytes := column stoull columns 5 0
    numEntries := column (stringToSigned 32) columns 6 (-1)
    checksum := text 7
    segmentStart := column (stringToSigned 32) columns 8 (-1)
    segmentCount := column (stringToSigned 32) columns 9 (-1)
    claimedUnix := column (stringToSigned 64) columns 10 0 }

/-! ## Files -/

def kRegistryHeader : Text := "# adai data registry, JSON Lines v2".toList

def kPendingHeader : Text := "# adai pending queue, JSON Lines v2".toList

def fileText (lines : List Text) : Text := lines.flatMap fun line => line ++ ['\n']

/-- The lines that `std::getline` reads. -/
def getlines (text : Text) : List Text :=
  let parts := text.splitOn '\n'
  if parts.getLast? = some [] then parts.dropLast else parts

/-- `read_lines`: the lines without the header, and whether there was one. -/
def readLines (header text : Text) : List Text × Bool :=
  match getlines text with
  | [] => ([], false)
  | first :: rest => if first = header then (rest, true) else (first :: rest, false)

section Library

variable (library : JsonLibrary)

def registryText (entries : List DataVersion) : Text :=
  fileText (kRegistryHeader :: entries.map fun dv => library.dump (registryMembers dv))

def pendingText (entries : List PendingEntry) : Text :=
  fileText (kPendingHeader :: entries.map fun e => library.dump (pendingMembers e))

/-- A line of a file with a header; a line that is no object is left out. -/
def objectLine {α : Type} (entry : (String → Option JsonValue) → α) (line : Text) : Option α :=
  if line.isEmpty || line.head? = some '#' then none else (library.parse line).map entry

def registryLine (isJsonl : Bool) (line : Text) : Option DataVersion :=
  if isJsonl then objectLine library registryEntry line
  else if line.isEmpty || line.head? = some '#' then none
  else some (parseLegacyRegistryLine line)

def pendingLine (isJsonl : Bool) (line : Text) : Option PendingEntry :=
  if isJsonl then objectLine library pendingEntry line
  else if line.isEmpty then none
  else some (parseLegacyPendingLine line)

def loadRegistry (text : Text) : List DataVersion :=
  let read := readLines kRegistryHeader text
  read.1.filterMap (registryLine library read.2)

def loadPending (text : Text) : List PendingEntry :=
  let read := readLines kPendingHeader text
  read.1.filterMap (pendingLine library read.2)

/-! ## Reading back -/

def IsInt (n : Int) : Prop := -2 ^ 31 ≤ n ∧ n < 2 ^ 31

def IsLongLong (n : Int) : Prop := -2 ^ 63 ≤ n ∧ n < 2 ^ 63

/-- The numbers are of the types of their fields. -/
structure RegistryFits (dv : DataVersion) : Prop where
  numSamples : IsInt dv.numSamples
  segmentStart : IsInt dv.segmentStart
  segmentCount : IsInt dv.segmentCount

structure PendingFits (e : PendingEntry) : Prop where
  sizeBytes : e.sizeBytes < 2 ^ 64
  numEntries : IsInt e.numEntries
  segmentStart : IsInt e.segmentStart
  segmentCount : IsInt e.segmentCount
  claimedUnix : IsLongLong e.claimedUnix

theorem toInt_of_isInt {n : Int} (small : IsInt n) : toInt n = n :=
  Int.bmod_eq_of_le small.1 small.2

theorem isInt_toInt (n : Int) : IsInt (toInt n) :=
  ⟨Int.le_bmod (by decide), Int.bmod_lt (by decide)⟩

theorem toLongLong_of_isLongLong {n : Int} (small : IsLongLong n) : toLongLong n = n :=
  Int.bmod_eq_of_le small.1 small.2

theorem isLongLong_toLongLong (n : Int) : IsLongLong (toLongLong n) :=
  ⟨Int.le_bmod (by decide), Int.bmod_lt (by decide)⟩

theorem toSize_of_lt {n : Nat} (small : n < 2 ^ 64) : toSize n = n := by
  rw [toSize]
  omega

theorem toSize_lt (n : Int) : toSize n < 2 ^ 64 := by
  rw [toSize]
  omega

theorem isInt_default : IsInt (-1) := ⟨by decide, by decide⟩

theorem registryEntry_lookup {dv : DataVersion} (fits : RegistryFits dv) :
    registryEntry (findMember (registryMembers dv)) = dv := by
  simp [registryEntry, registryMembers, jsonStr, jsonBool, jsonNum, findMember, List.lookup_cons,
    toInt_of_isInt fits.numSamples, toInt_of_isInt fits.segmentStart,
    toInt_of_isInt fits.segmentCount]

theorem pendingEntry_lookup {e : PendingEntry} (fits : PendingFits e) :
    pendingEntry (findMember (pendingMembers e)) = e := by
  simp [pendingEntry, pendingMembers, jsonStr, jsonNum, findMember, List.lookup_cons,
    toSize_of_lt fits.sizeBytes, toInt_of_isInt fits.numEntries,
    toInt_of_isInt fits.segmentStart, toInt_of_isInt fits.segmentCount,
    toLongLong_of_isLongLong fits.claimedUnix]

theorem getlines_cons {line : Text} (oneLine : '\n' ∉ line) (rest : Text) :
    getlines (line ++ '\n' :: rest) = line :: getlines rest := by
  simp only [getlines, List.splitOn_append_cons_self_of_not_mem oneLine]
  cases parts : rest.splitOn '\n' with
  | nil => exact absurd parts (List.splitOn_ne_nil '\n' rest)
  | cons part parts =>
      simp only [List.getLast?_cons_cons, List.dropLast_cons_cons]
      split <;> rfl

/-- Lines without newlines are read back. -/
theorem getlines_fileText {lines : List Text} (oneLine : ∀ line ∈ lines, '\n' ∉ line) :
    getlines (fileText lines) = lines := by
  induction lines with
  | nil => rfl
  | cons line rest ih =>
      obtain ⟨first, others⟩ := List.forall_mem_cons.mp oneLine
      rw [fileText, List.flatMap_cons, List.append_assoc, List.singleton_append,
        getlines_cons first]
      exact congrArg (line :: ·) (ih others)

theorem readLines_fileText {header : Text} (whole : '\n' ∉ header) {lines : List Text}
    (oneLine : ∀ line ∈ lines, '\n' ∉ line) :
    readLines header (fileText (header :: lines)) = (lines, true) := by
  rw [readLines, getlines_fileText (List.forall_mem_cons.mpr ⟨whole, oneLine⟩)]
  exact if_pos rfl

variable {library}

theorem objectLine_dump {α : Type} (entry : (String → Option JsonValue) → α) {members : Members}
    (keeps : library.Keeps members) :
    objectLine library entry (library.dump members) = some (entry (findMember members)) := by
  obtain ⟨rest, brace⟩ := keeps.brace
  have parsed := keeps.parse_dump
  rw [brace] at parsed ⊢
  simp [objectLine, parsed]

theorem objectLine_damaged {α : Type} (entry : (String → Option JsonValue) → α) {line : Text}
    (damaged : library.parse line = none) : objectLine library entry line = none := by
  rw [objectLine, damaged]
  split <;> rfl

section Dumped

variable {α : Type} {members : α → Members} {entries : List α}
  (keeps : ∀ e ∈ entries, library.Keeps (members e))
include keeps

theorem dumped_oneLine : ∀ line ∈ entries.map fun e => library.dump (members e), '\n' ∉ line := by
  intro line member
  obtain ⟨e, listed, rfl⟩ := List.mem_map.mp member
  exact (keeps e listed).oneLine

theorem filterMap_dumped {entry : (String → Option JsonValue) → α}
    (same : ∀ e ∈ entries, entry (findMember (members e)) = e) :
    (entries.map fun e => library.dump (members e)).filterMap (objectLine library entry) =
      entries := by
  rw [List.filterMap_map]
  refine (List.filterMap_congr fun e listed => ?_).trans List.filterMap_some
  exact (objectLine_dump entry (keeps e listed)).trans (congrArg some (same e listed))

end Dumped

theorem loadRegistry_fileText {lines : List Text} (oneLine : ∀ line ∈ lines, '\n' ∉ line) :
    loadRegistry library (fileText (kRegistryHeader :: lines)) =
      lines.filterMap (objectLine library registryEntry) := by
  rw [loadRegistry, readLines_fileText (by decide) oneLine]
  rfl

theorem loadPending_fileText {lines : List Text} (oneLine : ∀ line ∈ lines, '\n' ∉ line) :
    loadPending library (fileText (kPendingHeader :: lines)) =
      lines.filterMap (objectLine library pendingEntry) := by
  rw [loadPending, readLines_fileText (by decide) oneLine]
  rfl

variable (library) in
/-- An entry that a save can write. -/
def RegistryKept (dv : DataVersion) : Prop := RegistryFits dv ∧ library.Keeps (registryMembers dv)

variable (library) in
def PendingKept (e : PendingEntry) : Prop := PendingFits e ∧ library.Keeps (pendingMembers e)

theorem loadRegistry_registryText {entries : List DataVersion}
    (kept : ∀ dv ∈ entries, RegistryKept library dv) :
    loadRegistry library (registryText library entries) = entries := by
  have keeps := fun dv listed => (kept dv listed).2
  rw [registryText, loadRegistry_fileText (dumped_oneLine keeps)]
  exact filterMap_dumped keeps fun dv listed => registryEntry_lookup (kept dv listed).1

theorem loadPending_pendingText {entries : List PendingEntry}
    (kept : ∀ e ∈ entries, PendingKept library e) :
    loadPending library (pendingText library entries) = entries := by
  have keeps := fun e listed => (kept e listed).2
  rw [pendingText, loadPending_fileText (dumped_oneLine keeps)]
  exact filterMap_dumped keeps fun e listed => pendingEntry_lookup (kept e listed).1

/-! ## Whatever text is loaded -/

theorem isInt_jsonNum (find : String → Option JsonValue) (key : String) {fallback : Int}
    (small : IsInt fallback) : IsInt (jsonNum toInt find key fallback) := by
  rw [jsonNum]
  split
  · exact isInt_toInt _
  · exact small

theorem isInt_extractInt (stream : Option Text) : IsInt (extractInt stream).1 := by
  rw [extractInt]
  split
  · exact ⟨by decide, by decide⟩
  · split
    · exact ⟨by decide, by decide⟩
    · split
      · exact ⟨by decide, by decide⟩
      · exact ⟨by omega, by omega⟩

theorem registryEntry_fits (find : String → Option JsonValue) :
    RegistryFits (registryEntry find) :=
  ⟨isInt_jsonNum find _ ⟨by decide, by decide⟩, isInt_jsonNum find _ isInt_default,
    isInt_jsonNum find _ isInt_default⟩

theorem pendingEntry_fits (find : String → Option JsonValue) : PendingFits (pendingEntry find) := by
  refine ⟨?_, isInt_jsonNum find _ isInt_default, isInt_jsonNum find _ isInt_default,
    isInt_jsonNum find _ isInt_default, ?_⟩
  · change jsonNum toSize find "size_bytes" 0 < 2 ^ 64
    rw [jsonNum]
    split
    · exact toSize_lt _
    · decide
  · change IsLongLong (jsonNum toLongLong find "claimed_unix" 0)
    rw [jsonNum]
    split
    · exact isLongLong_toLongLong _
    · exact ⟨by decide, by decide⟩

theorem parseLegacyRegistryLine_fits (line : Text) :
    RegistryFits (parseLegacyRegistryLine line) := by
  have optional {n : Int} (small : IsInt n) (there : Bool) :
      IsInt (if there then n else -1) := by
    cases there
    · exact isInt_default
    · exact small
  exact ⟨isInt_extractInt _, optional (isInt_extractInt _) _, optional (isInt_extractInt _) _⟩

/-- A column holds what it was converted to, or its default. -/
theorem column_cases {α : Type} (Fits : α → Prop) {convert : Text → Option α}
    (converted : ∀ text value, convert text = some value → Fits value) {default : α}
    (absent : Fits default) (columns : List Text) (i : Nat) :
    Fits (column convert columns i default) := by
  rw [column]
  split
  · exact absent
  · rename_i text _
    split
    · exact absent
    · cases found : convert text with
      | none => exact absent
      | some value => exact converted text value found

theorem stringToSigned_fits {bits : Nat} {text : Text} {value : Int}
    (found : stringToSigned bits text = some value) :
    -2 ^ (bits - 1) ≤ value ∧ value < 2 ^ (bits - 1) := by
  obtain ⟨number, -, taken⟩ := Option.bind_eq_some_iff.mp found
  obtain ⟨small, taken⟩ := Option.ite_none_right_eq_some.mp taken
  exact Option.some.inj taken ▸ small

theorem stoull_lt {text : Text} {value : Nat} (found : stoull text = some value) :
    value < 2 ^ 64 := by
  obtain ⟨number, -, taken⟩ := Option.bind_eq_some_iff.mp found
  obtain ⟨-, taken⟩ := Option.ite_none_right_eq_some.mp taken
  exact Option.some.inj taken ▸ toSize_lt _

theorem parseLegacyPendingLine_fits (line : Text) : PendingFits (parseLegacyPendingLine line) := by
  have int (i : Nat) : IsInt (column (stringToSigned 32) (line.splitOn '\t') i (-1)) :=
    column_cases IsInt (fun _ _ found => @stringToSigned_fits 32 _ _ found) isInt_default _ i
  refine ⟨?_, int 6, int 8, int 9, ?_⟩
  · exact column_cases (fun n => n < 2 ^ 64) (fun _ _ found => stoull_lt found)
      (by decide) _ 5
  · exact column_cases IsLongLong (fun _ _ found => @stringToSigned_fits 64 _ _ found)
      ⟨by decide, by decide⟩ _ 10

theorem of_objectLine {α : Type} {entry : (String → Option JsonValue) → α} {line : Text} {e : α}
    (read : objectLine library entry line = some e) : ∃ find, entry find = e := by
  rw [objectLine] at read
  split at read
  · cases read
  · obtain ⟨find, -, same⟩ := Option.map_eq_some_iff.mp read
    exact ⟨find, same⟩

theorem loadRegistry_fits {text : Text} {dv : DataVersion}
    (loaded : dv ∈ loadRegistry library text) : RegistryFits dv := by
  obtain ⟨line, -, read⟩ := List.mem_filterMap.mp loaded
  rw [registryLine] at read
  split at read
  · obtain ⟨find, rfl⟩ := of_objectLine read
    exact registryEntry_fits find
  · split at read
    · cases read
    · exact Option.some.inj read ▸ parseLegacyRegistryLine_fits line

theorem loadPending_fits {text : Text} {e : PendingEntry}
    (loaded : e ∈ loadPending library text) : PendingFits e := by
  obtain ⟨line, -, read⟩ := List.mem_filterMap.mp loaded
  rw [pendingLine] at read
  split at read
  · obtain ⟨find, rfl⟩ := of_objectLine read
    exact pendingEntry_fits find
  · split at read
    · cases read
    · exact Option.some.inj read ▸ parseLegacyPendingLine_fits line

end Library

/-! ## Saves -/

section Saves

variable (library : JsonLibrary) (registryPath pendingPath : String)

/-- A list that is saved. -/
inductive Save
  | registry (entries : List DataVersion)
  | pending (entries : List PendingEntry)

def Save.Kept : Save → Prop
  | .registry entries => ∀ dv ∈ entries, RegistryKept library dv
  | .pending entries => ∀ e ∈ entries, PendingKept library e

/-- The file that is replaced, and by what. -/
def Save.call : Save → String × Text
  | .registry entries => (registryPath, registryText library entries)
  | .pending entries => (pendingPath, pendingText library entries)

def Save.apply (d : Disk) : Save → Disk
  | .registry entries => d.saveRegistry true entries
  | .pending entries => d.savePending true entries

/-- The texts that are saved under a name. -/
def SavedText (name : String) (data : Text) : Prop :=
  ∃ save : Save, save.Kept library ∧ save.call library registryPath pendingPath = (name, data)

/-- What is loaded of two files. A file that is missing is an empty list. -/
def loadDisk (read : String → Option Text) : Disk where
  registry := ((read registryPath).map (loadRegistry library)).getD []
  pending := ((read pendingPath).map (loadPending library)).getD []

variable {library registryPath pendingPath}

theorem loadDisk_put (apart : registryPath ≠ pendingPath) {save : Save} (kept : save.Kept library)
    (read : String → Option Text) :
    loadDisk library registryPath pendingPath
        (AtomicReplace.put read (save.call library registryPath pendingPath)) =
      save.apply (loadDisk library registryPath pendingPath read) := by
  cases save with
  | registry entries =>
      simp [loadDisk, AtomicReplace.put, Save.call, Save.apply, Disk.saveRegistry, apart.symm,
        loadRegistry_registryText kept]
  | pending entries =>
      simp [loadDisk, AtomicReplace.put, Save.call, Save.apply, Disk.savePending, apart,
        loadPending_pendingText kept]

theorem loadDisk_held (apart : registryPath ≠ pendingPath) {saves : List Save}
    (kept : ∀ save ∈ saves, save.Kept library) (read : String → Option Text) :
    loadDisk library registryPath pendingPath
        (AtomicReplace.held read (saves.map (Save.call library registryPath pendingPath))) =
      saves.foldl Save.apply (loadDisk library registryPath pendingPath read) := by
  induction saves generalizing read with
  | nil => rfl
  | cons save saves ih =>
      obtain ⟨first, rest⟩ := List.forall_mem_cons.mp kept
      rw [List.foldl_cons, ← loadDisk_put apart first]
      exact ih rest _

theorem isTarget_iff {name : String} :
    AtomicReplace.IsTarget (SavedText library registryPath pendingPath) name ↔
      name = registryPath ∨ name = pendingPath := by
  constructor
  · rintro ⟨data, save, -, same⟩
    cases save with
    | registry entries => exact .inl (congrArg Prod.fst same).symm
    | pending entries => exact .inr (congrArg Prod.fst same).symm
  · rintro (rfl | rfl)
    · exact ⟨_, .registry [], List.forall_mem_nil _, rfl⟩
    · exact ⟨_, .pending [], List.forall_mem_nil _, rfl⟩

/-- What replaced the files were saves. -/
theorem exists_saves {replaced : List (String × Text)}
    (saved : ∀ call ∈ replaced, SavedText library registryPath pendingPath call.1 call.2) :
    ∃ saves : List Save, (∀ save ∈ saves, save.Kept library) ∧
      saves.map (Save.call library registryPath pendingPath) = replaced := by
  induction replaced with
  | nil => exact ⟨[], List.forall_mem_nil _, rfl⟩
  | cons call replaced ih =>
      obtain ⟨⟨save, kept, same⟩, rest⟩ := List.forall_mem_cons.mp saved
      obtain ⟨saves, others, rfl⟩ := ih rest
      exact ⟨save :: saves, List.forall_mem_cons.mpr ⟨kept, others⟩,
        congrArg (· :: saves.map _) same⟩

end Saves

end Adai.Registry.TextFiles

namespace Adai.Registry

open TransitionSystem AtomicReplace TextFiles

def oneEntry : DataVersion := { dataFile := "a.jsonl" }

/-- The library on that entry. -/
def oneLibrary : JsonLibrary where
  dump _ := '{' ::
    ("\"added_utc\":\"\",\"checksum\":\"\",\"data_file\":\"a.jsonl\",\"model_id\":\"\"," ++
      "\"num_samples\":0,\"segment_count\":-1,\"segment_start\":-1,\"source\":\"\"," ++
      "\"trained\":false\x7d").toList
  parse _ := some (findMember (registryMembers oneEntry))

theorem oneEntry_kept : ∀ dv ∈ [oneEntry], RegistryKept oneLibrary dv := by
  have keeps : oneLibrary.Keeps (registryMembers oneEntry) := ⟨rfl, by decide +kernel, _, rfl⟩
  intro dv member
  rw [List.mem_singleton.mp member]
  exact ⟨⟨⟨by decide, by decide⟩, isInt_default, isInt_default⟩, keeps⟩

variable {library : JsonLibrary} {registryPath pendingPath : String}
  {first last : FileSystem String Char} {labels : List (Label String Char)}

/-- **Saves.** From a directory that is on the disk, whatever processes save the two files, at
the same time or one after another, and wherever they fail, die or lose power: what is loaded
at the end is what was loaded at the beginning with some of the saves that were renamed into
place on top, in their order, and without a loss of power all of them. A process that has a
file open reads it to its end as it was. -/
theorem files_follow_saves (apart : registryPath ≠ pendingPath)
    (sound : Sound (SavedText library registryPath pendingPath) first)
    (settled : first.changes = [])
    (run : Run (Step (SavedText library registryPath pendingPath)) first labels last) :
    Sound (SavedText library registryPath pendingPath) last ∧
      (∃ renamed survived : List Save,
        last.replaced =
          first.replaced ++ renamed.map (Save.call library registryPath pendingPath) ∧
        survived.Sublist renamed ∧
        ((∀ label ∈ labels, label.isLoss = false) → survived = renamed) ∧
        loadDisk library registryPath pendingPath last.read =
          survived.foldl Save.apply (loadDisk library registryPath pendingPath first.read)) ∧
      ∀ name file, name = registryPath ∨ name = pendingPath → first.view name = some file →
        last.files file = first.files file := by
  obtain ⟨sound', replaced, survived, renamed, saved, fewer, all, read⟩ :=
    read_of_run sound settled run
  obtain ⟨saves, kept, rfl⟩ := exists_saves saved
  obtain ⟨some_, sub, rfl⟩ := List.sublist_map_iff.mp fewer
  refine ⟨sound', ⟨saves, some_, renamed, sub, fun lossless => ?_, ?_⟩, ?_⟩
  · apply sub.eq_of_length
    rw [← List.length_map (Save.call library registryPath pendingPath), all lossless,
      List.length_map]
  · rw [← loadDisk_held apart fun save member => kept save (sub.subset member), loadDisk, loadDisk,
      read registryPath (isTarget_iff.mpr (.inl rfl)),
      read pendingPath (isTarget_iff.mpr (.inr rfl))]
  · intro name file target opened
    exact opened_of_run sound run (isTarget_iff.mpr target) opened

/-- Power is lost behind a save, with its change of the directory kept. -/
theorem files_follow_saves_lost :
    ∃ last : FileSystem String Char, ∃ renamed survived : List Save,
      last.replaced = [] ++ renamed.map (Save.call oneLibrary "registry" "pending") ∧
      survived.Sublist renamed ∧
      loadDisk oneLibrary "registry" "pending" last.read = survived.foldl Save.apply ⟨[], []⟩ := by
  have proper : Label.Proper (SavedText oneLibrary "registry" "pending") (.create 0 "registry"
      "registry.tmp-0a1b2c3d4e5f" (registryText oneLibrary [oneEntry])) := by
    refine ⟨⟨.registry [oneEntry], oneEntry_kept, rfl⟩, fun target => ?_⟩
    rcases isTarget_iff.mp target with same | same <;> exact absurd same (by decide)
  obtain ⟨-, ⟨renamed, survived, replaced, fewer, -, loaded⟩, -⟩ :=
    @files_follow_saves oneLibrary "registry" "pending" FileSystem.empty _
      [_, .flush 0, .rename 0, .losePower [true, true] fun _ => []] (by decide) (sound_empty _) rfl
      (.cons ⟨proper, rfl⟩ (.cons ⟨trivial, rfl⟩ (.cons ⟨trivial, rfl⟩
        (.cons ⟨trivial, rfl⟩ (.refl _)))))
  exact ⟨_, renamed, survived, replaced, fewer, loaded⟩

end Adai.Registry

