import Mathlib.Data.List.Infix
import Adai.Math.FirstOccurrence
import Adai.ModelNames.ModelNameService
import Adai.Parquet.RowText

/-! # The text of a model record

A record is kept as compact JSON that is written and read by hand. A string is found by
the first place where its key stands in quotes before a colon and a quote; a backslash
takes the next byte with it. A map of strings is read pair by pair.
-/

namespace Adai.ModelNames.Stored

open FirstOccurrence
open Tokenizer (Bytes ascii)

/-! ## Maps of strings -/

/-- A map of strings in the order of its keys, bytes as unsigned. -/
structure StringMap where
  entries : List (Bytes × Bytes)
  sorted : entries.Pairwise fun a b => a.1 < b.1
  deriving DecidableEq

namespace StringMap

def empty : StringMap := ⟨[], .nil⟩

def insertEntry (key value : Bytes) : List (Bytes × Bytes) → List (Bytes × Bytes)
  | [] => [(key, value)]
  | entry :: rest =>
      if key < entry.1 then (key, value) :: entry :: rest
      else if key = entry.1 then (key, value) :: rest
      else entry :: insertEntry key value rest

theorem mem_insertEntry {key value : Bytes} {entries : List (Bytes × Bytes)} {e : Bytes × Bytes}
    (member : e ∈ insertEntry key value entries) : e = (key, value) ∨ e ∈ entries := by
  induction entries with
  | nil => exact .inl (List.mem_singleton.mp member)
  | cons entry rest ih =>
      unfold insertEntry at member
      split at member
      · exact List.mem_cons.mp member
      · split at member
        · rcases List.mem_cons.mp member with new | later
          · exact .inl new
          · exact .inr (List.mem_cons_of_mem _ later)
        · rcases List.mem_cons.mp member with rfl | later
          · exact .inr List.mem_cons_self
          · exact (ih later).imp_right (List.mem_cons_of_mem _)

theorem sorted_insertEntry {entries : List (Bytes × Bytes)} (key value : Bytes)
    (sorted : entries.Pairwise fun a b => a.1 < b.1) :
    (insertEntry key value entries).Pairwise fun a b => a.1 < b.1 := by
  induction entries with
  | nil => exact List.pairwise_singleton ..
  | cons entry rest ih =>
      obtain ⟨below, later⟩ := List.pairwise_cons.mp sorted
      unfold insertEntry
      split
      · rename_i less
        refine List.pairwise_cons.mpr ⟨fun e member => ?_, sorted⟩
        rcases List.mem_cons.mp member with rfl | member
        · exact less
        · exact List.lt_trans less (below e member)
      · split
        · rename_i same
          exact List.pairwise_cons.mpr ⟨fun e member => same ▸ below e member, later⟩
        · rename_i notLess other
          refine List.pairwise_cons.mpr ⟨fun e member => ?_, ih later⟩
          rcases mem_insertEntry member with rfl | member
          · rcases Std.lt_trichotomy key entry.1 with less | same | more
            · exact absurd less notLess
            · exact absurd same other
            · exact more
          · exact below e member

/-- `m[key] = value`. -/
def insert (m : StringMap) (key value : Bytes) : StringMap :=
  ⟨insertEntry key value m.entries, sorted_insertEntry key value m.sorted⟩

theorem insertEntry_append {key : Bytes} (value : Bytes) {entries : List (Bytes × Bytes)}
    (last : ∀ e ∈ entries, e.1 < key) :
    insertEntry key value entries = entries ++ [(key, value)] := by
  induction entries with
  | nil => rfl
  | cons entry rest ih =>
      have below := last entry List.mem_cons_self
      have other : ¬key = entry.1 := fun same => List.lt_irrefl key (same ▸ below)
      rw [insertEntry, if_neg (List.lt_asymm below), if_neg other,
        ih fun e member => last e (List.mem_cons_of_mem _ member), List.cons_append]

end StringMap

/-! ## Writing -/

/-- The same escapes as in the rows of a converted file. -/
def jsonEscape (s : Bytes) : Bytes := Parquet.jsonEscape s

/-- A string value under its key. -/
def stringMember (key value : Bytes) : Bytes :=
  0x22 :: (key ++ [0x22, 0x3A, 0x22] ++ jsonEscape value ++ [0x22])

def tagsToJson (tags : StringMap) : Bytes :=
  0x7B :: ([0x2C].intercalate (tags.entries.map fun e => stringMember (jsonEscape e.1) e.2) ++
    [0x7D])

structure ArtifactLocation where
  host : Bytes := []
  path : Bytes := []
  checksum : Bytes := []
  format : Bytes := ascii "adai-native"
  deriving DecidableEq, Repr

def serializeArtifact (a : ArtifactLocation) : Bytes :=
  0x7B :: ([0x2C].intercalate [stringMember (ascii "host") a.host,
    stringMember (ascii "path") a.path, stringMember (ascii "checksum") a.checksum,
    stringMember (ascii "format") a.format] ++ [0x7D])

/-! ## Reading -/

/-- What stands before the closing quote, and what follows it; a backslash stands for what
`unescape` makes of the next byte. -/
def readQuoted (unescape : UInt8 → UInt8) : Bytes → Bytes × Bytes
  | [] => ([], [])
  | [c] => if c = 0x22 then ([], []) else ([c], [])
  | c :: next :: rest =>
      if c = 0x22 then ([], next :: rest)
      else if c = 0x5C then
        let (text, after) := readQuoted unescape rest
        (unescape next :: text, after)
      else
        let (text, after) := readQuoted unescape (next :: rest)
        (c :: text, after)

def unescapeByte (c : UInt8) : UInt8 :=
  if c = 0x6E then 0x0A else if c = 0x72 then 0x0D else if c = 0x74 then 0x09 else c

/-- What is looked for when a value is read: its key in quotes, a colon and what the value
starts with. -/
def needle (key start : Bytes) : Bytes := 0x22 :: (key ++ [0x22, 0x3A] ++ start)

/-- The string under the first such key, or nothing. -/
def jsonString (body key : Bytes) : Bytes :=
  match after (needle key [0x22]) body with
  | none => []
  | some value => (readQuoted unescapeByte value).1

/-- The pairs of a map; `fuel` is the number of bytes left. A pair without a key is
dropped. -/
def readPairs : Nat → Bytes → StringMap → StringMap
  | 0, _, m => m
  | fuel + 1, s, m =>
      match s.dropWhile fun c => c == 0x2C || c == 0x20 with
      | [] => m
      | c :: rest =>
          if c = 0x7D then m
          else if c ≠ 0x22 then readPairs fuel rest m
          else
            let (key, behind) := readQuoted id rest
            match behind.dropWhile fun c => c != 0x22 with
            | [] => m
            | _ :: value =>
                let (text, more) := readQuoted id value
                readPairs fuel more (if key = [] then m else m.insert key text)

def parseStringMap (obj : Bytes) : StringMap :=
  let inside := (obj.dropWhile fun c => c != 0x7B).drop 1
  readPairs inside.length inside .empty

def parseArtifact (obj : Bytes) : ArtifactLocation :=
  let format := jsonString obj (ascii "format")
  { host := jsonString obj (ascii "host")
    path := jsonString obj (ascii "path")
    checksum := jsonString obj (ascii "checksum")
    format := if format = [] then ascii "adai-native" else format }

/-! ## Numbers and nested values -/

section Readers

-- how `std::stod` reads a text, none where it throws
variable (stod : Bytes → Option Double)

def jsonInt (body key : Bytes) : Int :=
  match after (needle key []) body with
  | none => 0
  | some value => (Tokenizer.stoi value).toOption.getD 0

def jsonDouble (body key : Bytes) : Double :=
  match after (needle key []) body with
  | none => 0
  | some value => (stod value).getD 0

def jsonBool (body key : Bytes) : Bool :=
  match after (needle key []) body with
  | none => false
  | some value => decide (ascii "true" <+: value)

/-- The text up to the bracket that closes the first one; brackets in strings do not
count. -/
def balancedText (opening closing : UInt8) : Bool → Nat → Bytes → Option Bytes
  | _, _, [] => none
  | true, _, [_] => none
  | true, depth, c :: next :: rest =>
      if c = 0x5C then (balancedText opening closing true depth rest).map (c :: next :: ·)
      else (balancedText opening closing (c != 0x22) depth (next :: rest)).map (c :: ·)
  | false, depth, c :: rest =>
      if c = 0x22 then (balancedText opening closing true depth rest).map (c :: ·)
      else if c = opening then (balancedText opening closing false (depth + 1) rest).map (c :: ·)
      else if c = closing then
        if depth = 1 then some [c]
        else (balancedText opening closing false (depth - 1) rest).map (c :: ·)
      else (balancedText opening closing false depth rest).map (c :: ·)

def extractObject (s key : Bytes) : Bytes :=
  match after (needle key [0x7B]) s with
  | none => ascii "\x7b\x7d"
  | some inside => (balancedText 0x7B 0x7D false 0 (0x7B :: inside)).getD (ascii "\x7b\x7d")

def extractArray (s key : Bytes) : Bytes :=
  match after (needle key [0x5B]) s with
  | none => ascii "[]"
  | some inside => (balancedText 0x5B 0x5D false 0 (0x5B :: inside)).getD (ascii "[]")

/-- The objects of an array; `fuel` is the number of bytes left. -/
def splitObjects : Nat → Bytes → List Bytes
  | 0, _ => []
  | fuel + 1, s =>
      let rest := s.dropWhile fun c => c != 0x7B
      match balancedText 0x7B 0x7D false 0 rest with
      | none => []
      | some object => object :: splitObjects fuel (rest.drop object.length)

def splitArrayObjects (array : Bytes) : List Bytes := splitObjects array.length array

/-! ## Records -/

structure TrainingHistoryEntry where
  runId : Bytes
  metricsSessionKey : Bytes
  datasetGroup : Bytes
  epochs : Int
  finalLoss : Double
  startedUtc : Bytes
  finishedUtc : Bytes
  incomplete : Bool
  deriving DecidableEq, Repr

/-- The fields of a record that are read from a line; kind and connection are not. -/
structure ModelRecord where
  modelId : Bytes
  modelName : Bytes
  role : Bytes
  runGroup : Bytes
  state : Bytes
  runId : Bytes
  createdUtc : Bytes
  updatedUtc : Bytes
  artifact : ArtifactLocation
  arch : ModelArchitecture
  currentRunNumber : Int
  runStartedUtc : Bytes
  progressSessionId : Bytes
  progressEpoch : Int
  progressLoss : Double
  progressBestLoss : Double
  progressUpdatedUtc : Bytes
  trainingHistory : List TrainingHistoryEntry
  tags : StringMap
  deriving DecidableEq

def parseHistoryEntry (obj : Bytes) : TrainingHistoryEntry where
  runId := jsonString obj (ascii "run_id")
  metricsSessionKey := jsonString obj (ascii "metrics_session_key")
  datasetGroup := jsonString obj (ascii "dataset_group")
  epochs := jsonInt obj (ascii "epochs")
  finalLoss := jsonDouble stod obj (ascii "final_loss")
  startedUtc := jsonString obj (ascii "started_utc")
  finishedUtc := jsonString obj (ascii "finished_utc")
  incomplete := jsonBool obj (ascii "incomplete")

def parseRecord (line : Bytes) : ModelRecord :=
  let state := jsonString line (ascii "state")
  let arch := extractObject line (ascii "arch")
  let progress := extractObject line (ascii "progress")
  { modelId := jsonString line (ascii "model_id")
    modelName := jsonString line (ascii "model_name")
    role := jsonString line (ascii "role")
    runGroup := jsonString line (ascii "run_group")
    state := if state = [] then ascii "initializing" else state
    runId := jsonString line (ascii "run_id")
    createdUtc := jsonString line (ascii "created_utc")
    updatedUtc := jsonString line (ascii "updated_utc")
    artifact := parseArtifact (extractObject line (ascii "artifact"))
    arch :=
      { dModel := sizeOfInt (jsonInt arch (ascii "d_model"))
        numHeads := sizeOfInt (jsonInt arch (ascii "num_heads"))
        dFf := sizeOfInt (jsonInt arch (ascii "d_ff"))
        numEncoderLayers := sizeOfInt (jsonInt arch (ascii "num_encoder_layers"))
        numDecoderLayers := sizeOfInt (jsonInt arch (ascii "num_decoder_layers"))
        maxSeqLength := sizeOfInt (jsonInt arch (ascii "max_seq_length")) }
    currentRunNumber := jsonInt line (ascii "current_run_number")
    runStartedUtc := jsonString line (ascii "run_started_utc")
    progressSessionId := jsonString progress (ascii "session_id")
    progressEpoch := jsonInt progress (ascii "epoch")
    progressLoss := jsonDouble stod progress (ascii "loss")
    progressBestLoss := jsonDouble stod progress (ascii "best_loss")
    progressUpdatedUtc := jsonString progress (ascii "updated_utc")
    trainingHistory := (splitArrayObjects (extractArray line (ascii "training_history"))).map
      (parseHistoryEntry stod)
    tags := parseStringMap (extractObject line (ascii "tags")) }

end Readers

end Adai.ModelNames.Stored
