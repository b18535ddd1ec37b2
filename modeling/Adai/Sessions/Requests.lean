import Mathlib.Data.Rat.Init
import Adai.Tokenizer.VocabText

/-! # The chatbot's request bodies

A body is a JSON object whose fields are absent, null or of one type. The generation
settings of a request replace the server's defaults, each after a check of its range.
The JSON parser, and rounding to a `float`, are parameters.
-/

namespace Adai.Sessions

open Tokenizer

inductive Json
  | null
  | boolean (value : Bool)
  | integer (value : Int)
  | real (value : Rat)
  | string (text : Bytes)
  | array (elements : List Json)
  | object (members : List (Bytes × Json))

/-- What a handler throws: a route answers 400, 413, 404 or 500. -/
inductive ApiError
  | badRequest (text : Bytes)
  | batchTooLarge (text : Bytes)
  | sessionNotFound
  | failed (text : Bytes)
  deriving DecidableEq, Repr

structure GenerationConfig where
  maxLength : Nat := 100
  temperature : Rat := 1
  /-- The `float` next to 0.9. -/
  topP : Rat := 15099494 / 16777216
  topK : Nat := 50
  strategy : Bytes := ascii "nucleus"
  beamWidth : Nat := 4
  deriving DecidableEq

/-- The parser of the bodies and the rounding of their numbers. -/
structure Reading where
  parse : Bytes → Option Json
  toFloat : Rat → Rat

abbrev Fields := List (Bytes × Json)

/-! ## Fields -/

def parseRequest (parse : Bytes → Option Json) (body : Bytes) : Except ApiError Fields :=
  match parse body with
  | some (.object members) => .ok members
  | _ => .error (.badRequest (ascii "Request body must be a JSON object"))

/-- A field that is there and not null. -/
def present (request : Fields) (key : Bytes) : Option Json :=
  match request.lookup key with
  | none => none
  | some .null => none
  | some value => some value

def quoted (key : Bytes) : Bytes := ascii "'" ++ key ++ ascii "'"

/-- Empty when the field is absent. -/
def stringField (request : Fields) (key : Bytes) : Except ApiError Bytes :=
  match present request key with
  | none => .ok []
  | some (.string text) => .ok text
  | some _ => .error (.badRequest (quoted key ++ ascii " must be a string"))

def stringElement : Json → Option Bytes
  | .string text => some text
  | _ => none

/-- Empty when the field is absent. -/
def stringArrayField (request : Fields) (key : Bytes) : Except ApiError (List Bytes) :=
  let error := ApiError.badRequest (quoted key ++ ascii " must be an array of strings")
  match present request key with
  | none => .ok []
  | some (.array elements) =>
      match elements.mapM stringElement with
      | some texts => .ok texts
      | none => .error error
  | some _ => .error error

/-! ## Generation settings -/

def kMinMaxLength : Nat := 1
def kMaxMaxLength : Nat := 4096
def kMinTemperature : Rat := 0
def kMaxTemperature : Rat := 2
def kMinTopP : Rat := 0
def kMaxTopP : Rat := 1
def kMinTopK : Nat := 1
def kMaxTopK : Nat := 1000
def kMinBeamWidth : Nat := 1
def kMaxBeamWidth : Nat := 16

/-- A whole number within its range; the default when the field is absent. -/
def whole (request : Fields) (key : Bytes) (min max : Nat) (default : Nat) :
    Except ApiError Nat :=
  let error := ApiError.badRequest (quoted key ++ ascii " must be a whole number from " ++
    digits min ++ ascii " to " ++ digits max)
  match present request key with
  | none => .ok default
  | some (.integer value) =>
      if value < min ∨ value > max then .error error else .ok value.toNat
  | some _ => .error error

/-- A number within its range; the default when the field is absent. -/
def real (toFloat : Rat → Rat) (request : Fields) (key : Bytes) (min max : Rat) (range : Bytes)
    (default : Rat) : Except ApiError Rat :=
  let error := ApiError.badRequest (quoted key ++ ascii " must be a number from " ++ range)
  let checked (value : Rat) : Except ApiError Rat :=
    if value ≥ min ∧ value ≤ max then .ok (toFloat value) else .error error
  match present request key with
  | none => .ok default
  | some (.integer value) => checked value
  | some (.real value) => checked value
  | some _ => .error error

def generationStrategyNames : List Bytes :=
  [ascii "greedy", ascii "beam", ascii "temperature", ascii "top_k", ascii "nucleus"]

def toLower (c : UInt8) : UInt8 := if 0x41 ≤ c ∧ c ≤ 0x5A then c + 0x20 else c

/-- The server's name for a strategy, in any case or by an old name; empty for no strategy. -/
def canonicalGenerationStrategy (name : Bytes) : Bytes :=
  let lower := name.map toLower
  if lower ∈ generationStrategyNames then lower
  else if lower = ascii "sampling" then ascii "temperature"
  else if lower = ascii "top-k" ∨ lower = ascii "topk" then ascii "top_k"
  else if lower = ascii "top_p" ∨ lower = ascii "top-p" then ascii "nucleus"
  else []

def strategySetting (request : Fields) (default : Bytes) : Except ApiError Bytes :=
  match present request (ascii "strategy") with
  | none => .ok default
  | some value =>
      let strategy := ((stringElement value).map canonicalGenerationStrategy).getD []
      if strategy = [] then
        .error (.badRequest
          (ascii "'strategy' must be one of greedy, beam, temperature, top_k, nucleus"))
      else .ok strategy

def applyGenerationSettings (toFloat : Rat → Rat) (request : Fields) (config : GenerationConfig) :
    Except ApiError GenerationConfig := do
  let maxLength ← whole request (ascii "max_length") kMinMaxLength kMaxMaxLength config.maxLength
  let temperature ← real toFloat request (ascii "temperature") kMinTemperature kMaxTemperature
    (ascii "0 to 2") config.temperature
  let topP ← real toFloat request (ascii "top_p") kMinTopP kMaxTopP (ascii "0 to 1") config.topP
  let topK ← whole request (ascii "top_k") kMinTopK kMaxTopK config.topK
  let beamWidth ← whole request (ascii "beam_width") kMinBeamWidth kMaxBeamWidth config.beamWidth
  let strategy ← strategySetting request config.strategy
  return { maxLength, temperature, topP, topK, strategy, beamWidth }

/-! ## Requests -/

structure ChatRequest where
  sessionId : Bytes
  message : Bytes
  config : GenerationConfig
  deriving DecidableEq

structure ImportRequest where
  sessionId : Bytes
  data : Bytes
  deriving DecidableEq, Repr

/-- The turns of a batch: the session named, or none, and the message. -/
structure BatchRequest where
  turns : List (Bytes × Bytes)
  config : GenerationConfig
  deriving DecidableEq

def kMaxImportBytes : Nat := 1048576

section Read

variable (reading : Reading) (defaults : GenerationConfig) (body : Bytes)

def missing (field : String) : ApiError :=
  .badRequest (ascii "Missing '" ++ ascii field ++ ascii "' field in request")

def readChat : Except ApiError ChatRequest := do
  let request ← parseRequest reading.parse body
  let sessionId ← stringField request (ascii "session_id")
  let message ← stringField request (ascii "message")
  if message = [] then throw (missing "message")
  let config ← applyGenerationSettings reading.toFloat request defaults
  return { sessionId, message, config }

def readClear : Except ApiError Bytes := do
  let request ← parseRequest reading.parse body
  let sessionId ← stringField request (ascii "session_id")
  if sessionId = [] then throw (missing "session_id")
  return sessionId

def readImport : Except ApiError ImportRequest := do
  let request ← parseRequest reading.parse body
  let sessionId ← stringField request (ascii "session_id")
  let data ← stringField request (ascii "data")
  if data = [] then throw (missing "data")
  if data.length > kMaxImportBytes then
    throw (.badRequest (ascii "'data' is " ++ digits data.length ++
      ascii " bytes; imports are limited to " ++ digits kMaxImportBytes))
  return { sessionId, data }

/-- Sessions that are not named, or not as many as there are messages, are all new. -/
def sessionsFor (messages sessionIds : List Bytes) : List Bytes :=
  if sessionIds = [] ∨ sessionIds.length ≠ messages.length then messages.map fun _ => []
  else sessionIds

def checkBatchSize (limit messages : Nat) : Except ApiError Unit :=
  if messages > limit then
    .error (.batchTooLarge (ascii "batch has " ++ digits messages ++
      ascii " messages; the limit is " ++ digits limit))
  else .ok ()

def readBatch (maxBatchSize : Nat) : Except ApiError BatchRequest := do
  let request ← parseRequest reading.parse body
  let messages ← stringArrayField request (ascii "messages")
  let sessionIds ← stringArrayField request (ascii "session_ids")
  if messages = [] then
    throw (.badRequest (ascii "Missing or empty 'messages' array in request"))
  checkBatchSize maxBatchSize messages.length
  let config ← applyGenerationSettings reading.toFloat request defaults
  return { turns := (sessionsFor messages sessionIds).zip messages, config }

end Read

/-! ## Requests are refused for themselves -/

/-- No session is looked up while a request is read. -/
structure NoLookup {α : Type} (read : Except ApiError α) : Prop where
  ne : read ≠ .error .sessionNotFound

namespace NoLookup

theorem ok {α : Type} (value : α) : NoLookup (.ok value) := ⟨nofun⟩

theorem badRequest {α : Type} (text : Bytes) : NoLookup (.error (.badRequest text) : Except ApiError α) := ⟨nofun⟩

theorem bind {α β : Type} {read : Except ApiError α} {next : α → Except ApiError β}
    (first : NoLookup read) (second : ∀ value, NoLookup (next value)) :
    NoLookup (read >>= next) := by
  cases read with
  | error error => exact ⟨fun same => first.ne (congrArg _ (Except.error.inj same))⟩
  | ok value => exact second value

theorem whole (request : Fields) (key : Bytes) (min max default : Nat) :
    NoLookup (whole request key min max default) := by
  unfold Sessions.whole
  dsimp only
  split
  · exact ok _
  · split
    · exact badRequest _
    · exact ok _
  · exact badRequest _

theorem real (toFloat : Rat → Rat) (request : Fields) (key : Bytes) (min max : Rat) (range : Bytes)
    (default : Rat) : NoLookup (real toFloat request key min max range default) := by
  unfold Sessions.real
  dsimp only
  split
  · exact ok _
  · split
    · exact ok _
    · exact badRequest _
  · split
    · exact ok _
    · exact badRequest _
  · exact badRequest _

theorem strategySetting (request : Fields) (default : Bytes) :
    NoLookup (strategySetting request default) := by
  unfold Sessions.strategySetting
  dsimp only
  split
  · exact ok _
  · split
    · exact badRequest _
    · exact ok _

theorem applyGenerationSettings (toFloat : Rat → Rat) (request : Fields)
    (config : GenerationConfig) :
    NoLookup (applyGenerationSettings toFloat request config) := by
  unfold Sessions.applyGenerationSettings
  refine (whole ..).bind fun _ => (real ..).bind fun _ => (real ..).bind fun _ => ?_
  exact (whole ..).bind fun _ => (whole ..).bind fun _ => (strategySetting ..).bind fun _ => ok _

theorem parseRequest (parse : Bytes → Option Json) (body : Bytes) :
    NoLookup (parseRequest parse body) := by
  unfold Sessions.parseRequest
  split
  · exact ok _
  · exact badRequest _

theorem stringArrayField (request : Fields) (key : Bytes) :
    NoLookup (stringArrayField request key) := by
  unfold Sessions.stringArrayField
  dsimp only
  split
  · exact ok _
  · split
    · exact ok _
    · exact badRequest _
  · exact badRequest _

theorem checkBatchSize (limit messages : Nat) : NoLookup (checkBatchSize limit messages) := by
  unfold Sessions.checkBatchSize
  split
  · exact ⟨nofun⟩
  · exact ok _

theorem readBatch (reading : Reading) (defaults : GenerationConfig) (body : Bytes)
    (maxBatchSize : Nat) : NoLookup (readBatch reading defaults body maxBatchSize) := by
  unfold Sessions.readBatch
  refine (parseRequest ..).bind fun _ => (stringArrayField ..).bind fun _ =>
    (stringArrayField ..).bind fun _ => ?_
  split
  · exact ⟨nofun⟩
  · exact (checkBatchSize ..).bind fun _ => (applyGenerationSettings ..).bind fun _ => ok _

end NoLookup

end Adai.Sessions
