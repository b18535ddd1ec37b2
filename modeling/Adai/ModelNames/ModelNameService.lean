import Mathlib.Algebra.Ring.Int.Defs
import Mathlib.Algebra.Ring.Nat
import Adai.Math.Tables

/-! # The model name service

The service keeps a record for each registered model and a map from roles to the
models that serve them in production. Each handler runs under the service's lock, so
a run is a sequence of calls (`serve`). A call carries the values that the handler
reads from its request's body, and what the clock and the id generator give it.

A handler that changes one record is a function on that record (`withModel`);
`withModel_cases`, `handleRegister_cases`, `handleDelete_cases` and
`handlePromote_cases` say all that a handler can do.
-/

namespace Adai.ModelNames

open Tables

/-! ## Records -/

/-- The bits of floating-point values; they are only copied. -/
abbrev Double := UInt64

abbrev Single := UInt32

/-- An `int` as a `size_t`. -/
def sizeOfInt (n : Int) : Nat := (n % 2 ^ 64).toNat

/-- A `size_t` as an `int`. -/
def intOfSize (n : Nat) : Int := Int.bmod n (2 ^ 32)

structure ArtifactLocation where
  host : String := ""
  path : String := ""
  checksum : String := ""
  format : String := "adai-native"
  deriving DecidableEq, Repr

structure ModelArchitecture where
  dModel : Nat := 0
  numHeads : Nat := 0
  dFf : Nat := 0
  numEncoderLayers : Nat := 0
  numDecoderLayers : Nat := 0
  maxSeqLength : Nat := 0
  deriving DecidableEq, Repr

structure ModelConnection where
  encoderName : String := ""
  decoderName : String := ""
  worldModelName : String := ""
  worldModelInjectEveryNLayers : Nat := 0
  hippocampalMemoryEnabled : Bool := false
  hippocampalMemoryCapacity : Nat := 512
  hippocampalRepetitionAlpha : Single := 0
  hippocampalRepetitionDecay : Single := 0x3F733333
  hippocampalCrossReferenceAlpha : Single := 0
  hippocampalAssociationDecay : Single := 0x3F733333
  sigregLambda : Single := 0x3F800000
  sigregNumSketches : Nat := 64
  deriving DecidableEq, Repr

structure TrainingHistoryEntry where
  runId : String
  metricsSessionKey : String
  datasetGroup : String := ""
  epochs : Int := 0
  finalLoss : Double := 0
  startedUtc : String
  finishedUtc : String
  incomplete : Bool := false
  deriving DecidableEq, Repr

/-- The live progress of the run that is in training. -/
structure Progress where
  sessionId : String := ""
  epoch : Int := 0
  loss : Double := 0
  bestLoss : Double := 0
  updatedUtc : String := ""
  deriving DecidableEq, Repr

inductive ModelKind
  | encoder
  | decoder
  | worldModel
  | chatbot
  deriving DecidableEq, Repr

def ModelKind.name : ModelKind → String
  | encoder => "encoder"
  | decoder => "decoder"
  | worldModel => "world_model"
  | chatbot => "chatbot"

inductive ModelState
  | initializing
  | training
  | candidate
  | production
  | retired
  deriving DecidableEq, Repr

def ModelState.name : ModelState → String
  | initializing => "initializing"
  | training => "training"
  | candidate => "candidate"
  | production => "production"
  | retired => "retired"

structure ModelRecord where
  modelId : String
  modelName : String
  role : String := ""
  kind : ModelKind := .chatbot
  runGroup : String := ""
  state : ModelState := .initializing
  runId : String := ""
  createdUtc : String
  updatedUtc : String
  artifact : ArtifactLocation := {}
  arch : ModelArchitecture := {}
  connection : ModelConnection := {}
  currentRunNumber : Nat := 0
  runStartedUtc : String := ""
  progress : Progress := {}
  trainingHistory : List TrainingHistoryEntry := []
  tags : List (String × String) := []
  deriving DecidableEq, Repr

/-- The service's maps. -/
structure ModelNameService where
  models : Table String ModelRecord := ∅
  roles : Table String String := ∅

/-! ## Requests -/

/-- What a handler takes from outside: the clock and the id generator. -/
structure Env where
  utcNow : String
  uuid : String
  deriving DecidableEq, Repr

structure ArtifactBody where
  host : String := ""
  path : String := ""
  checksum : String := ""
  format : String := ""
  deriving DecidableEq, Repr

structure ArchBody where
  dModel : Int := 0
  numHeads : Int := 0
  dFf : Int := 0
  numEncoderLayers : Int := 0
  numDecoderLayers : Int := 0
  maxSeqLength : Int := 0
  deriving DecidableEq, Repr

/-- The fields of a connection; those that the body leaves out are `none`. -/
structure ConnectionBody where
  encoderName : String := ""
  decoderName : String := ""
  worldModelName : String := ""
  worldModelInjectEveryNLayers : Option Int := none
  hippocampalMemoryEnabled : Option Bool := none
  hippocampalMemoryCapacity : Option Int := none
  hippocampalRepetitionAlpha : Option Single := none
  hippocampalRepetitionDecay : Option Single := none
  hippocampalCrossReferenceAlpha : Option Single := none
  hippocampalAssociationDecay : Option Single := none
  sigregLambda : Option Single := none
  sigregNumSketches : Option Int := none
  deriving DecidableEq, Repr

structure RegisterBody where
  modelName : String
  kind : String := ""
  role : String := ""
  runGroup : String := ""
  arch : Option ArchBody := none
  tags : List (String × String) := []
  connection : Option ConnectionBody := none
  deriving DecidableEq, Repr

structure TrainingSummary where
  datasetGroup : String := ""
  epochs : Int := 0
  finalLoss : Double := 0
  startedUtc : String := ""
  finishedUtc : String := ""
  deriving DecidableEq, Repr

structure TransitionBody where
  state : String
  runId : String := ""
  newRun : Bool := false
  artifact : Option ArtifactBody := none
  metricsSessionKey : String := ""
  trainingSummary : TrainingSummary := {}
  deriving DecidableEq, Repr

structure ProgressBody where
  runId : String
  sessionId : String := ""
  epoch : Option Int := none
  loss : Option Double := none
  bestLoss : Option Double := none
  deriving DecidableEq, Repr

structure LinkBody where
  merge : Bool := false
  connection : ConnectionBody
  deriving DecidableEq, Repr

inductive Call
  | register (body : RegisterBody)
  | stateTransition (name : String) (body : TransitionBody)
  | progressUpdate (name : String) (body : ProgressBody)
  | updateRunGroup (name runGroup : String)
  | linkWorldModel (name : String) (body : LinkBody)
  | delete (name : String)
  | promote (role modelName : String)
  deriving DecidableEq, Repr

/-- An error's status and text. -/
structure Refusal where
  status : Nat
  message : String
  deriving DecidableEq, Repr

inductive Reply
  | refused (refusal : Refusal)
  | registered (modelId : String)
  | record (r : ModelRecord)
  | ok
  | runGroup (runGroup : String)
  | linked (worldModelName : String)
  | deleted (name : String)
  | promoted (name retired role : String)
  deriving DecidableEq, Repr

/-- The request was carried out. -/
def Reply.accepted : Reply → Bool
  | refused _ => false
  | _ => true

def modelNotFound : Refusal := ⟨404, "model not found"⟩

def superseded : Refusal :=
  ⟨409, "run_id does not match the active run; this trainer's run has been superseded"⟩

/-! ## Registering -/

/-- A lower-case letter or a digit. -/
def isNameStart (c : Char) : Bool := (('a' ≤ c && c ≤ 'z') || ('0' ≤ c && c ≤ '9'))

def isNameChar (c : Char) : Bool := isNameStart c || c == '-' || c == '.'

def validName (name : String) : Bool :=
  2 ≤ name.utf8ByteSize && name.utf8ByteSize ≤ 128 &&
    match name.toList with
    | [] => false
    | c :: rest => isNameStart c && rest.all isNameChar

def parseKind (kind : String) : Option ModelKind :=
  if kind = "" then some .chatbot
  else if kind = "encoder" then some .encoder
  else if kind = "decoder" then some .decoder
  else if kind = "world_model" then some .worldModel
  else if kind = "chatbot" then some .chatbot
  else none

def parseArtifact (body : ArtifactBody) : ArtifactLocation :=
  { host := body.host, path := body.path, checksum := body.checksum
    format := if body.format = "" then "adai-native" else body.format }

def parseArch (body : ArchBody) : ModelArchitecture :=
  { dModel := sizeOfInt body.dModel
    numHeads := sizeOfInt body.numHeads
    dFf := sizeOfInt body.dFf
    numEncoderLayers := sizeOfInt body.numEncoderLayers
    numDecoderLayers := sizeOfInt body.numDecoderLayers
    maxSeqLength := sizeOfInt body.maxSeqLength }

def parseConnection (body : ConnectionBody) : ModelConnection :=
  { encoderName := body.encoderName
    decoderName := body.decoderName
    worldModelName := body.worldModelName
    worldModelInjectEveryNLayers := sizeOfInt (body.worldModelInjectEveryNLayers.getD 0)
    hippocampalMemoryEnabled := body.hippocampalMemoryEnabled.getD false
    hippocampalMemoryCapacity := sizeOfInt (body.hippocampalMemoryCapacity.getD 512)
    hippocampalRepetitionAlpha := body.hippocampalRepetitionAlpha.getD 0
    hippocampalRepetitionDecay := body.hippocampalRepetitionDecay.getD 0x3F733333
    hippocampalCrossReferenceAlpha := body.hippocampalCrossReferenceAlpha.getD 0
    hippocampalAssociationDecay := body.hippocampalAssociationDecay.getD 0x3F733333
    sigregLambda := body.sigregLambda.getD 0x3F800000
    sigregNumSketches := sizeOfInt (body.sigregNumSketches.getD 64) }

/-- The chatbot's own `d_model`: its linked encoder's, else the inline one. -/
def chatbotDModel (models : Table String ModelRecord) (r : ModelRecord) : Nat :=
  if r.connection.encoderName = "" then r.arch.dModel
  else ((models.lookup r.connection.encoderName).map fun encoder => encoder.arch.dModel).getD
    r.arch.dModel

def validateWorldModelLink (models : Table String ModelRecord) (r : ModelRecord)
    (worldModelName : String) (injectEveryNLayers : Nat) : Option Refusal :=
  match (models.lookup worldModelName).filter fun wm => wm.kind = .worldModel with
  | none => some ⟨400, "world_model_name '" ++ worldModelName ++
      "' is not a registered world_model"⟩
  | some wm =>
      if 0 < injectEveryNLayers ∧ wm.arch.dModel ≠ chatbotDModel models r then
        some ⟨409, "world model '" ++ worldModelName ++ "' d_model (" ++
          toString wm.arch.dModel ++ ") does not match chatbot '" ++ r.modelName ++
          "' d_model (" ++ toString (chatbotDModel models r) ++
          ") — required whenever world_model_inject_every_n_layers > 0"⟩
      else none

/-- An encoder, decoder or world model has one kind of layers only. -/
def standaloneError (r : ModelRecord) : Option Refusal :=
  let own := if r.kind = .decoder then r.arch.numDecoderLayers else r.arch.numEncoderLayers
  let other := if r.kind = .decoder then r.arch.numEncoderLayers else r.arch.numDecoderLayers
  if own = 0 then some ⟨400, r.kind.name ++ " requires a positive layer count"⟩
  else if other ≠ 0 then
    some ⟨400, r.kind.name ++ " must not set the layer-count field belonging to the other kind"⟩
  else if r.arch.dModel = 0 ∨ r.arch.numHeads = 0 ∨ r.arch.dFf = 0 ∨ r.arch.maxSeqLength = 0 then
    some ⟨400, r.kind.name ++ " requires d_model/num_heads/d_ff/max_seq_length all positive"⟩
  else none

/-- Same shape of encoder and decoder. -/
def compatible (encoder decoder : ModelArchitecture) : Bool :=
  encoder.dModel = decoder.dModel && encoder.numHeads = decoder.numHeads &&
    encoder.dFf = decoder.dFf && encoder.maxSeqLength = decoder.maxSeqLength

def pairError (models : Table String ModelRecord) (r : ModelRecord) : Option Refusal :=
  match (models.lookup r.connection.encoderName).filter fun m => m.kind = .encoder with
  | none => some ⟨400, "encoder_name '" ++ r.connection.encoderName ++
      "' is not a registered encoder"⟩
  | some encoder =>
      match (models.lookup r.connection.decoderName).filter fun m => m.kind = .decoder with
      | none => some ⟨400, "decoder_name '" ++ r.connection.decoderName ++
          "' is not a registered decoder"⟩
      | some decoder =>
          if compatible encoder.arch decoder.arch then none
          else some ⟨409, "encoder '" ++ r.connection.encoderName ++ "' and decoder '" ++
            r.connection.decoderName ++
            "' have incompatible d_model/num_heads/d_ff/max_seq_length"⟩

def chatbotError (models : Table String ModelRecord) (r : ModelRecord) : Option Refusal :=
  if (r.connection.encoderName = "") ≠ (r.connection.decoderName = "") then
    some ⟨400, "chatbot requires both encoder_name and decoder_name, or neither (legacy inline architecture)"⟩
  else
    (if r.connection.encoderName = "" then none else pairError models r).or
      (if r.connection.worldModelName = "" then none
      else validateWorldModelLink models r r.connection.worldModelName
        r.connection.worldModelInjectEveryNLayers)

def newRecord (env : Env) (body : RegisterBody) (kind : ModelKind) : ModelRecord :=
  { modelId := env.uuid
    modelName := body.modelName
    kind := kind
    role := body.role
    runGroup := body.runGroup
    state := .initializing
    createdUtc := env.utcNow
    updatedUtc := env.utcNow
    arch := (body.arch.map parseArch).getD {}
    tags := body.tags
    connection := (body.connection.map parseConnection).getD {} }

def registrationError (models : Table String ModelRecord) (r : ModelRecord) : Option Refusal :=
  if r.kind = .chatbot then chatbotError models r else standaloneError r

def handleRegister (env : Env) (body : RegisterBody) (s : ModelNameService) :
    Reply × ModelNameService :=
  if body.modelName = "" then (.refused ⟨400, "model_name required"⟩, s)
  else if !validName body.modelName then
    (.refused ⟨400, "invalid model_name: must match [a-z0-9][a-z0-9\\-\\.]\x7b1,127\x7d"⟩, s)
  else
    match parseKind body.kind with
    | none => (.refused ⟨400, "invalid kind: must be encoder, decoder, world_model, or chatbot"⟩, s)
    | some kind =>
        if body.modelName ∈ s.models then (.refused ⟨409, "model_name already registered"⟩, s)
        else
          match registrationError s.models (newRecord env body kind) with
          | some refusal => (.refused refusal, s)
          | none => (.registered env.uuid,
              { s with models := s.models.insert body.modelName (newRecord env body kind) })

/-! ## Changes of one record -/

/-- Carries out a change of the record under a name. -/
def withModel (name : String) (change : ModelRecord → Except Refusal (Reply × ModelRecord))
    (s : ModelNameService) : Reply × ModelNameService :=
  match s.models.lookup name with
  | none => (.refused modelNotFound, s)
  | some r =>
      match change r with
      | .error refusal => (.refused refusal, s)
      | .ok (reply, r) => (reply, { s with models := s.models.insert name r })

/-- At least two digits. -/
def zeroPad2 (n : Nat) : String :=
  if (toString n).length < 2 then "0" ++ toString n else toString n

def runName (n : Nat) : String := "run-" ++ zeroPad2 n

/-- The progress of a run that never reached candidate, as an incomplete entry. -/
def archivedProgress (env : Env) (r : ModelRecord) : List TrainingHistoryEntry :=
  if r.state = .training ∧ (0 < r.progress.epoch ∨ r.progress.sessionId ≠ "") then
    [{ runId := r.runId
       metricsSessionKey := r.progress.sessionId
       epochs := r.progress.epoch
       finalLoss := r.progress.loss
       startedUtc := r.runStartedUtc
       finishedUtc := env.utcNow
       incomplete := true }]
  else []

/-- The first run is number one; a later start keeps the number or asks for a new run. -/
def nextRunNumber (r : ModelRecord) (newRun : Bool) : Nat :=
  if r.currentRunNumber = 0 then 1
  else if newRun then r.currentRunNumber + 1
  else r.currentRunNumber

def startTraining (env : Env) (body : TransitionBody) (r : ModelRecord) : ModelRecord :=
  { r with
    trainingHistory := r.trainingHistory ++ archivedProgress env r
    progress := {}
    currentRunNumber := nextRunNumber r body.newRun
    runId := runName (nextRunNumber r body.newRun)
    runStartedUtc := env.utcNow
    state := .training
    updatedUtc := env.utcNow }

/-- The entry's run is the one that the body names, else the record's. -/
def candidateEntry (env : Env) (body : TransitionBody) (r : ModelRecord) : TrainingHistoryEntry :=
  let summary := body.trainingSummary
  { runId := if body.runId = "" then r.runId else body.runId
    metricsSessionKey := body.metricsSessionKey
    datasetGroup := summary.datasetGroup
    epochs := summary.epochs
    finalLoss := summary.finalLoss
    startedUtc := summary.startedUtc
    finishedUtc := if summary.finishedUtc = "" then env.utcNow else summary.finishedUtc }

def becomeCandidate (env : Env) (body : TransitionBody) (r : ModelRecord) : ModelRecord :=
  { r with
    artifact := (body.artifact.map parseArtifact).getD r.artifact
    trainingHistory := r.trainingHistory ++
      (if (candidateEntry env body r).runId = "" then [] else [candidateEntry env body r])
    runId := ""
    progress := {}
    state := .candidate
    updatedUtc := env.utcNow }

def invalidTransition (current : ModelState) (target : String) : Refusal :=
  ⟨409, "invalid transition: " ++ current.name ++ " -> " ++ target⟩

/-- What `handle_state_transition` does with the record. -/
def transition (env : Env) (body : TransitionBody) (r : ModelRecord) :
    Except Refusal (Reply × ModelRecord) :=
  if body.state = "training" then
    if r.state = .initializing ∨ r.state = .candidate ∨ r.state = .training then
      .ok (.record (startTraining env body r), startTraining env body r)
    else .error (invalidTransition r.state body.state)
  else if body.state = "candidate" then
    if r.state = .training ∨ r.state = .initializing ∨ r.state = .retired then
      -- Only a run that is in training is checked for its owner.
      if r.state = .training ∧ (body.runId = "" ∨ body.runId ≠ r.runId) then .error superseded
      else .ok (.record (becomeCandidate env body r), becomeCandidate env body r)
    else .error (invalidTransition r.state body.state)
  else if body.state = "retired" then
    if r.state ≠ .retired then
      .ok (.record { r with state := .retired, updatedUtc := env.utcNow },
        { r with state := .retired, updatedUtc := env.utcNow })
    else .error (invalidTransition r.state body.state)
  else .error ⟨400, "unknown target state; valid values: training, candidate, retired"⟩

def handleStateTransition (env : Env) (name : String) (body : TransitionBody)
    (s : ModelNameService) : Reply × ModelNameService :=
  if body.state = "" then (.refused ⟨400, "state required"⟩, s)
  else withModel name (transition env body) s

def progressed (env : Env) (body : ProgressBody) (r : ModelRecord) : ModelRecord :=
  { r with
    progress :=
      { sessionId := body.sessionId
        epoch := body.epoch.getD r.progress.epoch
        loss := body.loss.getD r.progress.loss
        bestLoss := body.bestLoss.getD r.progress.bestLoss
        updatedUtc := env.utcNow }
    updatedUtc := env.utcNow }

def updateProgress (env : Env) (body : ProgressBody) (r : ModelRecord) :
    Except Refusal (Reply × ModelRecord) :=
  if r.state ≠ .training then .error ⟨409, "model is not currently training"⟩
  else if body.runId = "" ∨ body.runId ≠ r.runId then .error superseded
  else .ok (.ok, progressed env body r)

def handleProgressUpdate (env : Env) (name : String) (body : ProgressBody)
    (s : ModelNameService) : Reply × ModelNameService :=
  withModel name (updateProgress env body) s

def handleUpdateRunGroup (env : Env) (name runGroup : String) (s : ModelNameService) :
    Reply × ModelNameService :=
  withModel name
    (fun r => .ok (.runGroup runGroup, { r with runGroup := runGroup, updatedUtc := env.utcNow })) s

/-- A field that the body leaves out keeps its value in a merge, else takes the default. -/
def linkedConnection (body : LinkBody) (current : ModelConnection) (inject : Nat) :
    ModelConnection :=
  let kept : ModelConnection := if body.merge then current else {}
  { current with
    worldModelName := body.connection.worldModelName
    worldModelInjectEveryNLayers := inject
    hippocampalMemoryEnabled :=
      body.connection.hippocampalMemoryEnabled.getD kept.hippocampalMemoryEnabled
    hippocampalMemoryCapacity := sizeOfInt
      (body.connection.hippocampalMemoryCapacity.getD (intOfSize kept.hippocampalMemoryCapacity))
    hippocampalRepetitionAlpha :=
      body.connection.hippocampalRepetitionAlpha.getD kept.hippocampalRepetitionAlpha
    hippocampalRepetitionDecay :=
      body.connection.hippocampalRepetitionDecay.getD kept.hippocampalRepetitionDecay
    hippocampalCrossReferenceAlpha :=
      body.connection.hippocampalCrossReferenceAlpha.getD kept.hippocampalCrossReferenceAlpha
    hippocampalAssociationDecay :=
      body.connection.hippocampalAssociationDecay.getD kept.hippocampalAssociationDecay }

def linkWorldModel (env : Env) (models : Table String ModelRecord) (body : LinkBody)
    (r : ModelRecord) : Except Refusal (Reply × ModelRecord) :=
  let worldModelName := body.connection.worldModelName
  if r.kind ≠ .chatbot then .error ⟨400, "only a chatbot-kind record can link a world model"⟩
  else if worldModelName = "" then
    .ok (.linked "", { r with
      connection := { r.connection with worldModelName := "" }
      updatedUtc := env.utcNow })
  else
    let inject := sizeOfInt (body.connection.worldModelInjectEveryNLayers.getD
      (if body.merge then intOfSize r.connection.worldModelInjectEveryNLayers else 0))
    match validateWorldModelLink models r worldModelName inject with
    | some refusal => .error refusal
    | none => .ok (.linked worldModelName, { r with
        connection := linkedConnection body r.connection inject
        updatedUtc := env.utcNow })

def handleLinkWorldModel (env : Env) (name : String) (body : LinkBody) (s : ModelNameService) :
    Reply × ModelNameService :=
  withModel name (linkWorldModel env s.models body) s

/-! ## Deleting and promoting -/

/-- All roles of the model go with it. -/
def handleDelete (name : String) (s : ModelNameService) : Reply × ModelNameService :=
  match s.models.lookup name with
  | none => (.refused modelNotFound, s)
  | some r =>
      if r.state = .training ∨ r.state = .candidate ∨ r.state = .production then
        (.refused ⟨409, "can only delete models in initializing or retired state"⟩, s)
      else (.deleted name, { models := s.models.erase name, roles := dropValue name s.roles })

/-- The production model that a promotion to the role retires. -/
def previousProduction (role modelName : String) (s : ModelNameService) :
    Option (String × ModelRecord) :=
  match s.roles.lookup role with
  | none => none
  | some previous =>
      if previous = "" ∨ previous = modelName then none
      else
        match s.models.lookup previous with
        | none => none
        | some r => if r.state = .production then some (previous, r) else none

/-- The models after the one in production was retired. -/
def retirePrevious (env : Env) (previous : Option (String × ModelRecord))
    (models : Table String ModelRecord) : Table String ModelRecord :=
  match previous with
  | none => models
  | some (name, r) => models.insert name { r with state := .retired, updatedUtc := env.utcNow }

def handlePromote (env : Env) (role modelName : String) (s : ModelNameService) :
    Reply × ModelNameService :=
  if !validName role then (.refused ⟨400, "invalid role name"⟩, s)
  else if modelName = "" then (.refused ⟨400, "model_name required"⟩, s)
  else
    match s.models.lookup modelName with
    | none => (.refused modelNotFound, s)
    | some r =>
        if r.state ≠ .candidate then
          (.refused ⟨409, "model must be in candidate state to promote to production"⟩, s)
        else
          let previous := previousProduction role modelName s
          (.promoted modelName ((previous.map Prod.fst).getD "") role,
            { models := (retirePrevious env previous s.models).insert modelName
                { r with state := .production, role := role, updatedUtc := env.utcNow }
              roles := s.roles.insert role modelName })

/-! ## What the handlers can do -/

theorem withModel_cases (name : String)
    (change : ModelRecord → Except Refusal (Reply × ModelRecord)) (s : ModelNameService) :
    (∃ refusal, withModel name change s = (.refused refusal, s)) ∨
    ∃ r reply r', s.models.lookup name = some r ∧ change r = .ok (reply, r') ∧
      withModel name change s = (reply, { s with models := s.models.insert name r' }) := by
  rw [withModel]
  cases found : s.models.lookup name with
  | none => exact .inl ⟨_, rfl⟩
  | some r =>
      dsimp only
      cases changed : change r with
      | error refusal => exact .inl ⟨refusal, rfl⟩
      | ok result => exact .inr ⟨r, result.1, result.2, rfl, changed, rfl⟩

theorem handleRegister_cases (env : Env) (body : RegisterBody) (s : ModelNameService) :
    (∃ refusal, handleRegister env body s = (.refused refusal, s)) ∨
    ∃ kind, body.modelName ≠ "" ∧ body.modelName ∉ s.models ∧ handleRegister env body s = (.registered env.uuid,
      { s with models := s.models.insert body.modelName (newRecord env body kind) }) := by
  rw [handleRegister]
  by_cases empty : body.modelName = ""
  · exact .inl ⟨_, if_pos empty⟩
  rw [if_neg empty]
  cases valid : validName body.modelName with
  | false => exact .inl ⟨_, rfl⟩
  | true =>
      cases parseKind body.kind with
      | none => exact .inl ⟨_, rfl⟩
      | some kind =>
          by_cases known : body.modelName ∈ s.models
          · exact .inl ⟨_, if_pos known⟩
          · cases checked : registrationError s.models (newRecord env body kind) with
            | some refusal => exact .inl ⟨refusal, by simp [known, checked]⟩
            | none => exact .inr ⟨kind, empty, known, by simp [known, checked]⟩

theorem handleDelete_cases (name : String) (s : ModelNameService) :
    (∃ refusal, handleDelete name s = (.refused refusal, s)) ∨
    ∃ r, s.models.lookup name = some r ∧ (r.state = .initializing ∨ r.state = .retired) ∧
      handleDelete name s =
        (.deleted name, { models := s.models.erase name, roles := dropValue name s.roles }) := by
  rw [handleDelete]
  cases found : s.models.lookup name with
  | none => exact .inl ⟨_, rfl⟩
  | some r =>
      dsimp only
      by_cases held : r.state = .training ∨ r.state = .candidate ∨ r.state = .production
      · exact .inl ⟨_, if_pos held⟩
      · refine .inr ⟨r, rfl, ?_, if_neg held⟩
        cases state : r.state <;> simp_all

theorem previousProduction_some {role modelName name : String} {r : ModelRecord}
    {s : ModelNameService} (previous : previousProduction role modelName s = some (name, r)) :
    s.roles.lookup role = some name ∧ name ≠ modelName ∧ s.models.lookup name = some r ∧
      r.state = .production := by
  rw [previousProduction] at previous
  cases mapped : s.roles.lookup role with
  | none => simp [mapped] at previous
  | some name' =>
      by_cases same : name' = "" ∨ name' = modelName
      · simp [mapped, same] at previous
      · cases found : s.models.lookup name' with
        | none => simp [mapped, found] at previous
        | some r' =>
            by_cases state : r'.state = .production
            · simp only [mapped, same, found, state, if_true, if_false, Option.some.injEq,
                Prod.mk.injEq] at previous
              obtain ⟨rfl, rfl⟩ := previous
              exact ⟨rfl, (not_or.mp same).2, found, state⟩
            · simp [mapped, found, state] at previous

theorem handlePromote_cases (env : Env) (role modelName : String) (s : ModelNameService) :
    (∃ refusal, handlePromote env role modelName s = (.refused refusal, s)) ∨
    ∃ r, s.models.lookup modelName = some r ∧ r.state = .candidate ∧ modelName ≠ "" ∧
      handlePromote env role modelName s = (.promoted modelName
        (((previousProduction role modelName s).map Prod.fst).getD "") role,
        { models := (retirePrevious env (previousProduction role modelName s) s.models).insert
            modelName { r with state := .production, role := role, updatedUtc := env.utcNow }
          roles := s.roles.insert role modelName }) := by
  rw [handlePromote]
  cases valid : validName role with
  | false => exact .inl ⟨_, rfl⟩
  | true =>
      by_cases empty : modelName = ""
      · exact .inl ⟨⟨400, "model_name required"⟩, by simp [empty]⟩
      · cases found : s.models.lookup modelName with
        | none => exact .inl ⟨modelNotFound, by simp [empty]⟩
        | some r =>
            by_cases state : r.state = .candidate
            · exact .inr ⟨r, rfl, state, empty, by simp [empty, state]⟩
            · exact .inl ⟨_, by simp [empty, state]; rfl⟩

/-! ## Runs -/

def handle (env : Env) : Call → ModelNameService → Reply × ModelNameService
  | .register body => handleRegister env body
  | .stateTransition name body => handleStateTransition env name body
  | .progressUpdate name body => handleProgressUpdate env name body
  | .updateRunGroup name runGroup => handleUpdateRunGroup env name runGroup
  | .linkWorldModel name body => handleLinkWorldModel env name body
  | .delete name => handleDelete name
  | .promote role modelName => handlePromote env role modelName

/-- The state after a sequence of calls. -/
def serve (s : ModelNameService) (calls : List (Env × Call)) : ModelNameService :=
  calls.foldl (fun s call => (handle call.1 call.2 s).2) s

end Adai.ModelNames
