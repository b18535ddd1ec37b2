import Mathlib.Algebra.Ring.Int.Defs
import Mathlib.Algebra.Ring.Nat
import Adai.Math.Attempts

/-! # Training passes over a claimed batch

A pass of the trainer claims a batch of units from the dataset registry, trains
on them, and then either records the units as trained or gives them back. There
are three such passes: the `train` command (`trainPass`), `resume_last_session`
(`resumeLastSession`) and the LeJEPA pass of the world model
(`runLejepaTrainingPass`). Each call on the way whose failure the pass could
meet is given by its outcome: it succeeds, reports a failure, or throws.

What a pass leaves behind is a list of effects: checkpoints written, units
released, units recorded as trained. The state is the number of the update that
last wrote the weights, so equal numbers mean equal weights.
-/

namespace Adai.Training

open Attempts Attempts.Attempt

/-- What a pass leaves behind: a checkpoint with the weights of the given update,
or an answer to the registry about claimed units. -/
inductive Effect (Claim : Type) where
  | saved (weights : Nat)
  | released (units : List Claim)
  | markedTrained (units : List Claim) (pairCounts : List Nat)
  deriving DecidableEq, Repr

/-- A call that reports nothing: it returns or throws. -/
inductive Call where
  | returns
  | throws
  deriving DecidableEq, Repr

/-- A call that reports whether it worked. -/
inductive Outcome where
  | succeeds
  | reportsFailure
  | throws
  deriving DecidableEq, Repr

variable {Claim : Type}

abbrev Step (Claim α : Type) : Type := Attempt Nat (Effect Claim) α

def Call.run : Call → Step Claim Unit
  | .returns => pure ()
  | .throws => throw

def Outcome.run : Outcome → Step Claim Bool
  | .succeeds => pure true
  | .reportsFailure => pure false
  | .throws => throw

/-! ## Checkpoints -/

/-- `save_model` of the model: the checkpoint exists once the call returns. -/
def writeCheckpoint (save : Call) : Step Claim Unit := do
  save.run
  let weights ← current
  leave (.saved weights)

/-- `IncrementalTrainer::save_model`: a throwing save is reported as `false`. -/
def saveModel (save : Call) : Step Claim Bool :=
  guarded (do writeCheckpoint save; pure true) (pure false)

/-- The two parts of `ChatbotTrainer::save_to`. -/
structure Save where
  model : Call
  trainingState : Outcome
  deriving DecidableEq, Repr

/-- `ChatbotTrainer::save_to`: the weights, then the training state, whose
failure it ignores. -/
def saveTo (save : Save) : Step Claim Unit := do
  writeCheckpoint save.model
  let _ ← save.trainingState.run
  pure ()

/-- `perform_auto_save` in the middle of a pass. -/
def performAutoSave (save : Save) : Step Claim Bool :=
  guarded (do saveTo save; pure true) (pure false)

/-! ## The chatbot's training loop -/

/-- What the callback after a sample is asked to save: an operator's request,
and the auto-save when it is due. -/
structure SampleCallback where
  requested : Option Save
  due : Option Save
  deriving DecidableEq, Repr

/-- An auto-save that may not be asked for. -/
def autoSaveIf : Option Save → Step Claim Unit
  | some save => do let _ ← performAutoSave save; pure ()
  | none => pure ()

def SampleCallback.run (callback : SampleCallback) : Step Claim Unit := do
  autoSaveIf callback.requested
  autoSaveIf callback.due

/-- How a sample's forward and backward pass ended. -/
inductive Backprop where
  | completes
  | failsBefore
  | failsDuring
  deriving DecidableEq, Repr

/-- How the optimizer step of a window ended: skipped for a non-finite gradient
norm, taken, or stopped by an exception before or after it wrote weights. -/
inductive Update where
  | skipped
  | stepped
  | throwsBefore
  | throwsAfter
  deriving DecidableEq, Repr

/-- `apply_update` of `train_epoch`. -/
def applyUpdate (update : Update) (callback : SampleCallback) : Step Claim Unit := do
  match update with
  | .skipped => callback.run
  | .stepped => become (· + 1); callback.run
  | .throwsBefore => throw
  | .throwsAfter => become (· + 1); throw

/-- One sample of an epoch: whether the abort flag is up when the loop reads it,
how back-propagation ends, and the outcomes of the optimizer steps it may run. -/
structure Sample where
  abort : Bool
  backprop : Backprop
  update : Update
  callback : SampleCallback
  failed : SampleCallback
  flush : Update
  flushed : SampleCallback
  deriving DecidableEq, Repr

/-- The handler of a sample's exceptions: the callback still runs, a window that
may hold a partial gradient is dropped, and the epoch's last window is flushed. -/
def sampleFailed (window : Nat) (last backwardStarted : Bool) (sample : Sample) :
    Step Claim Nat := do
  sample.failed.run
  let left := if backwardStarted then 0 else window
  if last && 0 < left then
    guarded (do applyUpdate sample.flush sample.flushed; pure 0) (pure left)
  else
    pure left

/-- The body of `train_epoch`'s loop. `window` counts the samples whose gradients
wait for the next optimizer step. -/
def trainSample (accumulationSteps window : Nat) (last : Bool) (sample : Sample) :
    Step Claim Nat :=
  match sample.backprop with
  | .failsBefore => sampleFailed window last false sample
  | .failsDuring => sampleFailed window last true sample
  | .completes =>
    if accumulationSteps ≤ window + 1 || last then
      guarded (do applyUpdate sample.update sample.callback; pure 0)
        (sampleFailed window last true sample)
    else
      pure (window + 1)

/-- `train_epoch`: `true` when the abort flag stopped it. The flag is read only
where no window is open. -/
def trainEpoch (accumulationSteps : Nat) : Nat → List Sample → Step Claim Bool
  | _, [] => pure false
  | window, sample :: rest =>
    if window == 0 && sample.abort then pure true
    else do
      let window ← trainSample accumulationSteps window rest.isEmpty sample
      trainEpoch accumulationSteps window rest

/-- How an epoch's validation ended: it threw, found no better loss, or found one
and saved the best weights, for itself and through the callback. -/
inductive Validation where
  | throws
  | noImprovement
  | improves (copy : Call) (snapshot : Save)
  deriving DecidableEq, Repr

structure Epoch where
  samples : List Sample
  validation : Option Validation
  deriving DecidableEq, Repr

/-- The copy of the best weights: whether its path is set, and the weights the
last successful copy holds. -/
structure BestCopy where
  pathSet : Bool
  weights : Option Nat
  deriving DecidableEq, Repr

structure TrainingConfig where
  accumulationSteps : Nat
  patience : Nat
  enableEarlyStopping : Bool
  restoreBestWeights : Bool
  deriving DecidableEq, Repr

/-- The best copy and the epochs since it, as `validate` keeps them. -/
structure Progress where
  best : BestCopy
  epochsWithoutImprovement : Nat
  deriving DecidableEq, Repr

/-- `validate`: a new best is copied only with early stopping and restoring on,
and a failed copy or snapshot is only logged. -/
def validate (config : TrainingConfig) (progress : Progress) : Validation → Step Claim Progress
  | .throws => throw
  | .noImprovement =>
    pure { progress with epochsWithoutImprovement := progress.epochsWithoutImprovement + 1 }
  | .improves copy snapshot =>
    if config.enableEarlyStopping && config.restoreBestWeights then
      guarded
        (do
          copy.run
          let weights ← current
          let _ ← guarded (do saveTo snapshot; pure true) (pure false)
          pure ⟨⟨true, some weights⟩, 0⟩)
        (pure ⟨⟨true, progress.best.weights⟩, 0⟩)
    else
      pure ⟨progress.best, 0⟩

/-- The epochs of a pass, up to an abort or an early stop. -/
def trainEpochs (config : TrainingConfig) :
    List Epoch → Progress → Step Claim (Bool × Progress)
  | [], progress => pure (false, progress)
  | epoch :: rest, progress => do
    if ← trainEpoch config.accumulationSteps 0 epoch.samples then
      pure (true, progress)
    else
      match epoch.validation with
      | none => trainEpochs config rest progress
      | some validation =>
        let progress ← validate config progress validation
        if config.enableEarlyStopping && config.patience ≤ progress.epochsWithoutImprovement then
          pure (false, progress)
        else
          trainEpochs config rest progress

/-- How loading the best copy back ended; a load that throws may have written
part of the weights. -/
inductive Restore where
  | loads
  | throws (wroteSome : Bool)
  deriving DecidableEq, Repr

/-- The outcomes of a call of `ChatbotTrainer::train`: tokenization succeeds,
leaves no sample, or throws. -/
structure TrainingRun where
  config : TrainingConfig
  tokenization : Outcome
  epochs : List Epoch
  restore : Restore
  deriving DecidableEq, Repr

/-- Loading the best weights back at the end of training; a failure is logged. -/
def restoreBest (config : TrainingConfig) (best : BestCopy) (restore : Restore) :
    Step Claim Unit :=
  if config.enableEarlyStopping && config.restoreBestWeights && best.pathSet then
    match restore, best.weights with
    | .loads, some weights => become fun _ => weights
    | .throws true, _ => become (· + 1)
    | _, _ => pure ()
  else
    pure ()

/-- `ChatbotTrainer::train`, with `was_aborted`: its exceptions are reported as
`false`. -/
def train (training : TrainingRun) : Step Claim (Bool × Bool) :=
  guarded
    (do
      if ← training.tokenization.run then
        let (aborted, progress) ←
          trainEpochs training.config training.epochs ⟨⟨false, none⟩, 0⟩
        restoreBest training.config progress.best training.restore
        pure (true, aborted)
      else
        pure (false, false))
    (pure (false, false))

/-- The outcomes of a call of `train_on_files`. -/
structure TrainOnFiles where
  /-- The pairs loaded from each file, unless loading throws. -/
  load : Option (List Nat)
  pendingVocabBuild : Bool
  bootstrapVocab : Outcome
  buildModel : Call
  /-- Restoring the training state of the checkpoint, if there is one to restore. -/
  loadTrainingState : Option Outcome
  training : TrainingRun
  pauseSave : Call
  save : Call
  saveTrainingState : Outcome
  deriving DecidableEq, Repr

/-- `run_training`: a paused pass saves its weights and reports `false`, a
completed one reports `true` once its checkpoint is written. -/
def runTraining (files : TrainOnFiles) : Step Claim Bool := do
  let (success, aborted) ← train files.training
  if aborted then do
    let _ ← saveModel files.pauseSave
    pure false
  else if success then do
    let saved ← saveModel files.save
    if saved then do
      let _ ← files.saveTrainingState.run
      pure true
    else pure false
  else pure false

/-- `load_training_state`, if there is a checkpoint to restore it from; its answer
is not used. -/
def restoreIf : Option Outcome → Step Claim Unit
  | some outcome => do let _ ← outcome.run; pure ()
  | none => pure ()

/-- `train_on_files` on pairs that were loaded and a model that is built. -/
def trainOnPairs (files : TrainOnFiles) : Step Claim Bool := do
  restoreIf files.loadTrainingState
  runTraining files

/-- `train_on_files`. -/
def trainOnFiles (files : TrainOnFiles) : Step Claim Bool :=
  match files.load with
  | none => throw
  | some pairCounts =>
    if pairCounts.sum = 0 then pure false
    else if files.pendingVocabBuild then do
      if ← files.bootstrapVocab.run then
        files.buildModel.run
        trainOnPairs files
      else
        pure false
    else trainOnPairs files

/-- `last_pass_pair_counts`. -/
def TrainOnFiles.pairCounts (files : TrainOnFiles) : List Nat := files.load.getD []

/-- The answer to the registry after `train_on_files`, shared by the chatbot
passes: the batch is recorded or given back. -/
def settle (units : List Claim) (files : TrainOnFiles) (ok : Bool) : Step Claim Unit :=
  if ok then leave (.markedTrained units files.pairCounts) else leave (.released units)

/-! ## The `train` command -/

structure TrainPass where
  resolveFiles : Outcome
  files : TrainOnFiles
  deriving DecidableEq, Repr

/-- The `train` command from its acquired units to its exit code. -/
def trainPass (units : List Claim) (pass : TrainPass) : Step Claim Nat :=
  if units.isEmpty then pure 1
  else do
    if ← pass.resolveFiles.run then
      let ok ← trainOnFiles pass.files
      settle units pass.files ok
      pure (if ok then 0 else 1)
    else
      leave (.released units)
      pure 1

/-! ## `resume_last_session` -/

inductive ResumeResult where
  | trained
  | nothingPending
  | failed
  deriving DecidableEq, Repr

structure ResumePass where
  /-- The caller's resolver, if it gave one, and how it ends. -/
  resolver : Option Outcome
  /-- Whether the registry names an FTP host. -/
  ftp : Bool
  /-- The checkpoint to resume, if there is one, and whether its configuration file exists. -/
  checkpoint : Option Bool
  loading : Call
  files : TrainOnFiles
  deriving DecidableEq, Repr

/-- `IncrementalTrainer::load_model`. -/
def loadModel (load : Call) : Step Claim Bool :=
  guarded (do load.run; become (· + 1); pure true) (do become (· + 1); pure false)

/-- Whether the local files of the batch are known. -/
def ResumePass.resolveFiles (pass : ResumePass) : Step Claim Bool :=
  match pass.resolver with
  | some outcome => outcome.run
  | none => pure !pass.ftp

/-- Whether the checkpoint to resume, if there is one, is loaded. -/
def ResumePass.loadCheckpoint (pass : ResumePass) : Step Claim Bool :=
  match pass.checkpoint with
  | none => pure true
  | some false => pure false
  | some true => loadModel pass.loading

/-- `resume_last_session` from its acquired units. -/
def resumeLastSession (units : List Claim) (pass : ResumePass) : Step Claim ResumeResult :=
  if units.isEmpty then pure .nothingPending
  else do
    if ← pass.resolveFiles then
      if ← pass.loadCheckpoint then
        let ok ← trainOnFiles pass.files
        settle units pass.files ok
        pure (if ok then .trained else .failed)
      else
        leave (.released units)
        pure .failed
    else
      leave (.released units)
      pure .failed

/-- The `resume` command's exit code. -/
def resumePass (units : List Claim) (pass : ResumePass) : Step Claim Nat := do
  match ← resumeLastSession units pass with
  | .nothingPending => pure 3
  | .failed => pure 1
  | .trained => pure 0

/-! ## The LeJEPA pass -/

/-- How `train_batch` ended: an exception, after which weights may have changed,
or one entry for each text it trained on, with the auto-save due after it. -/
inductive BatchOutcome where
  | throws (wroteSome : Bool)
  | trains (autoSaves : List (Option Call))
  deriving DecidableEq, Repr

structure Batch where
  paused : Bool
  requested : Option Call
  outcome : BatchOutcome
  deriving DecidableEq, Repr

/-- The checkpoint write shared by the pass's periodic saves: a failed one is
logged and training goes on. -/
def saveCheckpoint (save : Call) : Step Claim Bool :=
  guarded (do writeCheckpoint save; pure true) (pure false)

/-- A periodic save that may not be asked for. -/
def checkpointIf : Option Call → Step Claim Unit
  | some save => do let _ ← saveCheckpoint save; pure ()
  | none => pure ()

/-- The auto-saves due after the texts of a batch. -/
def autoSaves : List (Option Call) → Step Claim Unit
  | [] => pure ()
  | save :: rest => do
    checkpointIf save
    autoSaves rest

/-- `train_batch` on one batch, with the auto-saves that follow its texts: the
number of texts it trained on. A batch that throws is skipped. -/
def BatchOutcome.run : BatchOutcome → Step Claim Nat
  | .throws true => do become (· + 1); pure 0
  | .throws false => pure 0
  | .trains saves =>
    if saves.isEmpty then pure 0
    else do
      become (· + 1)
      autoSaves saves
      pure saves.length

/-- One batch, after the save an operator may have asked for. -/
def trainBatch (batch : Batch) : Step Claim Nat := do
  checkpointIf batch.requested
  batch.outcome.run

/-- The batches of one epoch: the texts trained on so far, and whether a pause
stopped the pass. -/
def lejepaEpoch : List Batch → Nat → Step Claim (Nat × Bool)
  | [], trained => pure (trained, false)
  | batch :: rest, trained =>
    if batch.paused then pure (trained, true)
    else do
      let count ← trainBatch batch
      lejepaEpoch rest (trained + count)

/-- The epochs of the pass. -/
def lejepaEpochs : List (List Batch) → Nat → Step Claim (Nat × Bool)
  | [], trained => pure (trained, false)
  | epoch :: rest, trained => do
    let (trained, aborted) ← lejepaEpoch epoch trained
    if aborted then pure (trained, true) else lejepaEpochs rest trained

structure LejepaPass where
  resolveFiles : Outcome
  /-- The conversation pairs of each claimed file, unless loading it throws. -/
  load : List (Option (List (String × String)))
  batchSize : Nat
  epochs : Nat
  /-- The outcome of each batch of each epoch. -/
  batch : Nat → Nat → Batch
  pauseSave : Call
  save : Call

/-- The non-empty sides of the pairs. -/
def textsOf (pairs : List (String × String)) : List String :=
  pairs.flatMap fun pair => [pair.1, pair.2].filter fun text => !text.isEmpty

/-- Loads the claimed files in order, until one throws. -/
def loadFiles : List (Option (List (String × String))) →
    Step Claim (List (List (String × String)))
  | [] => pure []
  | none :: _ => throw
  | some pairs :: rest => do
    let loaded ← loadFiles rest
    pure (pairs :: loaded)

/-- The batches of the pass over the given number of texts; a batch has at least
two of them. -/
def LejepaPass.batches (pass : LejepaPass) (texts : Nat) : List (List Batch) :=
  let size := max 2 pass.batchSize
  (List.range pass.epochs).map fun epoch =>
    (List.range ((texts + size - 1) / size)).map (pass.batch epoch)

def LejepaPass.texts (files : List (List (String × String))) : List String :=
  files.flatMap textsOf

/-- The end of the pass: a pause gives the batch back, after a save if anything
was trained; a pass that trained records the batch and then saves; a pass that
trained nothing gives it back. -/
def lejepaFinish (units : List Claim) (pass : LejepaPass) (pairCounts : List Nat)
    (trained : Nat) (aborted : Bool) : Step Claim Nat :=
  if aborted then do
    checkpointIf (if 0 < trained then some pass.pauseSave else none)
    leave (.released units)
    pure 1
  else if 0 < trained then do
    leave (.markedTrained units pairCounts)
    writeCheckpoint pass.save
    pure 0
  else do
    leave (.released units)
    pure 1

/-- `run_lejepa_training_pass` from its acquired units to its exit code. -/
def runLejepaTrainingPass (units : List Claim) (pass : LejepaPass) : Step Claim Nat :=
  if units.isEmpty then pure 3
  else do
    if ← pass.resolveFiles.run then
      let files ← loadFiles pass.load
      if (LejepaPass.texts files).isEmpty then
        leave (.released units)
        pure 1
      else do
        let (trained, aborted) ← lejepaEpochs (pass.batches (LejepaPass.texts files).length) 0
        lejepaFinish units pass (files.map List.length) trained aborted
    else
      leave (.released units)
      pure 1

/-! ## Passes -/

/-- A run of one of the three passes: the outcomes it meets. -/
inductive Pass where
  | train (pass : TrainPass)
  | resume (pass : ResumePass)
  | lejepa (pass : LejepaPass)

def Pass.run (units : List Claim) : Pass → Step Claim Nat
  | .train pass => trainPass units pass
  | .resume pass => resumePass units pass
  | .lejepa pass => runLejepaTrainingPass units pass

end Adai.Training
