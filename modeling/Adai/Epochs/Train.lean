import Mathlib.Algebra.Ring.Int.Defs
import Adai.Math.SectionLoads

/-! # The epochs of a training run

`ChatbotTrainer::train` runs epochs, validates after each, and ends when all are
done, when a run is asked to drain, or when validation has not improved for long
enough. Each epoch is reported to the metrics reporter, to the metrics tracker
and to the epoch callback. When a validation loss improves on the best one, a
copy of the model is saved, and that copy is loaded at the end.

What an epoch does is given: the weights at its end, its losses, and how far the
files of the copy are written. `improves` compares a validation loss
with the best one less `min_delta`, as floats.
-/

namespace Adai.Epochs

variable {ω Value : Type*}

/-- The settings of `TrainingConfig` that the loop reads. -/
structure TrainingConfig (Value : Type*) where
  patience : Int
  enableEarlyStopping : Bool
  restoreBestWeights : Bool
  improves : Value → Value → Bool

/-- How far saving the copy of the best model gets: whether its directory can be
created, how many of its files are written, and whether the next one is cut
short. -/
structure SaveOutcome where
  directory : Bool
  written : Nat
  torn : Bool
  deriving DecidableEq, Repr

/-- What happens in an epoch. Without a validation loss every sample fails. -/
structure EpochOutcome (Value : Type*) where
  loss : Value
  learningRate : Value
  gradientNorm : Value
  aborted : Bool
  validation : Option Value
  save : SaveOutcome

/-- The trainer, as far as the loop keeps it. The files of the copy, if it has a
directory, are those that can be read. -/
structure ChatbotTrainer (ω Value : Type*) where
  model : List ω
  trainingLosses : List Value
  validationLosses : List Value
  bestValidationLoss : Value
  bestEpoch : Nat
  epochsWithoutImprovement : Int
  earlyStopped : Bool
  wasAborted : Bool
  bestModelCopy : Option (List (Option ω))

/-- What the loop tells the others: the reporter's `end_epoch`, the tracker's
`record_epoch` and the epoch callback. An epoch is finished when `train_epoch`
returns without an abort. -/
inductive Report (Value : Type*) where
  | finished (epoch : Nat)
  | endEpoch (epoch : Nat) (loss validationLoss learningRate gradientNorm : Value)
  | recordEpoch (epoch : Nat) (loss validationLoss learningRate gradientNorm : Value)
  | epochCallback (epoch total : Nat) (loss validationLoss learningRate : Value)
  deriving DecidableEq, Repr

/-- `train_epoch`. -/
def ChatbotTrainer.trainEpoch (trainer : ChatbotTrainer ω Value) (weights : List ω)
    (outcome : EpochOutcome Value) : ChatbotTrainer ω Value :=
  { trainer with
    model := weights
    trainingLosses := trainer.trainingLosses ++ [outcome.loss]
    wasAborted := outcome.aborted }

/-- The files of a copy after a save that stopped: those that were written, the
one that was cut short, and the others as they were. -/
def writeFiles : Nat → Bool → List ω → List (Option ω) → List (Option ω)
  | written + 1, torn, section_ :: sections, _ :: files =>
      some section_ :: writeFiles written torn sections files
  | 0, torn, _ :: _, file :: files => (if torn then none else file) :: files
  | _, _, _, files => files

/-- Saves the copy of the best model, in a directory of its own. -/
def SaveOutcome.save (outcome : SaveOutcome) (weights : List ω) :
    Option (List (Option ω)) → Option (List (Option ω))
  | none =>
    if outcome.directory then
      some (writeFiles outcome.written outcome.torn weights (weights.map fun _ => none))
    else none
  | some files => some (writeFiles outcome.written outcome.torn weights files)

section Loop

variable [Zero Value] (config : TrainingConfig Value)

/-- `validate`, with a set to validate on. -/
def validate (outcome : EpochOutcome Value) (trainer : ChatbotTrainer ω Value) :
    Value × ChatbotTrainer ω Value :=
  match outcome.validation with
  | none =>
    (trainer.validationLosses.getLast?.getD 0,
      { trainer with epochsWithoutImprovement := trainer.epochsWithoutImprovement + 1 })
  | some loss =>
    let trainer := { trainer with validationLosses := trainer.validationLosses ++ [loss] }
    (loss,
      if config.improves loss trainer.bestValidationLoss then
        { trainer with
          bestValidationLoss := loss
          bestEpoch := trainer.trainingLosses.length
          epochsWithoutImprovement := 0
          bestModelCopy :=
            if config.enableEarlyStopping && config.restoreBestWeights then
              outcome.save.save trainer.model trainer.bestModelCopy
            else trainer.bestModelCopy }
      else
        { trainer with epochsWithoutImprovement := trainer.epochsWithoutImprovement + 1 })

/-- The validation at the end of an epoch; zero without a validation set. -/
def validateEpoch (hasValidation : Bool) (outcome : EpochOutcome Value)
    (trainer : ChatbotTrainer ω Value) : Value × ChatbotTrainer ω Value :=
  if hasValidation then validate config outcome trainer else (0, trainer)

/-- The epoch loop of `train`, with the weights at the end of each epoch. -/
def epochLoop (hasValidation : Bool) (weights : Nat → List ω) (total : Nat) :
    List (EpochOutcome Value) → Nat → ChatbotTrainer ω Value →
      List (Report Value) × ChatbotTrainer ω Value
  | [], _, trainer => ([], trainer)
  | outcome :: rest, epoch, trainer =>
    let trained := trainer.trainEpoch (weights epoch) outcome
    if trained.wasAborted then ([], trained)
    else
      let validated := validateEpoch config hasValidation outcome trained
      let ended := [.finished epoch,
        .endEpoch (epoch + 1) outcome.loss validated.1 outcome.learningRate
          outcome.gradientNorm]
      if hasValidation && config.enableEarlyStopping &&
          decide (config.patience ≤ validated.2.epochsWithoutImprovement) then
        (ended, { validated.2 with earlyStopped := true })
      else
        let validationLoss := validated.2.validationLosses.getLast?.getD 0
        let after := epochLoop hasValidation weights total rest (epoch + 1) validated.2
        (ended ++
          [.recordEpoch epoch outcome.loss validationLoss outcome.learningRate
              outcome.gradientNorm,
            .epochCallback epoch total outcome.loss validationLoss outcome.learningRate] ++
          after.1, after.2)

/-- The copy of the best model is loaded back, file by file, and removed. -/
def ChatbotTrainer.restoreBest (trainer : ChatbotTrainer ω Value) : ChatbotTrainer ω Value :=
  let restored := match trainer.bestModelCopy with
    | some files =>
      if config.enableEarlyStopping && config.restoreBestWeights then
        (Sections.loadAll files trainer.model).2
      else trainer.model
    | none => trainer.model
  { trainer with model := restored, bestModelCopy := none }

/-- `train`, for an epoch of each given outcome. -/
def train (hasValidation : Bool) (weights : Nat → List ω) (epochs : List (EpochOutcome Value))
    (trainer : ChatbotTrainer ω Value) : List (Report Value) × ChatbotTrainer ω Value :=
  let ran := epochLoop config hasValidation weights epochs.length epochs 0
    { trainer with wasAborted := false, bestModelCopy := none }
  (ran.1, ran.2.restoreBest config)

end Loop

/-! ## The session history -/

/-- The lists of a training session with an entry for each epoch. -/
structure PerEpochLists (Value : Type*) where
  losses : List Value
  validationLosses : List Value
  learningRates : List Value

/-- The epoch callback that `run_training` installs. -/
def PerEpochLists.record (lists : PerEpochLists Value) : Report Value → PerEpochLists Value
  | .epochCallback _ _ loss validationLoss learningRate =>
    ⟨lists.losses ++ [loss], lists.validationLosses ++ [validationLoss],
      lists.learningRates ++ [learningRate]⟩
  | _ => lists

/-- The lists of a session after a run. -/
def perEpochLists (reports : List (Report Value)) : PerEpochLists Value :=
  reports.foldl PerEpochLists.record ⟨[], [], []⟩

end Adai.Epochs
