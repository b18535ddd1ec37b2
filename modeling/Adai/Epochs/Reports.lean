import Adai.Epochs.Train

/-! # Every finished epoch is reported once

The epoch loop feeds the reporter before it checks for early stopping, and the
metrics tracker and the epoch callback after it. `reported_once_iff` shows that
each finished epoch is passed to all three, once and in order, exactly when no
validation makes the run stop early (`Stalls`); the epoch at which it does reaches
the reporter only.
-/

namespace Adai.Epochs

variable {ω Value : Type*}

/-! ## What was reported -/

def Report.finishedEpoch? : Report Value → Option Nat
  | .finished epoch => some epoch
  | _ => none

/-- The epoch that `end_epoch` ends; it counts from one. -/
def Report.endedEpoch? : Report Value → Option Nat
  | .endEpoch epoch _ _ _ _ => some (epoch - 1)
  | _ => none

def Report.recordedEpoch? : Report Value → Option Nat
  | .recordEpoch epoch _ _ _ _ => some epoch
  | _ => none

def Report.calledEpoch? : Report Value → Option Nat
  | .epochCallback epoch _ _ _ _ => some epoch
  | _ => none

/-- The epochs that finished. -/
def finishedEpochs (reports : List (Report Value)) : List Nat :=
  reports.filterMap Report.finishedEpoch?

/-- The lists of a session have an entry for each of a number of epochs. -/
structure PerEpochLists.HasEntries (lists : PerEpochLists Value) (count : Nat) : Prop where
  losses : lists.losses.length = count
  validationLosses : lists.validationLosses.length = count
  learningRates : lists.learningRates.length = count

/-- The finished epochs are the first ones, and each of them is passed on once and
in order. -/
structure ReportedOnce (reports : List (Report Value)) : Prop where
  numbered : finishedEpochs reports = List.range (finishedEpochs reports).length
  ended : reports.filterMap Report.endedEpoch? = finishedEpochs reports
  recorded : reports.filterMap Report.recordedEpoch? = finishedEpochs reports
  called : reports.filterMap Report.calledEpoch? = finishedEpochs reports
  lists : (perEpochLists reports).HasEntries (finishedEpochs reports).length

theorem record_entries (reports : List (Report Value)) :
    ∀ lists : PerEpochLists Value, ∀ count, lists.HasEntries count →
      (reports.foldl PerEpochLists.record lists).HasEntries
        (count + (reports.filterMap Report.calledEpoch?).length) := by
  induction reports with
  | nil => exact fun _ _ entries => entries
  | cons report rest ih =>
      intro lists count entries
      cases report with
      | epochCallback epoch total loss validationLoss learningRate =>
          have after : (lists.record (.epochCallback epoch total loss validationLoss
              learningRate)).HasEntries (count + 1) :=
            ⟨by simp [PerEpochLists.record, entries.losses],
              by simp [PerEpochLists.record, entries.validationLosses],
              by simp [PerEpochLists.record, entries.learningRates]⟩
          have all := ih _ _ after
          rw [Nat.add_assoc, Nat.add_comm 1] at all
          exact all
      | finished epoch => exact ih lists count entries
      | endEpoch epoch => exact ih lists count entries
      | recordEpoch epoch => exact ih lists count entries

/-- The callback leaves an entry for each call. -/
theorem perEpochLists_entries (reports : List (Report Value)) :
    (perEpochLists reports).HasEntries (reports.filterMap Report.calledEpoch?).length := by
  have entries := record_entries reports ⟨[], [], []⟩ 0 ⟨rfl, rfl, rfl⟩
  rwa [Nat.zero_add] at entries

/-- What a run reports: the epochs from the first one on, all of them to the
reporter, and to the tracker and the callback all but the one that stops it. -/
structure Reported (first : Nat) (stalled : Prop) (reports : List (Report Value)) : Prop where
  ended : reports.filterMap Report.endedEpoch? = finishedEpochs reports
  consecutive : finishedEpochs reports =
    List.range' first (finishedEpochs reports).length
  same : reports.filterMap Report.recordedEpoch? = reports.filterMap Report.calledEpoch?
  called : (stalled → (reports.filterMap Report.calledEpoch?).length <
      (finishedEpochs reports).length) ∧
    (¬ stalled → reports.filterMap Report.calledEpoch? = finishedEpochs reports)

/-- An epoch after which the run goes on. -/
theorem Reported.cons {first : Nat} {stalled : Prop} {rest : List (Report Value)}
    (later : Reported (first + 1) stalled rest) (total : Nat)
    (loss validationLoss cbVal learningRate gradientNorm : Value) :
    Reported first stalled
      ([.finished first, .endEpoch (first + 1) loss validationLoss learningRate gradientNorm] ++
        [.recordEpoch first loss cbVal learningRate gradientNorm,
          .epochCallback first total loss cbVal learningRate] ++ rest) := by
  obtain ⟨ended, consecutive, same, short, whole⟩ := later
  refine ⟨congrArg (first :: ·) ended, ?_, congrArg (first :: ·) same, fun stops => ?_,
    fun goes => congrArg (first :: ·) (whole goes)⟩
  · exact congrArg (first :: ·) consecutive
  · exact Nat.succ_lt_succ (short stops)

/-- An epoch that stops the run. -/
theorem Reported.stop {first : Nat} {stalled : Prop} (stops : stalled)
    (loss validationLoss learningRate gradientNorm : Value) :
    Reported first stalled
      [.finished first, .endEpoch (first + 1) loss validationLoss learningRate gradientNorm] :=
  ⟨rfl, rfl, rfl, fun _ => Nat.zero_lt_one, fun goes => absurd stops goes⟩

/-! ## Runs that stop early -/

section Loop

variable (config : TrainingConfig Value)

/-- The best validation loss and the epochs without improvement after a
validation. -/
def afterValidation (best : Value) (stale : Int) : Option Value → Value × Int
  | none => (best, stale + 1)
  | some loss => if config.improves loss best then (loss, 0) else (best, stale + 1)

/-- Some epoch that is not aborted ends a row of `patience` epochs without
improvement. -/
def StallsFrom (best : Value) (stale : Int) : List (EpochOutcome Value) → Prop
  | [] => False
  | outcome :: rest =>
    outcome.aborted = false ∧
      (config.patience ≤ (afterValidation config best stale outcome.validation).2 ∨
        StallsFrom (afterValidation config best stale outcome.validation).1
          (afterValidation config best stale outcome.validation).2 rest)

/-- The run stops early. -/
def Stalls (hasValidation : Bool) (epochs : List (EpochOutcome Value))
    (trainer : ChatbotTrainer ω Value) : Prop :=
  hasValidation = true ∧ config.enableEarlyStopping = true ∧
    StallsFrom config trainer.bestValidationLoss trainer.epochsWithoutImprovement epochs

variable [Zero Value]

theorem validate_counts (outcome : EpochOutcome Value) (trainer : ChatbotTrainer ω Value) :
    ((validate config outcome trainer).2.bestValidationLoss,
        (validate config outcome trainer).2.epochsWithoutImprovement) =
      afterValidation config trainer.bestValidationLoss trainer.epochsWithoutImprovement
        outcome.validation := by
  unfold validate afterValidation
  cases outcome.validation with
  | none => rfl
  | some loss =>
      dsimp only
      split <;> rfl

/-- Whether an epoch that is not aborted stops the run. -/
theorem stalls_cons {hasValidation : Bool} {outcome : EpochOutcome Value}
    {rest : List (EpochOutcome Value)} {trainer : ChatbotTrainer ω Value} (weights : List ω)
    (finishes : outcome.aborted = false) :
    Stalls config hasValidation (outcome :: rest) trainer ↔
      (hasValidation && config.enableEarlyStopping &&
          decide (config.patience ≤
            (validateEpoch config hasValidation outcome
              (trainer.trainEpoch weights outcome)).2.epochsWithoutImprovement)) = true ∨
        Stalls config hasValidation rest
          (validateEpoch config hasValidation outcome (trainer.trainEpoch weights outcome)).2 := by
  have counts := validate_counts config outcome (trainer.trainEpoch weights outcome)
  cases hasValidation with
  | false => simp [Stalls]
  | true =>
      have best : (validate config outcome (trainer.trainEpoch weights outcome)).2.bestValidationLoss =
          (afterValidation config trainer.bestValidationLoss trainer.epochsWithoutImprovement
            outcome.validation).1 := congrArg Prod.fst counts
      have stale : (validate config outcome
          (trainer.trainEpoch weights outcome)).2.epochsWithoutImprovement =
          (afterValidation config trainer.bestValidationLoss trainer.epochsWithoutImprovement
            outcome.validation).2 := congrArg Prod.snd counts
      simp only [Stalls, StallsFrom, validateEpoch, if_true, best, stale, finishes, true_and,
        Bool.true_and, Bool.and_eq_true, decide_eq_true_eq]
      constructor
      · rintro ⟨stops, now | later⟩
        · exact .inl ⟨stops, now⟩
        · exact .inr ⟨stops, later⟩
      · rintro (⟨stops, now⟩ | ⟨stops, later⟩)
        · exact ⟨stops, .inl now⟩
        · exact ⟨stops, .inr later⟩

theorem epochLoop_reported (hasValidation : Bool) (weights : Nat → List ω) (total : Nat)
    (epochs : List (EpochOutcome Value)) :
    ∀ (first : Nat) (trainer : ChatbotTrainer ω Value),
      Reported first (Stalls config hasValidation epochs trainer)
        (epochLoop config hasValidation weights total epochs first trainer).1 := by
  induction epochs with
  | nil =>
      intro first trainer
      refine ⟨rfl, rfl, rfl, fun stalls => ?_, fun _ => rfl⟩
      exact stalls.2.2.elim
  | cons outcome rest ih =>
      intro first trainer
      have trained : (trainer.trainEpoch (weights first) outcome).wasAborted = outcome.aborted := rfl
      unfold epochLoop
      dsimp only
      by_cases aborted : outcome.aborted
      · rw [trained, if_pos aborted]
        refine ⟨rfl, rfl, rfl, fun stalls => ?_, fun _ => rfl⟩
        exact Bool.noConfusion (aborted.symm.trans stalls.2.2.1)
      · rw [trained, if_neg aborted]
        have finishes := Bool.eq_false_iff.mpr aborted
        rw [stalls_cons config (weights first) finishes]
        split
        · rename_i stops
          exact .stop (.inl stops) ..
        · rename_i goes
          rw [or_iff_right goes]
          exact (ih _ _).cons ..

/-- Each finished epoch is reported once, unless the run stops early. -/
theorem reported_once_iff (hasValidation : Bool) (weights : Nat → List ω) (epochs : List (EpochOutcome Value))
    (trainer : ChatbotTrainer ω Value) :
    ReportedOnce (train config hasValidation weights epochs trainer).1 ↔
      ¬ Stalls config hasValidation epochs trainer := by
  have reported : Reported 0 (Stalls config hasValidation epochs trainer)
      (train config hasValidation weights epochs trainer).1 :=
    epochLoop_reported config hasValidation weights epochs.length epochs 0
      { trainer with wasAborted := false, bestModelCopy := none }
  obtain ⟨ended, consecutive, same, short, whole⟩ := reported
  constructor
  · intro once stalls
    have fewer := short stalls
    rw [once.called] at fewer
    exact Nat.lt_irrefl _ fewer
  · intro goes
    have called := whole goes
    refine ⟨consecutive.trans (List.range_eq_range' ..).symm, ended, same.trans called, called, ?_⟩
    have entries := perEpochLists_entries (train config hasValidation weights epochs trainer).1
    rwa [called] at entries

end Loop

/-- Training that stops after an epoch whose validation loss is not below the best. -/
def patientOnce : TrainingConfig Int := ⟨1, true, true, fun loss best => decide (loss < best)⟩

/-- A trainer before its first epoch. -/
def newTrainer (model : List ω) (best : Int) : ChatbotTrainer ω Int :=
  ⟨model, [], [], best, 0, 0, false, false, none⟩

/-- An epoch with a validation loss. -/
def validatedEpoch (validationLoss : Int) (save : SaveOutcome) : EpochOutcome Int :=
  ⟨1, 1, 1, false, some validationLoss, save⟩

/-- The epoch that stops a run is not passed to the tracker and the callback. -/
theorem reported_once_fails :
    ¬ ∀ (config : TrainingConfig Int) (hasValidation : Bool) (weights : Nat → List Unit)
        (epochs : List (EpochOutcome Int)) (trainer : ChatbotTrainer Unit Int),
      ReportedOnce (train config hasValidation weights epochs trainer).1 := by
  intro once
  have called := (once patientOnce true (fun _ => [])
    [validatedEpoch 2 ⟨true, 1, false⟩, validatedEpoch 3 ⟨true, 1, false⟩] (newTrainer [] 9)).called
  exact absurd called (by decide)

end Adai.Epochs
