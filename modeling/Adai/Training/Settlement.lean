import Adai.Training.Passes

/-! # Claimed batches are settled

A pass settles its batch when every claimed unit has been either released or
recorded as trained (`Settled`), and it records soundly when a checkpoint of its
weights was written before (`RecordedAfterSave`). `settlement_iff` says for each
of the three passes exactly which outcomes of its calls lead to both. A chatbot
pass misses only by an exception outside its `try` blocks, which leaves the batch
claimed. The LeJEPA pass records the batch before its last save, so there the
weights must have been saved while training already.
-/

namespace Adai.Training

open Attempts Attempts.Attempt

variable {Claim α : Type}

/-! ## What is asked of a pass -/

def Released (unit : Claim) (effects : List (Effect Claim)) : Prop :=
  ∃ units, .released units ∈ effects ∧ unit ∈ units

def MarkedTrained (unit : Claim) (effects : List (Effect Claim)) : Prop :=
  ∃ units counts, .markedTrained units counts ∈ effects ∧ unit ∈ units

/-- Every claimed unit was released or recorded as trained, and none was both. -/
def Settled (units : List Claim) (effects : List (Effect Claim)) : Prop :=
  ∀ unit ∈ units,
    (Released unit effects ∧ ¬ MarkedTrained unit effects) ∨
      (MarkedTrained unit effects ∧ ¬ Released unit effects)

/-- Wherever units were recorded as trained, a checkpoint of the weights the pass
ends with had been written. -/
def RecordedAfterSave (ended : Ended Nat (Effect Claim) α) : Prop :=
  ∀ before units counts after,
    ended.effects = before ++ .markedTrained units counts :: after →
      .saved ended.state ∈ before

/-! ## The conditions on the outcomes -/

/-- The samples waiting for an optimizer step after this one. -/
def Sample.windowAfter (accumulationSteps window : Nat) (last : Bool) (sample : Sample) : Nat :=
  match sample.backprop with
  | .failsBefore =>
    if last && 0 < window && (sample.flush == .skipped || sample.flush == .stepped) then 0
    else window
  | .failsDuring => 0
  | .completes => if accumulationSteps ≤ window + 1 || last then 0 else window + 1

/-- Whether the abort flag stops an epoch. -/
def stopsIn (accumulationSteps : Nat) : Nat → List Sample → Bool
  | _, [] => false
  | window, sample :: rest =>
    window == 0 && sample.abort ||
      stopsIn accumulationSteps (sample.windowAfter accumulationSteps window rest.isEmpty) rest

/-- Whether the epochs run to their end or to an early stop, with no abort and
no validation that throws. -/
def TrainingConfig.runsThrough (config : TrainingConfig) : Nat → List Epoch → Bool
  | _, [] => true
  | stale, epoch :: rest =>
    !stopsIn config.accumulationSteps 0 epoch.samples &&
      match epoch.validation with
      | none => config.runsThrough stale rest
      | some .throws => false
      | some .noImprovement =>
        config.enableEarlyStopping && config.patience ≤ stale + 1 ||
          config.runsThrough (stale + 1) rest
      | some (.improves _ _) =>
        config.enableEarlyStopping && config.patience ≤ 0 || config.runsThrough 0 rest

/-- Whether training completes. -/
def TrainingRun.completes (training : TrainingRun) : Bool :=
  training.tokenization == .succeeds && training.config.runsThrough 0 training.epochs

/-- No call that `train_on_files` makes outside a `try` block throws: loading,
building the vocabulary and the model, restoring the training state, and saving
it once the pass's checkpoint is written. -/
def TrainOnFiles.NoneEscapes (files : TrainOnFiles) : Prop :=
  files.load ≠ none ∧
    (files.pairCounts.sum ≠ 0 →
      (files.pendingVocabBuild = true →
        files.bootstrapVocab ≠ .throws ∧
          (files.bootstrapVocab = .succeeds → files.buildModel = .returns)) ∧
      ((files.pendingVocabBuild = true → files.bootstrapVocab = .succeeds) →
        files.loadTrainingState ≠ some .throws ∧
          (files.training.completes = true → files.save = .returns →
            files.saveTrainingState ≠ .throws)))

def TrainPass.NoneEscapes (pass : TrainPass) : Prop :=
  pass.resolveFiles ≠ .throws ∧ (pass.resolveFiles = .succeeds → pass.files.NoneEscapes)

/-- Whether `resume_last_session` has local files. -/
def ResumePass.Resolves (pass : ResumePass) : Prop :=
  pass.resolver = some .succeeds ∨ pass.resolver = none ∧ pass.ftp = false

/-- Whether `resume_last_session` has its weights. -/
def ResumePass.Loads (pass : ResumePass) : Prop :=
  pass.checkpoint = none ∨ pass.checkpoint = some true ∧ pass.loading = .returns

def ResumePass.NoneEscapes (pass : ResumePass) : Prop :=
  pass.resolver ≠ some .throws ∧ (pass.Resolves → pass.Loads → pass.files.NoneEscapes)

/-- The batches that a LeJEPA pass over its loaded texts comes to, in order. -/
def LejepaPass.planned (pass : LejepaPass) : List Batch :=
  (pass.batches (LejepaPass.texts pass.load.reduceOption).length).flatten

/-- The batches before the first pause. -/
def unpaused (batches : List Batch) : List Batch := batches.takeWhile fun batch => !batch.paused

def Batch.trained (batch : Batch) : Nat :=
  match batch.outcome with
  | .throws _ => 0
  | .trains saves => saves.length

/-- Whether the weights after the batch have been saved, given whether those
before it had been. -/
def Batch.keepsSaved (saved : Bool) (batch : Batch) : Bool :=
  let saved := saved || batch.requested == some .returns
  match batch.outcome with
  | .throws wroteSome => saved && !wroteSome
  | .trains saves => if saves.isEmpty then saved else saves.contains (some .returns)

/-- No call that the LeJEPA pass makes outside a `try` block before it settles its
batch throws, and a pass that trained to its end had already saved the weights of
its last batch. -/
def LejepaPass.SavesFirst (pass : LejepaPass) : Prop :=
  pass.resolveFiles ≠ .throws ∧
    (pass.resolveFiles = .succeeds →
      none ∉ pass.load ∧
        (LejepaPass.texts pass.load.reduceOption ≠ [] →
          pass.planned.any (·.paused) = false → ((unpaused pass.planned).map Batch.trained).sum ≠ 0 →
            (unpaused pass.planned).foldl Batch.keepsSaved false = true))

def Pass.Condition : Pass → Prop
  | .train pass => pass.NoneEscapes
  | .resume pass => pass.NoneEscapes
  | .lejepa pass => pass.SavesFirst

/-! ## Saves are all that training leaves -/

/-- The effect is a checkpoint. -/
def IsSave (effect : Effect Claim) : Prop := ∃ weights, effect = .saved weights

theorem run_leaves_saves (call : Call) : Leaves IsSave (call.run : Step Claim Unit) := by
  intro state effect member
  cases call <;> cases member

theorem outcome_leaves_saves (outcome : Outcome) :
    Leaves IsSave (outcome.run : Step Claim Bool) := by
  intro state effect member
  cases outcome <;> cases member

theorem become_leaves_saves (next : Nat → Nat) :
    Leaves IsSave (become next : Step Claim Unit) := by
  intro state effect member
  cases member

theorem current_leaves_saves : Leaves IsSave (current : Step Claim Nat) := by
  intro state effect member
  cases member

theorem throw_leaves_saves : Leaves IsSave (throw : Step Claim α) := by
  intro state effect member
  cases member

theorem writeCheckpoint_leaves_saves (save : Call) :
    Leaves IsSave (writeCheckpoint save : Step Claim Unit) := by
  intro state effect member
  cases save with
  | throws => cases member
  | returns =>
      obtain rfl := List.mem_singleton.mp member
      exact ⟨state, rfl⟩

theorem saveModel_leaves_saves (save : Call) :
    Leaves IsSave (saveModel save : Step Claim Bool) :=
  ((writeCheckpoint_leaves_saves save).bind fun _ => .pure true).guarded (.pure false)

theorem saveTo_leaves_saves (save : Save) : Leaves IsSave (saveTo save : Step Claim Unit) :=
  (writeCheckpoint_leaves_saves save.model).bind fun _ =>
    (outcome_leaves_saves save.trainingState).bind fun _ => .pure ()

theorem performAutoSave_leaves_saves (save : Save) :
    Leaves IsSave (performAutoSave save : Step Claim Bool) :=
  ((saveTo_leaves_saves save).bind fun _ => .pure true).guarded (.pure false)

theorem autoSaveIf_leaves_saves (save : Option Save) :
    Leaves IsSave (autoSaveIf save : Step Claim Unit) := by
  cases save with
  | none => exact .pure ()
  | some save => exact (performAutoSave_leaves_saves save).bind fun _ => .pure ()

theorem callback_leaves_saves (callback : SampleCallback) :
    Leaves IsSave (callback.run : Step Claim Unit) :=
  (autoSaveIf_leaves_saves _).bind fun _ => autoSaveIf_leaves_saves _

theorem applyUpdate_leaves_saves (update : Update) (callback : SampleCallback) :
    Leaves IsSave (applyUpdate update callback : Step Claim Unit) := by
  cases update with
  | skipped => exact callback_leaves_saves callback
  | stepped => exact (become_leaves_saves _).bind fun _ => callback_leaves_saves callback
  | throwsBefore => exact throw_leaves_saves
  | throwsAfter => exact (become_leaves_saves _).bind fun _ => throw_leaves_saves

theorem sampleFailed_leaves_saves (window : Nat) (last backwardStarted : Bool)
    (sample : Sample) :
    Leaves IsSave (sampleFailed window last backwardStarted sample : Step Claim Nat) := by
  refine (callback_leaves_saves sample.failed).bind fun _ => ?_
  generalize (if backwardStarted then 0 else window) = left
  by_cases flushed : (last && 0 < left) = true
  · simp only [flushed, if_true]
    exact ((applyUpdate_leaves_saves _ _).bind fun _ => .pure 0).guarded (.pure _)
  · simp only [flushed]
    exact .pure _

theorem trainSample_leaves_saves (accumulationSteps window : Nat) (last : Bool)
    (sample : Sample) :
    Leaves IsSave (trainSample accumulationSteps window last sample : Step Claim Nat) := by
  unfold trainSample
  split
  · exact sampleFailed_leaves_saves _ _ _ _
  · exact sampleFailed_leaves_saves _ _ _ _
  · split
    · exact ((applyUpdate_leaves_saves _ _).bind fun _ => .pure 0).guarded
        (sampleFailed_leaves_saves _ _ _ _)
    · exact .pure _

theorem trainEpoch_leaves_saves (accumulationSteps : Nat) (samples : List Sample) :
    ∀ window, Leaves IsSave (trainEpoch accumulationSteps window samples : Step Claim Bool) := by
  induction samples with
  | nil => exact fun _ => .pure false
  | cons sample rest ih =>
      intro window
      unfold trainEpoch
      split
      · exact .pure true
      · exact (trainSample_leaves_saves _ _ _ _).bind fun _ => ih _

theorem validate_leaves_saves (config : TrainingConfig) (progress : Progress)
    (validation : Validation) :
    Leaves IsSave (validate config progress validation : Step Claim Progress) := by
  cases validation with
  | throws => exact throw_leaves_saves
  | noImprovement => exact .pure _
  | improves copy snapshot =>
      by_cases kept : (config.enableEarlyStopping && config.restoreBestWeights) = true
      · simp only [validate, kept, if_true]
        refine ((run_leaves_saves copy).bind fun _ => current_leaves_saves.bind fun _ => ?_).guarded
          (.pure _)
        exact (((saveTo_leaves_saves snapshot).bind fun _ => .pure true).guarded
          (.pure false)).bind fun _ => .pure _
      · simp only [validate, kept]
        exact .pure _

theorem trainEpochs_leaves_saves (config : TrainingConfig) (epochs : List Epoch) :
    ∀ progress, Leaves IsSave
      (trainEpochs config epochs progress : Step Claim (Bool × Progress)) := by
  induction epochs with
  | nil => exact fun _ => .pure _
  | cons epoch rest ih =>
      intro progress
      refine (trainEpoch_leaves_saves _ _ _).bind fun aborted => ?_
      split
      · exact .pure _
      · split
        · exact ih _
        · refine (validate_leaves_saves _ _ _).bind fun after => ?_
          split
          · exact .pure _
          · exact ih _

theorem restoreBest_leaves_saves (config : TrainingConfig) (best : BestCopy)
    (restore : Restore) :
    Leaves IsSave (restoreBest config best restore : Step Claim Unit) := by
  unfold restoreBest
  split
  · split
    · exact become_leaves_saves _
    · exact become_leaves_saves _
    · exact .pure ()
  · exact .pure ()

theorem train_leaves_saves (training : TrainingRun) :
    Leaves IsSave (train training : Step Claim (Bool × Bool)) := by
  refine ((outcome_leaves_saves _).bind fun tokenized => ?_).guarded (.pure _)
  split
  · exact (trainEpochs_leaves_saves _ _ _).bind fun _ =>
      (restoreBest_leaves_saves _ _ _).bind fun _ => .pure _
  · exact .pure _

theorem restoreIf_leaves_saves (outcome : Option Outcome) :
    Leaves IsSave (restoreIf outcome : Step Claim Unit) := by
  cases outcome with
  | none => exact .pure ()
  | some outcome => exact (outcome_leaves_saves outcome).bind fun _ => .pure ()

theorem runTraining_leaves_saves (files : TrainOnFiles) :
    Leaves IsSave (runTraining files : Step Claim Bool) := by
  refine (train_leaves_saves _).bind fun ended => ?_
  rcases ended with ⟨success, aborted⟩
  dsimp only
  split
  · exact (saveModel_leaves_saves _).bind fun _ => .pure false
  · split
    · refine (saveModel_leaves_saves _).bind fun saved => ?_
      split
      · exact (outcome_leaves_saves _).bind fun _ => .pure true
      · exact .pure false
    · exact .pure false

theorem trainOnPairs_leaves_saves (files : TrainOnFiles) :
    Leaves IsSave (trainOnPairs files : Step Claim Bool) :=
  (restoreIf_leaves_saves _).bind fun _ => runTraining_leaves_saves files

theorem trainOnFiles_leaves_saves (files : TrainOnFiles) :
    Leaves IsSave (trainOnFiles files : Step Claim Bool) := by
  unfold trainOnFiles
  split
  · exact throw_leaves_saves
  · split
    · exact .pure false
    · split
      · refine (outcome_leaves_saves _).bind fun built => ?_
        split
        · exact (run_leaves_saves _).bind fun _ => trainOnPairs_leaves_saves files
        · exact .pure false
      · exact trainOnPairs_leaves_saves files

/-! ## When training completes -/

theorem performAutoSave_yields (save : Save) :
    Yields (fun _ => True) (performAutoSave save : Step Claim Bool) := by
  intro state
  have returns : ((performAutoSave save : Step Claim Bool) state).result.isSome :=
    @guarded_returns _ _ _ _ (pure false) (fun _ => rfl) state
  obtain ⟨saved, returned⟩ := Option.isSome_iff_exists.mp returns
  exact ⟨saved, returned, trivial⟩

theorem autoSaveIf_yields (save : Option Save) :
    Yields (fun _ => True) (autoSaveIf save : Step Claim Unit) := by
  cases save with
  | none => exact .pure trivial
  | some save => exact (performAutoSave_yields save).bind fun _ _ => .pure trivial

theorem callback_yields (callback : SampleCallback) :
    Yields (fun _ => True) (callback.run : Step Claim Unit) :=
  (autoSaveIf_yields _).bind fun _ _ => autoSaveIf_yields _

/-- The optimizer step of a window finishes when it is skipped or taken. -/
theorem applyUpdate_yields {update : Update} (callback : SampleCallback)
    (finishes : update = .skipped ∨ update = .stepped) :
    Yields (fun _ => True) (applyUpdate update callback : Step Claim Unit) := by
  rcases finishes with rfl | rfl
  · exact callback_yields callback
  · have stepped : Yields (fun _ => True) (become (· + 1) : Step Claim Unit) :=
      fun _ => ⟨(), rfl, trivial⟩
    exact stepped.bind fun _ _ => callback_yields callback

theorem applyUpdate_throws {update : Update} (callback : SampleCallback)
    (stops : ¬ (update = .skipped ∨ update = .stepped)) :
    Throws (applyUpdate update callback : Step Claim Unit) := by
  cases update with
  | skipped => exact absurd (.inl rfl) stops
  | stepped => exact absurd (.inr rfl) stops
  | throwsBefore => exact fun _ => rfl
  | throwsAfter => exact fun _ => rfl

/-- A guarded optimizer step leaves the window empty if it finishes, and else
what its handler leaves. -/
theorem guardedUpdate_yields (update : Update) (callback : SampleCallback) {left : Nat}
    {handler : Step Claim Nat} (handled : Yields (· = left) handler) :
    Yields (· = if update = .skipped ∨ update = .stepped then 0 else left)
      (guarded (do applyUpdate update callback; pure 0) handler : Step Claim Nat) := by
  by_cases finishes : update = .skipped ∨ update = .stepped
  · rw [if_pos finishes]
    have emptied : Yields (· = 0) (do applyUpdate update callback; pure 0 : Step Claim Nat) :=
      (applyUpdate_yields callback finishes).bind fun _ _ => .pure rfl
    exact emptied.guarded _
  · rw [if_neg finishes]
    exact Throws.guarded (Throws.bind _ (applyUpdate_throws callback finishes)) handled

theorem sampleFailed_yields (window : Nat) (last backwardStarted : Bool) (sample : Sample) :
    Yields
      (· = let left := if backwardStarted then 0 else window
        if last && 0 < left && (sample.flush == .skipped || sample.flush == .stepped) then 0
        else left)
      (sampleFailed window last backwardStarted sample : Step Claim Nat) := by
  refine (callback_yields sample.failed).bind fun _ _ => ?_
  generalize (if backwardStarted then 0 else window) = left
  by_cases flushed : (last && 0 < left) = true
  · have guardedFlush := @guardedUpdate_yields Claim sample.flush sample.flushed _ _
      (@Yields.pure _ _ _ (· = left) left rfl)
    simp only [flushed, if_true, Bool.true_and, Bool.or_eq_true, beq_iff_eq]
    exact guardedFlush
  · simp only [flushed, Bool.false_and]
    exact .pure rfl

theorem trainSample_yields (accumulationSteps window : Nat) (last : Bool) (sample : Sample) :
    Yields (· = sample.windowAfter accumulationSteps window last)
      (trainSample accumulationSteps window last sample : Step Claim Nat) := by
  unfold trainSample Sample.windowAfter
  cases sample.backprop with
  | failsBefore => exact sampleFailed_yields window last false sample
  | failsDuring =>
      have failed := @sampleFailed_yields Claim window last true sample
      simpa using failed
  | completes =>
      dsimp only
      split
      · have failed := @sampleFailed_yields Claim window last true sample
        have stepped := guardedUpdate_yields sample.update sample.callback failed
        simpa using stepped
      · exact .pure rfl

theorem trainEpoch_yields (accumulationSteps : Nat) (samples : List Sample) :
    ∀ window, Yields (· = stopsIn accumulationSteps window samples)
      (trainEpoch accumulationSteps window samples : Step Claim Bool) := by
  induction samples with
  | nil => exact fun _ => .pure rfl
  | cons sample rest ih =>
      intro window
      by_cases abort : (window == 0 && sample.abort) = true
      · simp only [trainEpoch, stopsIn, abort, if_true, Bool.true_or]
        exact .pure rfl
      · simp only [trainEpoch, stopsIn, abort, Bool.false_or]
        exact (trainSample_yields _ _ _ _).bind fun _ left => left ▸ ih _

/-- A better loss starts the count of epochs without improvement again. -/
theorem validate_improves (config : TrainingConfig) (progress : Progress) (copy : Call)
    (snapshot : Save) :
    Yields (·.epochsWithoutImprovement = 0)
      (validate config progress (.improves copy snapshot) : Step Claim Progress) := by
  by_cases kept : (config.enableEarlyStopping && config.restoreBestWeights) = true
  · simp only [validate, kept, if_true]
    cases copy with
    | throws => exact Throws.guarded (fun _ => rfl) (.pure rfl)
    | returns =>
        have copied : Yields (fun _ => True) (Call.returns.run : Step Claim Unit) :=
          .pure trivial
        have known : Yields (fun _ => True) (current : Step Claim Nat) :=
          fun state => ⟨state, rfl, trivial⟩
        refine (copied.bind fun _ _ => known.bind fun _ _ => ?_).guarded _
        exact (performAutoSave_yields snapshot).bind fun _ _ => .pure rfl
  · simp only [validate, kept]
    exact .pure rfl

/-- The epochs return with no abort exactly when the condition says so. -/
def EndsAs (through : Bool) (epochs : Step Claim (Bool × Progress)) : Prop :=
  ∀ state, (epochs state).result.map Prod.fst = some false ↔ through = true

theorem EndsAs.bind {first : Step Claim α} {rest : α → Step Claim (Bool × Progress)}
    {Before : α → Prop} {through : Bool} (before : Yields Before first)
    (after : ∀ value, Before value → EndsAs through (rest value)) :
    EndsAs through (first >>= rest) := by
  intro state
  obtain ⟨value, returned, holds⟩ := before state
  rw [bind_of_returned returned]
  exact after value holds _

theorem endsAs_pure (aborted : Bool) (progress : Progress) :
    EndsAs (!aborted) (pure (aborted, progress) : Step Claim (Bool × Progress)) := by
  intro state
  cases aborted <;> simp

/-- What follows a validation: an early stop, or the other epochs. -/
theorem endsAs_earlyStop {config : TrainingConfig} {rest : List Epoch} {progress : Progress}
    (ih : EndsAs (config.runsThrough progress.epochsWithoutImprovement rest)
      (trainEpochs config rest progress : Step Claim (Bool × Progress))) :
    EndsAs
      (config.enableEarlyStopping && config.patience ≤ progress.epochsWithoutImprovement ||
        config.runsThrough progress.epochsWithoutImprovement rest)
      (if config.enableEarlyStopping && config.patience ≤ progress.epochsWithoutImprovement then
          pure (false, progress)
        else trainEpochs config rest progress : Step Claim (Bool × Progress)) := by
  by_cases stops : (config.enableEarlyStopping &&
      config.patience ≤ progress.epochsWithoutImprovement) = true
  · simp only [stops, if_true, Bool.true_or]
    exact endsAs_pure false progress
  · simp only [stops, Bool.false_or]
    exact ih

theorem trainEpochs_endsAs (config : TrainingConfig) (epochs : List Epoch) :
    ∀ progress, EndsAs (config.runsThrough progress.epochsWithoutImprovement epochs)
      (trainEpochs config epochs progress : Step Claim (Bool × Progress)) := by
  induction epochs with
  | nil => exact fun progress => endsAs_pure false progress
  | cons epoch rest ih =>
      intro progress
      refine EndsAs.bind (trainEpoch_yields _ _ _) fun aborted stopped => ?_
      subst stopped
      unfold TrainingConfig.runsThrough
      by_cases stops : stopsIn config.accumulationSteps 0 epoch.samples = true
      · simp only [stops, if_true, Bool.not_true, Bool.false_and]
        exact endsAs_pure true progress
      · simp only [stops, Bool.not_false, Bool.true_and]
        cases epoch.validation with
        | none => exact ih progress
        | some validation =>
            cases validation with
            | throws =>
                intro state
                simp [validate]
            | noImprovement => exact endsAs_earlyStop (ih _)
            | improves copy snapshot =>
                refine EndsAs.bind (validate_improves config progress copy snapshot)
                  fun after fresh => ?_
                rw [← fresh]
                exact endsAs_earlyStop (ih after)

theorem restoreBest_yields (config : TrainingConfig) (best : BestCopy) (restore : Restore) :
    Yields (fun _ => True) (restoreBest config best restore : Step Claim Unit) := by
  have becomes : ∀ next, Yields (fun _ => True) (become next : Step Claim Unit) :=
    fun next state => ⟨(), rfl, trivial⟩
  unfold restoreBest
  split
  · split
    · exact becomes _
    · exact becomes _
    · exact .pure trivial
  · exact .pure trivial

/-- `train` always returns, and reports a completed pass exactly when its training
completes. -/
theorem train_completes (training : TrainingRun) (state : Nat) :
    ∃ ended, ((train training : Step Claim (Bool × Bool)) state).result = some ended ∧
      (ended = (true, false) ↔ training.completes = true) := by
  unfold train TrainingRun.completes
  cases tokenized : training.tokenization with
  | reportsFailure => exact ⟨(false, false), rfl, by simp⟩
  | throws => exact ⟨(false, false), rfl, by simp⟩
  | succeeds =>
      have through := @trainEpochs_endsAs Claim training.config training.epochs
        ⟨⟨false, none⟩, 0⟩ state
      have tokenizes : ((Outcome.succeeds.run : Step Claim Bool) state).result = some true := rfl
      cases returned : ((trainEpochs training.config training.epochs ⟨⟨false, none⟩, 0⟩ :
          Step Claim (Bool × Progress)) state).result with
      | none =>
          refine ⟨(false, false), ?_, by simpa [returned] using through⟩
          rw [guarded_of_threw]
          · rfl
          · rw [bind_of_returned tokenizes]
            exact congrArg Ended.result (bind_of_threw returned)
      | some ended =>
          refine ⟨(true, ended.1), ?_, by simpa [returned] using through⟩
          obtain ⟨_, restored, _⟩ := @restoreBest_yields Claim training.config
            ended.2.best training.restore _
          have body := @bind_of_returned _ _ _ _ _ (fun ended : Bool × Progress => do
            restoreBest training.config ended.2.best training.restore
            pure (true, ended.1)) _ _ returned
          rw [guarded_of_returned _ (true, ended.1)]
          all_goals
            rw [bind_of_returned tokenizes]
            refine (congrArg Ended.result body).trans ?_
            exact congrArg Ended.result (bind_of_returned restored)

/-! ## When `train_on_files` ends by an exception -/

theorem saveModel_apply (save : Call) (state : Nat) :
    (saveModel save : Step Claim Bool) state =
      ⟨state, if save = .returns then [.saved state] else [], some (save == .returns)⟩ := by
  cases save <;> rfl

/-- `run_training` ends by an exception only where saving the training state of a
written checkpoint throws. -/
theorem runTraining_threw (files : TrainOnFiles) (state : Nat) :
    ((runTraining files : Step Claim Bool) state).result = none ↔
      files.training.completes = true ∧ files.save = .returns ∧
        files.saveTrainingState = .throws := by
  obtain ⟨⟨success, aborted⟩, returned, completes⟩ :=
    @train_completes Claim files.training state
  rw [← completes, runTraining, bind_of_returned returned]
  cases aborted <;> cases success <;> cases files.save <;> cases files.saveTrainingState <;>
    simp [saveModel_apply, Outcome.run]

/-- A pass that `run_training` reports as completed has its weights in a
checkpoint. -/
theorem runTraining_saved {files : TrainOnFiles} {state : Nat}
    (completed : ((runTraining files : Step Claim Bool) state).result = some true) :
    .saved ((runTraining files : Step Claim Bool) state).state ∈
      ((runTraining files : Step Claim Bool) state).effects := by
  obtain ⟨⟨success, aborted⟩, returned, -⟩ :=
    @train_completes Claim files.training state
  rw [runTraining, bind_of_returned returned] at completed ⊢
  cases aborted <;> cases success <;> cases saved : files.save <;>
    cases written : files.saveTrainingState <;>
    simp [saveModel_apply, Outcome.run, saved, written] at completed ⊢

theorem trainOnPairs_threw (files : TrainOnFiles) (state : Nat) :
    ((trainOnPairs files : Step Claim Bool) state).result = none ↔
      files.loadTrainingState = some .throws ∨
        files.training.completes = true ∧ files.save = .returns ∧
          files.saveTrainingState = .throws := by
  unfold trainOnPairs
  cases restored : files.loadTrainingState with
  | none => simpa [restoreIf] using runTraining_threw files state
  | some outcome =>
      cases outcome with
      | throws => simp [restoreIf, Outcome.run]
      | succeeds => simpa [restoreIf, Outcome.run] using runTraining_threw files state
      | reportsFailure => simpa [restoreIf, Outcome.run] using runTraining_threw files state

theorem trainOnPairs_saved {files : TrainOnFiles} {state : Nat}
    (completed : ((trainOnPairs files : Step Claim Bool) state).result = some true) :
    .saved ((trainOnPairs files : Step Claim Bool) state).state ∈
      ((trainOnPairs files : Step Claim Bool) state).effects := by
  unfold trainOnPairs at completed ⊢
  cases restored : files.loadTrainingState with
  | none =>
      simp only [restored, restoreIf, bind_apply, pure_apply, followedBy_returned,
        List.nil_append] at completed ⊢
      exact runTraining_saved completed
  | some outcome =>
      cases outcome <;>
        simp only [restored, restoreIf, Outcome.run, bind_apply, pure_apply, throw_apply,
          followedBy_returned, followedBy_threw, List.nil_append, reduceCtorEq] at completed ⊢
      all_goals exact runTraining_saved completed

/-- `train_on_files` ends by an exception exactly when one of its calls outside a
`try` block throws. -/
theorem trainOnFiles_threw (files : TrainOnFiles) (state : Nat) :
    ((trainOnFiles files : Step Claim Bool) state).result = none ↔ ¬ files.NoneEscapes := by
  unfold trainOnFiles TrainOnFiles.NoneEscapes TrainOnFiles.pairCounts
  cases loaded : files.load with
  | none => simp
  | some pairCounts =>
      by_cases empty : pairCounts.sum = 0
      · simp [empty]
      · have pairs := @trainOnPairs_threw Claim files
        cases pending : files.pendingVocabBuild with
        | false =>
            simp only [empty, if_false, Option.getD_some]
            grind
        | true =>
            cases built : files.bootstrapVocab <;> cases model : files.buildModel <;>
              simp [empty, Outcome.run, Call.run, pairs]
            grind

theorem trainOnFiles_saved {files : TrainOnFiles} {state : Nat}
    (completed : ((trainOnFiles files : Step Claim Bool) state).result = some true) :
    .saved ((trainOnFiles files : Step Claim Bool) state).state ∈
      ((trainOnFiles files : Step Claim Bool) state).effects := by
  unfold trainOnFiles at completed ⊢
  cases loaded : files.load with
  | none => simp [loaded] at completed
  | some pairCounts =>
      by_cases empty : pairCounts.sum = 0
      · simp [loaded, empty] at completed
      · cases pending : files.pendingVocabBuild with
        | false =>
            simp only [loaded, empty, pending, if_false, Bool.false_eq_true] at completed ⊢
            exact trainOnPairs_saved completed
        | true =>
            cases built : files.bootstrapVocab <;> cases model : files.buildModel <;>
              simp [loaded, empty, pending, built, model, Outcome.run, Call.run]
                at completed ⊢
            exact trainOnPairs_saved completed

/-! ## What the effects say -/

theorem not_released_of_saves {effects : List (Effect Claim)} (saves : ∀ e ∈ effects, IsSave e)
    (unit : Claim) : ¬ Released unit effects := by
  rintro ⟨units, member, -⟩
  obtain ⟨weights, impossible⟩ := saves _ member
  cases impossible

theorem not_marked_of_saves {effects : List (Effect Claim)} (saves : ∀ e ∈ effects, IsSave e)
    (unit : Claim) : ¬ MarkedTrained unit effects := by
  rintro ⟨units, counts, member, -⟩
  obtain ⟨weights, impossible⟩ := saves _ member
  cases impossible

/-- What is asked of a pass, of the way it ended. -/
def Sound (units : List Claim) (ended : Ended Nat (Effect Claim) α) : Prop :=
  Settled units ended.effects ∧ RecordedAfterSave ended

theorem sound_of_no_units {ended : Ended Nat (Effect Claim) α}
    (saves : ∀ e ∈ ended.effects, IsSave e) : Sound [] ended := by
  refine ⟨fun unit member => absurd member List.not_mem_nil, ?_⟩
  intro before units counts after shape
  obtain ⟨weights, impossible⟩ := saves (.markedTrained units counts) (by simp [shape])
  cases impossible

/-- A claimed batch is not settled by checkpoints alone. -/
theorem not_sound_of_saves {units : List Claim} {ended : Ended Nat (Effect Claim) α}
    (claimed : units ≠ []) (saves : ∀ e ∈ ended.effects, IsSave e) :
    ¬ Sound units ended := by
  rintro ⟨settled, -⟩
  obtain ⟨unit, rest, rfl⟩ := List.exists_cons_of_ne_nil claimed
  rcases settled unit (List.mem_cons_self ..) with ⟨released, -⟩ | ⟨marked, -⟩
  · exact not_released_of_saves saves unit released
  · exact not_marked_of_saves saves unit marked

theorem released_append (unit : Claim) (before after : List (Effect Claim)) :
    Released unit (before ++ after) ↔ Released unit before ∨ Released unit after := by
  simp only [Released, List.mem_append, or_and_right, exists_or]

theorem markedTrained_append (unit : Claim) (before after : List (Effect Claim)) :
    MarkedTrained unit (before ++ after) ↔
      MarkedTrained unit before ∨ MarkedTrained unit after := by
  simp only [MarkedTrained, List.mem_append, or_and_right, exists_or]

/-- A batch given back after some checkpoints is settled. -/
theorem sound_of_released {units : List Claim} {ended : Ended Nat (Effect Claim) α}
    {before : List (Effect Claim)} (saves : ∀ e ∈ before, IsSave e)
    (shape : ended.effects = before ++ [.released units]) : Sound units ended := by
  constructor
  · intro unit member
    refine .inl ⟨?_, ?_⟩
    · exact ⟨units, by simp [shape], member⟩
    · rw [shape, markedTrained_append]
      rintro (marked | ⟨batch, counts, marked, -⟩)
      · exact not_marked_of_saves saves unit marked
      · simp at marked
  · intro front batch counts back split
    have marked : .markedTrained batch counts ∈ before ++ [.released units] := by
      simp [← shape, split]
    rcases List.mem_append.mp marked with early | late
    · obtain ⟨weights, impossible⟩ := saves _ early
      cases impossible
    · simp at late

/-- Only one effect among checkpoints is not a checkpoint. -/
theorem before_eq_of_split {before after front back : List (Effect Claim)}
    {answer other : Effect Claim} (savesBefore : ∀ e ∈ before, IsSave e)
    (savesAfter : ∀ e ∈ after, IsSave e) (notSave : ¬ IsSave other)
    (shape : before ++ answer :: after = front ++ other :: back) : before = front := by
  rcases List.append_eq_append_iff.mp shape with ⟨between, rest, tail⟩ | ⟨between, rest, tail⟩
  · cases between with
    | nil => rw [rest, List.append_nil]
    | cons first between =>
        obtain ⟨-, rfl⟩ := List.cons.inj tail
        exact absurd (savesAfter other (by simp)) notSave
  · cases between with
    | nil => rw [rest, List.append_nil]
    | cons first between =>
        obtain ⟨rfl, -⟩ := List.cons.inj tail
        exact absurd (savesBefore other (by simp [rest])) notSave

theorem not_isSave_markedTrained (units : List Claim) (counts : List Nat) :
    ¬ IsSave (.markedTrained units counts) := by
  rintro ⟨weights, impossible⟩
  cases impossible

/-- A batch recorded between checkpoints is settled, and soundly recorded exactly
when the final weights were saved before. -/
theorem sound_iff_of_marked {units : List Claim} {counts : List Nat}
    {ended : Ended Nat (Effect Claim) α} {before after : List (Effect Claim)}
    (savesBefore : ∀ e ∈ before, IsSave e) (savesAfter : ∀ e ∈ after, IsSave e)
    (shape : ended.effects = before ++ .markedTrained units counts :: after) :
    Sound units ended ↔ .saved ended.state ∈ before := by
  constructor
  · rintro ⟨-, recorded⟩
    exact recorded before units counts after shape
  · intro saved
    constructor
    · intro unit member
      refine .inr ⟨⟨units, counts, by simp [shape], member⟩, ?_⟩
      rw [shape, released_append]
      rintro (released | ⟨batch, released, -⟩)
      · exact not_released_of_saves savesBefore unit released
      · rcases List.mem_cons.mp released with impossible | late
        · cases impossible
        · obtain ⟨weights, impossible⟩ := savesAfter _ late
          cases impossible
    · intro front batch others back split
      have same := before_eq_of_split savesBefore savesAfter
        (not_isSave_markedTrained batch others) (shape.symm.trans split)
      exact same ▸ saved

/-! ## The chatbot passes -/

/-- What follows `train_on_files` in both chatbot passes settles the batch unless
`train_on_files` threw. -/
theorem settle_sound {units : List Claim} (claimed : units ≠ []) (files : TrainOnFiles)
    (code : Bool → Step Claim α) (silent : ∀ ok, ∃ value, code ok = pure value) (state : Nat) :
    Sound units ((do
        let ok ← trainOnFiles files
        settle units files ok
        code ok : Step Claim α) state) ↔ files.NoneEscapes := by
  have saves := @trainOnFiles_leaves_saves Claim files state
  cases returned : ((trainOnFiles files : Step Claim Bool) state).result with
  | none =>
      have escapes := (trainOnFiles_threw files state).mp returned
      rw [bind_of_threw returned]
      exact iff_of_false (not_sound_of_saves claimed saves) escapes
  | some ok =>
      have contained : files.NoneEscapes := by
        by_contra escapes
        rw [(trainOnFiles_threw files state).mpr escapes] at returned
        cases returned
      refine iff_of_true ?_ contained
      rw [bind_of_returned returned]
      obtain ⟨value, coded⟩ := silent ok
      cases ok with
      | false =>
          apply sound_of_released saves
          simp [settle, coded]
      | true =>
          have shape : (((do settle units files true; code true) : Step Claim α)
              ((trainOnFiles files : Step Claim Bool) state).state).effects =
              .markedTrained units files.pairCounts :: [] := by
            simp [settle, coded]
          refine (sound_iff_of_marked saves (List.forall_mem_nil IsSave)
            (congrArg (_ ++ ·) shape)).mpr ?_
          simpa [settle, coded] using trainOnFiles_saved returned

theorem sound_returned {units : List Claim} (state : Nat) (value : α) :
    Sound units (⟨state, [.released units], some value⟩ : Ended Nat (Effect Claim) α) :=
  sound_of_released (List.forall_mem_nil IsSave) rfl

theorem trainPass_sound {units : List Claim} (claimed : units ≠ []) (pass : TrainPass)
    (state : Nat) : Sound units (trainPass units pass state) ↔ pass.NoneEscapes := by
  have some : units.isEmpty = false := by simpa using claimed
  unfold trainPass TrainPass.NoneEscapes
  rw [some]
  cases resolved : pass.resolveFiles with
  | throws =>
      refine iff_of_false ?_ (by simp)
      exact not_sound_of_saves claimed (List.forall_mem_nil IsSave)
  | reportsFailure => exact iff_of_true (sound_returned state 1) (by simp)
  | succeeds =>
      have settled := settle_sound claimed pass.files
        (fun ok => pure (if ok then 0 else 1)) (fun ok => ⟨_, rfl⟩) state
      simpa [Outcome.run] using settled

theorem loadModel_apply (load : Call) (state : Nat) :
    (loadModel load : Step Claim Bool) state = ⟨state + 1, [], some (load == .returns)⟩ := by
  cases load <;> rfl

/-- What `resume_last_session` does once it has local files. -/
theorem resumeFrom_sound {units : List Claim} (claimed : units ≠ []) (pass : ResumePass)
    (state : Nat) :
    Sound units ((do
        if ← pass.loadCheckpoint then
          let ok ← trainOnFiles pass.files
          settle units pass.files ok
          pure (if ok then .trained else .failed)
        else
          leave (.released units)
          pure .failed : Step Claim ResumeResult) state) ↔
      (pass.Loads → pass.files.NoneEscapes) := by
  have settled := settle_sound claimed pass.files
    (fun ok => pure (if ok then ResumeResult.trained else .failed)) (fun ok => ⟨_, rfl⟩)
  unfold ResumePass.loadCheckpoint ResumePass.Loads
  cases pass.checkpoint with
  | none => simpa using settled state
  | some present =>
      cases present with
      | false => exact iff_of_true (sound_returned state _) (by simp)
      | true =>
          cases pass.loading with
          | returns => simpa [loadModel_apply] using settled (state + 1)
          | throws => exact iff_of_true (sound_returned (state + 1) _) (by simp)

theorem resumeLastSession_sound {units : List Claim} (claimed : units ≠ []) (pass : ResumePass)
    (state : Nat) : Sound units (resumeLastSession units pass state) ↔ pass.NoneEscapes := by
  have some : units.isEmpty = false := by simpa using claimed
  have resumed := resumeFrom_sound claimed pass state
  unfold resumeLastSession ResumePass.NoneEscapes ResumePass.Resolves ResumePass.resolveFiles
  rw [some]
  cases pass.resolver with
  | none =>
      cases pass.ftp with
      | true => exact iff_of_true (sound_returned state _) (by simp)
      | false => simpa using resumed
  | some outcome =>
      cases outcome with
      | throws =>
          refine iff_of_false ?_ (by simp)
          exact not_sound_of_saves claimed (List.forall_mem_nil IsSave)
      | reportsFailure => exact iff_of_true (sound_returned state _) (by simp)
      | succeeds => simpa [Outcome.run] using resumed

theorem resumePass_sound {units : List Claim} (claimed : units ≠ []) (pass : ResumePass)
    (state : Nat) : Sound units (resumePass units pass state) ↔ pass.NoneEscapes := by
  rw [← resumeLastSession_sound claimed pass state]
  unfold resumePass
  cases returned : ((resumeLastSession units pass : Step Claim ResumeResult) state).result with
  | none =>
      rw [bind_of_threw returned]
      exact Iff.rfl
  | some result =>
      rw [bind_of_returned returned]
      cases result <;> simp [Sound, RecordedAfterSave]

/-! ## The LeJEPA pass -/

/-- How far the saves of a pass have come: whether the current weights are among
them, none being newer. -/
def Tracks (saved : Bool) (effects : List (Effect Claim)) (weights : Nat) : Prop :=
  (saved = true ↔ .saved weights ∈ effects) ∧
    ∀ other, .saved other ∈ effects → other ≤ weights

theorem tracks_start (weights : Nat) : Tracks false ([] : List (Effect Claim)) weights := by
  refine ⟨by simp, ?_⟩
  intro other member
  cases member

theorem Tracks.save {saved : Bool} {effects : List (Effect Claim)} {weights : Nat}
    (tracks : Tracks saved effects weights) :
    Tracks true (effects ++ [.saved weights]) weights := by
  refine ⟨by simp, ?_⟩
  intro other member
  rcases List.mem_append.mp member with early | late
  · exact tracks.2 other early
  · simp only [List.mem_singleton, Effect.saved.injEq] at late
    exact Nat.le_of_eq late

/-- New weights are in no checkpoint yet. -/
theorem Tracks.update {saved : Bool} {effects : List (Effect Claim)} {weights : Nat}
    (tracks : Tracks saved effects weights) : Tracks false effects (weights + 1) := by
  refine ⟨?_, fun other member => Nat.le_succ_of_le (tracks.2 other member)⟩
  simp only [Bool.false_eq_true, false_iff]
  intro member
  have older := tracks.2 _ member
  omega

/-- The checkpoints an attempt adds keep track, from `before` to `after`. -/
def Carries (before after : Bool) (attempt : Step Claim α) : Prop :=
  ∀ state effects, Tracks before effects state →
    Tracks after (effects ++ (attempt state).effects) (attempt state).state

theorem Carries.bind {before between after : Bool} {first : Step Claim α}
    {rest : α → Step Claim β} {Before : α → Prop} (yields : Yields Before first)
    (early : Carries before between first)
    (late : ∀ value, Before value → Carries between after (rest value)) :
    Carries before after (first >>= rest) := by
  intro state effects tracks
  obtain ⟨value, returned, holds⟩ := yields state
  rw [bind_of_returned returned, ← List.append_assoc]
  exact late value holds _ _ (early state effects tracks)

theorem Carries.pure (saved : Bool) (value : α) :
    Carries saved saved (pure value : Step Claim α) := by
  intro state effects tracks
  simpa using tracks

theorem saveCheckpoint_apply (save : Call) (state : Nat) :
    (saveCheckpoint save : Step Claim Bool) state =
      ⟨state, if save = .returns then [.saved state] else [], some (save == .returns)⟩ :=
  saveModel_apply save state

theorem checkpointIf_yields (save : Option Call) :
    Yields (fun _ => True) (checkpointIf save : Step Claim Unit) := by
  intro state
  cases save with
  | none => exact ⟨(), rfl, trivial⟩
  | some save => exact ⟨(), by simp [checkpointIf, saveCheckpoint_apply], trivial⟩

theorem checkpointIf_carries (saved : Bool) (save : Option Call) :
    Carries saved (saved || save == some .returns) (checkpointIf save : Step Claim Unit) := by
  intro state effects tracks
  cases save with
  | none => simpa [checkpointIf] using tracks
  | some save =>
      cases save with
      | throws =>
          have unsaved : (some Call.throws == some Call.returns) = false := rfl
          simpa [checkpointIf, saveCheckpoint_apply, unsaved] using tracks
      | returns => simpa [checkpointIf, saveCheckpoint_apply] using tracks.save

theorem autoSaves_yields (saves : List (Option Call)) :
    Yields (fun _ => True) (autoSaves saves : Step Claim Unit) := by
  induction saves with
  | nil => exact .pure trivial
  | cons save rest ih => exact (checkpointIf_yields save).bind fun _ _ => ih

theorem autoSaves_carries (saves : List (Option Call)) :
    ∀ saved, Carries saved (saved || saves.contains (some .returns))
      (autoSaves saves : Step Claim Unit) := by
  induction saves with
  | nil =>
      intro saved
      rw [List.contains_nil, Bool.or_false]
      exact .pure saved ()
  | cons save rest ih =>
      intro saved
      have order : (saved || (save :: rest).contains (some Call.returns)) =
          (saved || save == some .returns || rest.contains (some .returns)) := by
        rw [List.contains_cons, Bool.or_assoc, BEq.comm]
      rw [order]
      exact (checkpointIf_carries saved save).bind (checkpointIf_yields save) fun _ _ => ih _

theorem become_carries (saved : Bool) :
    Carries saved false (become (· + 1) : Step Claim Unit) := by
  intro state effects tracks
  simpa using tracks.update

theorem become_yields (next : Nat → Nat) :
    Yields (fun _ => True) (become next : Step Claim Unit) :=
  fun _ => ⟨(), rfl, trivial⟩

theorem batchOutcome_yields (outcome : BatchOutcome) :
    Yields
      (· = match outcome with
        | .throws _ => 0
        | .trains saves => saves.length)
      (outcome.run : Step Claim Nat) := by
  cases outcome with
  | throws wroteSome =>
      cases wroteSome with
      | false => exact .pure rfl
      | true => exact (become_yields _).bind fun _ _ => .pure rfl
  | trains saves =>
      cases saves with
      | nil => exact .pure rfl
      | cons save rest =>
          exact (become_yields _).bind fun _ _ => (autoSaves_yields _).bind fun _ _ => .pure rfl

theorem batchOutcome_carries (saved : Bool) (outcome : BatchOutcome) :
    Carries saved
      (match outcome with
        | .throws wroteSome => saved && !wroteSome
        | .trains saves => if saves.isEmpty then saved else saves.contains (some .returns))
      (outcome.run : Step Claim Nat) := by
  cases outcome with
  | throws wroteSome =>
      cases wroteSome with
      | false =>
          dsimp only
          rw [Bool.not_false, Bool.and_true]
          exact .pure saved 0
      | true =>
          dsimp only
          rw [Bool.not_true, Bool.and_false]
          exact (become_carries saved).bind (become_yields _) fun _ _ => .pure false 0
  | trains saves =>
      cases saves with
      | nil => exact .pure saved 0
      | cons save rest =>
          refine (become_carries saved).bind (become_yields _) fun _ _ => ?_
          have kept := @autoSaves_carries Claim (save :: rest) false
          rw [Bool.false_or] at kept
          exact kept.bind (autoSaves_yields _) fun _ _ => .pure _ _

theorem trainBatch_yields (batch : Batch) :
    Yields (· = batch.trained) (trainBatch batch : Step Claim Nat) :=
  (checkpointIf_yields _).bind fun _ _ => batchOutcome_yields batch.outcome

theorem trainBatch_carries (saved : Bool) (batch : Batch) :
    Carries saved (batch.keepsSaved saved) (trainBatch batch : Step Claim Nat) :=
  (checkpointIf_carries saved batch.requested).bind (checkpointIf_yields _)
    fun _ _ => batchOutcome_carries _ batch.outcome

theorem lejepaEpoch_yields (batches : List Batch) :
    ∀ trained, Yields
      (· = (trained + ((unpaused batches).map Batch.trained).sum, batches.any (·.paused)))
      (lejepaEpoch batches trained : Step Claim (Nat × Bool)) := by
  induction batches with
  | nil => exact fun trained => .pure rfl
  | cons batch rest ih =>
      intro trained
      unfold lejepaEpoch unpaused
      cases paused : batch.paused with
      | true => exact .pure (by simp [paused])
      | false =>
          simp only [Bool.false_eq_true, if_false]
          refine (trainBatch_yields batch).bind fun count counted => ?_
          subst counted
          simpa [paused, unpaused, Nat.add_assoc] using ih (trained + batch.trained)

theorem lejepaEpoch_carries (batches : List Batch) :
    ∀ trained saved, Carries saved ((unpaused batches).foldl Batch.keepsSaved saved)
      (lejepaEpoch batches trained : Step Claim (Nat × Bool)) := by
  induction batches with
  | nil => exact fun trained saved => .pure saved _
  | cons batch rest ih =>
      intro trained saved
      unfold lejepaEpoch unpaused
      cases paused : batch.paused with
      | true =>
          rw [List.takeWhile_cons_of_neg (by simp [paused])]
          exact .pure saved _
      | false =>
          rw [List.takeWhile_cons_of_pos (by simp [paused])]
          simp only [Bool.false_eq_true, if_false, List.foldl_cons]
          exact (trainBatch_carries saved batch).bind (trainBatch_yields batch)
            fun _ _ => ih _ _

/-- Up to the first pause, an epoch without a pause goes before the next ones. -/
theorem unpaused_append (batches rest : List Batch) :
    unpaused (batches ++ rest) =
      if batches.any (·.paused) then unpaused batches else unpaused batches ++ unpaused rest := by
  induction batches with
  | nil => rfl
  | cons batch batches ih =>
      cases paused : batch.paused with
      | true => simp [unpaused, paused]
      | false =>
          simp only [unpaused, List.cons_append, List.takeWhile_cons, paused, Bool.not_false,
            if_true, List.any_cons, Bool.false_or]
          rw [show (batches ++ rest).takeWhile (fun batch => !batch.paused) = _ from ih]
          split <;> rfl

theorem lejepaEpochs_yields (epochs : List (List Batch)) :
    ∀ trained, Yields
      (· = (trained + ((unpaused epochs.flatten).map Batch.trained).sum,
        epochs.flatten.any (·.paused)))
      (lejepaEpochs epochs trained : Step Claim (Nat × Bool)) := by
  induction epochs with
  | nil => exact fun trained => .pure rfl
  | cons epoch rest ih =>
      intro trained
      refine (lejepaEpoch_yields epoch trained).bind fun ended reached => ?_
      subst reached
      dsimp only
      rw [List.flatten_cons, unpaused_append, List.any_append]
      cases paused : epoch.any (·.paused) with
      | true =>
          simp only [if_true, Bool.true_or]
          exact .pure rfl
      | false =>
          simp only [Bool.false_eq_true, if_false, Bool.false_or, List.map_append,
            List.sum_append, ← Nat.add_assoc]
          exact ih _

theorem lejepaEpochs_carries (epochs : List (List Batch)) :
    ∀ trained saved, Carries saved ((unpaused epochs.flatten).foldl Batch.keepsSaved saved)
      (lejepaEpochs epochs trained : Step Claim (Nat × Bool)) := by
  induction epochs with
  | nil => exact fun trained saved => .pure saved _
  | cons epoch rest ih =>
      intro trained saved
      refine (lejepaEpoch_carries epoch trained saved).bind (lejepaEpoch_yields epoch trained)
        fun ended reached => ?_
      subst reached
      dsimp only
      rw [List.flatten_cons, unpaused_append]
      cases paused : epoch.any (·.paused) with
      | true =>
          simp only [if_true]
          exact .pure _ _
      | false =>
          simp only [Bool.false_eq_true, if_false, List.foldl_append]
          exact ih _ _

theorem checkpointIf_leaves_saves (save : Option Call) :
    Leaves IsSave (checkpointIf save : Step Claim Unit) := by
  cases save with
  | none => exact .pure ()
  | some save => exact (saveModel_leaves_saves save).bind fun _ => .pure ()

theorem autoSaves_leaves_saves (saves : List (Option Call)) :
    Leaves IsSave (autoSaves saves : Step Claim Unit) := by
  induction saves with
  | nil => exact .pure ()
  | cons save rest ih => exact (checkpointIf_leaves_saves save).bind fun _ => ih

theorem batchOutcome_leaves_saves (outcome : BatchOutcome) :
    Leaves IsSave (outcome.run : Step Claim Nat) := by
  unfold BatchOutcome.run
  split
  · exact (become_leaves_saves _).bind fun _ => .pure 0
  · exact .pure 0
  · split
    · exact .pure 0
    · exact (become_leaves_saves _).bind fun _ =>
        (autoSaves_leaves_saves _).bind fun _ => .pure _

theorem lejepaEpoch_leaves_saves (batches : List Batch) :
    ∀ trained, Leaves IsSave (lejepaEpoch batches trained : Step Claim (Nat × Bool)) := by
  induction batches with
  | nil => exact fun trained => .pure _
  | cons batch rest ih =>
      intro trained
      unfold lejepaEpoch
      split
      · exact .pure _
      · exact ((checkpointIf_leaves_saves _).bind fun _ =>
          batchOutcome_leaves_saves batch.outcome).bind fun _ => ih _

theorem lejepaEpochs_leaves_saves (epochs : List (List Batch)) :
    ∀ trained, Leaves IsSave (lejepaEpochs epochs trained : Step Claim (Nat × Bool)) := by
  induction epochs with
  | nil => exact fun trained => .pure _
  | cons epoch rest ih =>
      intro trained
      refine (lejepaEpoch_leaves_saves epoch trained).bind fun ended => ?_
      rcases ended with ⟨trained, aborted⟩
      dsimp only
      split
      · exact .pure _
      · exact ih _

theorem loadFiles_apply (load : List (Option (List (String × String)))) (state : Nat) :
    (loadFiles load : Step Claim (List (List (String × String)))) state =
      ⟨state, [], if none ∈ load then none else some load.reduceOption⟩ := by
  induction load with
  | nil => rfl
  | cons file rest ih =>
      cases file with
      | none => simp [loadFiles]
      | some pairs =>
          by_cases throws : none ∈ rest
          · simp [loadFiles, ih, throws]
          · simp only [loadFiles, bind_apply, ih, throws, if_false, followedBy_returned,
              pure_apply, List.mem_cons, reduceCtorEq, or_self, List.append_nil]
            rfl

/-- The end of a LeJEPA pass after the given checkpoints. -/
theorem lejepaFinish_sound {units : List Claim} (pass : LejepaPass) (pairCounts : List Nat)
    (trained : Nat) (aborted : Bool) {saves : List (Effect Claim)} {state : Nat}
    (only : ∀ e ∈ saves, IsSave e) :
    Sound units
        (⟨(lejepaFinish units pass pairCounts trained aborted state).state,
          saves ++ (lejepaFinish units pass pairCounts trained aborted state).effects,
          (lejepaFinish units pass pairCounts trained aborted state).result⟩ :
          Ended Nat (Effect Claim) Nat) ↔
      (aborted = false → trained ≠ 0 → .saved state ∈ saves) := by
  unfold lejepaFinish
  cases aborted with
  | true =>
      refine iff_of_true ?_ (by simp)
      obtain ⟨_, returned, -⟩ := @checkpointIf_yields Claim
        (if 0 < trained then some pass.pauseSave else none) state
      simp only [if_true]
      rw [bind_of_returned returned, ← List.append_assoc]
      apply sound_of_released _ rfl
      intro effect member
      rcases List.mem_append.mp member with early | late
      · exact only effect early
      · exact checkpointIf_leaves_saves _ state effect late
  | false =>
      by_cases some : 0 < trained
      · simp only [Bool.false_eq_true, if_false, some, if_true]
        cases pass.save with
        | throws =>
            refine (sound_iff_of_marked only (List.forall_mem_nil IsSave) rfl).trans ?_
            simp [writeCheckpoint, Call.run, Nat.pos_iff_ne_zero.mp some]
        | returns =>
            have written : ∀ e ∈ [(Effect.saved state : Effect Claim)], IsSave e := by
              intro effect member
              exact ⟨state, List.mem_singleton.mp member⟩
            refine (sound_iff_of_marked only written rfl).trans ?_
            simp [writeCheckpoint, Call.run, Nat.pos_iff_ne_zero.mp some]
      · simp only [Bool.false_eq_true, if_false, some]
        refine iff_of_true (sound_of_released only rfl) ?_
        intro _ trainedSome
        omega

theorem lejepaPass_sound {units : List Claim} (claimed : units ≠ []) (pass : LejepaPass)
    (state : Nat) :
    Sound units (runLejepaTrainingPass units pass state) ↔ pass.SavesFirst := by
  have some : units.isEmpty = false := by simpa using claimed
  unfold runLejepaTrainingPass LejepaPass.SavesFirst
  rw [some]
  cases resolved : pass.resolveFiles with
  | throws =>
      refine iff_of_false ?_ (by simp)
      exact not_sound_of_saves claimed (List.forall_mem_nil IsSave)
  | reportsFailure => exact iff_of_true (sound_returned state 1) (by simp)
  | succeeds =>
      by_cases throws : none ∈ pass.load
      · refine iff_of_false ?_ (by simp [throws])
        apply not_sound_of_saves claimed
        simp [Outcome.run, loadFiles_apply, throws]
      · simp only [Outcome.run, bind_apply, pure_apply, followedBy_returned, loadFiles_apply,
          throws, if_false, List.nil_append, if_true, Bool.false_eq_true, not_false_eq_true,
          ne_eq, reduceCtorEq, forall_const, true_and]
        by_cases empty : LejepaPass.texts pass.load.reduceOption = []
        · rw [empty]
          exact iff_of_true (sound_returned state 1) (by simp)
        · have filled : (LejepaPass.texts pass.load.reduceOption).isEmpty = false := by
            simpa using empty
          simp only [filled, Bool.false_eq_true, if_false, empty, not_false_eq_true,
            forall_const]
          have ended := @lejepaEpochs_yields Claim
            (pass.batches (LejepaPass.texts pass.load.reduceOption).length) 0 state
          have carried := @lejepaEpochs_carries Claim
            (pass.batches (LejepaPass.texts pass.load.reduceOption).length) 0 false state []
            (tracks_start state)
          have only := @lejepaEpochs_leaves_saves Claim
            (pass.batches (LejepaPass.texts pass.load.reduceOption).length) 0 state
          rw [List.nil_append] at carried
          obtain ⟨_, returned, rfl⟩ := ended
          rw [bind_of_returned returned]
          refine (lejepaFinish_sound pass _ _ _ only).trans ?_
          rw [← carried.1, Nat.zero_add]
          exact Iff.rfl

/-! ## The passes -/

/-- A pass that finds nothing to claim leaves nothing behind. -/
theorem pass_sound_of_no_units (pass : Pass) (start : Nat) :
    Sound ([] : List Claim) (pass.run [] start) := by
  cases pass with
  | train pass => exact sound_of_no_units (List.forall_mem_nil IsSave)
  | resume pass => exact sound_of_no_units (List.forall_mem_nil IsSave)
  | lejepa pass => exact sound_of_no_units (List.forall_mem_nil IsSave)

/-- A pass settles its batch, and records it only after its weights were saved,
exactly when it claimed nothing or the condition on its outcomes holds. -/
theorem settlement_iff (units : List Claim) (pass : Pass) (start : Nat) :
    Settled units (pass.run units start).effects ∧ RecordedAfterSave (pass.run units start) ↔
      units = [] ∨ pass.Condition := by
  by_cases claimed : units = []
  · subst claimed
    exact iff_of_true (pass_sound_of_no_units pass start) (.inl rfl)
  · have conditioned : Sound units (pass.run units start) ↔ pass.Condition := by
      cases pass with
      | train pass => exact trainPass_sound claimed pass start
      | resume pass => exact resumePass_sound claimed pass start
      | lejepa pass => exact lejepaPass_sound claimed pass start
    exact conditioned.trans (by simp [claimed])

/-- A LeJEPA pass over one file with one pair, whose only save, the last one,
throws. -/
def unsavedPass : LejepaPass where
  resolveFiles := .succeeds
  load := [some [("a text", "its answer")]]
  batchSize := 8
  epochs := 1
  batch := fun _ _ => ⟨false, none, .trains [none, none]⟩
  pauseSave := .returns
  save := .throws

/-- The LeJEPA pass can record its batch and then fail to save: not every run of
the passes records only saved weights. -/
theorem settlement_fails :
    ¬ ∀ (units : List Nat) (pass : Pass) (start : Nat),
      Settled units (pass.run units start).effects ∧
        RecordedAfterSave (pass.run units start) := by
  intro sound
  have recorded := (sound [0] (.lejepa unsavedPass) 0).2
  have shape : ((Pass.lejepa unsavedPass).run [0] 0).effects =
      [] ++ Effect.markedTrained [0] [1] :: [] := by decide
  cases recorded [] [0] [1] [] shape

end Adai.Training
