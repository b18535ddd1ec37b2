import Mathlib.Algebra.BigOperators.Group.List.Basic
import Mathlib.Algebra.CharZero.Defs
import Mathlib.Algebra.Field.Basic
import Mathlib.Algebra.Module.LinearMap.Basic
import Mathlib.Tactic.FieldSimp

/-! # Windows of accumulated gradients

The samples of an epoch, split into windows: a window ends with a step once it has
enough completed samples or the epoch ends, and is discarded when a sample fails in
its backward pass. `trainSamples_windows` shows that the sample loop makes one step
for each window that ends with one, with the mean of its gradients (`windowUpdate`).
The loss of the step is their mean loss and, besides, the losses that failed samples
of the window have left (`leftLosses`).
-/

/-! ## Gradient accumulation in an epoch

`ChatbotTrainer::train_epoch` on the CPU: the gradients of several samples are
added up before the optimizer steps. Gradients, loss and count of the current
window are kept apart, and samples may fail before or while they write their
gradients.

What a sample does is given. Its gradient is its backward pass, a linear map,
applied to the gradient of its loss. Numbers are those of a field; which gradients
have a finite norm and what clipping leaves of a gradient is given.
-/

namespace Adai.Epochs

variable {K Logits Gradient : Type*} [Field K] [AddCommGroup Logits] [Module K Logits]
  [AddCommGroup Gradient] [Module K Gradient]

/-- What happens to a sample. A failure is before the loss is added up, between that
and the backward pass, or in the backward pass with part of the gradients written. -/
inductive SampleOutcome (K Logits Gradient : Type*) [Field K] [AddCommGroup Logits]
    [Module K Logits] [AddCommGroup Gradient] [Module K Gradient] where
  | completes (loss : K) (lossGradient : Logits) (backward : Logits →ₗ[K] Gradient)
  | failsBeforeLoss
  | failsAfterLoss (loss : K)
  | failsInBackward (loss : K) (written : Gradient)

/-- A sample, and whether an abort is requested when the loop gets to it. -/
structure Sample (K Logits Gradient : Type*) [Field K] [AddCommGroup Logits]
    [Module K Logits] [AddCommGroup Gradient] [Module K Gradient] where
  abortRequested : Bool
  outcome : SampleOutcome K Logits Gradient

/-- A step of the optimizer: the sample it is attributed to, the gradient before
clipping and the loss that is reported. -/
structure Update (K Gradient : Type*) where
  sample : Nat
  gradient : Gradient
  loss : K

/-- What `train_epoch` reads. What clipping leaves of a gradient depends on the steps
before. -/
structure AccumulationConfig (K Gradient : Type*) where
  gradientAccumulationSteps : Nat
  one_le_steps : 1 ≤ gradientAccumulationSteps
  finiteNorm : Gradient → Bool
  clip : List (Update K Gradient) → Gradient → Gradient

/-- The variables of `train_epoch`. -/
structure EpochState (K Gradient : Type*) where
  gradient : Gradient
  accumulationStep : Nat
  accumulatedLoss : K
  droppedSamples : Nat
  updates : List (Update K Gradient)
  wasAborted : Bool

section Loop

variable (config : AccumulationConfig K Gradient)

/-- The factor that turns the gradients of a short window into their mean. -/
def windowRescale (windowSamples : Nat) : K :=
  if 0 < windowSamples ∧ windowSamples < config.gradientAccumulationSteps then
    (config.gradientAccumulationSteps : K) / windowSamples
  else 1

/-- The loss of a step. -/
def stepLoss (windowSamples : Nat) (accumulatedLoss : K) : K :=
  if 0 < windowSamples then accumulatedLoss / windowSamples else accumulatedLoss

/-- `apply_update`. -/
def applyUpdate (i : Nat) (state : EpochState K Gradient) : EpochState K Gradient :=
  let gradient := windowRescale config state.accumulationStep • state.gradient
  if config.finiteNorm gradient then
    { state with
      gradient := config.clip state.updates gradient
      accumulationStep := 0
      accumulatedLoss := 0
      updates := state.updates ++
        [⟨i, gradient, stepLoss state.accumulationStep state.accumulatedLoss⟩] }
  else
    { state with
      gradient := 0
      accumulationStep := 0
      accumulatedLoss := 0
      droppedSamples := state.droppedSamples + state.accumulationStep }

/-- `zero_grad` at the start of a window. -/
def EpochState.startWindow (state : EpochState K Gradient) : EpochState K Gradient :=
  if state.accumulationStep = 0 then { state with gradient := 0 } else state

/-- What the handler of a failure drops: the window, if the backward pass has
started, and else the sample. -/
def dropFailed (backwardStarted : Bool) (state : EpochState K Gradient) :
    EpochState K Gradient :=
  if backwardStarted then
    { state with
      gradient := 0
      accumulationStep := 0
      accumulatedLoss := 0
      droppedSamples := state.droppedSamples + (state.accumulationStep + 1) }
  else { state with droppedSamples := state.droppedSamples + 1 }

/-- The handler of a failure. The last sample of the epoch still steps on the
samples before it. -/
def handleFailure (numSamples i : Nat) (backwardStarted : Bool)
    (state : EpochState K Gradient) : EpochState K Gradient :=
  let dropped := dropFailed backwardStarted state
  if i + 1 = numSamples ∧ 0 < dropped.accumulationStep then applyUpdate config i dropped
  else dropped

/-- The gradient of a loss, scaled for accumulation. -/
def scaleLossGradient (lossGradient : Logits) : Logits :=
  if 1 < config.gradientAccumulationSteps then
    (1 / (config.gradientAccumulationSteps : K)) • lossGradient
  else lossGradient

/-- The body of the sample loop. -/
def trainSample (numSamples i : Nat) (outcome : SampleOutcome K Logits Gradient)
    (state : EpochState K Gradient) : EpochState K Gradient :=
  let state := state.startWindow
  match outcome with
  | .completes loss lossGradient backward =>
    let state :=
      { state with
        accumulatedLoss := state.accumulatedLoss + loss
        gradient := state.gradient + backward (scaleLossGradient config lossGradient)
        accumulationStep := state.accumulationStep + 1 }
    if config.gradientAccumulationSteps ≤ state.accumulationStep ∨ i + 1 = numSamples then
      applyUpdate config i state
    else state
  | .failsBeforeLoss => handleFailure config numSamples i false state
  | .failsAfterLoss loss =>
    handleFailure config numSamples i false
      { state with accumulatedLoss := state.accumulatedLoss + loss }
  | .failsInBackward loss written =>
    handleFailure config numSamples i true
      { state with
        accumulatedLoss := state.accumulatedLoss + loss
        gradient := state.gradient + written }

/-- The sample loop, with its index where it ends. An abort is honoured between
windows only. -/
def trainSamples (numSamples : Nat) :
    Nat → List (Sample K Logits Gradient) → EpochState K Gradient →
      Nat × EpochState K Gradient
  | i, [], state => (i, state)
  | i, sample :: rest, state =>
    if state.accumulationStep = 0 ∧ sample.abortRequested then
      (i, { state with wasAborted := true })
    else
      trainSamples numSamples (i + 1) rest
        (trainSample config numSamples i sample.outcome state)

/-- `train_epoch`, from whatever gradient an earlier epoch has left. -/
def trainEpoch (gradient : Gradient) (samples : List (Sample K Logits Gradient)) :
    Nat × EpochState K Gradient :=
  trainSamples config samples.length 0 samples ⟨gradient, 0, 0, 0, [], false⟩

end Loop

end Adai.Epochs

namespace Adai.Epochs

variable {K Logits Gradient : Type*} [Field K] [AddCommGroup Logits] [Module K Logits]
  [AddCommGroup Gradient] [Module K Gradient]

/-! ## Windows -/

/-- The gradient of a sample that completes. -/
def SampleOutcome.gradient : SampleOutcome K Logits Gradient → Gradient
  | .completes _ lossGradient backward => backward lossGradient
  | _ => 0

/-- The loss of a sample that completes. -/
def SampleOutcome.loss : SampleOutcome K Logits Gradient → K
  | .completes loss _ _ => loss
  | _ => 0

/-- The loss that a sample adds up before it fails, when no backward pass follows. -/
def SampleOutcome.leftLoss : SampleOutcome K Logits Gradient → K
  | .failsAfterLoss loss => loss
  | _ => 0

def SampleOutcome.completed : SampleOutcome K Logits Gradient → Bool
  | .completes .. => true
  | _ => false

def SampleOutcome.failedInBackward : SampleOutcome K Logits Gradient → Bool
  | .failsInBackward .. => true
  | _ => false

/-- Samples with their positions in the epoch. -/
abbrev Numbered (K Logits Gradient : Type*) [Field K] [AddCommGroup Logits]
    [Module K Logits] [AddCommGroup Gradient] [Module K Gradient] :=
  List (SampleOutcome K Logits Gradient × Nat)

/-- The samples that completed. -/
def completed (samples : Numbered K Logits Gradient) : Numbered K Logits Gradient :=
  samples.filter fun sample => sample.1.completed

def meanGradient (samples : Numbered K Logits Gradient) : Gradient :=
  (samples.length : K)⁻¹ • (samples.map fun sample => sample.1.gradient).sum

def meanLoss (samples : Numbered K Logits Gradient) : K :=
  (samples.length : K)⁻¹ * (samples.map fun sample => sample.1.loss).sum

def leftLosses (samples : Numbered K Logits Gradient) : K :=
  (samples.map fun sample => sample.1.leftLoss).sum

/-- How a window ends. -/
inductive Ending where
  | stepped
  | discarded
  | unfinished
  deriving DecidableEq

structure Window (K Logits Gradient : Type*) [Field K] [AddCommGroup Logits]
    [Module K Logits] [AddCommGroup Gradient] [Module K Gradient] where
  samples : Numbered K Logits Gradient
  ending : Ending

/-- How a window ends with its last sample, if it does. -/
def ending? (steps : Nat) (last : Bool) (window : Numbered K Logits Gradient)
    (outcome : SampleOutcome K Logits Gradient) : Option Ending :=
  if outcome.failedInBackward then some .discarded
  else if steps ≤ (completed window).length ∨ last ∧ 0 < (completed window).length then
    some .stepped
  else none

/-- The windows of an epoch, from a sample on and with the window that is open there.
An abort ends the epoch before a sample, when no sample of the window is completed. -/
def windows (steps : Nat) :
    Nat → Numbered K Logits Gradient → List (Sample K Logits Gradient) →
      List (Window K Logits Gradient)
  | _, current, [] => [⟨current, .unfinished⟩]
  | i, current, sample :: rest =>
    if (completed current).length = 0 ∧ sample.abortRequested then [⟨current, .unfinished⟩]
    else
      match ending? steps rest.isEmpty (current ++ [(sample.outcome, i)]) sample.outcome with
      | some ending =>
        ⟨current ++ [(sample.outcome, i)], ending⟩ :: windows steps (i + 1) [] rest
      | none => windows steps (i + 1) (current ++ [(sample.outcome, i)]) rest

/-- The windows that end with a step. -/
def steppedWindows (all : List (Window K Logits Gradient)) : List (Window K Logits Gradient) :=
  all.filter fun window => window.ending = .stepped

/-- The step at the end of a window. -/
def windowUpdate (window : Numbered K Logits Gradient) : Update K Gradient :=
  ⟨(window.getLast?.map Prod.snd).getD 0, meanGradient (completed window),
    meanLoss (completed window) + ((completed window).length : K)⁻¹ * leftLosses window⟩

/-- How many samples failed. -/
def failures (window : Numbered K Logits Gradient) : Nat :=
  (window.filter fun sample => !sample.1.completed).length

/-- How many samples of a window get into no step. -/
def Window.dropped (window : Window K Logits Gradient) : Nat :=
  if window.ending = .discarded then window.samples.length else failures window.samples

@[simp] theorem completed_append (window later : Numbered K Logits Gradient) :
    completed (window ++ later) = completed window ++ completed later :=
  List.filter_append ..

@[simp] theorem leftLosses_append (window later : Numbered K Logits Gradient) :
    leftLosses (window ++ later) = leftLosses window + leftLosses later := by
  simp [leftLosses]

@[simp] theorem failures_append (window later : Numbered K Logits Gradient) :
    failures (window ++ later) = failures window + failures later := by
  simp [failures]

theorem completed_add_failures (window : Numbered K Logits Gradient) :
    (completed window).length + failures window = window.length := by
  rw [completed, failures, ← List.countP_eq_length_filter, ← List.countP_eq_length_filter,
    List.length_eq_countP_add_countP fun sample => sample.1.completed]
  exact congrArg _ (List.countP_congr fun sample _ => by simp)

theorem ending?_discarded {steps : Nat} {last : Bool} {window : Numbered K Logits Gradient}
    {outcome : SampleOutcome K Logits Gradient} :
    ending? steps last window outcome = some .discarded ↔ outcome.failedInBackward := by
  unfold ending?
  split
  · simp [*]
  · split <;> simp [*]

theorem ending?_ne_unfinished {steps : Nat} {last : Bool}
    {window : Numbered K Logits Gradient} {outcome : SampleOutcome K Logits Gradient} :
    ending? steps last window outcome ≠ some .unfinished := by
  unfold ending?
  split
  · simp
  · split <;> simp

theorem ending?_stepped {steps : Nat} {last : Bool} {window : Numbered K Logits Gradient}
    {outcome : SampleOutcome K Logits Gradient} (positive : 1 ≤ steps)
    (ends : ending? steps last window outcome = some .stepped) :
    outcome.failedInBackward = false ∧ 0 < (completed window).length := by
  unfold ending? at ends
  split at ends
  · cases ends
  · rename_i kept
    split at ends
    · rename_i ended
      exact ⟨by simpa using kept, ended.elim (by omega) And.right⟩
    · cases ends

theorem ending?_none {steps : Nat} {last : Bool} {window : Numbered K Logits Gradient}
    {outcome : SampleOutcome K Logits Gradient}
    (goes : ending? steps last window outcome = none) :
    outcome.failedInBackward = false ∧ (completed window).length < steps ∧
      (last = true → (completed window).length = 0) := by
  unfold ending? at goes
  split at goes
  · cases goes
  · rename_i kept
    split at goes
    · cases goes
    · rename_i few
      refine ⟨by simpa using kept, by omega, fun isLast => ?_⟩
      by_contra nonempty
      exact few (.inr ⟨isLast, by omega⟩)

/-! ## What the loop has gathered -/

/-- The variables of the loop hold what the samples of the open window have added. -/
structure Gathered (config : AccumulationConfig K Gradient)
    (window : Numbered K Logits Gradient) (state : EpochState K Gradient) : Prop where
  steps : state.accumulationStep = (completed window).length
  loss : state.accumulatedLoss =
    ((completed window).map fun sample => sample.1.loss).sum + leftLosses window
  gradient : (completed window).length ≠ 0 →
    state.gradient = (config.gradientAccumulationSteps : K)⁻¹ •
      ((completed window).map fun sample => sample.1.gradient).sum

section Loop

variable {config : AccumulationConfig K Gradient} {window : Numbered K Logits Gradient}
  {state : EpochState K Gradient}

/-- Nothing is gathered at the start of a window. -/
theorem gathered_nil (gradient : Gradient) (droppedSamples : Nat)
    (updates : List (Update K Gradient)) (wasAborted : Bool) :
    Gathered config ([] : Numbered K Logits Gradient)
      ⟨gradient, 0, 0, droppedSamples, updates, wasAborted⟩ :=
  ⟨rfl, by simp [completed, leftLosses], fun some => absurd rfl some⟩

/-- A window that starts with a zero gradient has gathered all gradients of its
completed samples, also when there are none yet. -/
theorem Gathered.startWindow (gathered : Gathered config window state) :
    Gathered config window state.startWindow ∧
      state.startWindow.gradient = (config.gradientAccumulationSteps : K)⁻¹ •
        ((completed window).map fun sample => sample.1.gradient).sum := by
  unfold EpochState.startWindow
  split
  · rename_i empty
    have none : completed window = [] := List.eq_nil_of_length_eq_zero
      (gathered.steps.symm.trans empty)
    refine ⟨⟨gathered.steps, gathered.loss, fun some => absurd (by simp [none]) some⟩, ?_⟩
    simp [none]
  · rename_i nonempty
    exact ⟨gathered, gathered.gradient fun none => nonempty (gathered.steps.trans none)⟩

omit [AddCommGroup Gradient] [Module K Gradient] in
theorem scaleLossGradient_eq (lossGradient : Logits) :
    scaleLossGradient config lossGradient =
      (config.gradientAccumulationSteps : K)⁻¹ • lossGradient := by
  unfold scaleLossGradient
  split
  · rw [one_div]
  · have one : config.gradientAccumulationSteps = 1 := by
      have := config.one_le_steps
      omega
    rw [one, Nat.cast_one, inv_one, one_smul]

variable [CharZero K]

theorem cast_ne_zero_of_one_le {count : Nat} (positive : 1 ≤ count) : (count : K) ≠ 0 :=
  Nat.cast_ne_zero.mpr (Nat.one_le_iff_ne_zero.mp positive)

/-- Rescaling makes a sum of scaled gradients their mean. -/
theorem windowRescale_smul {count : Nat} (positive : 0 < count)
    (few : count ≤ config.gradientAccumulationSteps) (sum : Gradient) :
    windowRescale config count • (config.gradientAccumulationSteps : K)⁻¹ • sum =
      (count : K)⁻¹ • sum := by
  have steps : (config.gradientAccumulationSteps : K) ≠ 0 :=
    cast_ne_zero_of_one_le config.one_le_steps
  rw [smul_smul]
  congr 1
  unfold windowRescale
  split
  · rw [div_mul_eq_mul_div, mul_inv_cancel₀ steps, one_div]
  · rename_i whole
    have same : count = config.gradientAccumulationSteps := by omega
    rw [one_mul, same]

/-- Stepping on what a window has gathered. -/
theorem Gathered.applyUpdate (gathered : Gathered config window state)
    (positive : 0 < (completed window).length)
    (few : (completed window).length ≤ config.gradientAccumulationSteps) (i : Nat)
    (last : window.getLast?.map Prod.snd = some i)
    (finite : config.finiteNorm (meanGradient (completed window))) :
    applyUpdate config i state =
      { state with
        gradient := config.clip state.updates (meanGradient (completed window))
        accumulationStep := 0
        accumulatedLoss := 0
        updates := state.updates ++ [windowUpdate window] } := by
  have gradient : windowRescale config state.accumulationStep • state.gradient =
      meanGradient (completed window) := by
    rw [gathered.steps, gathered.gradient positive.ne']
    exact windowRescale_smul positive few _
  have loss : stepLoss state.accumulationStep state.accumulatedLoss =
      (windowUpdate window).loss := by
    rw [stepLoss, gathered.steps, if_pos positive, gathered.loss, div_eq_inv_mul, mul_add]
    rfl
  have index : (windowUpdate window).sample = i := by simp [windowUpdate, last]
  unfold Epochs.applyUpdate
  simp only [gradient, loss, finite, ↓reduceIte]
  rw [← index]
  rfl

/-! ## One sample -/

/-- What the end of a sample makes of the loop: the window stays open, is stepped on
or is discarded. -/
structure Follows (config : AccumulationConfig K Gradient)
    (window : Numbered K Logits Gradient) (ending : Option Ending)
    (before after : EpochState K Gradient) : Prop where
  gathered : Gathered config (if ending.isSome then [] else window) after
  updates : after.updates =
    before.updates ++ if ending = some .stepped then [windowUpdate window] else []
  dropped : after.droppedSamples = before.droppedSamples

/-- Once its sample is added, a window is stepped on if it is full, or not empty at
the end of the epoch. -/
theorem Gathered.follows (gathered : Gathered config window state)
    (few : (completed window).length ≤ config.gradientAccumulationSteps) (i : Nat)
    (index : window.getLast?.map Prod.snd = some i) {last : Bool}
    {outcome : SampleOutcome K Logits Gradient} (kept : outcome.failedInBackward = false)
    (finite : ending? config.gradientAccumulationSteps last window outcome = some .stepped →
      config.finiteNorm (meanGradient (completed window)))
    (ends : Prop) [Decidable ends]
    (same : ends ↔ config.gradientAccumulationSteps ≤ (completed window).length ∨
      last ∧ 0 < (completed window).length) :
    Follows config window
      (ending? config.gradientAccumulationSteps last window outcome) state
      (if ends then Epochs.applyUpdate config i state else state) := by
  have positive := config.one_le_steps
  by_cases stepped : ends
  · have ending : ending? config.gradientAccumulationSteps last window outcome =
        some .stepped := by
      simp [ending?, kept, same.mp stepped]
    have some : 0 < (completed window).length := by
      rcases same.mp stepped with full | ⟨_, some⟩
      · omega
      · exact some
    rw [if_pos stepped, ending, gathered.applyUpdate some few i index (finite ending)]
    exact ⟨gathered_nil .., rfl, rfl⟩
  · have ending : ending? config.gradientAccumulationSteps last window outcome = none := by
      rw [ending?, kept, if_neg (by simp), if_neg fun full => stepped (same.mpr full)]
    rw [if_neg stepped, ending]
    exact ⟨gathered, (List.append_nil _).symm, rfl⟩

/-- How many samples a sample drops. -/
def droppedBy (window : Numbered K Logits Gradient) :
    SampleOutcome K Logits Gradient → Nat
  | .completes .. => 0
  | .failsInBackward .. => (completed window).length + 1
  | _ => 1

/-- A failure before the backward pass leaves what was gathered, with the loss it
has added. -/
theorem Gathered.handleFailure (gathered : Gathered config window state)
    (few : (completed window).length < config.gradientAccumulationSteps)
    (numSamples i : Nat) {outcome : SampleOutcome K Logits Gradient}
    (failed : outcome.completed = false) (kept : outcome.failedInBackward = false)
    (finite : ending? config.gradientAccumulationSteps (i + 1 = numSamples)
        (window ++ [(outcome, i)]) outcome = some .stepped →
      config.finiteNorm (meanGradient (completed (window ++ [(outcome, i)])))) :
    Follows config (window ++ [(outcome, i)])
      (ending? config.gradientAccumulationSteps (i + 1 = numSamples)
        (window ++ [(outcome, i)]) outcome)
      { state with droppedSamples := state.droppedSamples + 1 }
      (handleFailure config numSamples i false
        { state with accumulatedLoss := state.accumulatedLoss + outcome.leftLoss }) := by
  have same : completed (window ++ [(outcome, i)]) = completed window := by
    simp [completed, failed]
  have added : Gathered config (window ++ [(outcome, i)])
      { state with
        accumulatedLoss := state.accumulatedLoss + outcome.leftLoss
        droppedSamples := state.droppedSamples + 1 } := by
    refine ⟨?_, ?_, ?_⟩
    · rw [same]
      exact gathered.steps
    · rw [same, leftLosses_append, ← add_assoc, ← gathered.loss]
      simp [leftLosses]
    · rw [same]
      exact gathered.gradient
  have after := added.follows (by rw [same]; exact few.le) i (by simp) kept finite
    (i + 1 = numSamples ∧ 0 < state.accumulationStep)
    (by rw [same, gathered.steps, decide_eq_true_iff]; omega)
  exact ⟨after.gathered, after.updates, after.dropped⟩

omit [CharZero K] in
/-- A completed sample adds its loss and its scaled gradient. -/
theorem Gathered.completes (gathered : Gathered config window state) (i : Nat) (loss : K)
    (lossGradient : Logits) (backward : Logits →ₗ[K] Gradient)
    (gradient : state.gradient = (config.gradientAccumulationSteps : K)⁻¹ •
      ((completed window).map fun sample => sample.1.gradient).sum) :
    Gathered config (window ++ [(.completes loss lossGradient backward, i)])
      { state with
        accumulatedLoss := state.accumulatedLoss + loss
        gradient := state.gradient + backward (scaleLossGradient config lossGradient)
        accumulationStep := state.accumulationStep + 1 } := by
  have added : completed (window ++ [((.completes loss lossGradient backward :
      SampleOutcome K Logits Gradient), i)]) =
        completed window ++ [(.completes loss lossGradient backward, i)] := by
    simp [completed, SampleOutcome.completed]
  refine ⟨?_, ?_, fun _ => ?_⟩
  · rw [added, List.length_append, gathered.steps]
    rfl
  · rw [added, gathered.loss]
    simp only [leftLosses, SampleOutcome.loss, SampleOutcome.leftLoss, List.map_append,
      List.sum_append, List.map_cons, List.map_nil, List.sum_cons, List.sum_nil, add_zero]
    exact add_right_comm _ _ _
  · rw [added, gradient, scaleLossGradient_eq, map_smul, ← smul_add]
    simp [SampleOutcome.gradient]

/-- What a sample makes of the loop. -/
theorem trainSample_follows (gathered : Gathered config window state)
    (few : (completed window).length < config.gradientAccumulationSteps)
    (numSamples i : Nat) (outcome : SampleOutcome K Logits Gradient)
    (finite : ending? config.gradientAccumulationSteps (i + 1 = numSamples)
        (window ++ [(outcome, i)]) outcome = some .stepped →
      config.finiteNorm (meanGradient (completed (window ++ [(outcome, i)])))) :
    Follows config (window ++ [(outcome, i)])
      (ending? config.gradientAccumulationSteps (i + 1 = numSamples)
        (window ++ [(outcome, i)]) outcome)
      { state with droppedSamples := state.droppedSamples + droppedBy window outcome }
      (trainSample config numSamples i outcome state) := by
  obtain ⟨started, gradient⟩ := gathered.startWindow
  have same : state.startWindow =
      { state.startWindow with
        accumulationStep := state.accumulationStep
        droppedSamples := state.droppedSamples
        updates := state.updates } := by
    unfold EpochState.startWindow
    split <;> rfl
  cases outcome with
  | completes loss lossGradient backward =>
    have full : completed (window ++ [((.completes loss lossGradient backward :
        SampleOutcome K Logits Gradient), i)]) =
          completed window ++ [(.completes loss lossGradient backward, i)] := by
      simp [completed, SampleOutcome.completed]
    have after := (started.completes i loss lossGradient backward gradient).follows
      (by rw [full, List.length_append]; exact few) i (by simp) rfl finite
      (config.gradientAccumulationSteps ≤ state.startWindow.accumulationStep + 1 ∨
        i + 1 = numSamples)
      (by rw [full, List.length_append, started.steps, decide_eq_true_iff]; simp)
    refine ⟨after.gathered, after.updates.trans ?_, after.dropped.trans ?_⟩
    · rw [same]
    · rw [same]
      rfl
  | failsBeforeLoss =>
    have after := started.handleFailure few numSamples i rfl rfl finite
    have kept : { state.startWindow with
        accumulatedLoss := state.startWindow.accumulatedLoss +
          (SampleOutcome.failsBeforeLoss : SampleOutcome K Logits Gradient).leftLoss } =
          state.startWindow := by
      simp [SampleOutcome.leftLoss]
    rw [kept] at after
    refine ⟨after.gathered, after.updates.trans ?_, after.dropped.trans ?_⟩
    · rw [same]
    · rw [same]
      rfl
  | failsAfterLoss loss =>
    have after := started.handleFailure few numSamples i rfl rfl finite
    refine ⟨after.gathered, after.updates.trans ?_, after.dropped.trans ?_⟩
    · rw [same]
    · rw [same]
      rfl
  | failsInBackward loss written =>
    have discards : trainSample config numSamples i
        (.failsInBackward loss written : SampleOutcome K Logits Gradient) state =
        { state.startWindow with
          gradient := 0
          accumulationStep := 0
          accumulatedLoss := 0
          droppedSamples := state.startWindow.droppedSamples +
            (state.startWindow.accumulationStep + 1) } := by
      simp [trainSample, Epochs.handleFailure, dropFailed]
    rw [discards]
    refine ⟨gathered_nil .., ?_, ?_⟩
    · rw [same]
      exact (List.append_nil _).symm
    · rw [same, gathered.steps]
      rfl

/-! ## The sample loop -/

/-- What the loop comes to, by the windows that its samples are split into. -/
structure Covers (window : Numbered K Logits Gradient) (i : Nat)
    (all : List (Window K Logits Gradient)) (before : EpochState K Gradient)
    (after : Nat × EpochState K Gradient) : Prop where
  updates : after.2.updates =
    before.updates ++ (steppedWindows all).map fun window => windowUpdate window.samples
  dropped : after.2.droppedSamples + failures window =
    before.droppedSamples + (all.map Window.dropped).sum
  index : after.1 + window.length = i + (all.flatMap Window.samples).length

section Covers

omit [CharZero K]

variable {i : Nat} {sample : SampleOutcome K Logits Gradient × Nat}
  {all : List (Window K Logits Gradient)} {before after : EpochState K Gradient}
  {final : Nat × EpochState K Gradient}

/-- The loop ends with a window that gets no step. -/
theorem covers_unfinished (window : Numbered K Logits Gradient) (i : Nat)
    (state : EpochState K Gradient) (aborted : Bool) :
    Covers window i [⟨window, .unfinished⟩] state
      (i, { state with wasAborted := aborted }) := by
  refine ⟨?_, ?_, ?_⟩
  · simp [steppedWindows]
  · simp [Window.dropped]
  · simp

/-- A sample after which its window stays open. -/
theorem Covers.join (later : Covers (window ++ [sample]) (i + 1) all after final)
    (updates : after.updates = before.updates)
    (dropped : after.droppedSamples + failures window =
      before.droppedSamples + failures (window ++ [sample])) :
    Covers window i all before final := by
  refine ⟨updates ▸ later.updates, ?_, ?_⟩
  · have := later.dropped
    omega
  · have := later.index
    rw [List.length_append, List.length_singleton] at this
    omega

/-- A sample that ends its window. -/
theorem Covers.close {ending : Ending} (later : Covers [] (i + 1) all after final)
    (updates : after.updates = before.updates ++
      if some ending = some .stepped then [windowUpdate (window ++ [sample])] else [])
    (dropped : after.droppedSamples + failures window =
      before.droppedSamples + Window.dropped ⟨window ++ [sample], ending⟩) :
    Covers window i (⟨window ++ [sample], ending⟩ :: all) before final := by
  refine ⟨?_, ?_, ?_⟩
  · rw [later.updates, updates]
    cases ending <;> simp [steppedWindows]
  · have := later.dropped
    rw [List.map_cons, List.sum_cons]
    simp only [failures, List.filter_nil, List.length_nil] at this
    simp only [failures] at dropped ⊢
    omega
  · have := later.index
    rw [List.flatMap_cons, List.length_append, List.length_append, List.length_singleton]
    rw [List.length_nil] at this
    omega

theorem droppedBy_add_failures (window : Numbered K Logits Gradient)
    (outcome : SampleOutcome K Logits Gradient) (i : Nat) :
    droppedBy window outcome + failures window =
      if outcome.failedInBackward then (window ++ [(outcome, i)]).length
      else failures (window ++ [(outcome, i)]) := by
  have all := completed_add_failures window
  rw [failures_append]
  cases outcome <;>
    simp [droppedBy, failures, SampleOutcome.completed, SampleOutcome.failedInBackward] at * <;>
    omega

end Covers

/-- The sample loop steps once for each window that ends with a step, with its mean
gradient, and drops the samples of no step. -/
theorem trainSamples_windows (numSamples : Nat) (rest : List (Sample K Logits Gradient)) :
    ∀ (i : Nat) (window : Numbered K Logits Gradient) (state : EpochState K Gradient),
      i + rest.length = numSamples → Gathered config window state →
      (completed window).length < config.gradientAccumulationSteps →
      (∀ ended ∈ steppedWindows (windows config.gradientAccumulationSteps i window rest),
        config.finiteNorm (meanGradient (completed ended.samples))) →
      Covers window i (windows config.gradientAccumulationSteps i window rest) state
        (trainSamples config numSamples i rest state) := by
  induction rest with
  | nil => exact fun i window state _ _ _ _ => covers_unfinished window i state state.wasAborted
  | cons sample rest ih =>
      intro i window state total gathered few finite
      have last : decide (i + 1 = numSamples) = rest.isEmpty := by
        rw [List.length_cons] at total
        cases rest with
        | nil => simpa using total
        | cons => simp at total ⊢; omega
      have later : i + 1 + rest.length = numSamples := by
        rw [List.length_cons] at total
        omega
      have counted := droppedBy_add_failures window sample.outcome i
      have follows := trainSample_follows gathered few numSamples i sample.outcome
      unfold trainSamples windows
      unfold windows at finite
      rw [← gathered.steps] at finite ⊢
      split
      · exact covers_unfinished window i state true
      rename_i goes
      rw [if_neg goes] at finite
      rw [last] at follows
      cases ends : ending? config.gradientAccumulationSteps rest.isEmpty
          (window ++ [(sample.outcome, i)]) sample.outcome with
      | none =>
          rw [ends] at finite follows
          obtain ⟨kept, fewer, _⟩ := ending?_none ends
          obtain ⟨after, updates, dropped⟩ := follows (fun impossible => by cases impossible)
          rw [kept] at counted
          refine (ih (i + 1) _ _ later after fewer finite).join
            (updates.trans (List.append_nil _)) ?_
          rw [dropped, Nat.add_assoc, counted]
          rfl
      | some ending =>
          rw [ends] at finite follows
          obtain ⟨after, updates, dropped⟩ := follows fun stepped => by
            cases stepped
            exact finite ⟨_, .stepped⟩ (by simp [steppedWindows])
          refine (ih (i + 1) [] _ later after config.one_le_steps
            fun ended member => finite ended ?_).close updates ?_
          · rw [steppedWindows] at member ⊢
            exact List.mem_filter.mpr
              ⟨List.mem_cons_of_mem _ (List.mem_filter.mp member).1, (List.mem_filter.mp member).2⟩
          · rw [dropped, Nat.add_assoc, counted]
            congr 1
            have discarded := ending?_discarded.symm.trans (iff_of_eq (congrArg (· = _) ends))
            by_cases failed : sample.outcome.failedInBackward
            · cases discarded.mp failed
              simp [Window.dropped, failed]
            · have kept : ending ≠ .discarded := fun same =>
                failed (discarded.mpr (congrArg some same))
              simp [Window.dropped, failed, kept]

end Loop

end Adai.Epochs
