import Adai.Gradients.RewardModel

/-! # Steps along exact gradients

`ValueFunction::update`, whose gradients are divided by the size of the batch sample
by sample. `training_descends` states for both networks that a call on a batch takes
one step along the gradient of the mean loss, and returns that loss.
-/

noncomputable section

namespace Adai.Gradients

open Backpropagation

abbrev ValueFunction := Network

namespace ValueFunction

variable {shape : Shape}

def predict (network : ValueFunction shape) (state : List ℝ) :
    Except String (ValueFunction shape × ℝ) :=
  Network.forward "State dimension mismatch" network state

def backward (network : ValueFunction shape) (state : List ℝ) (outputGrad : ℝ)
    (grads : shape.Weights) : Except String (ValueFunction shape × shape.Weights) :=
  Network.backward "State dimension mismatch" network state outputGrad grads

/-- What a state with its target adds to the gradients and to the loss. -/
def addSample (batchSize : ℝ) : ValueFunction shape × shape.Weights × ℝ → List ℝ × ℝ →
    Except String (ValueFunction shape × shape.Weights × ℝ)
  | (network, grads, totalLoss), (state, target) => do
    let (network, pred) ← network.predict state
    let error := pred - target
    let totalLoss := totalLoss + error * error
    let grad := (2 : ℕ) * error / batchSize
    let (network, grads) ← network.backward state grad grads
    return (network, grads, totalLoss)

/-- The weights after a step along the gradients. -/
def step (learningRate : ℝ) (params grads : shape.Weights) : shape.Weights :=
  fun l =>
    (fun r c => (params l).1 r c - learningRate * (grads l).1 r c,
      fun j => (params l).2 j - learningRate * (grads l).2 j)

def update (network : ValueFunction shape) (states : List (List ℝ)) (targets : List ℝ)
    (learningRate : ℝ) : Except String (ValueFunction shape × ℝ) :=
  if states.length ≠ targets.length then
    throw "States and targets size mismatch"
  else if states.isEmpty then
    throw "Cannot update on an empty batch"
  else do
    let (network, grads, totalLoss) ←
      (states.zip targets).foldlM (addSample states.length) (network, 0, 0)
    let params := step learningRate network.params grads
    return ({ network with params := params }, totalLoss / states.length)

/-! ## The loss and its gradient -/

def squaredError (params : shape.Weights) (sample : List ℝ × ℝ) : ℝ :=
  (Shape.value params sample.1 - sample.2) ^ 2

def meanSquaredError (params : shape.Weights) (samples : List (List ℝ × ℝ)) : ℝ :=
  (samples.map fun sample => squaredError params sample).sum / samples.length

/-- What a sample adds to the gradient of the mean. -/
def sampleGradient (batchSize : ℝ) (params : shape.Weights) (sample : List ℝ × ℝ) :
    shape.Weights :=
  ((2 : ℕ) * (Shape.value params sample.1 - sample.2) / batchSize) • Shape.gradient params sample.1

/-- A state has the dimension of the inputs, and no hidden pre-activation is zero on it. -/
structure Regular (params : shape.Weights) (state : List ℝ) : Prop where
  fits : state.length = shape.inputDim
  smooth : Smooth params (shape.row state)

theorem hasGrad_meanSquaredError {params : shape.Weights} {samples : List (List ℝ × ℝ)}
    (regular : ∀ sample ∈ samples, Regular params sample.1) :
    HasGrad (fun params => meanSquaredError params samples)
      (samples.map (sampleGradient samples.length params)).sum params := by
  have each (sample : List ℝ × ℝ) (member : sample ∈ samples) :
      HasGrad (fun params => squaredError params sample / samples.length)
        (sampleGradient samples.length params sample) params := by
    refine (Shape.hasGrad_value (regular sample member).smooth).scalar
      (φ := fun x => (x - sample.2) ^ 2 / samples.length) ?_
    have difference := (hasDerivAt_id (Shape.value params sample.1)).sub_const sample.2
    exact ((difference.pow 2).div_const _).congr_deriv (by simp)
  have total := HasGrad.list_sum samples each
  refine HasFDerivAt.congr_of_eventuallyEq total (.of_forall fun params => ?_)
  change (samples.map fun sample => squaredError params sample).sum / _ = _
  simp only [div_eq_mul_inv, List.sum_map_mul_right]

/-! ## A step of training -/

theorem addSample_eq {params : shape.Weights} {sample : List ℝ × ℝ}
    (regular : Regular params sample.1) (batchSize : ℝ) (cache : Cache shape.widths)
    (grads : shape.Weights) (total : ℝ) : ∃ after : Cache shape.widths,
      addSample batchSize (⟨params, cache⟩, grads, total) sample =
        .ok (⟨params, after⟩, grads + sampleGradient batchSize params sample,
          total + squaredError params sample) := by
  refine ⟨runForward shape.layers shape.widths params (shape.row sample.1), ?_⟩
  simp only [addSample, predict, backward]
  rw [bind_ok (Network.forward_eq _ regular.fits)]
  rw [bind_ok (Network.backward_eq _ regular.fits regular.smooth ..)]
  rw [squaredError, pow_two]
  rfl

/-- An update descends along the gradient of the mean loss, which it returns. -/
theorem update_eq (network : ValueFunction shape) (states : List (List ℝ)) (targets : List ℝ)
    (paired : states.length = targets.length) (nonempty : states ≠ [])
    (regular : ∀ state ∈ states, Regular network.params state) (learningRate : ℝ) :
    ∃ gradient after,
      HasGrad (fun params => meanSquaredError params (states.zip targets)) gradient
        network.params ∧
      update network states targets learningRate =
        .ok (after, meanSquaredError network.params (states.zip targets)) ∧
      after.params = network.params - learningRate • gradient := by
  have size : (states.zip targets).length = states.length := by
    rw [List.length_zip, ← paired, min_self]
  have zipped (sample : List ℝ × ℝ) (member : sample ∈ states.zip targets) :
      Regular network.params sample.1 :=
    regular sample.1 (List.of_mem_zip member).1
  have gradient := hasGrad_meanSquaredError zipped
  obtain ⟨cache, folded⟩ := Network.foldlM_accumulates network.params (addSample states.length)
    (sampleGradient states.length network.params) (squaredError network.params)
    (states.zip targets) (fun sample member => addSample_eq (zipped sample member) _)
    network.cache 0 0
  have notEmpty : states.isEmpty = false := List.isEmpty_eq_false_iff.mpr nonempty
  rw [size] at gradient
  simp only [zero_add] at folded
  refine ⟨_, ⟨step learningRate network.params _, cache⟩, gradient, ?_, rfl⟩
  rw [update, if_neg (not_not.mpr paired), notEmpty, meanSquaredError, size]
  exact bind_ok folded _

end ValueFunction

/-- Training a reward model and updating a value function take one step each along the
gradient of the mean loss, and return that loss. -/
theorem training_descends {rewardShape valueShape : Shape} (model : RewardModel rewardShape)
    (pairs : List PreferencePair) (hasPairs : pairs ≠ [])
    (regularPairs : ∀ pair ∈ pairs, RewardModel.Regular model.params pair)
    (network : ValueFunction valueShape) (states : List (List ℝ)) (targets : List ℝ)
    (paired : states.length = targets.length) (hasStates : states ≠ [])
    (regularStates : ∀ state ∈ states, ValueFunction.Regular network.params state)
    (learningRate : ℝ) :
    (∃ gradient after,
      HasGrad (fun params => RewardModel.meanBradleyTerry params pairs) gradient model.params ∧
      RewardModel.trainOnBatch 0 model pairs learningRate =
        .ok (after, RewardModel.meanBradleyTerry model.params pairs) ∧
      after.params = model.params - learningRate • gradient) ∧
    (∃ gradient after,
      HasGrad (fun params => ValueFunction.meanSquaredError params (states.zip targets)) gradient
        network.params ∧
      ValueFunction.update network states targets learningRate =
        .ok (after, ValueFunction.meanSquaredError network.params (states.zip targets)) ∧
      after.params = network.params - learningRate • gradient) :=
  ⟨RewardModel.trainOnBatch_eq model pairs hasPairs regularPairs learningRate,
    ValueFunction.update_eq network states targets paired hasStates regularStates learningRate⟩

/-- Two layers of width one. -/
def narrow : Shape := ⟨2, fun _ => 1, by omega, rfl⟩

/-- All weights and biases are one. -/
def narrowNetwork : Network narrow :=
  ⟨fun _ => (fun _ _ => 1, fun _ => 1), ⟨fun _ _ _ => 0, fun _ _ _ => 0⟩⟩

theorem smooth_narrow : Smooth narrowNetwork.params (narrow.row [1]) := by
  intro l hidden j
  have first : l = (0 : Fin 2) := by
    have bound : l.val + 1 < 2 := hidden
    exact Fin.ext (by change l.val = 0; omega)
  subst first
  change (∑ k : Fin 1, ([1] : List ℝ).getD k.val 0 * 1) + 1 ≠ 0
  norm_num

theorem training_descends_narrow :
    (∃ gradient after,
      HasGrad (fun params => RewardModel.meanBradleyTerry params [⟨[1], [], []⟩]) gradient
        narrowNetwork.params ∧
      RewardModel.trainOnBatch 0 narrowNetwork [⟨[1], [], []⟩] 1 =
        .ok (after, RewardModel.meanBradleyTerry narrowNetwork.params [⟨[1], [], []⟩]) ∧
      after.params = narrowNetwork.params - (1 : ℝ) • gradient) ∧
    (∃ gradient after,
      HasGrad (fun params => ValueFunction.meanSquaredError params ([[1]].zip [0])) gradient
        narrowNetwork.params ∧
      ValueFunction.update narrowNetwork [[1]] [0] 1 =
        .ok (after, ValueFunction.meanSquaredError narrowNetwork.params ([[1]].zip [0])) ∧
      after.params = narrowNetwork.params - (1 : ℝ) • gradient) := by
  refine training_descends narrowNetwork [⟨[1], [], []⟩] (List.cons_ne_nil _ _)
    (fun pair member => ?_) narrowNetwork [[1]] [0] rfl (List.cons_ne_nil _ _)
    (fun state member => ?_) 1
  · obtain rfl := List.mem_singleton.mp member
    exact ⟨rfl, rfl, smooth_narrow, smooth_narrow⟩
  · obtain rfl := List.mem_singleton.mp member
    exact ⟨rfl, smooth_narrow⟩

end Adai.Gradients

end
