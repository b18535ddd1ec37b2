import Adai.Gradients.Perceptron

/-! # Reward-model training

`RewardModel::train_on_batch`, which scores the chosen and the rejected response of
each preference pair with one network and accumulates the gradients of both before a
single step. `RewardModel.trainOnBatch_eq` shows that it descends along the gradient
of the mean Bradley–Terry loss.
-/

noncomputable section

namespace Adai.Gradients

open Backpropagation

structure PreferencePair where
  promptEncoding : List ℝ
  chosenEncoding : List ℝ
  rejectedEncoding : List ℝ

namespace PreferencePair

variable (pair : PreferencePair)

def chosenInput : List ℝ := pair.promptEncoding ++ pair.chosenEncoding

def rejectedInput : List ℝ := pair.promptEncoding ++ pair.rejectedEncoding

end PreferencePair

def sigmoid (x : ℝ) : ℝ := 1 / (1 + Real.exp (-x))

abbrev RewardModel := Network

namespace RewardModel

variable {shape : Shape}

def forward (model : RewardModel shape) (input : List ℝ) : Except String (RewardModel shape × ℝ) :=
  Network.forward "Input dimension mismatch" model input

def backward (model : RewardModel shape) (input : List ℝ) (outputGrad : ℝ)
    (grads : shape.Weights) : Except String (RewardModel shape × shape.Weights) :=
  Network.backward "Input dimension mismatch" model input outputGrad grads

/-- `compute_loss`; `smoothing` is added to the probability inside the logarithm. -/
def computeLoss (smoothing : ℝ) (model : RewardModel shape) (pair : PreferencePair) :
    Except String (RewardModel shape × ℝ) := do
  let (model, rChosen) ← model.forward pair.chosenInput
  let (model, rRejected) ← model.forward pair.rejectedInput
  let logit := rChosen - rRejected
  return (model, -Real.log (sigmoid logit + smoothing))

/-- What a pair adds to the gradients and to the loss. -/
def addPair (smoothing : ℝ) : RewardModel shape × shape.Weights × ℝ → PreferencePair →
    Except String (RewardModel shape × shape.Weights × ℝ)
  | (model, grads, totalLoss), pair => do
    let (model, rChosen) ← model.forward pair.chosenInput
    let (model, rRejected) ← model.forward pair.rejectedInput
    let logit := rChosen - rRejected
    let prob := sigmoid logit
    let totalLoss := totalLoss + -Real.log (prob + smoothing)
    let gradLogit := -(1 - prob)
    let (model, grads) ← model.backward pair.chosenInput gradLogit grads
    let (model, grads) ← model.backward pair.rejectedInput (-gradLogit) grads
    return (model, grads, totalLoss)

/-- The weights after a step along the averaged gradients. -/
def averagedStep (learningRate batchSize : ℝ) (params grads : shape.Weights) : shape.Weights :=
  fun l =>
    (fun r c => (params l).1 r c - learningRate * (grads l).1 r c / batchSize,
      fun j => (params l).2 j - learningRate * (grads l).2 j / batchSize)

/-- `train_on_batch`, with the `smoothing` of `computeLoss`. -/
def trainOnBatch (smoothing : ℝ) (model : RewardModel shape) (pairs : List PreferencePair)
    (learningRate : ℝ) : Except String (RewardModel shape × ℝ) :=
  if pairs.isEmpty then
    throw "Cannot train on empty batch"
  else do
    let (model, grads, totalLoss) ← pairs.foldlM (addPair smoothing) (model, 0, 0)
    let batchSize : ℝ := pairs.length
    let params := averagedStep learningRate batchSize model.params grads
    return ({ model with params := params }, totalLoss / batchSize)

/-! ## The loss and its gradient -/

/-- The negated log-likelihood that the chosen response is preferred. -/
def bradleyTerry (params : shape.Weights) (pair : PreferencePair) : ℝ :=
  -Real.log (sigmoid (Shape.value params pair.chosenInput - Shape.value params pair.rejectedInput))

def meanBradleyTerry (params : shape.Weights) (pairs : List PreferencePair) : ℝ :=
  (pairs.map fun pair => bradleyTerry params pair).sum / pairs.length

/-- The gradient of the loss of a pair. -/
def pairGradient (params : shape.Weights) (pair : PreferencePair) : shape.Weights :=
  let prob := sigmoid
    (Shape.value params pair.chosenInput - Shape.value params pair.rejectedInput)
  let gradLogit := -(1 - prob)
  gradLogit • Shape.gradient params pair.chosenInput +
    -gradLogit • Shape.gradient params pair.rejectedInput

/-- Both encodings of a pair have the dimension of the inputs, and no hidden
pre-activation is zero on them. -/
structure Regular (params : shape.Weights) (pair : PreferencePair) : Prop where
  chosen : pair.chosenInput.length = shape.inputDim
  rejected : pair.rejectedInput.length = shape.inputDim
  smoothChosen : Smooth params (shape.row pair.chosenInput)
  smoothRejected : Smooth params (shape.row pair.rejectedInput)

theorem hasDerivAt_neg_log_sigmoid (x : ℝ) :
    HasDerivAt (fun x => -Real.log (sigmoid x)) (-(1 - sigmoid x)) x := by
  have positive : 0 < 1 + Real.exp (-x) := by positivity
  have inner : HasDerivAt (fun x => 1 + Real.exp (-x)) (-Real.exp (-x)) x := by
    have negated := (hasDerivAt_neg x).exp
    exact (negated.const_add 1).congr_deriv (by ring)
  have log := inner.log positive.ne'
  have same : (fun x => -Real.log (sigmoid x)) = fun x => Real.log (1 + Real.exp (-x)) := by
    funext y
    rw [sigmoid, one_div, Real.log_inv, neg_neg]
  rw [same]
  refine log.congr_deriv ?_
  unfold sigmoid
  field_simp
  ring

theorem hasGrad_bradleyTerry {params : shape.Weights} {pair : PreferencePair}
    (regular : Regular params pair) :
    HasGrad (fun params => bradleyTerry params pair) (pairGradient params pair) params := by
  have chosen := Shape.hasGrad_value regular.smoothChosen
  have rejected := (Shape.hasGrad_value regular.smoothRejected).scalar (hasDerivAt_neg _)
  have total := (chosen.add rejected).scalar (hasDerivAt_neg_log_sigmoid _)
  rw [smul_add, smul_smul, mul_neg_one] at total
  exact total

theorem hasGrad_meanBradleyTerry {params : shape.Weights} {pairs : List PreferencePair}
    (regular : ∀ pair ∈ pairs, Regular params pair) :
    HasGrad (fun params => meanBradleyTerry params pairs)
      ((1 / pairs.length : ℝ) • (pairs.map (pairGradient params)).sum) params := by
  have total := HasGrad.list_sum pairs fun pair member => hasGrad_bradleyTerry (regular pair member)
  exact total.scalar ((hasDerivAt_id _).div_const _)

theorem computeLoss_eq (model : RewardModel shape) {pair : PreferencePair}
    (regular : Regular model.params pair) : ∃ after : Cache shape.widths,
      computeLoss 0 model pair = .ok (⟨model.params, after⟩, bradleyTerry model.params pair) := by
  refine ⟨runForward shape.layers shape.widths model.params (shape.row pair.rejectedInput), ?_⟩
  simp only [computeLoss, forward, add_zero]
  rw [bind_ok (Network.forward_eq _ regular.chosen)]
  rw [bind_ok (Network.forward_eq _ regular.rejected)]
  rfl

/-! ## A step of training -/

theorem addPair_eq {params : shape.Weights} {pair : PreferencePair}
    (regular : Regular params pair) (cache : Cache shape.widths) (grads : shape.Weights)
    (total : ℝ) : ∃ after : Cache shape.widths,
      addPair 0 (⟨params, cache⟩, grads, total) pair =
        .ok (⟨params, after⟩, grads + pairGradient params pair, total + bradleyTerry params pair) := by
  refine ⟨runForward shape.layers shape.widths params (shape.row pair.rejectedInput), ?_⟩
  simp only [addPair, forward, backward]
  rw [bind_ok (Network.forward_eq _ regular.chosen)]
  rw [bind_ok (Network.forward_eq _ regular.rejected)]
  rw [bind_ok (Network.backward_eq _ regular.chosen regular.smoothChosen ..)]
  rw [bind_ok (Network.backward_eq _ regular.rejected regular.smoothRejected ..)]
  rw [add_assoc, add_zero]
  rfl

theorem averagedStep_eq (learningRate batchSize : ℝ) (params grads : shape.Weights) :
    averagedStep learningRate batchSize params grads =
      params - learningRate • (1 / batchSize : ℝ) • grads := by
  have step (x g : ℝ) : x - learningRate * g / batchSize =
      x - learningRate * (1 / batchSize * g) := by ring
  funext l
  exact Prod.ext (funext fun r => funext fun c => step _ _) (funext fun j => step _ _)

/-- Training descends along the gradient of the mean loss, which it returns. -/
theorem trainOnBatch_eq (model : RewardModel shape) (pairs : List PreferencePair)
    (nonempty : pairs ≠ []) (regular : ∀ pair ∈ pairs, Regular model.params pair)
    (learningRate : ℝ) : ∃ gradient after,
      HasGrad (fun params => meanBradleyTerry params pairs) gradient model.params ∧
      trainOnBatch 0 model pairs learningRate = .ok (after, meanBradleyTerry model.params pairs) ∧
      after.params = model.params - learningRate • gradient := by
  obtain ⟨cache, folded⟩ := Network.foldlM_accumulates model.params (addPair 0)
    (pairGradient model.params) (bradleyTerry model.params) pairs
    (fun pair member => addPair_eq (regular pair member)) model.cache 0 0
  have notEmpty : pairs.isEmpty = false := List.isEmpty_eq_false_iff.mpr nonempty
  simp only [zero_add] at folded
  refine ⟨_, ⟨averagedStep learningRate pairs.length model.params _, cache⟩,
    hasGrad_meanBradleyTerry regular, ?_, averagedStep_eq ..⟩
  rw [trainOnBatch, notEmpty]
  exact bind_ok folded _

end RewardModel

end Adai.Gradients

end
