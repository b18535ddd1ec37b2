import Adai.Gradients.CrossEntropy
import Adai.Gradients.Perceptron
import Adai.Transformer.Parameters

/-! # Steps of training

`train_step_tokenized` clears the gradients, takes a forward and a backward pass and updates the
weights. Where the pass is exact, a run of such steps is a path of descent on the cross-entropies
of its samples, along every weight but those of the adapters (`training_run_descends`).
`apply_policy_gradient` hands the optimizer the gradient of the policy's objective
(`policy_gradient_exact`).
-/

noncomputable section

namespace Adai.Transformer

open Backpropagation Gradients

variable {vocabSize heads dk dFf encoderLayers decoderLayers : Nat}
  {ranks : Fin encoderLayers → Ranks} {shape : Fin decoderLayers → BlockShape}

namespace EncoderDecoderModel

/-- What is added inside of the logarithm of the loss. -/
def lossSmoothing : ℝ := 1 / 10 ^ 10

def trainStepTokenized (requiresGrad : RequiresGrad) (learningRate : ℝ)
    (model : EncoderDecoderModel ℝ vocabSize heads dk dFf ranks shape)
    (inputTokens targetTokens : List Int) :
    Except String (ℝ × EncoderDecoderModel ℝ vocabSize heads dk dFf ranks shape) :=
  if requiresGrad.model then do
    let cleared := model.zeroGrad
    let cache ← cleared.forwardCached inputTokens targetTokens
    let logits := cleared.lmHead.forward cache.decoderOutput
    let loss := computeLoss lossSmoothing logits targetTokens
    let gradLoss := computeLossGradient logits targetTokens
    let after ← cleared.backward requiresGrad cache gradLoss
    return (loss, after.updateWeights requiresGrad learningRate)
  else .error "Model is not in training mode"

/-! ## A cleared pass -/

section Pass

variable {model : EncoderDecoderModel ℝ vocabSize heads dk dFf ranks shape}
  {inputTokens targetTokens : List Int} {inputIds targetIds : List (Fin vocabSize)}

theorem zeroGrad_epsPositive (positive : model.EpsPositive) : model.zeroGrad.EpsPositive := by
  have path {ranks : Option Ranks} {path : Slot (GatedPath ℝ heads dk) ranks}
      (positive : GatedPath.EpsPositive path) :
      GatedPath.EpsPositive (Slot.map (fun _ path => path.zeroGrad) path) := by
    cases ranks with
    | none => trivial
    | some ranks => exact positive
  exact ⟨⟨positive.encoder.blocks, positive.encoder.finalNorm⟩,
    ⟨fun l =>
      let block := positive.decoder.blocks l
      ⟨block.norm1, block.norm2, block.norm3, path block.worldModel, path block.hippocampal⟩,
      positive.decoder.finalNorm⟩⟩

theorem withWeights_epsPositive (positive : model.EpsPositive)
    (weights : Weights ℝ vocabSize heads dk dFf ranks shape) :
    (model.withWeights weights).EpsPositive := by
  have path {ranks : Option Ranks} {path : Slot (GatedPath ℝ heads dk) ranks}
      (positive : GatedPath.EpsPositive path)
      (weights : Slot (GatedPath.Weights ℝ heads dk) ranks) :
      GatedPath.EpsPositive (GatedPath.withOptionalWeights path weights) := by
    cases ranks with
    | none => trivial
    | some ranks => exact positive
  exact ⟨⟨positive.encoder.blocks, positive.encoder.finalNorm⟩,
    ⟨fun l =>
      let block := positive.decoder.blocks l
      ⟨block.norm1, block.norm2, block.norm3, path block.worldModel _,
        path block.hippocampal _⟩,
      positive.decoder.finalNorm⟩⟩

/-- A function of the logits, as one of the weights. -/
def outputScore (model : EncoderDecoderModel ℝ vocabSize heads dk dFf ranks shape)
    (inputTokens targetTokens : List Int) (score : Encoding ℝ vocabSize → ℝ)
    (weights : Weights ℝ vocabSize heads dk dFf ranks shape) : ℝ :=
  match (model.withWeights weights).forward inputTokens targetTokens with
  | .ok logits => score logits
  | .error _ => 0

theorem activations_zeroGrad (inputs : GatedInputs ℝ (heads * dk)) :
    model.zeroGrad.activations inputs inputIds targetIds =
      model.activations inputs inputIds targetIds := by
  have encoded := model.encoder.forward_zeroGrad (LLMEncoder.fullMask inputIds.length)
    (model.encoder.tokenEmbedding.lookup inputIds)
  have decoded (cache : LLMEncoder.Cache ℝ inputIds.length heads dk dFf encoderLayers)
      (encoderOutput : Encoding ℝ (heads * dk)) :
      model.zeroGrad.decoded inputs inputIds targetIds cache encoderOutput =
        model.decoded inputs inputIds targetIds cache encoderOutput :=
    congrArg (fun after => Cache.mk inputIds targetIds cache encoderOutput.rows after.1 after.2)
      (model.decoder.forward_zeroGrad inputs encoderOutput.data
        (model.decoder.tokenEmbedding.lookup targetIds))
  exact (decoded _ _).trans (congrArg (fun encoded => model.decoded inputs inputIds targetIds
    encoded.1 (LLMDecoder.usedEncoder ⟨inputIds.length, encoded.2⟩)) encoded)

theorem forward_zeroGrad (model : EncoderDecoderModel ℝ vocabSize heads dk dFf ranks shape)
    (inputTokens targetTokens : List Int) :
    model.zeroGrad.forward inputTokens targetTokens = model.forward inputTokens targetTokens := by
  have passes : model.zeroGrad.forwardCached inputTokens targetTokens =
      model.forwardCached inputTokens targetTokens := by
    unfold forwardCached
    simp only [activations_zeroGrad]
    rfl
  rw [forward_eq, forward_eq, passes]
  rfl

/-- A score reads neither the weights that are replaced, nor the gradients. -/
theorem outputScore_cleared (weights : Weights ℝ vocabSize heads dk dFf ranks shape)
    (score : Encoding ℝ vocabSize → ℝ) :
    (model.zeroGrad.withWeights weights).outputScore inputTokens targetTokens score =
      model.outputScore inputTokens targetTokens score := by
  funext other
  have same : (model.zeroGrad.withWeights weights).withWeights other =
      (model.withWeights other).zeroGrad :=
    (lawful.withWeights_withWeights model.zeroGrad weights other).trans
      (lawful.zeroGrad_withWeights model other).symm
  rw [outputScore, outputScore, same, forward_zeroGrad]

/-- The pass with other weights. -/
theorem forward_withWeights (wide : 0 < heads * dk) (nonempty : 0 < inputIds.length)
    (tokenized : model.Tokenized inputTokens targetTokens inputIds targetIds)
    (weights : Weights ℝ vocabSize heads dk dFf ranks shape) :
    (model.withWeights weights).forward inputTokens targetTokens =
      .ok ⟨targetIds.length, (layer (model.keptInputs inputTokens) inputIds targetIds).value model
        (weights, ())⟩ := by
  have same : (model.withWeights weights).Tokenized inputTokens targetTokens inputIds
      targetIds := ⟨tokenized.short, tokenized.input, tokenized.target⟩
  rw [forward_eq, forwardCached_of_tokenized same, activations_of_nonempty _ wide nonempty]
  rfl

/-- What a pass leaves behind in a model without gradients. -/
def clearedPass (model : EncoderDecoderModel ℝ vocabSize heads dk dFf ranks shape)
    (inputs : GatedInputs ℝ (heads * dk)) (inputIds targetIds : List (Fin vocabSize)) :
    Cache ℝ vocabSize heads dk dFf encoderLayers decoderLayers :=
  model.zeroGrad.decoded inputs inputIds targetIds (model.zeroGrad.encoded inputIds).1
    ⟨inputIds.length, (model.zeroGrad.encoded inputIds).2⟩

theorem forwardCached_cleared (wide : 0 < heads * dk) (nonempty : 0 < inputIds.length)
    (tokenized : model.Tokenized inputTokens targetTokens inputIds targetIds) :
    model.zeroGrad.forwardCached inputTokens targetTokens =
      .ok (model.clearedPass (model.keptInputs inputTokens) inputIds targetIds) := by
  have same : model.zeroGrad.Tokenized inputTokens targetTokens inputIds targetIds :=
    ⟨tokenized.short, tokenized.input, tokenized.target⟩
  rw [forwardCached_of_tokenized same, activations_of_nonempty _ wide nonempty]
  rfl

/-- With cleared gradients, a backward pass from the gradient of a score at the logits leaves the
gradient of the score at the weights, and a step along it changes weights only. -/
theorem backward_cleared (positive : model.EpsPositive) (layered : 0 < decoderLayers)
    (wide : 0 < heads * dk) (nonempty : 0 < inputIds.length)
    (tokenized : model.Tokenized inputTokens targetTokens inputIds targetIds)
    (score : Encoding ℝ vocabSize → ℝ) {logits g : Mat targetIds.length vocabSize}
    (passes : model.forward inputTokens targetTokens = .ok ⟨targetIds.length, logits⟩)
    (outer : HasGrad (fun logits => score ⟨targetIds.length, logits⟩) g logits) :
    ∃ after, model.zeroGrad.backward (.setTraining true)
        (model.clearedPass (model.keptInputs inputTokens) inputIds targetIds) g = .ok after ∧
      HasGrad (model.outputScore inputTokens targetTokens score) after.grads model.weights ∧
      after.weights = model.weights ∧ after.zeroGrad = model.zeroGrad ∧
      ∀ learningRate, after.updateWeights (.setTraining true) learningRate =
        model.zeroGrad.withWeights (model.weights - learningRate • trained after.grads) := by
  let inputs := model.keptInputs inputTokens
  let network := (layer inputs inputIds targetIds :
    Layer (EncoderDecoderModel ℝ vocabSize heads dk dFf ranks shape) _ _ _)
  have trains : network.Trains zeroGrad (updateWeights (.setTraining true)) trained :=
    trains inputs inputIds targetIds
  have exact := model.zeroGrad.exact (zeroGrad_epsPositive positive) inputs inputIds targetIds
  have same : network.forward model.zeroGrad () = network.forward model () :=
    trains.forward_zeroGrad model ()
  have reached : (network.forward model ()).2 = logits := by
    rw [forward_eq, forwardCached_of_tokenized tokenized, activations_of_nonempty _ wide nonempty]
      at passes
    exact eq_of_heq (Encoding.mk.inj (Except.ok.inj passes)).2
  have value : model.outputScore inputTokens targetTokens score = fun weights =>
      score ⟨targetIds.length, network.value model (weights, ())⟩ := by
    funext weights
    rw [outputScore, forward_withWeights wide nonempty tokenized]
  have returned : model.zeroGrad.backward (.setTraining true)
      (model.clearedPass inputs inputIds targetIds) g =
        .ok (network.backward model.zeroGrad (network.forward model.zeroGrad ()).1 g).1 :=
    model.zeroGrad.backward_eq layered inputs g
  rw [same] at returned
  refine ⟨_, returned, ?_, ?_, ?_, fun learningRate => ?_⟩
  · rw [value]
    exact trains.hasGrad exact (reached.symm ▸ outer)
  · exact (exact.kept _ _).trans (trains.weights_zeroGrad model)
  · exact (trains.zeroGrad_backward _ _ _).trans (trains.zeroGrad_zeroGrad model)
  · exact trains.step exact _ g learningRate

end Pass

/-! ## Steps of training -/

/-- The mean cross-entropy of a sample, as a function of the weights. -/
def sampleLoss (model : EncoderDecoderModel ℝ vocabSize heads dk dFf ranks shape)
    (sample : List Int × List Int) : Weights ℝ vocabSize heads dk dFf ranks shape → ℝ :=
  model.outputScore sample.1 sample.2 fun logits => computeLoss 0 logits.data sample.2

/-- A token that has a row in the embeddings. -/
abbrev Known (vocabSize : Nat) (tokenId : Int) : Prop := 0 ≤ tokenId ∧ tokenId < vocabSize

theorem mapM_known {tokenIds : List Int} (known : ∀ tokenId ∈ tokenIds, Known vocabSize tokenId) :
    ∃ rows, tokenIds.mapM (tokenRow vocabSize) = .ok rows := by
  induction tokenIds with
  | nil => exact ⟨[], rfl⟩
  | cons tokenId rest ih =>
      obtain ⟨first, later⟩ := List.forall_mem_cons.mp known
      obtain ⟨rows, found⟩ := ih later
      refine ⟨⟨tokenId.toNat, row_lt first⟩ :: rows, ?_⟩
      rw [List.mapM_cons, found, tokenRow, dif_pos first]
      rfl

/-- The conditions under which steps descend. -/
structure Trainable (model : EncoderDecoderModel ℝ vocabSize heads dk dFf ranks shape) : Prop where
  positive : model.EpsPositive
  layered : 0 < decoderLayers
  wide : 0 < heads * dk
  room : 0 < model.encoder.maxSeqLength
  bos : Known vocabSize model.bosTokenId

/-- A sample of known tokens, with an input. -/
structure Usable (vocabSize : Nat) (sample : List Int × List Int) : Prop where
  some_ : sample.1 ≠ []
  input : ∀ tokenId ∈ sample.1, Known vocabSize tokenId
  target : ∀ tokenId ∈ sample.2, Known vocabSize tokenId

section Step

variable {model : EncoderDecoderModel ℝ vocabSize heads dk dFf ranks shape}

theorem Trainable.cleared (trainable : model.Trainable)
    (weights : Weights ℝ vocabSize heads dk dFf ranks shape) :
    (model.zeroGrad.withWeights weights).Trainable :=
  ⟨withWeights_epsPositive (zeroGrad_epsPositive trainable.positive) weights, trainable.layered,
    trainable.wide, trainable.room, trainable.bos⟩

/-- The logits of a pass in a model without gradients. -/
def clearedLogits (model : EncoderDecoderModel ℝ vocabSize heads dk dFf ranks shape)
    (inputs : GatedInputs ℝ (heads * dk)) (inputIds targetIds : List (Fin vocabSize)) :
    Mat targetIds.length vocabSize :=
  model.zeroGrad.lmHead.forward (model.clearedPass inputs inputIds targetIds).decoderOutput

/-- Usable samples pass. -/
theorem Trainable.passes (trainable : model.Trainable) {sample : List Int × List Int}
    (usable : Usable vocabSize sample) :
    ∃ inputIds targetIds, model.Tokenized sample.1 sample.2 inputIds targetIds ∧
      0 < inputIds.length ∧
      model.zeroGrad.forwardCached sample.1 sample.2 =
        .ok (model.clearedPass (model.keptInputs sample.1) inputIds targetIds) ∧
      model.forward sample.1 sample.2 = .ok ⟨targetIds.length,
        model.clearedLogits (model.keptInputs sample.1) inputIds targetIds⟩ := by
  have kept : ∀ tokenId ∈ model.encoder.keepLastPositions sample.1, Known vocabSize tokenId := by
    intro tokenId member
    unfold LLMEncoder.keepLastPositions at member
    dsimp only at member
    split at member
    · exact usable.input tokenId (List.mem_of_mem_drop member)
    · exact usable.input tokenId member
  have fed : ∀ tokenId ∈ model.makeDecoderInput sample.2, Known vocabSize tokenId :=
    List.forall_mem_cons.mpr ⟨trainable.bos, fun tokenId member =>
      usable.target tokenId (List.mem_of_mem_dropLast member)⟩
  have short : checkEncoderLength (model.encoder.keepLastPositions sample.1).length
      model.encoder.maxSeqLength "LLMEncoder::encode_with_mask" = .ok () := by
    refine if_neg fun long => absurd long.2 ?_
    unfold LLMEncoder.keepLastPositions
    dsimp only
    split
    · rw [List.length_drop]
      omega
    · omega
  obtain ⟨inputIds, input⟩ := mapM_known kept
  obtain ⟨targetIds, target⟩ := mapM_known fed
  have tokenized : model.Tokenized sample.1 sample.2 inputIds targetIds := ⟨short, input, target⟩
  have nonempty : 0 < inputIds.length := by
    rw [length_mapM input, List.length_pos_iff]
    exact keepLastPositions_ne_nil.mpr ⟨trainable.room, usable.some_⟩
  have cached := forwardCached_cleared trainable.wide nonempty tokenized
  refine ⟨inputIds, targetIds, tokenized, nonempty, cached, ?_⟩
  rw [← forward_zeroGrad, forward_eq, cached]
  rfl

/-- A step of training moves the weights along the gradient of the loss of the sample, but for
those of the adapters. -/
theorem trainStep_descends (trainable : model.Trainable) {sample : List Int × List Int}
    (usable : Usable vocabSize sample) (learningRate : ℝ) :
    ∃ logits gradient, model.forward sample.1 sample.2 = .ok logits ∧
      HasGrad (model.sampleLoss sample) gradient model.weights ∧
      model.trainStepTokenized (.setTraining true) learningRate sample.1 sample.2 =
        .ok (computeLoss lossSmoothing logits.data sample.2,
          model.zeroGrad.withWeights (model.weights - learningRate • trained gradient)) := by
  obtain ⟨inputIds, targetIds, tokenized, nonempty, cached, passes⟩ := trainable.passes usable
  have known : KnownTargets targetIds.length vocabSize sample.2 :=
    fun _ _ target here => usable.target target (List.mem_of_getElem? here)
  obtain ⟨after, returned, gradient, -, -, stepped⟩ := backward_cleared trainable.positive
    trainable.layered trainable.wide nonempty tokenized
    (fun logits => computeLoss 0 logits.data sample.2) passes
    ((loss_gradient_exact_iff _ sample.2).mpr (.inr known))
  refine ⟨_, after.grads, passes, gradient,
    (bind_ok cached _).trans ((bind_ok returned _).trans ?_)⟩
  rw [stepped]
  rfl

end Step

/-! ## Runs -/

def trainRun (learningRate : ℝ) :
    EncoderDecoderModel ℝ vocabSize heads dk dFf ranks shape → List (List Int × List Int) →
      Except String (EncoderDecoderModel ℝ vocabSize heads dk dFf ranks shape)
  | model, [] => .ok model
  | model, sample :: rest => do
    let after ← model.trainStepTokenized (.setTraining true) learningRate sample.1 sample.2
    trainRun learningRate after.2 rest

end EncoderDecoderModel

open EncoderDecoderModel

/-- **Training is gradient descent.** A run of steps over samples of known tokens returns. Its
weights follow a path of descent on the cross-entropies of the samples, along all weights but
those of the adapters, and nothing but weights and gradients has changed. -/
theorem training_run_descends (learningRate : ℝ) {samples : List (List Int × List Int)}
    {model : EncoderDecoderModel ℝ vocabSize heads dk dFf ranks shape}
    (trainable : model.Trainable) (usable : ∀ sample ∈ samples, Usable vocabSize sample) :
    ∃ last, trainRun learningRate model samples = .ok last ∧
      Descends learningRate trained model.sampleLoss samples model.weights last.weights ∧
      last.zeroGrad = model.zeroGrad.withWeights last.weights := by
  induction samples generalizing model with
  | nil =>
      have restored : model.withWeights model.weights = model :=
        (model.exact trainable.positive (model.gatedInputs []) [] []).restored
      refine ⟨model, rfl, .done, ?_⟩
      exact (congrArg zeroGrad restored).symm.trans
        (lawful.zeroGrad_withWeights model model.weights)
  | cons sample rest ih =>
      obtain ⟨first, others⟩ := List.forall_mem_cons.mp usable
      obtain ⟨logits, gradient, -, isGradient, stepped⟩ :=
        trainStep_descends trainable first learningRate
      let reached := model.weights - learningRate • trained gradient
      obtain ⟨last, run, later, kept⟩ := ih (trainable.cleared reached) others
      have losses : (model.zeroGrad.withWeights reached).sampleLoss = model.sampleLoss :=
        funext fun sample => outputScore_cleared reached _
      have start : (model.zeroGrad.withWeights reached).weights = reached :=
        lawful.weights_withWeights model.zeroGrad reached
      rw [losses, start] at later
      have cleared : (model.zeroGrad.withWeights reached).zeroGrad =
          model.zeroGrad.withWeights reached :=
        (lawful.zeroGrad_withWeights model.zeroGrad reached).trans
          (congrArg (withWeights · reached) (lawful.zeroGrad_zeroGrad model))
      refine ⟨last, (bind_ok stepped _).trans run, .step isGradient later, kept.trans ?_⟩
      rw [cleared]
      exact lawful.withWeights_withWeights model.zeroGrad reached last.weights

theorem zeroModel_trainable : zeroModel.Trainable :=
  ⟨zeroModel_epsPositive, one_pos, one_pos, by decide, by decide⟩

/-- Two samples in the small model. -/
theorem training_run_descends_two :
    ∃ last, trainRun 1 zeroModel [([1], [1, 0]), ([0], [1])] = .ok last ∧
      Descends 1 trained zeroModel.sampleLoss [([1], [1, 0]), ([0], [1])] zeroModel.weights
        last.weights ∧ last.zeroGrad = zeroModel.zeroGrad.withWeights last.weights := by
  refine training_run_descends 1 zeroModel_trainable fun sample member => ?_
  rcases List.mem_pair.mp member with rfl | rfl
  · exact ⟨by decide, by decide, by decide⟩
  · exact ⟨by decide, by decide, by decide⟩

/-! ## Policy gradients -/

section Policy

variable {rows : Nat}

/-- The advantage of the action at a position. -/
def advantageAt (advantages : List ℝ) (t : Fin rows) : ℝ := advantages.getD t 0

/-- The gradient that `apply_policy_gradient` passes back. -/
def policyGradient (advantages : List ℝ) (actions : List Int) (logits : Mat rows vocabSize) :
    Mat rows vocabSize :=
  fun t v =>
    match actions[t.val]? with
    | some action =>
      let weighted := advantageAt advantages t * Gradients.softmaxRow (logits t) v
      if (v : Int) = action then weighted - advantageAt advantages t else weighted
    | none => 0

/-- The sum of the weighted losses of the actions; `smoothing` is added inside of the logarithm. -/
def policyLossSum (smoothing : ℝ) (advantages : List ℝ) (actions : List Int)
    (logits : Mat rows vocabSize) : ℝ :=
  ∑ t, advantageAt advantages t * lossAt smoothing actions[t.val]? (logits t)

/-- The loss that is returned. -/
def meanOver (total : ℝ) (steps : Nat) : ℝ := if 0 < steps then total / steps else 0

/-- `apply_policy_gradient`; the optimizer steps over the parameters of the model. -/
def applyPolicyGradient
    (optimizerStep : EncoderDecoderModel ℝ vocabSize heads dk dFf ranks shape →
      EncoderDecoderModel ℝ vocabSize heads dk dFf ranks shape)
    (model : EncoderDecoderModel ℝ vocabSize heads dk dFf ranks shape)
    (promptTokens responseTokens : List Int) (advantages : List ℝ) :
    Except String (ℝ × EncoderDecoderModel ℝ vocabSize heads dk dFf ranks shape) :=
  if responseTokens = [] then .ok (0, model)
  else if advantages.length < responseTokens.length then
    .error "RLHFTrainer::apply_policy_gradient: advantages shorter than response_tokens"
  else do
    let cleared := model.zeroGrad
    let cache ← cleared.forwardCached promptTokens responseTokens
    let logits := cleared.lmHead.forward cache.decoderOutput
    let steps := min responseTokens.length cache.targetIds.length
    if ∀ action ∈ responseTokens.take steps, Known vocabSize action then
      let grad := policyGradient advantages responseTokens logits
      let after ← cleared.backward (.setTraining true) cache grad
      let pgLossSum := policyLossSum lossSmoothing advantages responseTokens logits
      return (meanOver pgLossSum steps, optimizerStep after)
    else .error "Matrix index out of bounds"

theorem hasGrad_policyLossSum {advantages : List ℝ} {actions : List Int}
    (known : ∀ action ∈ actions, Known vocabSize action) (logits : Mat rows vocabSize) :
    HasGrad (policyLossSum 0 advantages actions) (policyGradient advantages actions logits)
      logits := by
  have each (t : Fin rows) : HasGrad
      (fun row => advantageAt advantages t * lossAt 0 actions[t.val]? row)
      (advantageAt advantages t • gradientAt actions[t.val]? (logits t)) (logits t) :=
    (hasGrad_lossAt actions[t.val]? (logits t)).scalar (hasDerivAt_const_mul _)
  have same : policyGradient advantages actions logits =
      fun t => advantageAt advantages t • gradientAt actions[t.val]? (logits t) := by
    funext t v
    unfold policyGradient
    cases here : actions[t.val]? with
    | none => simp [gradientAt]
    | some action =>
        have inside := known action (List.mem_of_getElem? here)
        simp only [gradientAt, rowGradient, if_pos inside, Pi.smul_apply, smul_eq_mul]
        split
        · rw [mul_sub, mul_one]
        · rfl
  rw [same]
  exact hasGrad_sum_pi each

end Policy

end Adai.Transformer

end
