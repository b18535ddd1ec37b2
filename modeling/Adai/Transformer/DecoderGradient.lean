import Adai.Transformer.LLMDecoder

/-! # Back-propagation through decoder blocks

A gated path to contents that are held constant, the parts of a block, a block and the stack
of blocks, each as a layer whose backward pass is exact. All blocks read the same encoder's
output, whose gradient is the sum of theirs.
-/

noncomputable section

namespace Adai.Transformer

open Backpropagation Gradients Adai.Transformer.Transcendental

variable {K : Type} [Field K] [LinearOrder K] [Transcendental K] {rows src heads dk dFf : Nat}

namespace Attention

variable {ranks : Ranks}

/-- The weights of the projections, which do not depend on the rows. -/
def weights (attention : Attention K heads dk ranks) : Weights K heads dk ranks :=
  (selfLayer (none : Option (Mat 0 0 K))).weights attention

def grads (attention : Attention K heads dk ranks) : Weights K heads dk ranks :=
  (selfLayer (none : Option (Mat 0 0 K))).grads attention

def withWeights (attention : Attention K heads dk ranks) (weights : Weights K heads dk ranks) :
    Attention K heads dk ranks :=
  (selfLayer (none : Option (Mat 0 0 K))).withWeights attention weights

end Attention

/-- The weights of an attention with its norm. -/
def AttentionWeights (K : Type) (heads dk : Nat) (ranks : Ranks) : Type :=
  LayerNorm.Weights K (heads * dk) × Attention.Weights K heads dk ranks

section Spaces

variable (ranks : Ranks)

instance : NormedAddCommGroup (AttentionWeights ℝ heads dk ranks) :=
  inferInstanceAs (NormedAddCommGroup (LayerNorm.Weights ℝ _ × Attention.Weights ℝ heads dk ranks))

instance : NormedSpace ℝ (AttentionWeights ℝ heads dk ranks) :=
  inferInstanceAs (NormedSpace ℝ (LayerNorm.Weights ℝ _ × Attention.Weights ℝ heads dk ranks))

instance : Coordinates (AttentionWeights ℝ heads dk ranks) :=
  inferInstanceAs (Coordinates (LayerNorm.Weights ℝ _ × Attention.Weights ℝ heads dk ranks))

end Spaces

namespace GatedPath

/-- The weights of the attention, and the gate. -/
abbrev Weights (K : Type) (heads dk : Nat) (ranks : Ranks) :=
  AttentionWeights K heads dk ranks × K

section Path

variable {ranks : Ranks}

def weights (path : GatedPath K heads dk ranks) : Weights K heads dk ranks :=
  ((path.norm.weights, path.attention.weights), path.gate)

def grads (path : GatedPath K heads dk ranks) : Weights K heads dk ranks :=
  ((path.norm.grads, path.attention.grads), path.gateGrad)

def withWeights (path : GatedPath K heads dk ranks) (weights : Weights K heads dk ranks) :
    GatedPath K heads dk ranks :=
  { path with
    attention := path.attention.withWeights weights.1.2
    norm := path.norm.withWeights weights.1.1
    gate := weights.2 }

/-- The layer of a path to given contents. -/
def layer (source : GatedSource K (heads * dk)) :
    Layer (GatedPath K heads dk ranks) (Weights K heads dk ranks) (Mat rows (heads * dk) K)
      (Mat rows (heads * dk) K) where
  Cache := Cache K rows heads dk
  weights := weights
  grads := grads
  withWeights := withWeights
  forward := fun path residual => path.forward source residual
  backward := backward

theorem weights_backward (path : GatedPath ℝ heads dk ranks) (cache : Cache ℝ rows heads dk)
    (gradOutput : Mat rows (heads * dk)) :
    (path.backward cache gradOutput).1.weights = path.weights := by
  have kept := (path.attention.exact (none : Option (Mat rows cache.src)) none (0, 0)).kept
    cache.attention fun i j => gradOutput i j * Real.tanh path.gate
  exact Prod.ext (Prod.ext rfl kept) rfl

theorem withWeights_weights (path : GatedPath ℝ heads dk ranks) :
    path.withWeights path.weights = path := by
  have restored := (path.attention.exactSelf (none : Option (Mat 0 0)) 0).restored
  change GatedPath.mk _ _ _ _ = GatedPath.mk path.attention path.norm path.gate path.gateGrad
  rw [GatedPath.mk.injEq]
  exact ⟨restored, rfl, rfl, rfl⟩

/-- The backward pass is exact. -/
theorem exact (path : GatedPath ℝ heads dk ranks) (positive : 0 < path.norm.eps)
    (source : GatedSource ℝ (heads * dk)) (residual : Mat rows (heads * dk)) :
    (layer source).Exact path residual := by
  have normed := path.norm.exact positive residual
  have attended := path.attention.exact (source.bias.map fun bias (_ : Fin rows) => bias) none
    ((path.norm.forward residual).2, source.data)
  have branch := normed.hasBackward.chain normed.value_eq attended.hasBackward.fixed
  have opened := (branch.gated attended.value_eq (hasDerivAt_tanh path.gate)).residual
  refine ⟨opened.congr (fun _ => rfl) fun g => ?_, path.weights_backward, path.withWeights_weights⟩
  have scaled : (fun i j => g i j * Real.tanh path.gate) = Real.tanh path.gate • g :=
    funext fun i => funext fun j => mul_comm ..
  beta_reduce
  rw [← scaled, dot_mat]
  refine Prod.ext (Prod.ext ?_ ?_) ?_
  · rfl
  · exact add_sub_cancel_left path.gateGrad _
  · rfl

end Path

section Optional

variable {ranks : Option Ranks}

def optionalWeights (path : Slot (GatedPath K heads dk) ranks) : Slot (Weights K heads dk) ranks :=
  Slot.map (fun _ path => path.weights) path

def optionalGrads (path : Slot (GatedPath K heads dk) ranks) : Slot (Weights K heads dk) ranks :=
  Slot.map (fun _ path => path.grads) path

def withOptionalWeights (path : Slot (GatedPath K heads dk) ranks)
    (weights : Slot (Weights K heads dk) ranks) : Slot (GatedPath K heads dk) ranks :=
  Slot.map₂ (fun _ path weights => path.withWeights weights) path weights

/-- The layer of a path that the block may lack, to contents that may be absent. -/
def optionalLayer (source : Option (GatedSource K (heads * dk))) :
    Layer (Slot (GatedPath K heads dk) ranks) (Slot (Weights K heads dk) ranks)
      (Mat rows (heads * dk) K) (Mat rows (heads * dk) K) where
  Cache := Option (Cache K rows heads dk)
  weights := optionalWeights
  grads := optionalGrads
  withWeights := withOptionalWeights
  forward := fun path residual => forwardOptional path source residual
  backward := backwardOptional

/-- The norm of a path has a positive epsilon, if the block has the path. -/
def EpsPositive : {ranks : Option Ranks} → Slot (GatedPath ℝ heads dk) ranks → Prop
  | none, _ => True
  | some ranks, path =>
    let path : GatedPath ℝ heads dk ranks := path
    0 < path.norm.eps

theorem optional_exact (path : Slot (GatedPath ℝ heads dk) ranks) (positive : EpsPositive path)
    (source : Option (GatedSource ℝ (heads * dk))) (residual : Mat rows (heads * dk)) :
    (optionalLayer source).Exact path residual := by
  have inactive (weights grads : Slot (Weights ℝ heads dk) ranks) :
      HasBackward (fun q : Slot (Weights ℝ heads dk) ranks × Mat rows (heads * dk) => q.2)
        (fun g => (grads - grads, g)) (weights, residual) :=
    (hasBackward_snd _).congr (fun _ => rfl) fun g => Prod.ext (sub_self grads) rfl
  have kept (cache : Option (Cache ℝ rows heads dk)) (g : Mat rows (heads * dk)) :
      optionalWeights (backwardOptional path cache g).1 = optionalWeights path := by
    cases ranks with
    | none => rfl
    | some ranks =>
        cases cache with
        | none => rfl
        | some cache => exact weights_backward path cache g
  cases ranks with
  | none => exact ⟨inactive _ _, kept, rfl⟩
  | some ranks =>
      have restored := withWeights_weights path
      cases source with
      | none => exact ⟨inactive (weights path) (grads path), kept, restored⟩
      | some source => exact ⟨(exact path positive source residual).hasBackward, kept, restored⟩

end Optional

end GatedPath

namespace DecoderBlock

variable {shape : BlockShape}

/-- The weights of the gated paths, and of the feed-forward network with its norm. -/
def FinishWeights (K : Type) (heads dk dFf : Nat) (shape : BlockShape) : Type :=
  (Slot (GatedPath.Weights K heads dk) shape.worldModel ×
      Slot (GatedPath.Weights K heads dk) shape.hippocampal) ×
    LayerNorm.Weights K (heads * dk) × FeedForward.Weights K (heads * dk) dFf

instance (shape : BlockShape) : NormedAddCommGroup (FinishWeights ℝ heads dk dFf shape) :=
  inferInstanceAs (NormedAddCommGroup ((Slot (GatedPath.Weights ℝ heads dk) shape.worldModel ×
      Slot (GatedPath.Weights ℝ heads dk) shape.hippocampal) ×
    LayerNorm.Weights ℝ (heads * dk) × FeedForward.Weights ℝ (heads * dk) dFf))

instance (shape : BlockShape) : NormedSpace ℝ (FinishWeights ℝ heads dk dFf shape) :=
  inferInstanceAs (NormedSpace ℝ ((Slot (GatedPath.Weights ℝ heads dk) shape.worldModel ×
      Slot (GatedPath.Weights ℝ heads dk) shape.hippocampal) ×
    LayerNorm.Weights ℝ (heads * dk) × FeedForward.Weights ℝ (heads * dk) dFf))

instance (shape : BlockShape) : Coordinates (FinishWeights ℝ heads dk dFf shape) :=
  inferInstanceAs (Coordinates ((Slot (GatedPath.Weights ℝ heads dk) shape.worldModel ×
      Slot (GatedPath.Weights ℝ heads dk) shape.hippocampal) ×
    LayerNorm.Weights ℝ (heads * dk) × FeedForward.Weights ℝ (heads * dk) dFf))

def finishWeights (block : DecoderBlock K heads dk dFf shape) :
    FinishWeights K heads dk dFf shape :=
  ((GatedPath.optionalWeights block.worldModel, GatedPath.optionalWeights block.hippocampal),
    block.norm3.weights, block.feedForward.weights)

def finishGrads (block : DecoderBlock K heads dk dFf shape) : FinishWeights K heads dk dFf shape :=
  ((GatedPath.optionalGrads block.worldModel, GatedPath.optionalGrads block.hippocampal),
    block.norm3.grads, block.feedForward.grads)

def withFinishWeights (block : DecoderBlock K heads dk dFf shape)
    (weights : FinishWeights K heads dk dFf shape) : DecoderBlock K heads dk dFf shape :=
  { block with
    worldModel := GatedPath.withOptionalWeights block.worldModel weights.1.1
    hippocampal := GatedPath.withOptionalWeights block.hippocampal weights.1.2
    norm3 := block.norm3.withWeights weights.2.1
    feedForward := block.feedForward.withWeights weights.2.2 }

/-- The layer behind the cross-attention. -/
def finishLayer (inputs : GatedInputs K (heads * dk)) :
    Layer (DecoderBlock K heads dk dFf shape) (FinishWeights K heads dk dFf shape)
      (Mat rows (heads * dk) K) (Mat rows (heads * dk) K) where
  Cache := FinishCache K rows heads dk dFf
  weights := finishWeights
  grads := finishGrads
  withWeights := withFinishWeights
  forward := fun block residual2 => block.finish inputs residual2
  backward := finishBackward

/-- The norms of a block have positive epsilons. -/
structure EpsPositive (block : DecoderBlock ℝ heads dk dFf shape) : Prop where
  norm1 : 0 < block.norm1.eps
  norm2 : 0 < block.norm2.eps
  norm3 : 0 < block.norm3.eps
  worldModel : GatedPath.EpsPositive block.worldModel
  hippocampal : GatedPath.EpsPositive block.hippocampal

theorem finish_exact (block : DecoderBlock ℝ heads dk dFf shape) (positive : block.EpsPositive)
    (inputs : GatedInputs ℝ (heads * dk)) (residual2 : Mat rows (heads * dk)) :
    (finishLayer inputs).Exact block residual2 := by
  have world := GatedPath.optional_exact block.worldModel positive.worldModel
    inputs.worldModelSource residual2
  have hippocampal := GatedPath.optional_exact block.hippocampal positive.hippocampal
    inputs.hippocampalSource
    (GatedPath.forwardOptional block.worldModel inputs.worldModelSource residual2).2
  have gated := world.hasBackward.chain world.value_eq hippocampal.hasBackward
  let gatedOut := (GatedPath.forwardOptional block.hippocampal inputs.hippocampalSource
    (GatedPath.forwardOptional block.worldModel inputs.worldModelSource residual2).2).2
  have last := (block.norm3.exact positive.norm3 gatedOut).residual (block.feedForward.exact _)
  have reached := (congrArg (fun x => (GatedPath.optionalLayer inputs.hippocampalSource).value
    block.hippocampal (GatedPath.optionalWeights block.hippocampal, x)) world.value_eq).trans
      hippocampal.value_eq
  refine ⟨(gated.chain reached last).congr (fun _ => rfl) fun g => rfl, fun cache g => ?_, ?_⟩
  · exact Prod.ext (Prod.ext (world.kept _ _) (hippocampal.kept _ _)) rfl
  · obtain ⟨selfAttention, crossAttention, feedForward, norm1, norm2, norm3, path, path'⟩ := block
    exact congrArg₂ (DecoderBlock.mk selfAttention crossAttention feedForward norm1 norm2 norm3)
      world.restored hippocampal.restored

/-- The weights of the self-attention, of the cross-attention and of what comes behind. -/
def Weights (K : Type) (heads dk dFf : Nat) (shape : BlockShape) : Type :=
  (AttentionWeights K heads dk shape.selfAttention ×
    AttentionWeights K heads dk shape.crossAttention) × FinishWeights K heads dk dFf shape

instance (shape : BlockShape) : NormedAddCommGroup (Weights ℝ heads dk dFf shape) :=
  inferInstanceAs (NormedAddCommGroup ((AttentionWeights ℝ heads dk shape.selfAttention ×
    AttentionWeights ℝ heads dk shape.crossAttention) × FinishWeights ℝ heads dk dFf shape))

instance (shape : BlockShape) : NormedSpace ℝ (Weights ℝ heads dk dFf shape) :=
  inferInstanceAs (NormedSpace ℝ ((AttentionWeights ℝ heads dk shape.selfAttention ×
    AttentionWeights ℝ heads dk shape.crossAttention) × FinishWeights ℝ heads dk dFf shape))

instance (shape : BlockShape) : Coordinates (Weights ℝ heads dk dFf shape) :=
  inferInstanceAs (Coordinates ((AttentionWeights ℝ heads dk shape.selfAttention ×
    AttentionWeights ℝ heads dk shape.crossAttention) × FinishWeights ℝ heads dk dFf shape))

def weights (block : DecoderBlock K heads dk dFf shape) : Weights K heads dk dFf shape :=
  (((block.norm1.weights, block.selfAttention.weights),
      block.norm2.weights, block.crossAttention.weights),
    block.finishWeights)

def grads (block : DecoderBlock K heads dk dFf shape) : Weights K heads dk dFf shape :=
  (((block.norm1.grads, block.selfAttention.grads),
      block.norm2.grads, block.crossAttention.grads), block.finishGrads)

def withWeights (block : DecoderBlock K heads dk dFf shape)
    (weights : Weights K heads dk dFf shape) : DecoderBlock K heads dk dFf shape :=
  { block.withFinishWeights weights.2 with
    norm1 := block.norm1.withWeights weights.1.1.1
    selfAttention := block.selfAttention.withWeights weights.1.1.2
    norm2 := block.norm2.withWeights weights.1.2.1
    crossAttention := block.crossAttention.withWeights weights.1.2.2 }

/-- The layer of a block. -/
def layer (inputs : GatedInputs K (heads * dk)) (selfAttnMask : Mat rows rows K) :
    Layer (DecoderBlock K heads dk dFf shape) (Weights K heads dk dFf shape)
      (Mat rows (heads * dk) K × Mat src (heads * dk) K) (Mat rows (heads * dk) K) where
  Cache := Cache K rows src heads dk dFf
  weights := weights
  grads := grads
  withWeights := withWeights
  forward := fun block x => block.forward inputs x.2 selfAttnMask x.1
  backward := backward

/-- The layer of the self-attention, with its norm and its residual connection. -/
def selfLayer (selfAttnMask : Mat rows rows K) :
    Layer (DecoderBlock K heads dk dFf shape) (AttentionWeights K heads dk shape.selfAttention)
      (Mat rows (heads * dk) K) (Mat rows (heads * dk) K) where
  Cache := LayerNorm.Cache K rows (heads * dk) × Attention.Cache K rows rows heads dk
  weights := fun block => (block.norm1.weights, block.selfAttention.weights)
  grads := fun block => (block.norm1.grads, block.selfAttention.grads)
  withWeights := fun block weights =>
    { block with
      norm1 := block.norm1.withWeights weights.1
      selfAttention := block.selfAttention.withWeights weights.2 }
  forward := fun block input =>
    let normed1 := block.norm1.forward input
    let selfAttnOut := Attention.attendSelf (some selfAttnMask) block.selfAttention normed1.2
    ((normed1.1, selfAttnOut.1), input + selfAttnOut.2)
  backward := fun block cache gradResidual1 =>
    let attended := block.selfAttention.backwardSelf cache.2 gradResidual1
    let norm1 := block.norm1.backward cache.1 attended.2
    ({ block with
        norm1 := norm1.1
        selfAttention := attended.1 }, gradResidual1 + norm1.2)

/-- The layer of the cross-attention. -/
def crossLayer :
    Layer (DecoderBlock K heads dk dFf shape) (AttentionWeights K heads dk shape.crossAttention)
      (Mat rows (heads * dk) K × Mat src (heads * dk) K) (Mat rows (heads * dk) K) where
  Cache := LayerNorm.Cache K rows (heads * dk) × Attention.Cache K rows src heads dk
  weights := fun block => (block.norm2.weights, block.crossAttention.weights)
  grads := fun block => (block.norm2.grads, block.crossAttention.grads)
  withWeights := fun block weights =>
    { block with
      norm2 := block.norm2.withWeights weights.1
      crossAttention := block.crossAttention.withWeights weights.2 }
  forward := fun block x =>
    let normed2 := block.norm2.forward x.1
    let crossAttnOut := Attention.attend none none block.crossAttention normed2.2 x.2
    ((normed2.1, crossAttnOut.1), x.1 + crossAttnOut.2)
  backward := fun block cache gradResidual2 =>
    let cross := block.crossAttention.backward cache.2 gradResidual2
    let norm2 := block.norm2.backward cache.1 cross.2.1
    ({ block with
        norm2 := norm2.1
        crossAttention := cross.1 }, gradResidual2 + norm2.2, cross.2.2)

theorem self_exact (block : DecoderBlock ℝ heads dk dFf shape) (positive : block.EpsPositive)
    (selfAttnMask : Mat rows rows) (input : Mat rows (heads * dk)) :
    (selfLayer selfAttnMask).Exact block input := by
  have attended := block.selfAttention.exactSelf (some selfAttnMask) (block.norm1.forward input).2
  have branch := (block.norm1.exact positive.norm1 input).residual attended
  refine ⟨branch.congr (fun _ => rfl) fun g => rfl, fun cache g => ?_, ?_⟩
  · exact Prod.ext rfl (attended.kept _ _)
  · obtain ⟨selfAttention, crossAttention, feedForward, norm1, norm2, norm3, path, path'⟩ := block
    exact congrArg (fun attention => DecoderBlock.mk attention crossAttention feedForward norm1
      norm2 norm3 path path') attended.restored

theorem cross_exact (block : DecoderBlock ℝ heads dk dFf shape) (positive : block.EpsPositive)
    (residual1 : Mat rows (heads * dk)) (encoderOutput : Mat src (heads * dk)) :
    crossLayer.Exact block (residual1, encoderOutput) := by
  have normed := block.norm2.exact positive.norm2 residual1
  have attended := block.crossAttention.exact none none
    ((block.norm2.forward residual1).2, encoderOutput)
  have branch := ((normed.hasBackward.beside encoderOutput).chain
    (congrArg (·, encoderOutput) normed.value_eq) attended.hasBackward).residualBeside
  refine ⟨branch.congr (fun _ => rfl) fun g => rfl, fun cache g => ?_, ?_⟩
  · exact Prod.ext rfl (attended.kept _ _)
  · obtain ⟨selfAttention, crossAttention, feedForward, norm1, norm2, norm3, path, path'⟩ := block
    exact congrArg (fun attention => DecoderBlock.mk selfAttention attention feedForward norm1
      norm2 norm3 path path') attended.restored

/-- The backward pass of a block is exact. -/
theorem exact (block : DecoderBlock ℝ heads dk dFf shape) (positive : block.EpsPositive)
    (inputs : GatedInputs ℝ (heads * dk)) (selfAttnMask : Mat rows rows)
    (input : Mat rows (heads * dk)) (encoderOutput : Mat src (heads * dk)) :
    (layer inputs selfAttnMask).Exact block (input, encoderOutput) := by
  have attended := block.self_exact positive selfAttnMask input
  let residual1 := ((selfLayer selfAttnMask).forward block input).2
  have crossed := block.cross_exact positive residual1 encoderOutput
  let residual2 := (crossLayer.forward block (residual1, encoderOutput)).2
  have finished := block.finish_exact positive inputs residual2
  have both := (attended.hasBackward.beside encoderOutput).chain
    (congrArg (·, encoderOutput) attended.value_eq) crossed.hasBackward
  have reached := (congrArg (fun x => crossLayer.value block (crossLayer.weights block,
    (x, encoderOutput))) attended.value_eq).trans crossed.value_eq
  have whole := both.chain reached finished.hasBackward
  refine ⟨whole.congr (fun _ => rfl) fun g => rfl, fun cache g => ?_, ?_⟩
  · exact Prod.ext (Prod.ext (attended.kept (cache.norm1, cache.selfAttention) _)
      (crossed.kept (cache.norm2, cache.crossAttention) _)) (finished.kept _ _)
  · have behind : block.withFinishWeights block.finishWeights = block := finished.restored
    have first : block.selfAttention.withWeights block.selfAttention.weights =
        block.selfAttention := congrArg DecoderBlock.selfAttention attended.restored
    have second : block.crossAttention.withWeights block.crossAttention.weights =
        block.crossAttention := congrArg DecoderBlock.crossAttention crossed.restored
    change ({ block.withFinishWeights block.finishWeights with
      norm1 := block.norm1
      selfAttention := block.selfAttention.withWeights block.selfAttention.weights
      norm2 := block.norm2
      crossAttention := block.crossAttention.withWeights block.crossAttention.weights } :
        DecoderBlock ℝ heads dk dFf shape) = block
    rw [behind, first, second]

end DecoderBlock

section Stack

theorem accumulate_eq (sum : Option (Mat src (heads * dk))) (grad : Mat src (heads * dk)) :
    accumulate sum grad = sum.getD 0 + grad := by
  cases sum with
  | none => exact (zero_add grad).symm
  | some sum => rfl

variable {layers : Nat} {shape : Fin layers → BlockShape}

/-- The layer of all blocks. -/
def blocksLayer (inputs : GatedInputs K (heads * dk)) (selfAttnMask : Mat rows rows K) :
    Layer (∀ l, DecoderBlock K heads dk dFf (shape l))
      (∀ l, DecoderBlock.Weights K heads dk dFf (shape l))
      (Mat rows (heads * dk) K × Mat src (heads * dk) K) (Mat rows (heads * dk) K) where
  Cache := Fin layers → DecoderBlock.Cache K rows src heads dk dFf
  weights := fun blocks l => (blocks l).weights
  grads := fun blocks l => (blocks l).grads
  withWeights := fun blocks weights l => (blocks l).withWeights (weights l)
  forward := fun blocks x => forwardBlocks inputs x.2 selfAttnMask blocks x.1
  backward := fun blocks caches gradOutput =>
    let after := backwardBlocks blocks caches gradOutput
    (after.1, after.2.1, after.2.2.getD 0)

/-- Every block gets the gradients of its own weights, and the encoder's output those of all. -/
theorem blocks_exact (blocks : ∀ l, DecoderBlock ℝ heads dk dFf (shape l))
    (positive : ∀ l, (blocks l).EpsPositive) (inputs : GatedInputs ℝ (heads * dk))
    (selfAttnMask : Mat rows rows) (input : Mat rows (heads * dk))
    (encoderOutput : Mat src (heads * dk)) :
    (blocksLayer inputs selfAttnMask).Exact blocks (input, encoderOutput) := by
  induction layers generalizing input with
  | zero =>
      refine ⟨?_, fun _ _ => rfl, funext fun l => l.elim0⟩
      refine ((hasBackward_snd _).followedBy (hasBackward_fst _)).congr (fun _ => rfl) fun g => ?_
      exact Prod.ext (funext fun l => l.elim0) rfl
  | succ layers ih =>
      have first := (blocks 0).exact (positive 0) inputs selfAttnMask input encoderOutput
      have rest := ih (fun l => blocks l.succ) (fun l => positive l.succ)
        ((blocks 0).forward inputs encoderOutput selfAttnMask input).2
      have whole := HasBackward.stack (W := fun l => DecoderBlock.Weights ℝ heads dk dFf (shape l))
        (w := fun l => (blocks l).weights) first.hasBackward.passing
        (congrArg (·, encoderOutput) first.value_eq) rest.hasBackward
      refine ⟨whole.congr (fun _ => rfl) fun g => ?_, fun caches g => ?_, ?_⟩
      · refine Prod.ext (funext fun l => ?_) (Prod.ext rfl ?_)
        · cases l using Fin.cases with
          | zero => rfl
          | succ l => rfl
        · exact accumulate_eq _ _
      · funext l
        cases l using Fin.cases with
        | zero => exact first.kept (caches 0) _
        | succ l => exact congrFun (rest.kept (fun l => caches l.succ) g) l
      · funext l
        cases l using Fin.cases with
        | zero => exact first.restored
        | succ l => exact congrFun rest.restored l

end Stack

end Adai.Transformer

end
