import Adai.Transformer.Attention
import Adai.Transformer.FeedForward
import Adai.Transformer.LayerNorm

/-! # Encoder blocks

`EncoderBlock`, whose residual stream splits before the attention and before the
feed-forward network. `encoder_block_backward_exact` shows that its backward pass is the
gradient whenever that of its attention is.
-/

noncomputable section

namespace Adai.Transformer

open Backpropagation Gradients

/-- The weights of the attention and of the feed-forward network, each with its norm. -/
abbrev EncoderBlock.Weights (K W : Type) (dModel dFf : Nat) :=
  (LayerNorm.Weights K dModel × W) × LayerNorm.Weights K dModel × FeedForward.Weights K dModel dFf

structure EncoderBlock (K A : Type) (dModel dFf : Nat) where
  attention : A
  feedForward : FeedForward K dModel dFf
  norm1 : LayerNorm K dModel
  norm2 : LayerNorm K dModel

namespace EncoderBlock

/-- What a forward pass leaves behind in the parts of a block. -/
structure Cache (K C : Type) (rows dModel dFf : Nat) where
  norm1 : LayerNorm.Cache K rows dModel
  attention : C
  norm2 : LayerNorm.Cache K rows dModel
  feedForward : FeedForward.Cache K rows dModel dFf

variable {K A W : Type} [Field K] [Transcendental K] {rows dModel dFf : Nat}
  (attention : Layer A W (Mat rows dModel K) (Mat rows dModel K))

def forward (block : EncoderBlock K A dModel dFf) (input : Mat rows dModel K) :
    Cache K attention.Cache rows dModel dFf × Mat rows dModel K :=
  let normed1 := block.norm1.forward input
  let attnOutput := attention.forward block.attention normed1.2
  let residual1 := input + attnOutput.2
  let normed2 := block.norm2.forward residual1
  let ffOutput := block.feedForward.forward normed2.2
  let residual2 := residual1 + ffOutput.2
  (⟨normed1.1, attnOutput.1, normed2.1, ffOutput.1⟩, residual2)

def backward (block : EncoderBlock K A dModel dFf)
    (cache : Cache K attention.Cache rows dModel dFf) (gradOutput : Mat rows dModel K) :
    EncoderBlock K A dModel dFf × Mat rows dModel K :=
  let feedForward := block.feedForward.backward cache.feedForward gradOutput
  let norm2 := block.norm2.backward cache.norm2 feedForward.2
  let gradResidual1 := gradOutput + norm2.2
  let attended := attention.backward block.attention cache.attention gradResidual1
  let norm1 := block.norm1.backward cache.norm1 attended.2
  let gradInput := gradResidual1 + norm1.2
  (⟨attended.1, feedForward.1, norm1.1, norm2.1⟩, gradInput)

def weights (block : EncoderBlock K A dModel dFf) : Weights K W dModel dFf :=
  ((block.norm1.weights, attention.weights block.attention),
    block.norm2.weights, block.feedForward.weights)

def grads (block : EncoderBlock K A dModel dFf) : Weights K W dModel dFf :=
  ((block.norm1.grads, attention.grads block.attention),
    block.norm2.grads, block.feedForward.grads)

def withWeights (block : EncoderBlock K A dModel dFf) (weights : Weights K W dModel dFf) :
    EncoderBlock K A dModel dFf :=
  ⟨attention.withWeights block.attention weights.1.2, block.feedForward.withWeights weights.2.2,
    block.norm1.withWeights weights.1.1, block.norm2.withWeights weights.2.1⟩

/-- The layer of a block. -/
def layer : Layer (EncoderBlock K A dModel dFf) (Weights K W dModel dFf) (Mat rows dModel K)
    (Mat rows dModel K) where
  Cache := Cache K attention.Cache rows dModel dFf
  weights := weights attention
  grads := grads attention
  withWeights := withWeights attention
  forward := forward attention
  backward := backward attention

end EncoderBlock

section Gradients

variable {A W : Type} [NormedAddCommGroup W] [NormedSpace ℝ W] [Coordinates W]
  {rows dModel dFf : Nat} {attention : Layer A W (Mat rows dModel) (Mat rows dModel)}

/-- The backward pass of a block is exact where that of its attention is. -/
theorem EncoderBlock.exact (block : EncoderBlock ℝ A dModel dFf) (positive1 : 0 < block.norm1.eps)
    (positive2 : 0 < block.norm2.eps) (input : Mat rows dModel)
    (exact : ∀ x, attention.Exact block.attention x) :
    (layer attention).Exact block input := by
  let residual1 := input + (attention.forward block.attention (block.norm1.forward input).2).2
  have attended := exact (block.norm1.forward input).2
  have first := (block.norm1.exact positive1 input).residual attended
  have second := (block.norm2.exact positive2 residual1).residual (block.feedForward.exact _)
  have reached := congrArg (input + ·) attended.value_eq
  refine ⟨(first.chain reached second).congr (fun _ => rfl) fun g => rfl, fun cache g => ?_, ?_⟩
  · exact Prod.ext (Prod.ext rfl (attended.kept _ _)) rfl
  · change EncoderBlock.mk (attention.withWeights _ (attention.weights _)) _ _ _ = block
    rw [attended.restored]
    rfl

/-- After a forward pass, the backward pass returns the gradient of the weighted sum of the
outputs for the input, and adds that for the weights. -/
theorem encoder_block_backward_exact
    (attention : Option (Mat rows rows) → Layer A W (Mat rows dModel) (Mat rows dModel))
    (block : EncoderBlock ℝ A dModel dFf) (mask : Option (Mat rows rows))
    (exact : ∀ x, (attention mask).Exact block.attention x) (positive1 : 0 < block.norm1.eps)
    (positive2 : 0 < block.norm2.eps) (input g : Mat rows dModel) :
    let forward := block.forward (attention mask) input
    let backward := block.backward (attention mask) forward.1 g
    ∃ gradient : EncoderBlock.Weights ℝ W dModel dFf × Mat rows dModel,
      HasGrad (fun q => ∑ i, ∑ j, g i j *
          ((block.withWeights (attention mask) q.1).forward (attention mask) q.2).2 i j)
        gradient (block.weights (attention mask), input) ∧
      backward.2 = gradient.2 ∧
      backward.1.grads (attention mask) = block.grads (attention mask) + gradient.1 := by
  have whole := (block.exact positive1 positive2 input exact).hasBackward.grad g
  simp only [dot_mat] at whole
  exact ⟨_, whole, rfl, (add_sub_cancel _ _).symm⟩

/-- One head of width one, with all weights zero. -/
def zeroBlock : EncoderBlock ℝ (Attention ℝ 1 1 ⟨none, none, none, none⟩) (1 * 1) 1 :=
  ⟨⟨⟨0, 0, ⟨⟩⟩, ⟨0, 0, ⟨⟩⟩, ⟨0, 0, ⟨⟩⟩, ⟨0, 0, ⟨⟩⟩⟩, ⟨0, 0, 0, 0, 0, 0, 0, 0⟩, ⟨1, 0, 0, 0, 0⟩,
    ⟨1, 0, 0, 0, 0⟩⟩

set_option synthInstance.maxSize 400 in
/-- With multi-head attention. -/
theorem encoder_block_backward_exact_self :
    let attention := Attention.selfLayer (K := ℝ) (some fun (_ _ : Fin 1) => 1)
    let forward := zeroBlock.forward attention 0
    let backward := zeroBlock.backward attention forward.1 1
    ∃ gradient : EncoderBlock.Weights ℝ _ (1 * 1) 1 × Mat 1 (1 * 1),
      HasGrad (fun q => ∑ i, ∑ j, (1 : Mat 1 (1 * 1)) i j *
          ((zeroBlock.withWeights attention q.1).forward attention q.2).2 i j)
        gradient (zeroBlock.weights attention, 0) ∧
      backward.2 = gradient.2 ∧
      backward.1.grads attention = zeroBlock.grads attention + gradient.1 :=
  encoder_block_backward_exact Attention.selfLayer zeroBlock (some fun _ _ => 1)
    (Attention.exactSelf _ _) one_pos one_pos 0 1

end Gradients

end Adai.Transformer

end
