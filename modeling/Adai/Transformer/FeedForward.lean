import Adai.Transformer.Activation

/-! # Feed-forward networks

`FeedForward`, two linear layers with a GELU between them.
-/

noncomputable section

namespace Adai.Transformer

open Backpropagation Gradients

/-- The weights and the bias of a linear layer. -/
abbrev LinearWeights (K : Type) (m n : Nat) := Mat m n K × (Fin n → K)

/-- The two linear layers. -/
abbrev FeedForward.Weights (K : Type) (dModel dFf : Nat) :=
  LinearWeights K dModel dFf × LinearWeights K dFf dModel

structure FeedForward (K : Type) (dModel dFf : Nat) where
  W1 : Mat dModel dFf K
  b1 : Fin dFf → K
  W2 : Mat dFf dModel K
  b2 : Fin dModel → K
  W1Grad : Mat dModel dFf K
  b1Grad : Fin dFf → K
  W2Grad : Mat dFf dModel K
  b2Grad : Fin dModel → K

namespace FeedForward

variable {K : Type} [Field K] [Transcendental K] {rows dModel dFf : Nat}

/-- What a forward pass leaves behind. -/
structure Cache (K : Type) (rows dModel dFf : Nat) where
  input : Mat rows dModel K
  hidden : Mat rows dFf K
  hiddenActivated : Mat rows dFf K

def forward (ff : FeedForward K dModel dFf) (input : Mat rows dModel K) :
    Cache K rows dModel dFf × Mat rows dModel K :=
  let hidden := Mat.addRow (Mat.mul input ff.W1) ff.b1
  let hiddenActivated : Mat rows dFf K := fun i j => gelu (hidden i j)
  (⟨input, hidden, hiddenActivated⟩, Mat.addRow (Mat.mul hiddenActivated ff.W2) ff.b2)

def backward (ff : FeedForward K dModel dFf) (cache : Cache K rows dModel dFf)
    (gradOutput : Mat rows dModel K) : FeedForward K dModel dFf × Mat rows dModel K :=
  let gradHiddenActivated := Mat.mul gradOutput ff.W2.transpose
  let gradHidden : Mat rows dFf K := fun i j =>
    gradHiddenActivated i j * geluDerivative (cache.hidden i j)
  ({ ff with
      b2Grad := ff.b2Grad + gradOutput.sumRows
      W2Grad := ff.W2Grad + Mat.mul cache.hiddenActivated.transpose gradOutput
      b1Grad := ff.b1Grad + gradHidden.sumRows
      W1Grad := ff.W1Grad + Mat.mul cache.input.transpose gradHidden },
    Mat.mul gradHidden ff.W1.transpose)

def weights (ff : FeedForward K dModel dFf) : Weights K dModel dFf :=
  ((ff.W1, ff.b1), (ff.W2, ff.b2))

def grads (ff : FeedForward K dModel dFf) : Weights K dModel dFf :=
  ((ff.W1Grad, ff.b1Grad), (ff.W2Grad, ff.b2Grad))

def withWeights (ff : FeedForward K dModel dFf) (weights : Weights K dModel dFf) :
    FeedForward K dModel dFf :=
  { ff with W1 := weights.1.1, b1 := weights.1.2, W2 := weights.2.1, b2 := weights.2.2 }

/-- The layer that acts on a given number of rows. -/
def layer (rows : Nat) :
    Layer (FeedForward K dModel dFf) (Weights K dModel dFf) (Mat rows dModel K)
      (Mat rows dModel K) where
  Cache := Cache K rows dModel dFf
  weights := weights
  grads := grads
  withWeights := withWeights
  forward := forward
  backward := backward

/-- The backward pass is exact. -/
theorem exact (ff : FeedForward ℝ dModel dFf) (input : Mat rows dModel) :
    (layer rows).Exact ff input := by
  refine ⟨?_, fun _ _ => rfl, rfl⟩
  let weights := ff.weights
  have whole := hasBackward_fst (V := Weights ℝ dModel dFf) (W := Mat rows dModel) (weights, input)
  have start := hasBackward_snd (V := Weights ℝ dModel dFf) (W := Mat rows dModel) (weights, input)
  have hidden := ((whole.followedBy (hasBackward_fst weights)).pair start).followedBy
    (hasBackward_linear _)
  have activated := hidden.followedBy
    (hasBackward_entries _ fun i j => hasDerivAt_gelu _)
  have output := ((whole.followedBy (hasBackward_snd weights)).pair activated).followedBy
    (hasBackward_linear _)
  refine output.congr (fun _ => rfl) fun g => ?_
  simp only [Prod.mk_add_mk, add_zero, zero_add]
  refine Prod.ext (Prod.ext (Prod.ext ?_ ?_) (Prod.ext ?_ ?_)) rfl
  · exact add_sub_cancel_left ff.W1Grad _
  · exact add_sub_cancel_left ff.b1Grad _
  · exact add_sub_cancel_left ff.W2Grad _
  · exact add_sub_cancel_left ff.b2Grad _

end FeedForward

end Adai.Transformer

end
