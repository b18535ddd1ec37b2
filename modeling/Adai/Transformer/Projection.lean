import Adai.Gradients.Matrix

/-! # Projections with low-rank adapters

`LoRAAdapter`, and the projections of an attention layer: a weight matrix with the
adapter that may have been enabled for it.
-/

noncomputable section

namespace Adai.Transformer

open Backpropagation Gradients

variable {K : Type} [Field K] {rows dim rank : Nat}

/-! ## Adapters -/

/-- The low-rank factors. -/
abbrev LoRAAdapter.Weights (K : Type) (dim rank : Nat) := Mat rank dim K × Mat dim rank K

structure LoRAAdapter (K : Type) (dim rank : Nat) where
  alpha : K
  A : Mat rank dim K
  B : Mat dim rank K
  gradA : Mat rank dim K
  gradB : Mat dim rank K

namespace LoRAAdapter

def scale (adapter : LoRAAdapter K dim rank) : K := adapter.alpha / rank

/-- Adds the contribution of the adapter to the output of the frozen weights. -/
def forward (adapter : LoRAAdapter K dim rank) (x output : Mat rows dim K) : Mat rows dim K :=
  let xAB := Mat.mul (Mat.mul x adapter.A.transpose) adapter.B.transpose
  fun i j => output i j + adapter.scale * xAB i j

def backward (adapter : LoRAAdapter K dim rank) (x gradOutput : Mat rows dim K) :
    LoRAAdapter K dim rank × Mat rows dim K :=
  let gradBRaw := Mat.mul gradOutput.transpose (Mat.mul x adapter.A.transpose)
  let gradARaw := Mat.mul (Mat.mul adapter.B.transpose gradOutput.transpose) x
  let gradInput := Mat.mul (Mat.mul gradOutput adapter.B) adapter.A
  ({ adapter with
      gradB := fun r c => adapter.gradB r c + gradBRaw r c * adapter.scale
      gradA := fun r c => adapter.gradA r c + gradARaw r c * adapter.scale },
    fun i j => gradInput i j * adapter.scale)

def weights (adapter : LoRAAdapter K dim rank) : Weights K dim rank := (adapter.A, adapter.B)

def grads (adapter : LoRAAdapter K dim rank) : Weights K dim rank := (adapter.gradA, adapter.gradB)

def withWeights (adapter : LoRAAdapter K dim rank) (weights : Weights K dim rank) :
    LoRAAdapter K dim rank :=
  { adapter with A := weights.1, B := weights.2 }

/-- The layer of the contribution of an adapter. -/
def layer (rows : Nat) :
    Layer (LoRAAdapter K dim rank) (Weights K dim rank) (Mat rows dim K) (Mat rows dim K) where
  Cache := Mat rows dim K
  weights := weights
  grads := grads
  withWeights := withWeights
  forward := fun adapter x => (x, adapter.forward x 0)
  backward := backward

theorem forward_eq (adapter : LoRAAdapter K dim rank) (x output : Mat rows dim K) :
    adapter.forward x output = output + adapter.forward x 0 := by
  funext i j
  exact congrArg (output i j + ·) (zero_add _).symm

/-- The backward pass is exact. -/
theorem exact (adapter : LoRAAdapter ℝ dim rank) (input : Mat rows dim) :
    (layer rows).Exact adapter input := by
  refine ⟨?_, fun _ _ => rfl, rfl⟩
  let weights := adapter.weights
  have whole := hasBackward_fst (V := Weights ℝ dim rank) (W := Mat rows dim) (weights, input)
  have start := hasBackward_snd (V := Weights ℝ dim rank) (W := Mat rows dim) (weights, input)
  have factorA := (whole.followedBy (hasBackward_fst weights)).followedBy
    (hasBackward_transpose adapter.A)
  have factorB := (whole.followedBy (hasBackward_snd weights)).followedBy
    (hasBackward_transpose adapter.B)
  have xA := (start.pair factorA).followedBy (hasBackward_mul _)
  have xAB := (xA.pair factorB).followedBy (hasBackward_mul _)
  have scaled := xAB.followedBy (hasBackward_entries
    (φ := fun y => adapter.scale * y) (d := fun _ => adapter.scale) _ fun _ _ =>
      hasDerivAt_const_mul adapter.scale)
  refine scaled.congr (fun _ => ?_) fun g => ?_
  · funext i j
    exact zero_add _
  · have pulled := xAB.smul adapter.scale g
    have same : (fun i j => g i j * adapter.scale) = adapter.scale • g :=
      funext fun i => funext fun j => mul_comm ..
    rw [same, pulled]
    simp only [Prod.mk_add_mk, add_zero, zero_add, Mat.transpose_mul]
    refine Prod.ext (Prod.ext ?_ ?_) ?_
    · funext r c
      exact (add_sub_cancel_left (adapter.gradA r c) _).trans (mul_comm ..)
    · funext r c
      exact (add_sub_cancel_left (adapter.gradB r c) _).trans (mul_comm ..)
    · funext i j
      exact mul_comm ..

end LoRAAdapter

/-! ## Projections -/

/-- The weight matrix, and the factors of an adapter. -/
abbrev Projection.Weights (K : Type) (dim : Nat) (rank : Option Nat) :=
  Mat dim dim K × Slot (LoRAAdapter.Weights K dim) rank

/-- A square weight matrix, and its adapter where one has been enabled. -/
structure Projection (K : Type) (dim : Nat) (rank : Option Nat) where
  W : Mat dim dim K
  grad : Mat dim dim K
  lora : Slot (LoRAAdapter K dim) rank

namespace Projection

variable {rank : Option Nat}

def forward (projection : Projection K dim rank) (x : Mat rows dim K) : Mat rows dim K :=
  match rank, projection with
  | none, projection => Mat.mul x projection.W
  | some _, projection => LoRAAdapter.forward projection.lora x (Mat.mul x projection.W)

/-- Adds to the gradients of the weights and of the adapter, and returns the gradient of the
input. -/
def backward (projection : Projection K dim rank) (x gradOutput : Mat rows dim K) :
    Projection K dim rank × Mat rows dim K :=
  let grad := projection.grad + Mat.mul x.transpose gradOutput
  let gradInput := Mat.mul gradOutput projection.W.transpose
  match rank, projection with
  | none, projection => ({ projection with grad := grad }, gradInput)
  | some _, projection =>
    let after := LoRAAdapter.backward projection.lora x gradOutput
    ({ projection with grad := grad, lora := after.1 }, gradInput + after.2)

/-- The layer that acts on a given number of rows. -/
def layer (rows : Nat) :
    Layer (Projection K dim rank) (Weights K dim rank) (Mat rows dim K) (Mat rows dim K) where
  Cache := Mat rows dim K
  weights := fun projection =>
    (projection.W, Slot.map (fun _ adapter => adapter.weights) projection.lora)
  grads := fun projection =>
    (projection.grad, Slot.map (fun _ adapter => adapter.grads) projection.lora)
  withWeights := fun projection weights =>
    { projection with
      W := weights.1
      lora := Slot.map₂ (fun _ adapter factors => adapter.withWeights factors)
        projection.lora weights.2 }
  forward := fun projection x => (x, projection.forward x)
  backward := backward

/-- The backward pass is exact. -/
theorem exact (projection : Projection ℝ dim rank) (input : Mat rows dim) :
    (layer rows).Exact projection input := by
  let weights : Weights ℝ dim rank := (layer rows).weights projection
  have whole := hasBackward_fst (V := Weights ℝ dim rank) (W := Mat rows dim) (weights, input)
  have start := hasBackward_snd (V := Weights ℝ dim rank) (W := Mat rows dim) (weights, input)
  have product := (start.pair (whole.followedBy (hasBackward_fst weights))).followedBy
    (hasBackward_mul _)
  cases rank with
  | none =>
      refine ⟨product.congr (fun _ => rfl) fun g => ?_, fun _ _ => rfl, rfl⟩
      simp only [Prod.mk_add_mk, add_zero, zero_add]
      refine Prod.ext (Prod.ext ?_ ?_) rfl
      · exact add_sub_cancel_left projection.grad _
      · rfl
  | some r =>
      let adapter : LoRAAdapter ℝ dim r := projection.lora
      have factors : HasBackward
          (fun x : Weights ℝ dim (some r) × Mat rows dim => (x.1.2 : LoRAAdapter.Weights ℝ dim r))
          (fun g => ((0, g), 0)) (weights, input) :=
        whole.followedBy (hasBackward_snd weights)
      have contribution := (factors.pair start).followedBy (adapter.exact input).hasBackward
      refine ⟨(product.add contribution).congr (fun x => ?_) fun g => ?_, fun _ _ => rfl, rfl⟩
      · exact (adapter.withWeights x.1.2).forward_eq x.2 _
      · simp only [Prod.mk_add_mk, add_zero, zero_add]
        refine Prod.ext (Prod.ext ?_ ?_) ?_
        · exact add_sub_cancel_left projection.grad _
        · rfl
        · rfl

end Projection

end Adai.Transformer

end
