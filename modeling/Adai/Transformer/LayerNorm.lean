import Adai.Transformer.Activation

/-! # Layer normalization

`LayerNorm`, which normalizes each row by its mean and variance, and scales and shifts
the columns. `LayerNorm.hasBackward_forward` shows that the backward pass through mean
and variance is the gradient.
-/

noncomputable section

namespace Adai.Transformer

open Backpropagation Gradients Adai.Transformer.Transcendental

/-- The scales and the shifts of the columns. -/
abbrev LayerNorm.Weights (K : Type) (dim : Nat) := (Fin dim → K) × (Fin dim → K)

structure LayerNorm (K : Type) (dim : Nat) where
  eps : K
  gamma : Fin dim → K
  beta : Fin dim → K
  gammaGrad : Fin dim → K
  betaGrad : Fin dim → K

namespace LayerNorm

variable {K : Type} [Field K] [Transcendental K] {rows dim : Nat}

/-- What a forward pass leaves behind. -/
structure Cache (K : Type) (rows dim : Nat) where
  input : Mat rows dim K
  normalized : Mat rows dim K
  mean : Fin rows → K
  var : Fin rows → K

def mean (row : Fin dim → K) : K := (∑ j, row j) / dim

def variance (row : Fin dim → K) : K :=
  (∑ j, (row j - mean row) * (row j - mean row)) / dim

def invStd (eps var : K) : K := 1 / sqrt (var + eps)

def forward (norm : LayerNorm K dim) (input : Mat rows dim K) :
    Cache K rows dim × Mat rows dim K :=
  let mean := fun i => mean (input i)
  let var := fun i => variance (input i)
  let normalized : Mat rows dim K := fun i j => (input i j - mean i) * invStd norm.eps (var i)
  (⟨input, normalized, mean, var⟩, fun i j => norm.gamma j * normalized i j + norm.beta j)

/-- The gradient of a row. -/
def rowBackward (mean invStd : K) (row gradNormalized : Fin dim → K) : Fin dim → K :=
  let gradVar := (∑ j, gradNormalized j * (row j - mean)) * (-0.5 * invStd * invStd * invStd)
  let sumDiff := ∑ j, (row j - mean)
  let gradMean := ∑ j, gradNormalized j * -invStd + gradVar * (-(2 : ℕ) / dim) * sumDiff
  fun j => gradNormalized j * invStd + gradVar * (2 : ℕ) * (row j - mean) / dim + gradMean / dim

def backward (norm : LayerNorm K dim) (cache : Cache K rows dim) (gradOutput : Mat rows dim K) :
    LayerNorm K dim × Mat rows dim K :=
  ({ norm with
      gammaGrad := fun j => norm.gammaGrad j + ∑ i, gradOutput i j * cache.normalized i j
      betaGrad := fun j => norm.betaGrad j + ∑ i, gradOutput i j },
    fun i => rowBackward (cache.mean i) (invStd norm.eps (cache.var i)) (cache.input i)
      fun j => gradOutput i j * norm.gamma j)

def weights (norm : LayerNorm K dim) : Weights K dim := (norm.gamma, norm.beta)

def grads (norm : LayerNorm K dim) : Weights K dim := (norm.gammaGrad, norm.betaGrad)

def withWeights (norm : LayerNorm K dim) (weights : Weights K dim) : LayerNorm K dim :=
  { norm with gamma := weights.1, beta := weights.2 }

/-- The layer that acts on a given number of rows. -/
def layer (rows : Nat) :
    Layer (LayerNorm K dim) (Weights K dim) (Mat rows dim K) (Mat rows dim K) where
  Cache := Cache K rows dim
  weights := weights
  grads := grads
  withWeights := withWeights
  forward := forward
  backward := backward

/-! ## Gradients -/

/-- The deviations from the mean. -/
def center (row : Fin dim → ℝ) : Fin dim → ℝ := fun j => row j - mean row

theorem hasBackward_center (row : Fin dim → ℝ) : HasBackward center center row := by
  let linear : (Fin dim → ℝ) →ₗ[ℝ] (Fin dim → ℝ) :=
    { toFun := center
      map_add' := fun x y => by
        funext j
        simp only [center, mean, Pi.add_apply, Finset.sum_add_distrib]
        ring
      map_smul' := fun c x => by
        funext j
        simp only [center, mean, Pi.smul_apply, smul_eq_mul, ← Finset.mul_sum, RingHom.id_apply]
        ring }
  refine hasBackward_of_linear linear center (fun g v => ?_) row
  rw [dot_pi, dot_pi]
  change ∑ j, g j * (v j - mean v) = ∑ j, (g j - mean g) * v j
  simp only [mul_sub, sub_mul, Finset.sum_sub_distrib, ← Finset.sum_mul, ← Finset.mul_sum, mean]
  ring

/-- The inverse deviation, from the centered row. -/
theorem hasGrad_invStd {eps : ℝ} (positive : 0 < eps) (y : Fin dim → ℝ) :
    HasGrad (fun y : Fin dim → ℝ => invStd eps ((∑ j, y j * y j) / dim))
      (fun j => -0.5 * invStd eps ((∑ j, y j * y j) / dim) ^ 3 * (2 * y j / dim)) y := by
  have squares : HasGrad (fun y : Fin dim → ℝ => ∑ j, y j * y j) (fun j => 2 * y j) y :=
    hasGrad_sum_pi fun j => hasGrad_of_hasDerivAt
      (((hasDerivAt_id (y j)).mul (hasDerivAt_id (y j))).congr_deriv (by simp; ring))
  have nonneg : 0 ≤ (∑ j, y j * y j) / dim :=
    div_nonneg (Finset.sum_nonneg fun j _ => mul_self_nonneg (y j)) (Nat.cast_nonneg dim)
  have shifted : 0 < (∑ j, y j * y j) / dim + eps := by linarith
  have root := (((hasDerivAt_id (∑ j, y j * y j)).div_const (dim : ℝ)).add_const eps).sqrt
    shifted.ne'
  have inverse := root.inv (Real.sqrt_pos.mpr shifted).ne'
  have total := squares.scalar inverse
  have same : (fun y : Fin dim → ℝ => invStd eps ((∑ j, y j * y j) / dim)) =
      fun y => (Real.sqrt ((∑ j, y j * y j) / dim + eps))⁻¹ :=
    funext fun y => one_div _
  rw [same]
  refine Eq.subst (motive := fun g => HasGrad _ g y) ?_ total
  funext j
  have s := Real.sqrt_pos.mpr shifted
  change _ * (2 * y j) = -0.5 * (1 / Real.sqrt ((∑ j, y j * y j) / dim + eps)) ^ 3 * _
  simp only [id]
  field_simp
  ring

/-- The gradient of a normalized row. -/
theorem hasBackward_normalized {eps : ℝ} (positive : 0 < eps) (row : Fin dim → ℝ) :
    HasBackward (fun (row : Fin dim → ℝ) j => (row j - mean row) * invStd eps (variance row))
      (rowBackward (mean row) (invStd eps (variance row)) row) row := by
  have inverse := (hasGrad_invStd positive (center row)).hasBackward
  have scaled := (inverse.pair (hasBackward_id (center row))).followedBy (hasBackward_smul _)
  refine ((hasBackward_center row).followedBy scaled).congr (fun row => ?_) fun h => ?_
  · funext j
    exact mul_comm ..
  · funext j
    let y := center row
    let s := invStd eps (variance row)
    let product := dot h y
    have product_eq : product = ∑ j, h j * y j := dot_pi h y
    have sums : ∑ k, (product * (-0.5 * s ^ 3 * (2 * y k / dim)) + s * h k) =
        product * (-0.5 * s ^ 3 * (2 / dim)) * ∑ k, y k + s * ∑ k, h k := by
      rw [Finset.sum_add_distrib, Finset.mul_sum, Finset.mul_sum]
      congr 1
      exact Finset.sum_congr rfl fun k _ => by ring
    change h j * s + (∑ j, h j * y j) * (-0.5 * s * s * s) * 2 * y j / dim +
      ((∑ j, h j * -s) + (∑ j, h j * y j) * (-0.5 * s * s * s) * (-2 / dim) * ∑ j, y j) / dim =
      product * (-0.5 * s ^ 3 * (2 * y j / dim)) + s * h j -
        (∑ k, (product * (-0.5 * s ^ 3 * (2 * y k / dim)) + s * h k)) / dim
    rw [sums, ← product_eq, ← Finset.sum_mul]
    ring

/-- The scales as a bilinear map. -/
def scaleColumns : (Fin dim → ℝ) →ₗ[ℝ] Mat rows dim →ₗ[ℝ] Mat rows dim :=
  LinearMap.mk₂ ℝ (fun gamma a i j => gamma j * a i j)
    (fun _ _ _ => funext fun _ => funext fun _ => add_mul ..)
    (fun _ _ _ => funext fun _ => funext fun _ => mul_assoc ..)
    (fun _ _ _ => funext fun _ => funext fun _ => mul_add ..)
    (fun _ _ _ => funext fun _ => funext fun _ => mul_left_comm ..)

/-- The gradients of the scales and of the rows they are applied to. -/
theorem hasBackward_scale (x : (Fin dim → ℝ) × Mat rows dim) :
    HasBackward (fun x : (Fin dim → ℝ) × Mat rows dim => fun i j => x.1 j * x.2 i j)
      (fun g => (fun j => ∑ i, g i j * x.2 i j, fun i j => g i j * x.1 j)) x := by
  refine hasBackward_of_bilinear scaleColumns (fun a g j => ∑ i, g i j * a i j)
    (fun gamma g i j => g i j * gamma j) (fun gamma a g => ?_) (fun gamma a g => ?_) x
  · rw [dot_mat, dot_pi, Finset.sum_comm]
    refine Finset.sum_congr rfl fun j _ => ?_
    change ∑ i, g i j * (gamma j * a i j) = (∑ i, g i j * a i j) * gamma j
    rw [Finset.sum_mul]
    exact Finset.sum_congr rfl fun i _ => by ring
  · rw [dot_mat, dot_mat]
    exact Finset.sum_congr rfl fun i _ => Finset.sum_congr rfl fun j _ => (mul_assoc ..).symm

/-- The backward pass is exact. -/
theorem exact (norm : LayerNorm ℝ dim) (positive : 0 < norm.eps) (input : Mat rows dim) :
    (layer rows).Exact norm input := by
  refine ⟨?_, fun _ _ => rfl, rfl⟩
  have start := hasBackward_snd (V := Weights ℝ dim) (W := Mat rows dim) (norm.weights, input)
  have affine := hasBackward_fst (V := Weights ℝ dim) (W := Mat rows dim) (norm.weights, input)
  have normalized := start.followedBy
    (hasBackward_map fun i => hasBackward_normalized positive (input i))
  have scaled := ((affine.followedBy (hasBackward_fst norm.weights)).pair normalized).followedBy
    (hasBackward_scale _)
  have shifted := (scaled.pair (affine.followedBy (hasBackward_snd norm.weights))).followedBy
    (hasBackward_addRow _)
  refine shifted.congr (fun _ => rfl) fun g => ?_
  simp only [Prod.mk_add_mk, add_zero, zero_add]
  refine Prod.ext (Prod.ext ?_ ?_) rfl
  · exact add_sub_cancel_left norm.gammaGrad _
  · exact add_sub_cancel_left norm.betaGrad _

end LayerNorm

end Adai.Transformer

end
