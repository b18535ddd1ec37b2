import Adai.Gradients.Matrix

/-! # Activations of the transformer layers

`Activation::gelu`, and `Activation::softmax` of scores some of which are masked: a
masked score gets the weight zero. `hasBackward_gelu` and `hasBackward_softmax` show
that the derivatives beside them are exact.
-/

noncomputable section

namespace Adai.Transformer

open Backpropagation Gradients

/-- The functions that layers apply to numbers. -/
class Transcendental (K : Type) where
  exp : K → K
  tanh : K → K
  sqrt : K → K

instance : Transcendental ℝ := ⟨Real.exp, Real.tanh, Real.sqrt⟩

open Adai.Transformer.Transcendental

variable {K : Type} [Field K] [LinearOrder K] [Transcendental K] {m n : Nat}

/-! ## GELU -/

def GELU_COEF : K := 0.044715

def SQRT_2_OVER_PI : K := 0.7978845608

def gelu (x : K) : K :=
  let xCubed := x * x * x
  let inner := SQRT_2_OVER_PI * (x + GELU_COEF * xCubed)
  0.5 * x * (1 + tanh inner)

def geluDerivative (x : K) : K :=
  let xSquared := x * x
  let xCubed := xSquared * x
  let inner := SQRT_2_OVER_PI * (x + GELU_COEF * xCubed)
  let tanhInner := tanh inner
  let sechSquared := 1 - tanhInner * tanhInner
  let tanhDerivative := SQRT_2_OVER_PI * (1 + 3 * GELU_COEF * xSquared)
  0.5 * (1 + tanhInner) + 0.5 * x * sechSquared * tanhDerivative

theorem hasDerivAt_tanh (x : ℝ) :
    HasDerivAt Real.tanh (1 - Real.tanh x * Real.tanh x) x := by
  have positive := (Real.cosh_pos x).ne'
  have quotient := (Real.hasDerivAt_sinh x).div (Real.hasDerivAt_cosh x) positive
  have same : Real.tanh = fun x => Real.sinh x / Real.cosh x :=
    funext Real.tanh_eq_sinh_div_cosh
  rw [same]
  refine quotient.congr_deriv ?_
  field_simp

theorem hasDerivAt_gelu (x : ℝ) : HasDerivAt gelu (geluDerivative x) x := by
  have cubed : HasDerivAt (fun x : ℝ => x * x * x) (3 * (x * x)) x :=
    (((hasDerivAt_id x).mul (hasDerivAt_id x)).mul (hasDerivAt_id x)).congr_deriv (by simp; ring)
  have inner := ((hasDerivAt_id x).add (cubed.const_mul GELU_COEF)).const_mul SQRT_2_OVER_PI
  have activated := ((hasDerivAt_tanh _).comp x inner).const_add 1
  refine (((hasDerivAt_id x).const_mul 0.5).mul activated).congr_deriv ?_
  simp only [geluDerivative, Transcendental.tanh, Function.comp_apply, Pi.add_apply, id]
  ring

/-! ## Softmax -/

/-- The maximum of the scores that are not masked, from the first of them on. -/
def rowMax (allowed : Fin n → Bool) (row : Fin n → K) : K :=
  match ((List.finRange n).filter allowed).map row with
  | [] => 0
  | first :: rest => rest.foldl max first

/-- `softmax_row`; masked keys get the weight zero. -/
def softmaxRow (allowed : Fin n → Bool) (row : Fin n → K) : Fin n → K :=
  let exponential := fun j => if allowed j then exp (row j - rowMax allowed row) else 0
  let sum := ∑ j, exponential j
  fun j => if 0 < sum then exponential j / sum else exponential j

def softmaxRowBackward (y dy : Fin n → K) : Fin n → K :=
  let sum := ∑ k, y k * dy k
  fun j => y j * (dy j - sum)

section Real

variable (allowed : Fin n → Bool)

/-- The exponential of a score, or zero. -/
def weight (row : Fin n → ℝ) (j : Fin n) : ℝ := if allowed j then Real.exp (row j) else 0

theorem weight_nonneg (row : Fin n → ℝ) (j : Fin n) : 0 ≤ weight allowed row j := by
  unfold weight
  split
  · exact (Real.exp_pos _).le
  · exact le_rfl

/-- The maximum cancels. -/
theorem softmaxRow_eq (row : Fin n → ℝ) :
    softmaxRow allowed row = (∑ k, weight allowed row k)⁻¹ • weight allowed row := by
  let exponential := fun j => if allowed j then Real.exp (row j - rowMax allowed row) else 0
  have shifted (j : Fin n) :
      exponential j = weight allowed row j / Real.exp (rowMax allowed row) := by
    unfold weight
    change (if allowed j then Real.exp (row j - rowMax allowed row) else 0) = _
    split
    · exact Real.exp_sub ..
    · exact (zero_div _).symm
  have total : ∑ j, exponential j =
      (∑ j, weight allowed row j) / Real.exp (rowMax allowed row) := by
    rw [Finset.sum_div]
    exact Finset.sum_congr rfl fun j _ => shifted j
  have nonneg := Finset.sum_nonneg fun j (_ : j ∈ Finset.univ) => weight_nonneg allowed row j
  funext j
  change (if 0 < ∑ j, exponential j then exponential j / ∑ j, exponential j else exponential j) = _
  rw [shifted, total]
  rcases nonneg.eq_or_lt with none | some
  · have zero := (Finset.sum_eq_zero_iff_of_nonneg fun j _ => weight_nonneg allowed row j).mp
      none.symm j (Finset.mem_univ j)
    simp [zero, ← none]
  · rw [if_pos (div_pos some (Real.exp_pos _)), div_div_div_cancel_right₀ (Real.exp_ne_zero _),
      div_eq_inv_mul]
    rfl

theorem hasDerivAt_weight (row : Fin n → ℝ) (j : Fin n) :
    HasDerivAt (fun x => if allowed j then Real.exp x else 0) (weight allowed row j) (row j) := by
  unfold weight
  by_cases kept : allowed j
  · simpa only [kept, ↓reduceIte] using Real.hasDerivAt_exp (row j)
  · simpa only [kept, Bool.false_eq_true, ↓reduceIte] using hasDerivAt_const (row j) (0 : ℝ)

/-- Where all exponentials are zero, all scores are masked. -/
theorem masked_of_sum_eq_zero {row : Fin n → ℝ} (none : ∑ k, weight allowed row k = 0) :
    ∀ j, ¬ allowed j := by
  intro j kept
  have zero := (Finset.sum_eq_zero_iff_of_nonneg fun j _ => weight_nonneg allowed row j).mp
    none j (Finset.mem_univ j)
  rw [weight, if_pos kept] at zero
  exact Real.exp_ne_zero _ zero

theorem hasBackward_softmax (row : Fin n → ℝ) :
    HasBackward (softmaxRow allowed)
      (fun g => softmaxRowBackward (softmaxRow allowed row) g) row := by
  by_cases none : ∑ k, weight allowed row k = 0
  · have masked := masked_of_sum_eq_zero allowed none
    have zero (row : Fin n → ℝ) : softmaxRow allowed row = 0 := by
      rw [softmaxRow_eq]
      funext j
      simp [weight, masked]
    refine (hasBackward_const 0 row).congr zero fun g => ?_
    funext j
    rw [softmaxRowBackward, zero]
    exact zero_mul _
  · have weights : HasBackward (weight allowed) (fun g j => g j * weight allowed row j) row :=
      hasBackward_map fun j => hasBackward_of_hasDerivAt (hasDerivAt_weight allowed row j)
    have sum : HasGrad (fun row => ∑ k, weight allowed row k) (weight allowed row) row :=
      hasGrad_sum_pi fun j => hasGrad_of_hasDerivAt (hasDerivAt_weight allowed row j)
    have inverse := (sum.scalar (hasDerivAt_inv none)).hasBackward
    have total := (inverse.pair weights).followedBy (hasBackward_smul _)
    refine total.congr (softmaxRow_eq allowed) fun g => ?_
    funext j
    have products : dot g (weight allowed row) = ∑ k, g k * weight allowed row k := dot_pi g _
    simp only [softmaxRowBackward, softmaxRow_eq, Pi.add_apply, Pi.smul_apply, smul_eq_mul,
      products]
    have pulled : ∑ k, (∑ l, weight allowed row l)⁻¹ * weight allowed row k * g k =
        (∑ l, weight allowed row l)⁻¹ * ∑ k, g k * weight allowed row k := by
      rw [Finset.mul_sum]
      exact Finset.sum_congr rfl fun k _ => by ring
    rw [pulled]
    field_simp
    ring

end Real

end Adai.Transformer

end
