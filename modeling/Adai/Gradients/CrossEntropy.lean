import Adai.Gradients.Matrix

/-! # The training loss

`Activation::softmax_row` subtracts the maximum of a row before it takes exponentials, and is
the softmax of the row (`softmaxRow_eq`).

`EncoderDecoderModel::compute_loss` is the mean cross-entropy over the rows of the
logits; a target outside the vocabulary adds nothing to it.
`compute_loss_gradient` leaves the softmax of such a row in the gradient, so it is the
gradient exactly when no row has such a target (`loss_gradient_exact_iff`).
-/

noncomputable section

namespace Adai.Gradients

open Backpropagation

/-! ## Softmax -/

section Softmax

variable {n : Nat}

/-- The maximum of a row, from its first entry on. -/
def rowMax (row : Fin n → ℝ) : ℝ := (List.ofFn row).tail.foldl max ((List.ofFn row).headD 0)

/-- `Activation::softmax_row`. -/
def softmaxRow (row : Fin n → ℝ) : Fin n → ℝ :=
  let exponential := fun j => Real.exp (row j - rowMax row)
  let sum := ∑ j, exponential j
  fun j => if 0 < sum then exponential j / sum else exponential j

theorem sum_exp_pos (row : Fin n → ℝ) (shift : ℝ) (j : Fin n) :
    0 < ∑ k, Real.exp (row k - shift) :=
  Finset.sum_pos (fun _ _ => Real.exp_pos _) ⟨j, Finset.mem_univ j⟩

/-- The maximum cancels. -/
theorem softmaxRow_eq (row : Fin n → ℝ) (j : Fin n) :
    softmaxRow row j = Real.exp (row j) / ∑ k, Real.exp (row k) := by
  have shifted (k : Fin n) :
      Real.exp (row k - rowMax row) = Real.exp (row k) / Real.exp (rowMax row) :=
    Real.exp_sub ..
  have divided : softmaxRow row j =
      Real.exp (row j - rowMax row) / ∑ k, Real.exp (row k - rowMax row) :=
    if_pos (sum_exp_pos row (rowMax row) j)
  simp only [divided, shifted]
  rw [← Finset.sum_div, div_div_div_cancel_right₀ (Real.exp_ne_zero _)]

theorem softmaxRow_pos (row : Fin n → ℝ) (j : Fin n) : 0 < softmaxRow row j := by
  rw [softmaxRow_eq]
  exact div_pos (Real.exp_pos _) (by simpa using sum_exp_pos row 0 j)

/-- The gradient of the logarithm of the sum of exponentials is the softmax. -/
theorem hasGrad_log_sum_exp (row : Fin n → ℝ) (j : Fin n) :
    HasGrad (fun row : Fin n → ℝ => Real.log (∑ k, Real.exp (row k))) (softmaxRow row) row := by
  have sum : HasGrad (fun row : Fin n → ℝ => ∑ k, Real.exp (row k))
      (fun k => Real.exp (row k)) row :=
    hasGrad_sum_pi fun k => hasGrad_of_hasDerivAt (Real.hasDerivAt_exp (row k))
  have positive : (∑ k, Real.exp (row k)) ≠ 0 := by
    simpa using (sum_exp_pos row 0 j).ne'
  have total := sum.scalar (Real.hasDerivAt_log positive)
  have same : softmaxRow row = (∑ k, Real.exp (row k))⁻¹ • fun k => Real.exp (row k) := by
    funext k
    rw [softmaxRow_eq, div_eq_inv_mul]
    rfl
  rw [same]
  exact total

end Softmax

/-! ## Losses -/

section Loss

variable {rows vocabSize : Nat}

/-- The loss of a row, with the constant inside the logarithm. -/
def rowLoss (smoothing : ℝ) (target : Int) (row : Fin vocabSize → ℝ) : ℝ :=
  if known : 0 ≤ target ∧ target < vocabSize then
    -Real.log (softmaxRow row ⟨target.toNat, by omega⟩ + smoothing)
  else 0

/-- The loss of a row, if it has a target. -/
def lossAt (smoothing : ℝ) : Option Int → (Fin vocabSize → ℝ) → ℝ
  | some target, row => rowLoss smoothing target row
  | none, _ => 0

/-- `compute_loss`. -/
def computeLoss (smoothing : ℝ) (logits : Mat rows vocabSize) (targets : List Int) : ℝ :=
  (∑ t : Fin rows, lossAt smoothing targets[t.val]? (logits t)) / rows

/-- `compute_loss_gradient`. -/
def computeLossGradient (logits : Mat rows vocabSize) (targets : List Int) :
    Mat rows vocabSize :=
  fun t v =>
    match targets[t.val]? with
    | some target =>
      (if (v : Int) = target ∧ 0 ≤ target ∧ target < vocabSize then softmaxRow (logits t) v - 1
        else softmaxRow (logits t) v) / rows
    | none => 0

/-! ## The gradient of the loss -/

/-- The gradient of the loss of a row. -/
def rowGradient (target : Int) (row : Fin vocabSize → ℝ) : Fin vocabSize → ℝ :=
  if 0 ≤ target ∧ target < vocabSize then
    fun v => if (v : Int) = target then softmaxRow row v - 1 else softmaxRow row v
  else 0

theorem hasGrad_coordinate (k : Fin vocabSize) (row : Fin vocabSize → ℝ) :
    HasGrad (fun row : Fin vocabSize → ℝ => row k) (Pi.single k 1) row := by
  have each (i : Fin vocabSize) : HasGrad (fun x : ℝ => if i = k then x else 0)
      ((Pi.single k 1 : Fin vocabSize → ℝ) i) (row i) := by
    by_cases same : i = k
    · subst same
      simpa using hasGrad_of_hasDerivAt (hasDerivAt_id' (row i))
    · simpa [same] using hasGrad_const 0 (row i)
  have total := hasGrad_sum_pi each
  simpa using total

/-- The loss of a row with a known target is the logarithm of its sum of exponentials
less its entry there. -/
theorem rowLoss_eq {target : Int} (known : 0 ≤ target ∧ target < vocabSize)
    (row : Fin vocabSize → ℝ) :
    rowLoss 0 target row = Real.log (∑ k, Real.exp (row k)) +
      -row ⟨target.toNat, by omega⟩ := by
  have positive : (∑ k, Real.exp (row k)) ≠ 0 := by
    simpa using (sum_exp_pos row 0 ⟨target.toNat, by omega⟩).ne'
  rw [rowLoss, dif_pos known, add_zero, softmaxRow_eq, Real.log_div (Real.exp_ne_zero _) positive,
    Real.log_exp, neg_sub]
  ring

theorem hasGrad_rowLoss (target : Int) (row : Fin vocabSize → ℝ) :
    HasGrad (rowLoss 0 target) (rowGradient target row) row := by
  by_cases known : 0 ≤ target ∧ target < vocabSize
  · have loss : rowLoss 0 target = fun row : Fin vocabSize → ℝ =>
        Real.log (∑ k, Real.exp (row k)) + -row ⟨target.toNat, by omega⟩ :=
      funext (rowLoss_eq known)
    have entry := (hasGrad_coordinate ⟨target.toNat, by omega⟩ row).scalar (hasDerivAt_neg' _)
    have total := (hasGrad_log_sum_exp row ⟨target.toNat, by omega⟩).add entry
    have same : rowGradient target row = softmaxRow row +
        (-1 : ℝ) • Pi.single (⟨target.toNat, by omega⟩ : Fin vocabSize) (1 : ℝ) := by
      funext v
      rw [rowGradient, if_pos known]
      by_cases here : (v : Int) = target
      · have index : v = ⟨target.toNat, by omega⟩ := Fin.ext (by simp only; omega)
        rw [if_pos here, index]
        simp [sub_eq_add_neg]
      · have index : v ≠ ⟨target.toNat, by omega⟩ := by
          rintro rfl
          exact here (by simp only; omega)
        rw [if_neg here]
        simp [Pi.single_eq_of_ne index]
    rw [loss, same]
    exact total
  · have loss : rowLoss 0 target = fun _ : Fin vocabSize → ℝ => 0 :=
      funext fun _ => dif_neg known
    rw [loss, rowGradient, if_neg known]
    exact hasGrad_const 0 row

/-- The gradient of the loss of a row, if it has a target. -/
def gradientAt : Option Int → (Fin vocabSize → ℝ) → Fin vocabSize → ℝ
  | some target, row => rowGradient target row
  | none, _ => 0

theorem hasGrad_lossAt (target : Option Int) (row : Fin vocabSize → ℝ) :
    HasGrad (lossAt 0 target) (gradientAt target row) row := by
  cases target with
  | none => exact hasGrad_const 0 row
  | some target => exact hasGrad_rowLoss target row

theorem hasGrad_computeLoss (logits : Mat rows vocabSize) (targets : List Int) :
    HasGrad (fun x => computeLoss 0 x targets)
      (fun t => (1 / rows : ℝ) • gradientAt targets[t.val]? (logits t)) logits := by
  have each (t : Fin rows) : HasGrad (fun row => lossAt 0 targets[t.val]? row / rows)
      ((1 / rows : ℝ) • gradientAt targets[t.val]? (logits t)) (logits t) :=
    (hasGrad_lossAt targets[t.val]? (logits t)).scalar
      ((hasDerivAt_id' (lossAt 0 targets[t.val]? (logits t))).div_const (rows : ℝ))
  have same : (fun x : Mat rows vocabSize => computeLoss 0 x targets) = fun x =>
      ∑ t, lossAt 0 targets[t.val]? (x t) / rows :=
    funext fun x => Finset.sum_div ..
  rw [same]
  exact hasGrad_sum_pi each

/-! ## Where it is computed -/

/-- No row has a target outside the vocabulary. -/
def KnownTargets (rows vocabSize : Nat) (targets : List Int) : Prop :=
  ∀ t < rows, ∀ target, targets[t]? = some target → 0 ≤ target ∧ target < vocabSize

/-- What is computed for a row is its gradient, unless its target is not in the
vocabulary: then the softmax is left. -/
theorem computeLossGradient_row (logits : Mat rows vocabSize) (targets : List Int) (t : Fin rows) :
    computeLossGradient logits targets t = (1 / rows : ℝ) • gradientAt targets[t.val]? (logits t) ↔
      vocabSize = 0 ∨
        ∀ target, targets[t.val]? = some target → 0 ≤ target ∧ target < vocabSize := by
  unfold computeLossGradient
  cases targets[t.val]? with
  | none =>
      refine iff_of_true ?_ (.inr fun target impossible => by cases impossible)
      funext v
      simp [gradientAt]
  | some target =>
      by_cases known : 0 ≤ target ∧ target < vocabSize
      · refine iff_of_true ?_ (.inr fun other same => Option.some.inj same ▸ known)
        funext v
        simp only [gradientAt, rowGradient, known, and_true, ↓reduceIte, Pi.smul_apply, smul_eq_mul]
        rw [div_eq_inv_mul, one_div]
      · simp only [gradientAt, rowGradient, known, and_false, ↓reduceIte, smul_zero]
        constructor
        · intro same
          refine .inl ?_
          by_contra nonempty
          let v : Fin vocabSize := ⟨0, Nat.pos_of_ne_zero nonempty⟩
          have positive : 0 < softmaxRow (logits t) v / rows :=
            div_pos (softmaxRow_pos (logits t) v) (by exact_mod_cast t.pos)
          exact positive.ne' (congrFun same v)
        · intro either
          rcases either with none | all
          · subst none
            exact funext fun v => v.elim0
          · exact absurd (all target rfl) known

/-- What is computed is the gradient only if the targets are known. -/
theorem known_of_hasGrad {logits : Mat rows vocabSize} {targets : List Int}
    (computed : HasGrad (fun x => computeLoss 0 x targets) (computeLossGradient logits targets)
      logits) : vocabSize = 0 ∨ KnownTargets rows vocabSize targets := by
  have same := computed.unique (hasGrad_computeLoss logits targets)
  by_cases none : vocabSize = 0
  · exact .inl none
  · refine .inr fun t below => ?_
    exact ((computeLossGradient_row logits targets ⟨t, below⟩).mp
      (congrFun same ⟨t, below⟩)).resolve_left none

/-- `compute_loss_gradient` is the gradient of `compute_loss` exactly when no row has a
target outside the vocabulary. -/
theorem loss_gradient_exact_iff (logits : Mat rows vocabSize) (targets : List Int) :
    HasGrad (fun x => computeLoss 0 x targets) (computeLossGradient logits targets) logits ↔
      vocabSize = 0 ∨ KnownTargets rows vocabSize targets := by
  refine ⟨known_of_hasGrad, fun known => ?_⟩
  have same : computeLossGradient logits targets =
      fun t => (1 / rows : ℝ) • gradientAt targets[t.val]? (logits t) :=
    funext fun t => (computeLossGradient_row logits targets t).mpr
      (known.imp_right fun all => all t t.isLt)
  rw [same]
  exact hasGrad_computeLoss logits targets

end Loss

/-- A single row with a target outside a vocabulary of two. -/
theorem loss_gradient_exact_fails :
    ¬ HasGrad (fun x : Mat 1 2 => computeLoss 0 x [2]) (computeLossGradient 0 [2]) 0 := by
  intro computed
  rcases known_of_hasGrad computed with none | known
  · exact absurd none (by omega)
  · exact absurd (known 0 Nat.one_pos 2 rfl) (by omega)

end Adai.Gradients

end
