import Adai.Gradients.Matrix

/-! # The SIGReg regularizer

`SIGReg::compute_loss` projects a batch of embeddings on fixed directions, and
compares the characteristic function of each projection with that of a standard
normal at four frequencies. `sigreg_backward_exact` shows that `SIGReg::backward` is
its gradient.
-/

noncomputable section

namespace Adai.Gradients

open Backpropagation

/-- The frequencies at which characteristic functions are compared. -/
def kFrequencies : List ℝ := [0.5, 1.0, 1.5, 2.0]

structure SIGReg (dModel numSketches : Nat) where
  directions : Mat dModel numSketches

section Batch

variable {batch : Nat}

/-- The mean of the cosines of a projected batch. -/
def meanCos (t : ℝ) (projection : Fin batch → ℝ) : ℝ :=
  (∑ i, Real.cos (t * projection i)) / batch

def meanSin (t : ℝ) (projection : Fin batch → ℝ) : ℝ :=
  (∑ i, Real.sin (t * projection i)) / batch

/-- The characteristic function of a standard normal. -/
def targetReal (t : ℝ) : ℝ := Real.exp (-0.5 * t * t)

/-- What a direction adds to the loss at a frequency. -/
def gapLoss (t : ℝ) (projection : Fin batch → ℝ) : ℝ :=
  let dReal := meanCos t projection - targetReal t
  let dImag := meanSin t projection
  let absSq := meanCos t projection * meanCos t projection +
    meanSin t projection * meanSin t projection
  dReal * dReal + dImag * dImag + (absSq - 1) / (batch - 1)

/-- What a frequency adds to the gradient of a projection. -/
def gapGradient (normFactor t : ℝ) (projection : Fin batch → ℝ) (i : Fin batch) : ℝ :=
  let unbiasedScale : ℝ := batch / (batch - 1)
  let dcosDp := -t * Real.sin (t * projection i) / batch
  let dsinDp := t * Real.cos (t * projection i) / batch
  (2 * unbiasedScale * (meanCos t projection * dcosDp + meanSin t projection * dsinDp) -
    2 * targetReal t * dcosDp) * normFactor

end Batch

section SIGReg

variable {dModel numSketches batch : Nat} (sigreg : SIGReg dModel numSketches)

/-- The losses of all directions and frequencies. -/
def totalLoss (projections : Mat batch numSketches) : ℝ :=
  ∑ k, (kFrequencies.map fun t => gapLoss t fun i => projections i k).sum

/-- `SIGReg::compute_loss`. -/
def SIGReg.computeLoss (embeddings : Mat batch dModel) : ℝ :=
  if batch < 2 then 0
  else
    totalLoss (Mat.mul embeddings sigreg.directions) /
      ((numSketches * kFrequencies.length : Nat) : ℝ)

/-- The gradient of the projections, added up over the frequencies. -/
def gradProjections (normFactor : ℝ) (projections : Mat batch numSketches) :
    Mat batch numSketches :=
  fun i k => (kFrequencies.map fun t => gapGradient normFactor t (fun i => projections i k) i).sum

/-- `SIGReg::backward`. -/
def SIGReg.backward (embeddings : Mat batch dModel) : Mat batch dModel :=
  if batch < 2 then 0
  else
    let projections := Mat.mul embeddings sigreg.directions
    let normFactor := 1 / ((numSketches * kFrequencies.length : Nat) : ℝ)
    Mat.mul (gradProjections normFactor projections) sigreg.directions.transpose

end SIGReg

/-! ## The gradient -/

section Batch

variable {batch : Nat}

theorem hasGrad_meanCos (t : ℝ) (projection : Fin batch → ℝ) :
    HasGrad (meanCos t) (fun i => -t * Real.sin (t * projection i) / batch) projection := by
  have each (i : Fin batch) : HasGrad (fun p => Real.cos (t * p) / batch)
      (-t * Real.sin (t * projection i) / batch) (projection i) := by
    have inner : HasDerivAt (fun p : ℝ => t * p) t (projection i) := by
      simpa using (hasDerivAt_id (projection i)).const_mul t
    have derivative := inner.cos.div_const (batch : ℝ)
    exact hasGrad_of_hasDerivAt (derivative.congr_deriv (by ring))
  have same : meanCos t = fun x : Fin batch → ℝ => ∑ i, Real.cos (t * x i) / batch :=
    funext fun x => Finset.sum_div ..
  rw [same]
  exact hasGrad_sum_pi each

theorem hasGrad_meanSin (t : ℝ) (projection : Fin batch → ℝ) :
    HasGrad (meanSin t) (fun i => t * Real.cos (t * projection i) / batch) projection := by
  have each (i : Fin batch) : HasGrad (fun p => Real.sin (t * p) / batch)
      (t * Real.cos (t * projection i) / batch) (projection i) := by
    have inner : HasDerivAt (fun p : ℝ => t * p) t (projection i) := by
      simpa using (hasDerivAt_id (projection i)).const_mul t
    have derivative := inner.sin.div_const (batch : ℝ)
    exact hasGrad_of_hasDerivAt (derivative.congr_deriv (by ring))
  have same : meanSin t = fun x : Fin batch → ℝ => ∑ i, Real.sin (t * x i) / batch :=
    funext fun x => Finset.sum_div ..
  rw [same]
  exact hasGrad_sum_pi each

/-- The two forms of the loss have the same gradient. -/
theorem hasGrad_gapLoss (large : 2 ≤ batch) (normFactor t : ℝ) (projection : Fin batch → ℝ) :
    HasGrad (fun x => gapLoss t x * normFactor) (gapGradient normFactor t projection)
      projection := by
  have nonzero : (batch : ℝ) - 1 ≠ 0 := by
    have : (2 : ℝ) ≤ batch := by exact_mod_cast large
    linarith
  have cosines := hasGrad_meanCos t projection
  have sines := hasGrad_meanSin t projection
  -- The loss is a polynomial in the two means; each has its own derivative.
  have real : HasDerivAt (fun c : ℝ => ((c - targetReal t) * (c - targetReal t) +
      c * c / (batch - 1)) * normFactor)
      ((2 * (meanCos t projection - targetReal t) +
        2 * meanCos t projection / (batch - 1)) * normFactor) (meanCos t projection) := by
    have identity := hasDerivAt_id' (meanCos t projection)
    have gap := identity.sub_const (targetReal t)
    have derivative := ((gap.fun_mul gap).fun_add
      ((identity.fun_mul identity).div_const ((batch : ℝ) - 1))).mul_const normFactor
    exact derivative.congr_deriv (by ring)
  have imaginary : HasDerivAt (fun s : ℝ => (s * s + (s * s - 1) / (batch - 1)) * normFactor)
      ((2 * meanSin t projection + 2 * meanSin t projection / (batch - 1)) * normFactor)
      (meanSin t projection) := by
    have identity := hasDerivAt_id' (meanSin t projection)
    have square := identity.fun_mul identity
    have derivative := (square.fun_add
      ((square.sub_const 1).div_const ((batch : ℝ) - 1))).mul_const normFactor
    exact derivative.congr_deriv (by ring)
  have total := (cosines.scalar real).add (sines.scalar imaginary)
  have same : (fun x => gapLoss t x * normFactor) = fun x : Fin batch → ℝ =>
      ((meanCos t x - targetReal t) * (meanCos t x - targetReal t) +
        meanCos t x * meanCos t x / (batch - 1)) * normFactor +
      (meanSin t x * meanSin t x + (meanSin t x * meanSin t x - 1) / (batch - 1)) *
        normFactor := by
    funext x
    simp only [gapLoss]
    ring
  have sameGradient : gapGradient normFactor t projection =
      ((2 * (meanCos t projection - targetReal t) +
        2 * meanCos t projection / (batch - 1)) * normFactor) •
          (fun i => -t * Real.sin (t * projection i) / batch : Fin batch → ℝ) +
      ((2 * meanSin t projection + 2 * meanSin t projection / (batch - 1)) * normFactor) •
          (fun i => t * Real.cos (t * projection i) / batch : Fin batch → ℝ) := by
    funext i
    have scale : (batch : ℝ) / (batch - 1) = 1 + 1 / (batch - 1) := by
      field_simp
      ring
    simp only [gapGradient, Pi.add_apply, Pi.smul_apply, smul_eq_mul, scale]
    ring
  rw [same, sameGradient]
  exact total

end Batch

section SIGReg

variable {dModel numSketches batch : Nat}

/-- The gradient of the loss for the projections. -/
theorem hasGrad_totalLoss (large : 2 ≤ batch) (normFactor : ℝ)
    (projections : Mat batch numSketches) :
    HasGrad (fun x : Mat batch numSketches => totalLoss x * normFactor)
      (gradProjections normFactor projections) projections := by
  have column (k : Fin numSketches) : HasGrad
      (fun x : Fin batch → ℝ => (kFrequencies.map fun t => gapLoss t x * normFactor).sum)
      (kFrequencies.map fun t => gapGradient normFactor t fun i => projections i k).sum
      (fun i => projections i k) :=
    HasGrad.list_sum kFrequencies fun t _ => hasGrad_gapLoss large normFactor t _
  have total := HasGrad.sum Finset.univ fun k _ =>
    (hasBackward_column k projections).hasGrad (column k)
  have same : (fun x : Mat batch numSketches => totalLoss x * normFactor) = fun x =>
      ∑ k, (kFrequencies.map fun t => gapLoss t (fun i => x i k) * normFactor).sum := by
    funext x
    rw [totalLoss, Finset.sum_mul]
    exact Finset.sum_congr rfl fun k _ => (List.sum_map_mul_right ..).symm
  have sameGradient : gradProjections normFactor projections =
      ∑ k, fun i j => if j = k then
        (kFrequencies.map fun t => gapGradient normFactor t fun i => projections i k).sum i
        else 0 := by
    funext i j
    rw [Finset.sum_apply, Finset.sum_apply]
    simp only [Finset.sum_ite_eq, Finset.mem_univ, ↓reduceIte]
    rw [gradProjections, Pi.list_sum_apply, List.map_map]
    rfl
  rw [same, sameGradient]
  exact total

/-- `backward` is the gradient of the loss, for batches of any size. -/
theorem sigreg_backward_exact (sigreg : SIGReg dModel numSketches) (embeddings : Mat batch dModel) :
    HasGrad sigreg.computeLoss (sigreg.backward embeddings) embeddings := by
  by_cases small : batch < 2
  · have loss : sigreg.computeLoss = fun _ : Mat batch dModel => 0 :=
      funext fun x => if_pos small
    rw [loss, SIGReg.backward, if_pos small]
    exact hasGrad_const 0 embeddings
  · let normFactor := 1 / ((numSketches * kFrequencies.length : Nat) : ℝ)
    have loss : sigreg.computeLoss = fun x : Mat batch dModel =>
        totalLoss (Mat.mul x sigreg.directions) * normFactor := by
      funext x
      rw [SIGReg.computeLoss, if_neg small, div_eq_mul_one_div]
    have projected := hasGrad_totalLoss (by omega) normFactor
      (Mat.mul embeddings sigreg.directions)
    rw [loss, SIGReg.backward, if_neg small]
    exact (hasBackward_mul_left sigreg.directions embeddings).hasGrad projected

end SIGReg

end Adai.Gradients

end
