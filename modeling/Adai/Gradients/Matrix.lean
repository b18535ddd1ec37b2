import Adai.Math.Backpropagation

/-! # Matrices

The operations of `Matrix` that layers are built from, with the backward passes over
the reals of those that are linear.
-/

noncomputable section

namespace Adai.Gradients

open Backpropagation

/-- A `Matrix` with the given rows and columns. -/
abbrev Mat (rows cols : Nat) (K : Type := ℝ) := Fin rows → Fin cols → K

variable {m n p : Nat} {K : Type} [NonUnitalNonAssocSemiring K]

/-- `operator*`. -/
def Mat.mul (a : Mat m n K) (b : Mat n p K) : Mat m p K := fun i j => ∑ k, a i k * b k j

omit [NonUnitalNonAssocSemiring K] in
def Mat.transpose (a : Mat m n K) : Mat n m K := fun i j => a j i

theorem Mat.transpose_mul {K : Type} [NonUnitalNonAssocCommSemiring K] (a : Mat m n K)
    (b : Mat n p K) : (Mat.mul a b).transpose = Mat.mul b.transpose a.transpose := by
  funext i j
  change ∑ k, a j k * b k i = ∑ k, b k i * a j k
  exact Finset.sum_congr rfl fun k _ => mul_comm ..

theorem dot_mat (g v : Mat m n) : dot g v = ∑ i, ∑ j, g i j * v i j := by
  rw [dot_pi]
  exact Finset.sum_congr rfl fun i _ => dot_pi (g i) (v i)

/-- The gradient of a column. -/
theorem hasBackward_column (k : Fin n) (a : Mat m n) :
    HasBackward (fun a : Mat m n => fun i => a i k)
      (fun g => fun i j => if j = k then g i else 0) a := by
  let linear : Mat m n →ₗ[ℝ] (Fin m → ℝ) :=
    { toFun := fun a => fun i => a i k
      map_add' := fun _ _ => rfl
      map_smul' := fun _ _ => rfl }
  refine hasBackward_of_linear linear _ (fun g v => ?_) a
  rw [dot_mat, dot_pi]
  refine Finset.sum_congr rfl fun i _ => ?_
  simp only [ite_mul, zero_mul, Finset.sum_ite_eq', Finset.mem_univ, ↓reduceIte]
  rfl

theorem dot_mul_left (g : Mat m p) (a : Mat m n) (b : Mat n p) :
    dot g (Mat.mul a b) = dot (Mat.mul g b.transpose) a := by
  rw [dot_mat, dot_mat]
  refine Finset.sum_congr rfl fun i _ => ?_
  change ∑ j, g i j * ∑ k, a i k * b k j = ∑ k, (∑ j, g i j * b k j) * a i k
  simp only [Finset.mul_sum, Finset.sum_mul]
  rw [Finset.sum_comm]
  exact Finset.sum_congr rfl fun k _ => Finset.sum_congr rfl fun j _ => by ring

theorem dot_mul_right (g : Mat m p) (a : Mat m n) (b : Mat n p) :
    dot g (Mat.mul a b) = dot (Mat.mul a.transpose g) b := by
  rw [dot_mat, dot_mat]
  change ∑ i, ∑ j, g i j * ∑ k, a i k * b k j = ∑ k, ∑ j, (∑ i, a i k * g i j) * b k j
  simp only [Finset.mul_sum, Finset.sum_mul]
  calc ∑ i, ∑ j, ∑ k, g i j * (a i k * b k j)
      _ = ∑ j, ∑ k, ∑ i, g i j * (a i k * b k j) := by
        rw [Finset.sum_comm]
        exact Finset.sum_congr rfl fun j _ => Finset.sum_comm
      _ = ∑ k, ∑ j, ∑ i, g i j * (a i k * b k j) := Finset.sum_comm
      _ = ∑ k, ∑ j, ∑ i, a i k * g i j * b k j :=
        Finset.sum_congr rfl fun k _ => Finset.sum_congr rfl fun j _ =>
          Finset.sum_congr rfl fun i _ => by ring

/-- The product as a bilinear map. -/
def Mat.mulLinear : Mat m n →ₗ[ℝ] Mat n p →ₗ[ℝ] Mat m p :=
  LinearMap.mk₂ ℝ Mat.mul
    (fun a c b => by
      funext i j
      simp only [Mat.mul, Pi.add_apply, add_mul, Finset.sum_add_distrib])
    (fun c a b => by
      funext i j
      simp only [Mat.mul, Pi.smul_apply, smul_eq_mul, mul_assoc, Finset.mul_sum])
    (fun a b c => by
      funext i j
      simp only [Mat.mul, Pi.add_apply, mul_add, Finset.sum_add_distrib])
    (fun c a b => by
      funext i j
      simp only [Mat.mul, Pi.smul_apply, smul_eq_mul, mul_left_comm, Finset.mul_sum])

/-- The gradients of a product for its factors. -/
theorem hasBackward_mul (x : Mat m n × Mat n p) :
    HasBackward (fun x : Mat m n × Mat n p => Mat.mul x.1 x.2)
      (fun g => (Mat.mul g x.2.transpose, Mat.mul x.1.transpose g)) x :=
  hasBackward_of_bilinear Mat.mulLinear (fun b g => Mat.mul g b.transpose)
    (fun a g => Mat.mul a.transpose g) (fun a b g => dot_mul_left g a b)
    (fun a b g => dot_mul_right g a b) x

/-- The gradient of a product for its left factor. -/
theorem hasBackward_mul_left (b : Mat n p) (a : Mat m n) :
    HasBackward (fun a => Mat.mul a b) (fun g => Mat.mul g b.transpose) a :=
  hasBackward_of_linear (Mat.mulLinear.flip b) _ (fun g v => dot_mul_left g v b) a

/-- The gradient of a transposed matrix. -/
theorem hasBackward_transpose (a : Mat m n) :
    HasBackward (fun a : Mat m n => a.transpose) (fun g => g.transpose) a := by
  let linear : Mat m n →ₗ[ℝ] Mat n m :=
    { toFun := fun a => a.transpose
      map_add' := fun _ _ => rfl
      map_smul' := fun _ _ => rfl }
  refine hasBackward_of_linear linear _ (fun g v => ?_) a
  rw [dot_mat, dot_mat]
  exact Finset.sum_comm

/-! ## Biases -/

/-- A bias added to each row. -/
def Mat.addRow (a : Mat m n K) (bias : Fin n → K) : Mat m n K := fun i j => a i j + bias j

/-- The gradient of a bias is summed over the rows. -/
def Mat.sumRows (g : Mat m n K) : Fin n → K := fun j => ∑ i, g i j

theorem hasBackward_addRow (x : Mat m n × (Fin n → ℝ)) :
    HasBackward (fun x : Mat m n × (Fin n → ℝ) => Mat.addRow x.1 x.2)
      (fun g => (g, g.sumRows)) x := by
  let linear : Mat m n × (Fin n → ℝ) →ₗ[ℝ] Mat m n :=
    { toFun := fun x => Mat.addRow x.1 x.2
      map_add' := fun x y => by
        funext i j
        exact add_add_add_comm ..
      map_smul' := fun c x => by
        funext i j
        exact (mul_add ..).symm }
  refine hasBackward_of_linear linear _ (fun g v => ?_) x
  rw [dot_prod, dot_mat, dot_mat, dot_pi]
  change ∑ i, ∑ j, g i j * (v.1 i j + v.2 j) = _ + ∑ j, (∑ i, g i j) * v.2 j
  simp only [mul_add, Finset.sum_add_distrib, Finset.sum_mul]
  rw [Finset.sum_comm (s := Finset.univ) (t := Finset.univ) (f := fun i j => g i j * v.2 j)]

/-- The gradients of a linear layer, for its weights, its bias and its input. -/
theorem hasBackward_linear (x : (Mat n p × (Fin p → ℝ)) × Mat m n) :
    HasBackward
      (fun x : (Mat n p × (Fin p → ℝ)) × Mat m n => Mat.addRow (Mat.mul x.2 x.1.1) x.1.2)
      (fun g => ((Mat.mul x.2.transpose g, g.sumRows), Mat.mul g x.1.1.transpose)) x := by
  have layer := hasBackward_fst (V := Mat n p × (Fin p → ℝ)) (W := Mat m n) x
  have weights := layer.followedBy (hasBackward_fst x.1)
  have bias := layer.followedBy (hasBackward_snd x.1)
  have product := ((hasBackward_snd x).pair weights).followedBy (hasBackward_mul (x.2, x.1.1))
  refine ((product.pair bias).followedBy (hasBackward_addRow _)).congr (fun _ => rfl) fun g => ?_
  simp

/-- Functions of the entries. -/
theorem hasBackward_entries {φ : ℝ → ℝ} {d : ℝ → ℝ} (a : Mat m n)
    (each : ∀ i j, HasDerivAt φ (d (a i j)) (a i j)) :
    HasBackward (fun a : Mat m n => fun i j => φ (a i j)) (fun g i j => g i j * d (a i j)) a :=
  hasBackward_map fun i => hasBackward_map fun j => hasBackward_of_hasDerivAt (each i j)

end Adai.Gradients

end
