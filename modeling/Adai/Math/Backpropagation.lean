import Mathlib

/-! # Gradients and backward passes

Gradients of functions on spaces with coordinates, and backward passes: from the
gradient of a scalar at the output of a function, the gradient at its input. Backward
passes compose in reverse, and add up where an input is used more than once.
-/

noncomputable section

namespace Backpropagation

/-! ## Coordinates -/

/-- A space with coordinates; `dot` adds up their products. -/
class Coordinates (V : Type*) [NormedAddCommGroup V] [NormedSpace ℝ V] where
  dot : V →ₗ[ℝ] V →L[ℝ] ℝ
  dot_injective : Function.Injective dot

export Coordinates (dot)

instance : Coordinates ℝ where
  dot :=
    { toFun := fun g => g • ContinuousLinearMap.id ℝ ℝ
      map_add' := fun g h => add_smul g h _
      map_smul' := fun c g => mul_smul c g _ }
  dot_injective := by
    intro g h same
    have at_one := congrArg (fun f : ℝ →L[ℝ] ℝ => f 1) same
    simpa using at_one

@[simp] theorem dot_real (g v : ℝ) : dot g v = g * v := rfl

section Pi

variable {ι : Type*} [Fintype ι] {V : ι → Type*} [∀ i, NormedAddCommGroup (V i)]
  [∀ i, NormedSpace ℝ (V i)] [∀ i, Coordinates (V i)]

instance : Coordinates (∀ i, V i) where
  dot :=
    { toFun := fun g => ∑ i, (dot (g i)).comp (ContinuousLinearMap.proj i)
      map_add' := fun g h => by
        rw [← Finset.sum_add_distrib]
        exact Finset.sum_congr rfl fun i _ => by
          rw [Pi.add_apply, map_add, ContinuousLinearMap.add_comp]
      map_smul' := fun c g => by
        rw [Finset.smul_sum]
        exact Finset.sum_congr rfl fun i _ => by
          rw [Pi.smul_apply, map_smul, ContinuousLinearMap.smul_comp, RingHom.id_apply] }
  dot_injective := by
    classical
    intro g h same
    funext i
    refine Coordinates.dot_injective (ContinuousLinearMap.ext fun v => ?_)
    have single (g : ∀ i, V i) :
        (∑ j, (dot (g j)).comp (ContinuousLinearMap.proj j)) (Pi.single i v) = dot (g i) v := by
      rw [sum_apply, Finset.sum_eq_single i]
      · simp
      · intro j _ other
        simp [Pi.single_eq_of_ne other]
      · exact fun absent => absurd (Finset.mem_univ i) absent
    have at_single := congrArg (fun f : (∀ i, V i) →L[ℝ] ℝ => f (Pi.single i v)) same
    exact (single g).symm.trans (at_single.trans (single h))

theorem dot_pi (g v : ∀ i, V i) : dot g v = ∑ i, dot (g i) (v i) :=
  sum_apply ..

end Pi

section Prod

variable {V W : Type*} [NormedAddCommGroup V] [NormedSpace ℝ V] [Coordinates V]
  [NormedAddCommGroup W] [NormedSpace ℝ W] [Coordinates W]

instance : Coordinates (V × W) where
  dot :=
    { toFun := fun g => (dot g.1).comp (ContinuousLinearMap.fst ℝ V W) +
        (dot g.2).comp (ContinuousLinearMap.snd ℝ V W)
      map_add' := fun g h => by
        rw [Prod.fst_add, Prod.snd_add, map_add, map_add, ContinuousLinearMap.add_comp,
          ContinuousLinearMap.add_comp]
        exact add_add_add_comm ..
      map_smul' := fun c g => by
        rw [Prod.smul_fst, Prod.smul_snd, map_smul, map_smul, ContinuousLinearMap.smul_comp,
          ContinuousLinearMap.smul_comp, RingHom.id_apply, smul_add] }
  dot_injective := by
    intro g h same
    refine Prod.ext (Coordinates.dot_injective ?_) (Coordinates.dot_injective ?_)
    · refine ContinuousLinearMap.ext fun v => ?_
      have at_left := congrArg (fun f : V × W →L[ℝ] ℝ => f (v, 0)) same
      simpa using at_left
    · refine ContinuousLinearMap.ext fun w => ?_
      have at_right := congrArg (fun f : V × W →L[ℝ] ℝ => f (0, w)) same
      simpa using at_right

theorem dot_prod (g v : V × W) : dot g v = dot g.1 v.1 + dot g.2 v.2 := rfl

end Prod

/-! ## Optional coordinates -/

/-- The space of an index that may be absent. -/
def Slot {ι : Type*} (V : ι → Type*) : Option ι → Type _
  | none => PUnit
  | some i => V i

namespace Slot

variable {ι : Type*} {U V W : ι → Type*}

def map (f : ∀ i, V i → W i) : {slot : Option ι} → Slot V slot → Slot W slot
  | none, _ => ⟨⟩
  | some i, v => f i v

def map₂ (f : ∀ i, U i → V i → W i) :
    {slot : Option ι} → Slot U slot → Slot V slot → Slot W slot
  | none, _, _ => ⟨⟩
  | some i, u, v => f i u v

end Slot

section Slot

variable {ι : Type*} {V : ι → Type*} [∀ i, NormedAddCommGroup (V i)]

instance : (slot : Option ι) → NormedAddCommGroup (Slot V slot)
  | none => inferInstanceAs (NormedAddCommGroup PUnit)
  | some i => inferInstanceAs (NormedAddCommGroup (V i))

variable [∀ i, NormedSpace ℝ (V i)]

instance : (slot : Option ι) → NormedSpace ℝ (Slot V slot)
  | none => inferInstanceAs (NormedSpace ℝ PUnit)
  | some i => inferInstanceAs (NormedSpace ℝ (V i))

instance [∀ i, FiniteDimensional ℝ (V i)] :
    (slot : Option ι) → FiniteDimensional ℝ (Slot V slot)
  | none => inferInstanceAs (FiniteDimensional ℝ PUnit)
  | some i => inferInstanceAs (FiniteDimensional ℝ (V i))

instance : Coordinates PUnit where
  dot := 0
  dot_injective := fun _ _ _ => rfl

instance [∀ i, Coordinates (V i)] : (slot : Option ι) → Coordinates (Slot V slot)
  | none => inferInstanceAs (Coordinates PUnit)
  | some i => inferInstanceAs (Coordinates (V i))

end Slot

/-! ## Gradients and backward passes -/

section Rules

variable {U V W : Type*} [NormedAddCommGroup U] [NormedSpace ℝ U] [Coordinates U]
  [NormedAddCommGroup V] [NormedSpace ℝ V] [Coordinates V]
  [NormedAddCommGroup W] [NormedSpace ℝ W] [Coordinates W]

/-- The gradient of a scalar function. -/
def HasGrad (f : V → ℝ) (gradient x : V) : Prop := HasFDerivAt f (dot gradient) x

theorem HasGrad.unique {f : V → ℝ} {g h x : V} (left : HasGrad f g x) (right : HasGrad f h x) :
    g = h :=
  Coordinates.dot_injective (HasFDerivAt.unique left right)

theorem hasGrad_of_hasDerivAt {f : ℝ → ℝ} {d x : ℝ} (derivative : HasDerivAt f d x) :
    HasGrad f d x := by
  refine derivative.hasFDerivAt.congr_fderiv ?_
  ext
  simp

theorem hasGrad_const (c : ℝ) (x : V) : HasGrad (fun _ => c) 0 x := by
  unfold HasGrad
  rw [map_zero]
  exact hasFDerivAt_const c x

theorem HasGrad.add {f h : V → ℝ} {g k x : V} (left : HasGrad f g x) (right : HasGrad h k x) :
    HasGrad (fun x => f x + h x) (g + k) x := by
  unfold HasGrad
  rw [map_add]
  exact HasFDerivAt.add left right

theorem HasGrad.sum {κ : Type*} (s : Finset κ) {f : κ → V → ℝ} {g : κ → V} {x : V}
    (each : ∀ k ∈ s, HasGrad (f k) (g k) x) :
    HasGrad (fun x => ∑ k ∈ s, f k x) (∑ k ∈ s, g k) x := by
  unfold HasGrad
  rw [map_sum]
  exact HasFDerivAt.fun_sum each

theorem HasGrad.list_sum {κ : Type*} (items : List κ) {f : κ → V → ℝ} {g : κ → V} {x : V}
    (each : ∀ k ∈ items, HasGrad (f k) (g k) x) :
    HasGrad (fun x => (items.map fun k => f k x).sum) (items.map g).sum x := by
  induction items with
  | nil => exact hasGrad_const 0 x
  | cons k rest ih =>
      simp only [List.map_cons, List.sum_cons]
      exact (each k List.mem_cons_self).add
        (ih fun other member => each other (List.mem_cons_of_mem _ member))

/-- A function of the values of a scalar function. -/
theorem HasGrad.scalar {f : V → ℝ} {g x : V} {φ : ℝ → ℝ} {d : ℝ} (inner : HasGrad f g x)
    (outer : HasDerivAt φ d (f x)) : HasGrad (fun x => φ (f x)) (d • g) x := by
  unfold HasGrad
  rw [map_smul]
  exact HasDerivAt.comp_hasFDerivAt x outer inner

/-- A backward pass takes the gradient of any scalar at the output of a function to its
gradient at the input. -/
def HasBackward (f : V → W) (back : W → V) (x : V) : Prop :=
  ∃ derivative : V →L[ℝ] W, HasFDerivAt f derivative x ∧
    ∀ g, (dot g).comp derivative = dot (back g)

/-- The chain rule for a scalar. -/
theorem HasBackward.hasGrad {f : V → W} {back : W → V} {x : V}
    (backward : HasBackward f back x) {scalar : W → ℝ} {g : W}
    (outer : HasGrad scalar g (f x)) : HasGrad (fun x => scalar (f x)) (back g) x := by
  obtain ⟨derivative, isDerivative, back_eq⟩ := backward
  have chain := HasFDerivAt.comp x outer isDerivative
  rw [back_eq] at chain
  exact chain

/-- The gradient of a weighted sum of the outputs. -/
theorem HasBackward.grad {f : V → W} {back : W → V} {x : V} (backward : HasBackward f back x)
    (g : W) : HasGrad (fun x => dot g (f x)) (back g) x :=
  backward.hasGrad (dot g).hasFDerivAt

/-- Backward passes are linear. -/
theorem HasBackward.smul {f : V → W} {back : W → V} {x : V} (backward : HasBackward f back x)
    (c : ℝ) (g : W) : back (c • g) = c • back g := by
  obtain ⟨derivative, -, back_eq⟩ := backward
  refine Coordinates.dot_injective ?_
  rw [map_smul, ← back_eq, ← back_eq, map_smul]
  rfl

/-- The chain rule: backward passes compose in reverse. -/
theorem HasBackward.followedBy {f : U → V} {back : V → U} {x : U}
    (inner : HasBackward f back x) {h : V → W} {second : W → V}
    (outer : HasBackward h second (f x)) :
    HasBackward (fun x => h (f x)) (fun g => back (second g)) x := by
  obtain ⟨derivative, isDerivative, back_eq⟩ := inner
  obtain ⟨other, isOther, second_eq⟩ := outer
  refine ⟨other.comp derivative, isOther.comp x isDerivative, fun g => ?_⟩
  rw [← ContinuousLinearMap.comp_assoc, second_eq, back_eq]

theorem hasBackward_id (x : V) : HasBackward (fun x : V => x) (fun g => g) x :=
  ⟨.id ℝ V, hasFDerivAt_id x, fun _ => ContinuousLinearMap.comp_id _⟩

theorem hasBackward_const (w : W) (x : V) : HasBackward (fun _ : V => w) (fun _ => 0) x :=
  ⟨0, hasFDerivAt_const w x, fun _ => by rw [map_zero, ContinuousLinearMap.comp_zero]⟩

/-- Where two functions of an input are added, their gradients are. -/
theorem HasBackward.add {f h : V → W} {back second : W → V} {x : V}
    (left : HasBackward f back x) (right : HasBackward h second x) :
    HasBackward (fun x => f x + h x) (fun g => back g + second g) x := by
  obtain ⟨derivative, isDerivative, back_eq⟩ := left
  obtain ⟨other, isOther, second_eq⟩ := right
  refine ⟨derivative + other, isDerivative.add isOther, fun g => ?_⟩
  rw [ContinuousLinearMap.comp_add, back_eq, second_eq, map_add]

theorem hasBackward_fst (x : V × W) :
    HasBackward (fun x : V × W => x.1) (fun g => (g, 0)) x :=
  ⟨.fst ℝ V W, hasFDerivAt_fst, fun g => ContinuousLinearMap.ext fun v => by
    rw [dot_prod, map_zero, zero_apply, add_zero]
    rfl⟩

theorem hasBackward_snd (x : V × W) :
    HasBackward (fun x : V × W => x.2) (fun g => (0, g)) x :=
  ⟨.snd ℝ V W, hasFDerivAt_snd, fun g => ContinuousLinearMap.ext fun v => by
    rw [dot_prod, map_zero, zero_apply, zero_add]
    rfl⟩

/-- An input that two functions share gets the gradients of both. -/
theorem HasBackward.pair {f : U → V} {h : U → W} {back : V → U} {second : W → U} {x : U}
    (left : HasBackward f back x) (right : HasBackward h second x) :
    HasBackward (fun x => (f x, h x)) (fun g => back g.1 + second g.2) x := by
  obtain ⟨derivative, isDerivative, back_eq⟩ := left
  obtain ⟨other, isOther, second_eq⟩ := right
  refine ⟨derivative.prod other, HasFDerivAt.prodMk isDerivative isOther, fun g => ?_⟩
  rw [map_add, ← back_eq, ← second_eq]
  rfl

theorem HasBackward.congr {f h : V → W} {back second : W → V} {x : V}
    (backward : HasBackward f back x) (same : ∀ x, h x = f x) (sameBack : ∀ g, second g = back g) :
    HasBackward h second x := by
  obtain rfl : h = f := funext same
  obtain rfl : second = back := funext sameBack
  exact backward

/-- Two functions with weights, one after the other. -/
theorem HasBackward.chain {A B : Type*} [NormedAddCommGroup A] [NormedSpace ℝ A] [Coordinates A]
    [NormedAddCommGroup B] [NormedSpace ℝ B] [Coordinates B] {f : A × U → V} {back : V → A × U}
    {a : A} {x : U} (first : HasBackward f back (a, x)) {y : V} (reached : f (a, x) = y)
    {h : B × V → W} {second : W → B × V} {b : B} (next : HasBackward h second (b, y)) :
    HasBackward (fun q : (A × B) × U => h (q.1.2, f (q.1.1, q.2)))
      (fun g => (((back (second g).2).1, (second g).1), (back (second g).2).2)) ((a, b), x) := by
  subst reached
  have weights := hasBackward_fst (V := A × B) (W := U) ((a, b), x)
  have input := hasBackward_snd (V := A × B) (W := U) ((a, b), x)
  have inner := ((weights.followedBy (hasBackward_fst (a, b))).pair input).followedBy first
  have outer := ((weights.followedBy (hasBackward_snd (a, b))).pair inner).followedBy next
  refine outer.congr (fun _ => rfl) fun g => ?_
  simp only [Prod.mk_add_mk, add_zero, zero_add]

/-- A function with weights beside a residual connection. -/
theorem HasBackward.residual {A : Type*} [NormedAddCommGroup A] [NormedSpace ℝ A]
    [Coordinates A] {f : A × U → U} {back : U → A × U} {q : A × U}
    (branch : HasBackward f back q) :
    HasBackward (fun q => q.2 + f q) (fun g => ((back g).1, g + (back g).2)) q := by
  refine ((hasBackward_snd q).add branch).congr (fun _ => rfl) fun g => ?_
  exact Prod.ext (zero_add _).symm rfl

theorem hasBackward_of_hasDerivAt {f : ℝ → ℝ} {d x : ℝ} (derivative : HasDerivAt f d x) :
    HasBackward f (fun g => g * d) x := by
  refine ⟨dot d, hasGrad_of_hasDerivAt derivative, fun g => ContinuousLinearMap.ext fun v => ?_⟩
  exact (mul_assoc ..).symm

/-- A linear function and its adjoint. -/
theorem hasBackward_of_linear [FiniteDimensional ℝ V] (f : V →ₗ[ℝ] W) (back : W → V)
    (adjoint : ∀ g v, dot g (f v) = dot (back g) v) (x : V) : HasBackward f back x :=
  ⟨f.toContinuousLinearMap, f.toContinuousLinearMap.hasFDerivAt,
    fun g => ContinuousLinearMap.ext fun v => adjoint g v⟩

/-- A bilinear function and its two adjoints. -/
theorem hasBackward_of_bilinear [FiniteDimensional ℝ U] [FiniteDimensional ℝ V]
    (f : U →ₗ[ℝ] V →ₗ[ℝ] W) (left : V → W → U) (right : U → W → V)
    (adjointLeft : ∀ u v g, dot g (f u v) = dot (left v g) u)
    (adjointRight : ∀ u v g, dot g (f u v) = dot (right u g) v) (x : U × V) :
    HasBackward (fun x : U × V => f x.1 x.2) (fun g => (left x.2 g, right x.1 g)) x := by
  refine ⟨_, f.toContinuousBilinearMap.isBoundedBilinearMap.hasFDerivAt x, fun g => ?_⟩
  refine ContinuousLinearMap.ext fun v => ?_
  change dot g (f x.1 v.2 + f v.1 x.2) = _
  rw [map_add, adjointRight x.1 v.2 g, adjointLeft v.1 x.2 g, add_comm]
  rfl

/-- The backward pass of a scalar function scales its gradient. -/
theorem HasGrad.hasBackward {f : V → ℝ} {gradient x : V} (isGradient : HasGrad f gradient x) :
    HasBackward f (fun c => c • gradient) x := by
  refine ⟨dot gradient, isGradient, fun c => ContinuousLinearMap.ext fun v => ?_⟩
  rw [map_smul]
  rfl

/-- A product with a scalar. -/
theorem hasBackward_smul [FiniteDimensional ℝ V] (x : ℝ × V) :
    HasBackward (fun x : ℝ × V => x.1 • x.2) (fun g => (dot g x.2, x.1 • g)) x := by
  refine hasBackward_of_bilinear (LinearMap.lsmul ℝ V) (fun v g => dot g v) (fun c g => c • g)
    (fun c v g => ?_) (fun c v g => ?_) x
  · change dot g (c • v) = dot g v * c
    rw [map_smul, smul_eq_mul, mul_comm]
  · change dot g (c • v) = dot (c • g) v
    rw [map_smul, map_smul]
    rfl

end Rules

/-! ## Layers -/

section Layers

variable {O W X Y : Type*}

/-- Objects with weights and accumulated gradients. A forward pass leaves a cache behind,
from which a backward pass adds to the gradients. -/
structure Layer (O W X Y : Type*) where
  Cache : Type
  weights : O → W
  grads : O → W
  withWeights : O → W → O
  forward : O → X → Cache × Y
  backward : O → Cache → Y → O × X

namespace Layer

variable (layer : Layer O W X Y)

/-- The output with other weights. -/
def value (object : O) (x : W × X) : Y :=
  (layer.forward (layer.withWeights object x.1) x.2).2

/-- What a backward pass after a forward pass adds to the gradients, and what it returns. -/
def back [Sub W] (object : O) (x : X) (g : Y) : W × X :=
  let after := layer.backward object (layer.forward object x).1 g
  (layer.grads after.1 - layer.grads object, after.2)

variable [NormedAddCommGroup W] [NormedSpace ℝ W] [Coordinates W]
  [NormedAddCommGroup X] [NormedSpace ℝ X] [Coordinates X]
  [NormedAddCommGroup Y] [NormedSpace ℝ Y] [Coordinates Y]

/-- After a forward pass, a backward pass adds the gradients of the weights, returns that of
the input, and changes no weight. -/
structure Exact (object : O) (x : X) : Prop where
  hasBackward : HasBackward (layer.value object) (layer.back object x) (layer.weights object, x)
  kept : ∀ cache g, layer.weights (layer.backward object cache g).1 = layer.weights object
  restored : layer.withWeights object (layer.weights object) = object

variable {layer} {object : O} {x : X}

theorem Exact.value_eq (exact : layer.Exact object x) :
    layer.value object (layer.weights object, x) = (layer.forward object x).2 := by
  rw [value, exact.restored]

/-- A layer after another one, beside a residual connection. -/
theorem Exact.residual (exact : layer.Exact object x) {P U : Type*} [NormedAddCommGroup U]
    [NormedSpace ℝ U] [Coordinates U] {next : Layer P U Y X} {other : P}
    (branch : next.Exact other (layer.forward object x).2) :
    HasBackward
      (fun q : (W × U) × X => q.2 + next.value other (q.1.2, layer.value object (q.1.1, q.2)))
      (fun g =>
        let inner := next.back other (layer.forward object x).2 g
        let outer := layer.back object x inner.2
        ((outer.1, inner.1), g + outer.2))
      ((layer.weights object, next.weights other), x) :=
  (exact.hasBackward.chain exact.value_eq branch.hasBackward).residual

end Layer

end Layers

/-! ## Coordinate by coordinate -/

section Sums

variable {ι : Type*} [Fintype ι] {V : ι → Type*} [∀ i, NormedAddCommGroup (V i)]
  [∀ i, NormedSpace ℝ (V i)] [∀ i, Coordinates (V i)]

/-- A sum of functions of one coordinate each. -/
theorem hasGrad_sum_pi {φ : ∀ i, V i → ℝ} {g x : ∀ i, V i}
    (each : ∀ i, HasGrad (φ i) (g i) (x i)) : HasGrad (fun x => ∑ i, φ i (x i)) g x :=
  HasFDerivAt.fun_sum fun i _ => HasFDerivAt.comp x (each i) (hasFDerivAt_apply i x)

/-- Functions of one coordinate each. -/
theorem hasBackward_map {W : ι → Type*} [∀ i, NormedAddCommGroup (W i)]
    [∀ i, NormedSpace ℝ (W i)] [∀ i, Coordinates (W i)] {f : ∀ i, V i → W i}
    {back : ∀ i, W i → V i} {x : ∀ i, V i} (each : ∀ i, HasBackward (f i) (back i) (x i)) :
    HasBackward (fun (x : ∀ i, V i) i => f i (x i)) (fun g i => back i (g i)) x := by
  choose derivative isDerivative back_eq using each
  refine ⟨.pi fun i => (derivative i).comp (.proj i), ?_, fun g => ?_⟩
  · exact hasFDerivAt_pi.mpr fun i => (isDerivative i).comp x (hasFDerivAt_apply i x)
  · refine ContinuousLinearMap.ext fun v => ?_
    rw [dot_pi, ContinuousLinearMap.comp_apply, dot_pi]
    exact Finset.sum_congr rfl fun i _ => by rw [← back_eq]; rfl

end Sums

/-! ## Inputs beside each other, and stacks -/

section Inputs

variable {A B U V W E : Type*} [NormedAddCommGroup A] [NormedSpace ℝ A] [Coordinates A]
  [NormedAddCommGroup B] [NormedSpace ℝ B] [Coordinates B]
  [NormedAddCommGroup U] [NormedSpace ℝ U] [Coordinates U]
  [NormedAddCommGroup V] [NormedSpace ℝ V] [Coordinates V]
  [NormedAddCommGroup W] [NormedSpace ℝ W] [Coordinates W]
  [NormedAddCommGroup E] [NormedSpace ℝ E] [Coordinates E]

/-- A function of the weights, with an input that is passed on. -/
theorem HasBackward.withInput {f : A → V} {back : V → A} {a : A} (source : HasBackward f back a)
    (e : E) :
    HasBackward (fun q : A × E => (f q.1, q.2)) (fun g => (back g.1, g.2)) (a, e) := by
  have weights := (hasBackward_fst (V := A) (W := E) (a, e)).followedBy source
  refine (weights.pair (hasBackward_snd (a, e))).congr (fun _ => rfl) fun g => ?_
  exact Prod.ext (add_zero _).symm (zero_add _).symm

/-- A function that leaves a second input as it is. -/
theorem HasBackward.beside {f : A × U → V} {back : V → A × U} {a : A} {x : U}
    (branch : HasBackward f back (a, x)) (e : E) :
    HasBackward (fun q : A × (U × E) => (f (q.1, q.2.1), q.2.2))
      (fun g => ((back g.1).1, ((back g.1).2, g.2))) (a, (x, e)) := by
  have weights := hasBackward_fst (V := A) (W := U × E) (a, (x, e))
  have inputs := hasBackward_snd (V := A) (W := U × E) (a, (x, e))
  have first := (weights.pair (inputs.followedBy (hasBackward_fst (x, e)))).followedBy branch
  refine (first.pair (inputs.followedBy (hasBackward_snd (x, e)))).congr (fun _ => rfl) fun g => ?_
  simp only [Prod.mk_add_mk, add_zero, zero_add]

/-- A second input that is held constant. -/
theorem HasBackward.fixed {f : A × (U × E) → V} {back : V → A × (U × E)} {a : A} {x : U} {e : E}
    (branch : HasBackward f back (a, (x, e))) :
    HasBackward (fun q : A × U => f (q.1, (q.2, e))) (fun g => ((back g).1, (back g).2.1))
      (a, x) := by
  have weights := hasBackward_fst (V := A) (W := U) (a, x)
  have input := hasBackward_snd (V := A) (W := U) (a, x)
  have both := weights.pair (input.pair (hasBackward_const e (a, x)))
  refine (both.followedBy branch).congr (fun _ => rfl) fun g => ?_
  simp only [Prod.mk_add_mk, add_zero, zero_add]

/-- An input that is held constant. -/
theorem HasBackward.atInput {f : A × U → V} {back : V → A × U} {a : A} {x : U}
    (branch : HasBackward f back (a, x)) :
    HasBackward (fun w => f (w, x)) (fun g => (back g).1) a := by
  have both := (hasBackward_id a).pair (hasBackward_const x a)
  exact (both.followedBy branch).congr (fun _ => rfl) fun g => (add_zero _).symm

/-- A function of two inputs, of which the second is passed on. -/
theorem HasBackward.passing {f : A × (U × E) → V} {back : V → A × (U × E)} {q : A × (U × E)}
    (branch : HasBackward f back q) :
    HasBackward (fun q => (f q, q.2.2))
      (fun g => ((back g.1).1, ((back g.1).2.1, g.2 + (back g.1).2.2))) q := by
  have second := (hasBackward_snd q).followedBy (hasBackward_snd q.2)
  refine (branch.pair second).congr (fun _ => rfl) fun g => ?_
  exact Prod.ext (add_zero _).symm (Prod.ext (add_zero _).symm (add_comm ..))

/-- A residual connection past a function of two inputs. -/
theorem HasBackward.residualBeside {f : A × (U × E) → U} {back : U → A × (U × E)}
    {q : A × (U × E)} (branch : HasBackward f back q) :
    HasBackward (fun q => q.2.1 + f q)
      (fun g => ((back g).1, (g + (back g).2.1, (back g).2.2))) q := by
  have inputs := (hasBackward_snd q).followedBy (hasBackward_fst q.2)
  refine (inputs.add branch).congr (fun _ => rfl) fun g => ?_
  exact Prod.ext (zero_add _).symm (Prod.ext rfl (zero_add _).symm)

/-- A branch behind a gate. -/
theorem HasBackward.gated [FiniteDimensional ℝ V] {f : A × U → V} {back : V → A × U} {a : A}
    {x : U} (branch : HasBackward f back (a, x)) {y : V} (reached : f (a, x) = y) {φ : ℝ → ℝ}
    {d c : ℝ} (gate : HasDerivAt φ d c) :
    HasBackward (fun q : (A × ℝ) × U => φ q.1.2 • f (q.1.1, q.2))
      (fun g => (((back (φ c • g)).1, dot g y * d), (back (φ c • g)).2)) ((a, c), x) := by
  subst reached
  have weights := hasBackward_fst (V := A × ℝ) (W := U) ((a, c), x)
  have input := hasBackward_snd (V := A × ℝ) (W := U) ((a, c), x)
  have inner := ((weights.followedBy (hasBackward_fst (a, c))).pair input).followedBy branch
  have opened := (weights.followedBy (hasBackward_snd (a, c))).followedBy
    (hasBackward_of_hasDerivAt gate)
  refine ((opened.pair inner).followedBy (hasBackward_smul _)).congr (fun _ => rfl) fun g => ?_
  simp only [Prod.mk_add_mk, add_zero, zero_add]

end Inputs

section Families

variable {n : Nat} {W : Fin (n + 1) → Type*} [∀ l, NormedAddCommGroup (W l)]
  [∀ l, NormedSpace ℝ (W l)] [∀ l, Coordinates (W l)]

/-- A family, as its first member and the others. -/
theorem hasBackward_uncons (w : ∀ l, W l) :
    HasBackward (fun w : ∀ l, W l => (w 0, fun l : Fin n => w l.succ))
      (fun g => Fin.cons g.1 g.2) w := by
  let parts : (∀ l, W l) →L[ℝ] W 0 × ∀ l : Fin n, W l.succ :=
    (ContinuousLinearMap.proj 0).prod (.pi fun l => .proj l.succ)
  refine ⟨parts, parts.hasFDerivAt, fun g => ?_⟩
  refine ContinuousLinearMap.ext fun v => ?_
  rw [dot_pi, Fin.sum_univ_succ, ContinuousLinearMap.comp_apply, dot_prod, dot_pi]
  rfl

variable {U V Z : Type*} [NormedAddCommGroup U] [NormedSpace ℝ U] [Coordinates U]
  [NormedAddCommGroup V] [NormedSpace ℝ V] [Coordinates V]
  [NormedAddCommGroup Z] [NormedSpace ℝ Z] [Coordinates Z]

/-- The first function of a stack, and the rest of it. -/
theorem HasBackward.stack {w : ∀ l, W l} {x : U} {f : W 0 × U → V} {back : V → W 0 × U}
    (first : HasBackward f back (w 0, x)) {y : V} (reached : f (w 0, x) = y)
    {h : (∀ l : Fin n, W l.succ) × V → Z} {second : Z → (∀ l : Fin n, W l.succ) × V}
    (rest : HasBackward h second (fun l => w l.succ, y)) :
    HasBackward (fun q : (∀ l, W l) × U => h (fun l => q.1 l.succ, f (q.1 0, q.2)))
      (fun g => (Fin.cons (back (second g).2).1 (second g).1, (back (second g).2).2)) (w, x) := by
  have weights := hasBackward_fst (V := ∀ l, W l) (W := U) (w, x)
  have input := hasBackward_snd (V := ∀ l, W l) (W := U) (w, x)
  have parted := (weights.followedBy (hasBackward_uncons w)).pair input
  refine (parted.followedBy (first.chain reached rest)).congr (fun _ => rfl) fun g => ?_
  simp only [Prod.mk_add_mk, add_zero, zero_add]

end Families

end Backpropagation

end
