import Adai.Math.Backpropagation

/-! # Gradient descent

Objects whose gradients can be cleared and whose weights can take a step along them
(`Parameters`), and how those of a whole are made of those of its parts. For a layer with an
exact backward pass, clearing, a forward pass, a backward pass and a step together move the
weights along the gradient of a function of the output, and change nothing else
(`Layer.Trains.step`). A run of such steps is a path of descent (`Descends`).
-/

noncomputable section

namespace Backpropagation

/-! ## Parameters -/

/-- Weights with their gradients. A step uses the part of the gradients that is `trained`. -/
structure Parameters (O W : Type*) where
  weights : O → W
  grads : O → W
  withWeights : O → W → O
  zeroGrad : O → O
  updateWeights : ℝ → O → O
  trained : W → W

namespace Parameters

section Laws

variable {O W : Type*} [AddCommGroup W] [Module ℝ W]

/-- Clearing and stepping change weights and gradients only. -/
structure Lawful (p : Parameters O W) : Prop where
  zeroGrad_withWeights : ∀ object weights,
    p.zeroGrad (p.withWeights object weights) = p.withWeights (p.zeroGrad object) weights
  withWeights_withWeights : ∀ object first second,
    p.withWeights (p.withWeights object first) second = p.withWeights object second
  weights_withWeights : ∀ object weights, p.weights (p.withWeights object weights) = weights
  weights_zeroGrad : ∀ object, p.weights (p.zeroGrad object) = p.weights object
  grads_zeroGrad : ∀ object, p.grads (p.zeroGrad object) = 0
  zeroGrad_zeroGrad : ∀ object, p.zeroGrad (p.zeroGrad object) = p.zeroGrad object
  updateWeights_eq : ∀ rate object, p.updateWeights rate object =
    p.withWeights (p.zeroGrad object) (p.weights object - rate • p.trained (p.grads object))

end Laws

section Prod

variable {A B U V : Type*}

/-- The parameters of two parts. -/
def prod (p : Parameters A U) (q : Parameters B V) : Parameters (A × B) (U × V) where
  weights := fun object => (p.weights object.1, q.weights object.2)
  grads := fun object => (p.grads object.1, q.grads object.2)
  withWeights := fun object weights =>
    (p.withWeights object.1 weights.1, q.withWeights object.2 weights.2)
  zeroGrad := fun object => (p.zeroGrad object.1, q.zeroGrad object.2)
  updateWeights := fun rate object =>
    (p.updateWeights rate object.1, q.updateWeights rate object.2)
  trained := fun weights => (p.trained weights.1, q.trained weights.2)

variable [AddCommGroup U] [Module ℝ U] [AddCommGroup V] [Module ℝ V]

theorem Lawful.prod {p : Parameters A U} {q : Parameters B V} (left : p.Lawful)
    (right : q.Lawful) : (p.prod q).Lawful where
  zeroGrad_withWeights := fun _ _ =>
    Prod.ext (left.zeroGrad_withWeights _ _) (right.zeroGrad_withWeights _ _)
  withWeights_withWeights := fun _ _ _ =>
    Prod.ext (left.withWeights_withWeights _ _ _) (right.withWeights_withWeights _ _ _)
  weights_withWeights := fun _ _ =>
    Prod.ext (left.weights_withWeights _ _) (right.weights_withWeights _ _)
  weights_zeroGrad := fun _ => Prod.ext (left.weights_zeroGrad _) (right.weights_zeroGrad _)
  grads_zeroGrad := fun _ => Prod.ext (left.grads_zeroGrad _) (right.grads_zeroGrad _)
  zeroGrad_zeroGrad := fun _ => Prod.ext (left.zeroGrad_zeroGrad _) (right.zeroGrad_zeroGrad _)
  updateWeights_eq := fun _ _ =>
    Prod.ext (left.updateWeights_eq _ _) (right.updateWeights_eq _ _)

end Prod

section Pi

variable {ι : Type*} {O W : ι → Type*}

/-- The parameters of a family. -/
def pi (p : ∀ i, Parameters (O i) (W i)) : Parameters (∀ i, O i) (∀ i, W i) where
  weights := fun object i => (p i).weights (object i)
  grads := fun object i => (p i).grads (object i)
  withWeights := fun object weights i => (p i).withWeights (object i) (weights i)
  zeroGrad := fun object i => (p i).zeroGrad (object i)
  updateWeights := fun rate object i => (p i).updateWeights rate (object i)
  trained := fun weights i => (p i).trained (weights i)

theorem Lawful.pi [∀ i, AddCommGroup (W i)] [∀ i, Module ℝ (W i)]
    {p : ∀ i, Parameters (O i) (W i)} (each : ∀ i, (p i).Lawful) :
    (pi p).Lawful where
  zeroGrad_withWeights := fun _ _ => funext fun i => (each i).zeroGrad_withWeights _ _
  withWeights_withWeights := fun _ _ _ => funext fun i => (each i).withWeights_withWeights _ _ _
  weights_withWeights := fun _ _ => funext fun i => (each i).weights_withWeights _ _
  weights_zeroGrad := fun _ => funext fun i => (each i).weights_zeroGrad _
  grads_zeroGrad := fun _ => funext fun i => (each i).grads_zeroGrad _
  zeroGrad_zeroGrad := fun _ => funext fun i => (each i).zeroGrad_zeroGrad _
  updateWeights_eq := fun _ _ => funext fun i => (each i).updateWeights_eq _ _

/-- The parameters of a part that may be absent. -/
def slot (p : ∀ i, Parameters (O i) (W i)) (index : Option ι) :
    Parameters (Slot O index) (Slot W index) where
  weights := Slot.map fun i => (p i).weights
  grads := Slot.map fun i => (p i).grads
  withWeights := Slot.map₂ fun i => (p i).withWeights
  zeroGrad := Slot.map fun i => (p i).zeroGrad
  updateWeights := fun rate => Slot.map fun i => (p i).updateWeights rate
  trained := Slot.map fun i => (p i).trained

theorem Lawful.slot [∀ i, NormedAddCommGroup (W i)] [∀ i, NormedSpace ℝ (W i)]
    {p : ∀ i, Parameters (O i) (W i)} (each : ∀ i, (p i).Lawful)
    (index : Option ι) : (slot p index).Lawful := by
  cases index with
  | none => constructor <;> intros <;> rfl
  | some i =>
      exact {
        zeroGrad_withWeights := (each i).zeroGrad_withWeights
        withWeights_withWeights := (each i).withWeights_withWeights
        weights_withWeights := (each i).weights_withWeights
        weights_zeroGrad := (each i).weights_zeroGrad
        grads_zeroGrad := (each i).grads_zeroGrad
        zeroGrad_zeroGrad := (each i).zeroGrad_zeroGrad
        updateWeights_eq := (each i).updateWeights_eq }

end Pi

section Within

variable {A B W : Type*}

/-- The parameters of an object are those of its parts, and the rest of it has none. -/
def within (p : Parameters B W) (parts : A → B) (withParts : A → B → A) : Parameters A W where
  weights := fun object => p.weights (parts object)
  grads := fun object => p.grads (parts object)
  withWeights := fun object weights => withParts object (p.withWeights (parts object) weights)
  zeroGrad := fun object => withParts object (p.zeroGrad (parts object))
  updateWeights := fun rate object => withParts object (p.updateWeights rate (parts object))
  trained := p.trained

theorem Lawful.within [AddCommGroup W] [Module ℝ W] {p : Parameters B W} (lawful : p.Lawful)
    {parts : A → B} {withParts : A → B → A}
    (parts_withParts : ∀ object inner, parts (withParts object inner) = inner)
    (withParts_withParts : ∀ object first second,
      withParts (withParts object first) second = withParts object second) :
    (p.within parts withParts).Lawful := by
  unfold Parameters.within
  constructor <;> intros <;> dsimp only
  case zeroGrad_withWeights => simp only [parts_withParts, withParts_withParts,
    lawful.zeroGrad_withWeights]
  case withWeights_withWeights => simp only [parts_withParts, withParts_withParts,
    lawful.withWeights_withWeights]
  case weights_withWeights => simp only [parts_withParts, lawful.weights_withWeights]
  case weights_zeroGrad => simp only [parts_withParts, lawful.weights_zeroGrad]
  case grads_zeroGrad => simp only [parts_withParts, lawful.grads_zeroGrad]
  case zeroGrad_zeroGrad => simp only [parts_withParts, withParts_withParts,
    lawful.zeroGrad_zeroGrad]
  case updateWeights_eq => simp only [parts_withParts, withParts_withParts, lawful.updateWeights_eq]

end Within

end Parameters

/-! ## Training -/

namespace Layer

variable {O W X Y : Type*}

/-- The parameters of a layer. -/
def parameters (layer : Layer O W X Y) (zeroGrad : O → O) (updateWeights : ℝ → O → O)
    (trained : W → W) : Parameters O W :=
  ⟨layer.weights, layer.grads, layer.withWeights, zeroGrad, updateWeights, trained⟩

variable [AddCommGroup W] [Module ℝ W]

/-- No forward pass reads a gradient, and a backward pass changes nothing else. -/
structure Trains (layer : Layer O W X Y) (zeroGrad : O → O) (updateWeights : ℝ → O → O)
    (trained : W → W) : Prop extends (layer.parameters zeroGrad updateWeights trained).Lawful where
  forward_zeroGrad : ∀ object x, layer.forward (zeroGrad object) x = layer.forward object x
  zeroGrad_backward : ∀ object cache g,
    zeroGrad (layer.backward object cache g).1 = zeroGrad object

namespace Trains

variable {layer : Layer O W X Y} {zeroGrad : O → O} {updateWeights : ℝ → O → O} {trained : W → W}

theorem value_zeroGrad (trains : layer.Trains zeroGrad updateWeights trained) (object : O) :
    layer.value (zeroGrad object) = layer.value object := by
  funext x
  have cleared : layer.withWeights (zeroGrad object) x.1 =
      zeroGrad (layer.withWeights object x.1) := (trains.zeroGrad_withWeights object x.1).symm
  rw [value, value, cleared, trains.forward_zeroGrad]

end Trains

end Layer

section Steps

variable {O W X Y : Type*} [NormedAddCommGroup W] [NormedSpace ℝ W] [Coordinates W]
  [NormedAddCommGroup X] [NormedSpace ℝ X] [Coordinates X]
  [NormedAddCommGroup Y] [NormedSpace ℝ Y] [Coordinates Y]
  {layer : Layer O W X Y} {zeroGrad : O → O} {updateWeights : ℝ → O → O} {trained : W → W}

/-- With the gradients cleared, a backward pass leaves the gradient of a function of the output. -/
theorem Layer.Trains.hasGrad (trains : layer.Trains zeroGrad updateWeights trained) {object : O}
    {x : X} (exact : layer.Exact (zeroGrad object) x) {scalar : Y → ℝ} {g : Y}
    (outer : HasGrad scalar g (layer.forward object x).2) :
    HasGrad (fun weights => scalar (layer.value object (weights, x)))
      (layer.grads (layer.backward (zeroGrad object) (layer.forward object x).1 g).1)
      (layer.weights object) := by
  have start : layer.weights (zeroGrad object) = layer.weights object :=
    trains.weights_zeroGrad object
  have none : layer.grads (zeroGrad object) = 0 := trains.grads_zeroGrad object
  have reached : layer.value (zeroGrad object) (layer.weights (zeroGrad object), x) =
      (layer.forward object x).2 := by
    rw [exact.value_eq, trains.forward_zeroGrad]
  have whole := exact.hasBackward.atInput.hasGrad (reached.symm ▸ outer)
  rw [start, trains.value_zeroGrad] at whole
  have left : (layer.back (zeroGrad object) x g).1 =
      layer.grads (layer.backward (zeroGrad object) (layer.forward object x).1 g).1 := by
    rw [Layer.back, trains.forward_zeroGrad, none, sub_zero]
  exact left ▸ whole

/-- A step moves the weights along the gradient, and clears it. -/
theorem Layer.Trains.step (trains : layer.Trains zeroGrad updateWeights trained) {object : O}
    {x : X} (exact : layer.Exact (zeroGrad object) x) (cache : layer.Cache) (g : Y) (rate : ℝ) :
    updateWeights rate (layer.backward (zeroGrad object) cache g).1 =
      layer.withWeights (zeroGrad object) (layer.weights object - rate • trained
        (layer.grads (layer.backward (zeroGrad object) cache g).1)) := by
  have start : layer.weights (zeroGrad object) = layer.weights object :=
    trains.weights_zeroGrad object
  have update := trains.updateWeights_eq rate (layer.backward (zeroGrad object) cache g).1
  have cleared : zeroGrad (layer.backward (zeroGrad object) cache g).1 = zeroGrad object :=
    (trains.zeroGrad_backward _ _ _).trans (trains.zeroGrad_zeroGrad object)
  change updateWeights rate (layer.backward (zeroGrad object) cache g).1 =
    layer.withWeights (zeroGrad (layer.backward (zeroGrad object) cache g).1)
      (layer.weights (layer.backward (zeroGrad object) cache g).1 - _) at update
  rw [update, cleared, exact.kept, start]
  rfl

/-- Steps along the gradients of losses, one after the other. -/
inductive Descends {κ : Type*} (rate : ℝ) (trained : W → W) (loss : κ → W → ℝ) :
    List κ → W → W → Prop
  | done {w : W} : Descends rate trained loss [] w w
  | step {sample : κ} {rest : List κ} {w gradient last : W}
      (isGradient : HasGrad (loss sample) gradient w)
      (later : Descends rate trained loss rest (w - rate • trained gradient) last) :
      Descends rate trained loss (sample :: rest) w last

/-- The losses determine where a path ends. -/
theorem Descends.unique {κ : Type*} {rate : ℝ} {loss : κ → W → ℝ} {samples : List κ}
    {w first second : W} (left : Descends rate trained loss samples w first)
    (right : Descends rate trained loss samples w second) : first = second := by
  induction left with
  | done =>
      cases right with
      | done => rfl
  | step isGradient later ih =>
      cases right with
      | step otherGradient other =>
          obtain rfl := isGradient.unique otherGradient
          exact ih other

theorem Descends.append {κ : Type*} {rate : ℝ} {loss : κ → W → ℝ} {samples more : List κ}
    {w middle last : W} (first : Descends rate trained loss samples w middle)
    (second : Descends rate trained loss more middle last) :
    Descends rate trained loss (samples ++ more) w last := by
  induction first with
  | done => exact second
  | step isGradient _ ih => exact .step isGradient (ih second)

end Steps

end Backpropagation

end
