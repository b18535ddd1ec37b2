import Mathlib.Data.Nat.Digits.Defs

/-! # The steps of the optimizer

An optimizer holds its parameters in groups, each a matrix of weights with the moments that its
type keeps and a count of its own updates. A step updates the groups one by one, and leaves out
a group whose gradient is all zero when no weight decay is set.

The arithmetic is that of any type: a field, or the words of a float with its rounding.
-/

namespace Adai.Optimization

/-- `int` sizes, none of them negative. -/
structure Shape where
  rows : Nat
  cols : Nat
  rows_lt : rows < 2 ^ 31
  cols_lt : cols < 2 ^ 31
  deriving DecidableEq, Repr

/-- The elements of a matrix. -/
abbrev Cells (α : Type) (s : Shape) := Fin s.rows → Fin s.cols → α

inductive OptimizerType
  | sgd
  | sgdMomentum
  | adam
  | adamw
  deriving DecidableEq, Repr

namespace OptimizerType

/-- The value of the enumerator. -/
def code : OptimizerType → Nat
  | .sgd => 0
  | .sgdMomentum => 1
  | .adam => 2
  | .adamw => 3

def keepsMomentum (type : OptimizerType) : Bool := type != .sgd

def keepsVelocity (type : OptimizerType) : Bool := type == .adam || type == .adamw

end OptimizerType

/-- The functions of the standard library that the steps call, and the conversion of a count. -/
structure StdMath (α : Type) where
  sqrt : α → α
  pow : α → α → α
  ofInt : Int → α

structure HyperParameters (α : Type) where
  learningRate : α
  momentumBeta : α
  beta1 : α
  beta2 : α
  epsilon : α
  weightDecay : α

/-- A moment that was not set up is an empty matrix, here `none`. -/
structure ParameterGroup (α : Type) where
  shape : Shape
  weights : Cells α shape
  momentum : Option (Cells α shape)
  velocity : Option (Cells α shape)
  step : Int32

/-- The optimizer with its parameter groups. The file of its state counts them in 32 bits,
and so many groups do not fit in a memory. -/
structure Optimizer (α : Type) where
  type : OptimizerType
  hyper : HyperParameters α
  globalStep : Int32
  groups : List (ParameterGroup α)
  fits : groups.length < 2 ^ 32

theorem ParameterGroup.eq_of_fields {α : Type} {s : Shape} {weights : Cells α s}
    {m m' v v' : Option (Cells α s)} {step step' : Int32} (momentum : m = m') (velocity : v = v')
    (counts : step = step') :
    ParameterGroup.mk s weights m v step = ParameterGroup.mk s weights m' v' step' := by
  rw [momentum, velocity, counts]

theorem Optimizer.eq_of_fields {α : Type} {type : OptimizerType} {hyper : HyperParameters α}
    {step step' : Int32} {groups groups' : List (ParameterGroup α)}
    {fits : groups.length < 2 ^ 32} {fits' : groups'.length < 2 ^ 32} (counts : step = step')
    (same : groups = groups') :
    Optimizer.mk type hyper step groups fits = Optimizer.mk type hyper step' groups' fits' := by
  cases counts
  cases same
  rfl

/-- The gradients of all groups at one step. -/
abbrev Gradients (α : Type) := Nat → Nat → Nat → α

section Groups

variable {α : Type} [Zero α]

/-- `add_parameter_group`: the moments of the optimizer's type, all zero. -/
def addParameterGroup (type : OptimizerType) (s : Shape) (weights : Cells α s) :
    ParameterGroup α where
  shape := s
  weights := weights
  momentum := if type.keepsMomentum then some fun _ _ => 0 else none
  velocity := if type.keepsVelocity then some fun _ _ => 0 else none
  step := 0

/-- The weights of the groups. -/
def Optimizer.weights (o : Optimizer α) : List (Σ s, Cells α s) :=
  o.groups.map fun p => ⟨p.shape, p.weights⟩

/-- The group that was set up for the same weights. -/
def ParameterGroup.fresh (type : OptimizerType) (p : ParameterGroup α) : ParameterGroup α :=
  addParameterGroup type p.shape p.weights

/-- An optimizer before its first step, whose groups hold the weights of another one. -/
def Optimizer.fresh (o : Optimizer α) : Optimizer α where
  type := o.type
  hyper := o.hyper
  globalStep := 0
  groups := o.groups.map (ParameterGroup.fresh o.type)
  fits := (List.length_map ..).trans_lt o.fits

/-- A group has the moments that the type keeps. -/
structure ParameterGroup.Formed (type : OptimizerType) (p : ParameterGroup α) : Prop where
  momentum : p.momentum.isSome = type.keepsMomentum
  velocity : p.velocity.isSome = type.keepsVelocity

theorem formed_addParameterGroup (type : OptimizerType) (s : Shape) (weights : Cells α s) :
    (addParameterGroup type s weights).Formed type := by
  cases type <;> exact ⟨rfl, rfl⟩

/-- The groups of an optimizer have the moments that its type keeps. -/
def Optimizer.Formed (o : Optimizer α) : Prop := ∀ p ∈ o.groups, p.Formed o.type

theorem Optimizer.formed_fresh (o : Optimizer α) : o.fresh.Formed := by
  intro p member
  obtain ⟨q, -, rfl⟩ := List.mem_map.mp member
  exact formed_addParameterGroup ..

end Groups

/-! ## Steps -/

section Steps

variable {α : Type} [Zero α] [One α] [Add α] [Sub α] [Mul α] [Div α] [LT α] [DecidableLT α]
  [BEq α]

variable (fns : StdMath α) (hyper : HyperParameters α)

def isAllZero {s : Shape} (m : Cells α s) : Bool :=
  (List.finRange s.rows).all fun i => (List.finRange s.cols).all fun j => m i j == 0

/-- The gradient with the weight decay that is coupled with it. -/
def decayed {s : Shape} (gradients weights : Cells α s) : Cells α s := fun i j =>
  if 0 < hyper.weightDecay then gradients i j + hyper.weightDecay * weights i j
  else gradients i j

def stepSgd (p : ParameterGroup α) (gradients : Cells α p.shape) : ParameterGroup α :=
  let grad := decayed hyper gradients p.weights
  { p with weights := fun i j => p.weights i j - hyper.learningRate * grad i j }

/-- Reading an element of a moment that was not set up throws. -/
def stepSgdMomentum (p : ParameterGroup α) (gradients : Cells α p.shape) : ParameterGroup α :=
  match p.momentum with
  | none => p
  | some m =>
      let grad := decayed hyper gradients p.weights
      let momentum : Cells α p.shape := fun i j => hyper.momentumBeta * m i j + grad i j
      { p with
        momentum := some momentum
        weights := fun i j => p.weights i j - hyper.learningRate * momentum i j }

/-- The moments after a gradient, and what they are divided by. -/
structure Moments (α : Type) (s : Shape) where
  momentum : Cells α s
  velocity : Cells α s
  biasCorrection1 : α
  biasCorrection2 : α

def moments {s : Shape} (m v grad : Cells α s) (step : Int32) : Moments α s where
  momentum := fun i j => hyper.beta1 * m i j + (1 - hyper.beta1) * grad i j
  velocity := fun i j => hyper.beta2 * v i j + (1 - hyper.beta2) * grad i j * grad i j
  biasCorrection1 := 1 - fns.pow hyper.beta1 (fns.ofInt step.toInt)
  biasCorrection2 := 1 - fns.pow hyper.beta2 (fns.ofInt step.toInt)

def stepAdam (p : ParameterGroup α) (gradients : Cells α p.shape) : ParameterGroup α :=
  match p.momentum, p.velocity with
  | some m, some v =>
      let next := moments fns hyper m v (decayed hyper gradients p.weights) (p.step + 1)
      { p with
        step := p.step + 1
        momentum := some next.momentum
        velocity := some next.velocity
        weights := fun i j =>
          let mHat := next.momentum i j / next.biasCorrection1
          let vHat := next.velocity i j / next.biasCorrection2
          p.weights i j - hyper.learningRate * mHat / (fns.sqrt vHat + hyper.epsilon) }
  | _, _ => p

def stepAdamw (p : ParameterGroup α) (gradients : Cells α p.shape) : ParameterGroup α :=
  match p.momentum, p.velocity with
  | some m, some v =>
      let next := moments fns hyper m v gradients (p.step + 1)
      { p with
        step := p.step + 1
        momentum := some next.momentum
        velocity := some next.velocity
        weights := fun i j =>
          let mHat := next.momentum i j / next.biasCorrection1
          let vHat := next.velocity i j / next.biasCorrection2
          p.weights i j - hyper.learningRate *
            (mHat / (fns.sqrt vHat + hyper.epsilon) + hyper.weightDecay * p.weights i j) }
  | _, _ => p

/-- A group without a gradient and without weight decay is left as it is. -/
def stepGroup (type : OptimizerType) (p : ParameterGroup α) (gradients : Cells α p.shape) :
    ParameterGroup α :=
  if hyper.weightDecay == 0 && isAllZero gradients then p
  else
    match type with
    | .sgd => stepSgd hyper p gradients
    | .sgdMomentum => stepSgdMomentum hyper p gradients
    | .adam => stepAdam fns hyper p gradients
    | .adamw => stepAdamw fns hyper p gradients

/-- The gradients of one group. -/
def Gradients.ofGroup (gradients : Gradients α) (group : Nat) (s : Shape) : Cells α s :=
  fun i j => gradients group i j

def Optimizer.step (o : Optimizer α) (gradients : Gradients α) : Optimizer α where
  type := o.type
  hyper := o.hyper
  globalStep := o.globalStep + 1
  groups := o.groups.mapIdx fun i p =>
    stepGroup fns o.hyper o.type p (gradients.ofGroup i p.shape)
  fits := (List.length_mapIdx ..).trans_lt o.fits

/-- One step for each of the gradients. -/
def Optimizer.run (o : Optimizer α) (gradients : List (Gradients α)) : Optimizer α :=
  gradients.foldl (Optimizer.step fns) o

variable {fns hyper} {type : OptimizerType} {p : ParameterGroup α}

/-- A step keeps the shape of a group, and the moments that it has. -/
theorem formed_stepGroup (formed : p.Formed type) (gradients : Cells α p.shape) :
    (stepGroup fns hyper type p gradients).Formed type := by
  unfold stepGroup
  split
  · exact formed
  · cases type with
    | sgd => exact ⟨formed.momentum, formed.velocity⟩
    | sgdMomentum =>
        change (stepSgdMomentum hyper p gradients).Formed _
        unfold stepSgdMomentum
        split
        · exact formed
        · exact ⟨rfl, formed.velocity⟩
    | adam =>
        change (stepAdam fns hyper p gradients).Formed _
        unfold stepAdam
        split
        · exact ⟨rfl, rfl⟩
        · exact formed
    | adamw =>
        change (stepAdamw fns hyper p gradients).Formed _
        unfold stepAdamw
        split
        · exact ⟨rfl, rfl⟩
        · exact formed

theorem Optimizer.Formed.step {o : Optimizer α} (formed : o.Formed) (gradients : Gradients α) :
    (o.step fns gradients).Formed := by
  intro p member
  obtain ⟨i, inside, rfl⟩ := List.mem_mapIdx.mp member
  exact formed_stepGroup (formed _ (List.getElem_mem inside)) _

theorem Optimizer.Formed.run {o : Optimizer α} (formed : o.Formed)
    (gradients : List (Gradients α)) : (o.run fns gradients).Formed := by
  induction gradients generalizing o with
  | nil => exact formed
  | cons first rest ih => exact ih (formed.step first)

theorem Optimizer.run_append (o : Optimizer α) (before after : List (Gradients α)) :
    o.run fns (before ++ after) = (o.run fns before).run fns after :=
  List.foldl_append ..

end Steps

end Adai.Optimization
