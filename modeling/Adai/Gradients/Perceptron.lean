import Adai.Gradients.Matrix

/-! # Multi-layer perceptrons

The network that `RewardModel` and `ValueFunction` share: linear layers with a ReLU
after all but the last. The forward pass fills a cache of activations, from which
the backward pass goes through the layers in reverse.
`hasBackward_output` shows that it computes the gradients of all weights and biases,
where no hidden pre-activation is zero.
-/

noncomputable section

namespace Adai.Gradients

open Backpropagation

/-- The weights and biases of layers with the given widths. -/
abbrev Parameters {L : Nat} (w : Fin (L + 1) → Nat) :=
  ∀ l : Fin L, Mat (w l.castSucc) (w l.succ) × (Fin (w l.succ) → ℝ)

/-- The cached activations and pre-activations. -/
structure Cache {L : Nat} (w : Fin (L + 1) → Nat) where
  activations : ∀ l : Fin (L + 1), Mat 1 (w l)
  preActivations : ∀ l : Fin L, Mat 1 (w l.succ)

def relu (x : ℝ) : ℝ := max 0 x

def reluDerivative (x : ℝ) : ℝ := if 0 < x then 1 else 0

/-- `relu` for hidden layers; the output layer is linear. -/
def activate (L : Nat) {n : Nat} (z : Mat 1 n) : Mat 1 n :=
  if L = 0 then z else fun i j => relu (z i j)

/-- The gradient of the pre-activations of a layer. -/
def activateBackward (L : Nat) {n : Nat} (z grad : Mat 1 n) : Mat 1 n :=
  if L = 0 then grad else fun i j => grad i j * reluDerivative (z i j)

/-- The layers after the first. -/
def Parameters.tail {L : Nat} {w : Fin (L + 2) → Nat} (params : Parameters w) :
    Parameters fun l => w l.succ :=
  fun l => params l.succ

/-- The forward pass. -/
def runForward : (L : Nat) → (w : Fin (L + 1) → Nat) → Parameters w → Mat 1 (w 0) → Cache w
  | 0, _, _, input => ⟨Fin.cons input fun l => l.elim0, fun l => l.elim0⟩
  | L + 1, w, params, input =>
    let z := Mat.addRow (Mat.mul input (params 0).1) (params 0).2
    let rest := runForward L (fun l => w l.succ) params.tail (activate L z)
    ⟨Fin.cons input rest.activations, Fin.cons z rest.preActivations⟩

/-- The last activation. -/
def output {L : Nat} {w : Fin (L + 1) → Nat} (params : Parameters w) (input : Mat 1 (w 0)) :
    Mat 1 (w (Fin.last L)) :=
  (runForward L w params input).activations (Fin.last L)

/-- The entry of a row that has one column. -/
def onlyEntry {n : Nat} (single : n = 1) (row : Mat 1 n) : ℝ := row 0 (Fin.cast single.symm 0)

/-- The backward pass: adds to the gradients of the parameters, and returns the
gradient of the input. -/
def runBackward : (L : Nat) → (w : Fin (L + 1) → Nat) → Parameters w → Cache w →
    Mat 1 (w (Fin.last L)) → Parameters w → Parameters w × Mat 1 (w 0)
  | 0, _, _, _, grad, grads => (grads, grad)
  | L + 1, w, params, cache, grad, grads =>
    let after := runBackward L (fun l => w l.succ) params.tail
      ⟨fun l => cache.activations l.succ, fun l => cache.preActivations l.succ⟩ grad grads.tail
    let gradPreAct := activateBackward L (cache.preActivations 0) after.2
    let dW : Mat (w (Fin.castSucc 0)) (w (Fin.succ 0)) := Mat.mul (cache.activations 0).transpose gradPreAct
    (Fin.cons ((grads 0).1 + dW, fun j => (grads 0).2 j + gradPreAct 0 j) after.1,
      Mat.mul gradPreAct (params 0).1.transpose)

/-! ## The backward pass -/

section Layers

variable {L : Nat} {w : Fin (L + 2) → Nat}

/-- The first layer and the others are taken apart. -/
theorem hasBackward_head (params : Parameters w) :
    HasBackward (fun params : Parameters w => params 0)
      (fun g => Fin.cons g (0 : Parameters fun l => w l.succ)) params := by
  let linear : Parameters w →ₗ[ℝ]
      Mat (w (Fin.castSucc 0)) (w (Fin.succ 0)) × (Fin (w (Fin.succ 0)) → ℝ) :=
    LinearMap.proj 0
  refine hasBackward_of_linear linear _ (fun g v => ?_) params
  have others : ∑ l : Fin L, dot ((Fin.cons g (0 : Parameters fun l => w l.succ) : Parameters w)
      l.succ) (v l.succ) = 0 :=
    Finset.sum_eq_zero fun l _ => by
      change dot 0 (v l.succ) = 0
      rw [map_zero, zero_apply]
  rw [dot_pi, Fin.sum_univ_succ, others, add_zero]
  rfl

theorem hasBackward_tail (params : Parameters w) :
    HasBackward (fun params : Parameters w => params.tail) (fun g => Fin.cons 0 g) params := by
  let linear : Parameters w →ₗ[ℝ] Parameters fun l => w l.succ :=
    { toFun := fun params => params.tail
      map_add' := fun _ _ => rfl
      map_smul' := fun _ _ => rfl }
  refine hasBackward_of_linear linear _ (fun g v => ?_) params
  have first : dot ((Fin.cons 0 g : Parameters w) 0) (v 0) = 0 := by
    change dot 0 (v 0) = 0
    rw [map_zero, zero_apply]
  rw [dot_pi, dot_pi, Fin.sum_univ_succ, first, zero_add]
  rfl

end Layers

theorem hasDerivAt_relu {x : ℝ} (nonzero : x ≠ 0) : HasDerivAt relu (reluDerivative x) x := by
  rcases lt_or_gt_of_ne nonzero with negative | positive
  · rw [reluDerivative, if_neg (not_lt.mpr negative.le)]
    refine (hasDerivAt_const x (0 : ℝ)).congr_of_eventuallyEq ?_
    filter_upwards [Iio_mem_nhds negative] with y below
    exact max_eq_left (Set.mem_Iio.mp below).le
  · rw [reluDerivative, if_pos positive]
    refine (hasDerivAt_id x).congr_of_eventuallyEq ?_
    filter_upwards [Ioi_mem_nhds positive] with y above
    exact max_eq_right (Set.mem_Ioi.mp above).le

theorem hasBackward_activate {L n : Nat} (z : Mat 1 n) (nonzero : L ≠ 0 → ∀ j, z 0 j ≠ 0) :
    HasBackward (activate L) (activateBackward L z) z := by
  by_cases last : L = 0
  · refine (hasBackward_id z).congr (fun x => ?_) fun g => ?_
    · exact if_pos last
    · exact if_pos last
  · have entries := hasBackward_entries (φ := relu) (d := reluDerivative) z fun i j => by
      rw [Fin.fin_one_eq_zero i]
      exact hasDerivAt_relu (nonzero last j)
    refine entries.congr (fun x => ?_) fun g => ?_
    · exact if_neg last
    · exact if_neg last

/-- The gradients are added to those given. -/
theorem runBackward_grads : ∀ (L : Nat) (w : Fin (L + 1) → Nat) (params : Parameters w)
    (cache : Cache w) (grad : Mat 1 (w (Fin.last L))) (grads : Parameters w),
    runBackward L w params cache grad grads =
      (grads + (runBackward L w params cache grad 0).1,
        (runBackward L w params cache grad 0).2) := by
  intro L
  induction L with
  | zero => exact fun w params cache grad grads => Prod.ext (add_zero grads).symm rfl
  | succ L ih =>
      intro w params cache grad grads
      have later := ih (fun l => w l.succ) params.tail
        ⟨fun l => cache.activations l.succ, fun l => cache.preActivations l.succ⟩ grad
      let after := runBackward L (fun l => w l.succ) params.tail
        ⟨fun l => cache.activations l.succ, fun l => cache.preActivations l.succ⟩ grad 0
      let gradPreAct := activateBackward L (cache.preActivations 0) after.2
      let dW : Mat (w (Fin.castSucc 0)) (w (Fin.succ 0)) :=
        Mat.mul (cache.activations 0).transpose gradPreAct
      simp only [runBackward]
      rw [later grads.tail]
      refine Prod.ext (funext fun l => ?_) rfl
      refine Fin.cases ?_ (fun l => ?_) l
      · change ((grads 0).1 + dW, fun j => (grads 0).2 j + gradPreAct 0 j) =
          grads 0 + (0 + dW, fun j => 0 + gradPreAct 0 j)
        simp only [zero_add]
        rfl
      · rfl

/-- No hidden pre-activation is zero. -/
def Smooth {L : Nat} {w : Fin (L + 1) → Nat} (params : Parameters w) (input : Mat 1 (w 0)) :
    Prop :=
  ∀ l : Fin L, l.val + 1 < L → ∀ j, (runForward L w params input).preActivations l 0 j ≠ 0

/-- The backward pass computes the gradients of the parameters and of the input. -/
theorem hasBackward_output : ∀ (L : Nat) (w : Fin (L + 1) → Nat) (params : Parameters w)
    (input : Mat 1 (w 0)), Smooth params input →
    HasBackward (fun x : Parameters w × Mat 1 (w 0) => output x.1 x.2)
      (fun g => runBackward L w params (runForward L w params input) g 0) (params, input) := by
  intro L
  induction L with
  | zero => exact fun w params input _ => hasBackward_snd (params, input)
  | succ L ih =>
      intro w params input smooth
      let z := Mat.addRow (Mat.mul input (params 0).1) (params 0).2
      have activated : HasBackward (activate L) (activateBackward L z) z :=
        hasBackward_activate z fun hidden => smooth 0 (by simp; omega)
      have later : Smooth params.tail (activate L z) := fun l hidden =>
        smooth l.succ (by simp; omega)
      have first := ((hasBackward_fst (params, input)).followedBy (hasBackward_head params)).pair
        (hasBackward_snd (params, input))
      have layer := (first.followedBy (hasBackward_linear (params 0, input))).followedBy activated
      have others := (hasBackward_fst (params, input)).followedBy (hasBackward_tail params)
      have total := (others.pair layer).followedBy
        (ih (fun l => w l.succ) params.tail (activate L z) later)
      refine total.congr (fun _ => rfl) fun g => ?_
      let after := runBackward L (fun l => w l.succ) params.tail
        (runForward L (fun l => w l.succ) params.tail (activate L z)) g 0
      let gradPreAct := activateBackward L z after.2
      let dW : Mat (w (Fin.castSucc 0)) (w (Fin.succ 0)) := Mat.mul input.transpose gradPreAct
      refine Prod.ext (funext fun l => ?_) ?_
      · refine Fin.cases ?_ (fun l => ?_) l
        · change (0 + dW, fun j => 0 + gradPreAct 0 j) = 0 + ((dW, gradPreAct.sumRows) + 0)
          rw [zero_add, add_zero, zero_add]
          refine Prod.ext rfl (funext fun j => ?_)
          change 0 + gradPreAct 0 j = ∑ i, gradPreAct i j
          rw [zero_add, Fin.sum_univ_one]
        · change after.1 l = after.1 l + (0 + 0)
          rw [add_zero, add_zero]
      · change Mat.mul gradPreAct (params 0).1.transpose =
          0 + (0 + Mat.mul gradPreAct (params 0).1.transpose)
        rw [zero_add, zero_add]

end Adai.Gradients

end

/-! ## Networks with a scalar output

What `RewardModel` and `ValueFunction` share: the weights with the cache that a
forward pass leaves behind, and a backward pass that runs the forward pass again
before it reads the cache.
`Network.foldlM_accumulates` sums up a loop that accumulates gradients and losses
over samples.
-/

noncomputable section

namespace Adai.Gradients

open Backpropagation

/-- The widths of a network, its input and its output included. -/
structure Shape where
  layers : Nat
  widths : Fin (layers + 1) → Nat
  nonempty : layers ≠ 0
  scalar : widths (Fin.last layers) = 1

namespace Shape

variable (shape : Shape)

abbrev inputDim : Nat := shape.widths 0

abbrev Weights := Parameters shape.widths

/-- An input as a row. -/
def row (input : List ℝ) : Mat 1 shape.inputDim := fun _ i => input.getD i.val 0

variable {shape}

/-- The output at an input. -/
def value (params : shape.Weights) (input : List ℝ) : ℝ :=
  onlyEntry shape.scalar (output params (shape.row input))

/-- The gradient of the output. -/
def gradient (params : shape.Weights) (input : List ℝ) : shape.Weights :=
  (runBackward shape.layers shape.widths params
    (runForward shape.layers shape.widths params (shape.row input)) (fun _ _ => 1) 0).1

variable {params : shape.Weights} {input : List ℝ}

theorem hasBackward_params (smooth : Smooth params (shape.row input)) :
    HasBackward (fun params : shape.Weights => output params (shape.row input))
      (fun g => (runBackward shape.layers shape.widths params
        (runForward shape.layers shape.widths params (shape.row input)) g 0).1) params := by
  have whole := hasBackward_output shape.layers shape.widths params (shape.row input) smooth
  have fixed := (hasBackward_id params).pair (hasBackward_const (shape.row input) params)
  exact (fixed.followedBy whole).congr (fun _ => rfl) fun g => (add_zero _).symm

theorem hasGrad_value (smooth : Smooth params (shape.row input)) :
    HasGrad (fun params => value params input) (gradient params input) params := by
  have last (j : Fin (shape.widths (Fin.last shape.layers))) :
      j = Fin.cast shape.scalar.symm 0 := by
    apply Fin.ext
    have bound := j.isLt
    have scalar := shape.scalar
    simp only [Fin.val_cast, Fin.val_zero]
    omega
  have weighted := (hasBackward_params smooth).grad fun _ _ => 1
  refine HasFDerivAt.congr_of_eventuallyEq weighted (.of_forall fun params => ?_)
  change output params (shape.row input) 0 (Fin.cast shape.scalar.symm 0) = dot _ _
  rw [dot_mat, Fin.sum_univ_one, Finset.sum_eq_single (Fin.cast shape.scalar.symm 0), one_mul]
  · exact fun j _ other => absurd (last j) other
  · exact fun absent => absurd (Finset.mem_univ _) absent

/-- What the backward pass adds for an output gradient. -/
theorem runBackward_eq (smooth : Smooth params (shape.row input)) (outputGrad : ℝ)
    (grads : shape.Weights) :
    (runBackward shape.layers shape.widths params
      (runForward shape.layers shape.widths params (shape.row input)) (fun _ _ => outputGrad) grads).1 =
      grads + outputGrad • gradient params input := by
  have scaled := (hasBackward_params smooth).smul outputGrad fun _ _ => 1
  rw [runBackward_grads]
  refine congrArg (grads + ·) (Eq.trans ?_ scaled)
  have same : (outputGrad • fun _ _ => 1 : Mat 1 (shape.widths (Fin.last shape.layers))) =
      fun _ _ => outputGrad := by
    funext i j
    exact mul_one outputGrad
  rw [same]

end Shape

/-! ## The cache -/

/-- The weights and the cache of the last forward pass. -/
structure Network (shape : Shape) where
  params : shape.Weights
  cache : Cache shape.widths

theorem bind_ok {α β : Type} {x : Except String α} {a : α} (returns : x = .ok a)
    (next : α → Except String β) : (x >>= next) = next a := by
  rw [returns]
  rfl

namespace Network

variable {shape : Shape}

/-- `forward` or `predict`, with the text thrown for an input of another dimension. -/
def forward (mismatch : String) (network : Network shape) (input : List ℝ) :
    Except String (Network shape × ℝ) :=
  if input.length ≠ shape.inputDim then
    throw mismatch
  else
    let cache := runForward shape.layers shape.widths network.params (shape.row input)
    return ({ network with cache := cache },
      onlyEntry shape.scalar (cache.activations (Fin.last shape.layers)))

/-- `backward`: runs the forward pass again for the cache. -/
def backward (mismatch : String) (network : Network shape) (input : List ℝ) (outputGrad : ℝ)
    (grads : shape.Weights) : Except String (Network shape × shape.Weights) := do
  let (network, _) ← network.forward mismatch input
  let grads := (runBackward shape.layers shape.widths network.params network.cache
    (fun _ _ => outputGrad) grads).1
  return (network, grads)

variable {network : Network shape} {input : List ℝ}

theorem forward_eq (mismatch : String) (fits : input.length = shape.inputDim) :
    network.forward mismatch input = .ok
      (⟨network.params, runForward shape.layers shape.widths network.params (shape.row input)⟩,
        Shape.value network.params input) :=
  if_neg (not_not.mpr fits)

theorem backward_eq (mismatch : String) (fits : input.length = shape.inputDim)
    (smooth : Smooth network.params (shape.row input)) (outputGrad : ℝ)
    (grads : shape.Weights) :
    network.backward mismatch input outputGrad grads = .ok
      (⟨network.params, runForward shape.layers shape.widths network.params (shape.row input)⟩,
        grads + outputGrad • Shape.gradient network.params input) := by
  simp only [backward, forward_eq mismatch fits]
  exact congrArg (fun grads => Except.ok (_, grads)) (Shape.runBackward_eq smooth outputGrad grads)

/-- A loop whose steps keep the weights and add a gradient and a loss for their sample. -/
theorem foldlM_accumulates {κ : Type} (params : shape.Weights)
    (step : Network shape × shape.Weights × ℝ → κ →
      Except String (Network shape × shape.Weights × ℝ))
    (gradient : κ → shape.Weights) (loss : κ → ℝ) (samples : List κ)
    (each : ∀ sample ∈ samples, ∀ cache grads total, ∃ after : Cache shape.widths,
      step (⟨params, cache⟩, grads, total) sample =
        .ok (⟨params, after⟩, grads + gradient sample, total + loss sample)) :
    ∀ cache grads total, ∃ after : Cache shape.widths,
      samples.foldlM step (⟨params, cache⟩, grads, total) = .ok
        (⟨params, after⟩, grads + (samples.map gradient).sum, total + (samples.map loss).sum) := by
  induction samples with
  | nil =>
      intro cache grads total
      refine ⟨cache, ?_⟩
      simp only [List.map_nil, List.sum_nil, add_zero]
      rfl
  | cons sample rest ih =>
      intro cache grads total
      obtain ⟨next, stepped⟩ := each sample List.mem_cons_self cache grads total
      obtain ⟨after, folded⟩ := ih (fun other member => each other (List.mem_cons_of_mem _ member))
        next (grads + gradient sample) (total + loss sample)
      refine ⟨after, ?_⟩
      rw [List.foldlM_cons, stepped]
      simp only [List.map_cons, List.sum_cons, ← add_assoc]
      exact folded

end Network

end Adai.Gradients

end
