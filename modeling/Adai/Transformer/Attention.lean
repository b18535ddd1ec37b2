import Adai.Transformer.Activation
import Adai.Transformer.Projection

/-! # Attention

`MultiHeadAttention` and `CrossAttention`, which project queries, keys and values and
let each head work on its own columns of them. `Attention.exact` shows that the backward
pass is the gradient, under any mask and any bias of the scores; `Attention.exactSelf`,
that it is where queries and keys come from the same rows.
-/

noncomputable section

namespace Adai.Transformer

open Backpropagation Gradients Adai.Transformer.Transcendental

variable {K : Type} [Field K] [LinearOrder K] [Transcendental K] {rows tgt src heads dk : Nat}

/-! ## Heads -/

/-- The columns of each head. -/
def splitHeads (a : Mat rows (heads * dk) K) : Fin heads → Mat rows dk K :=
  fun h i k => a i (finProdFinEquiv (h, k))

/-- The columns of all heads. -/
def concatHeads (a : Fin heads → Mat rows dk K) : Mat rows (heads * dk) K :=
  fun i c => a (finProdFinEquiv.symm c).1 i (finProdFinEquiv.symm c).2

def scaleFactor (K : Type) [Field K] [Transcendental K] (dk : Nat) : K := 1 / sqrt (dk : K)

/-- The keys that a query may attend to: those where the mask is not zero. -/
def allowedKeys (mask : Option (Mat tgt src K)) (i : Fin tgt) (j : Fin src) : Bool :=
  match mask with
  | none => true
  | some mask => mask i j ≠ 0

/-- A scaled score, with its bias added. -/
def biased (bias : Option (Mat tgt src K)) (i : Fin tgt) (j : Fin src) (score : K) : K :=
  match bias with
  | none => score
  | some bias => score + bias i j

/-- The attention weights of a head. -/
def headWeights (bias mask : Option (Mat tgt src K)) (q : Mat tgt dk K) (k : Mat src dk K) :
    Mat tgt src K :=
  fun i => softmaxRow (allowedKeys mask i) fun j =>
    biased bias i j (Mat.mul q k.transpose i j * scaleFactor K dk)

/-- The gradients of the queries, the keys and the values of a head. -/
def headBackward (weights : Mat tgt src K) (q : Mat tgt dk K) (k v : Mat src dk K)
    (gradOut : Mat tgt dk K) : Mat tgt dk K × Mat src dk K × Mat src dk K :=
  let gradV := Mat.mul weights.transpose gradOut
  let gradWeights := Mat.mul gradOut v.transpose
  let gradScores : Mat tgt src K := fun i j =>
    softmaxRowBackward (weights i) (gradWeights i) j * scaleFactor K dk
  (Mat.mul gradScores k, Mat.mul gradScores.transpose q, gradV)

section Real

/-- The gradient of a head. -/
theorem hasBackward_head (bias mask : Option (Mat tgt src))
    (x : Mat tgt dk × Mat src dk × Mat src dk) :
    HasBackward (fun x : Mat tgt dk × Mat src dk × Mat src dk =>
        Mat.mul (headWeights bias mask x.1 x.2.1) x.2.2)
      (headBackward (headWeights bias mask x.1 x.2.1) x.1 x.2.1 x.2.2) x := by
  have queries := hasBackward_fst x
  have others := hasBackward_snd x
  have keys := (others.followedBy (hasBackward_fst x.2)).followedBy (hasBackward_transpose _)
  have values := others.followedBy (hasBackward_snd x.2)
  have scores := (queries.pair keys).followedBy (hasBackward_mul _)
  have shifted (i : Fin tgt) (j : Fin src) (score : ℝ) :
      HasDerivAt (fun score => biased bias i j (score * scaleFactor ℝ dk)) (scaleFactor ℝ dk)
        score := by
    cases bias with
    | none => exact hasDerivAt_mul_const _
    | some bias => exact (hasDerivAt_mul_const _).add_const _
  have weights := scores.followedBy (hasBackward_map fun i =>
    (hasBackward_map fun j => hasBackward_of_hasDerivAt (shifted i j _)).followedBy
      (hasBackward_softmax (allowedKeys mask i) _))
  have output := (weights.pair values).followedBy (hasBackward_mul _)
  refine output.congr (fun _ => rfl) fun g => ?_
  simp only [Prod.mk_add_mk, add_zero, zero_add, Mat.transpose_mul]
  rfl

theorem sum_columns (f : Fin (heads * dk) → ℝ) :
    ∑ c, f c = ∑ h, ∑ k, f (finProdFinEquiv (h, k)) := by
  rw [← finProdFinEquiv.sum_comp, Fintype.sum_prod_type]

theorem dot_concatHeads (g : Fin heads → Mat rows dk) (a : Mat rows (heads * dk)) :
    dot (concatHeads g) a = ∑ h, dot (g h) (splitHeads a h) := by
  rw [dot_mat]
  simp only [dot_mat, sum_columns, concatHeads, Equiv.symm_apply_apply]
  exact Finset.sum_comm

/-- The gradient of the columns of the heads of queries, keys and values. -/
theorem hasBackward_splitHeads
    (x : Mat tgt (heads * dk) × Mat src (heads * dk) × Mat src (heads * dk)) :
    HasBackward
      (fun (x : Mat tgt (heads * dk) × Mat src (heads * dk) × Mat src (heads * dk)) h =>
        (splitHeads x.1 h, splitHeads x.2.1 h, splitHeads x.2.2 h))
      (fun g => (concatHeads fun h => (g h).1, concatHeads fun h => (g h).2.1,
        concatHeads fun h => (g h).2.2)) x := by
  let linear : Mat tgt (heads * dk) × Mat src (heads * dk) × Mat src (heads * dk) →ₗ[ℝ]
      Fin heads → Mat tgt dk × Mat src dk × Mat src dk :=
    { toFun := fun x h => (splitHeads x.1 h, splitHeads x.2.1 h, splitHeads x.2.2 h)
      map_add' := fun _ _ => rfl
      map_smul' := fun _ _ => rfl }
  refine hasBackward_of_linear linear _ (fun g v => ?_) x
  simp only [dot_prod, dot_concatHeads]
  rw [dot_pi, ← Finset.sum_add_distrib, ← Finset.sum_add_distrib]
  rfl

/-- The gradient of the columns that the heads fill. -/
theorem hasBackward_concatHeads (a : Fin heads → Mat rows dk) :
    HasBackward (fun a : Fin heads → Mat rows dk => concatHeads a) (fun g => splitHeads g) a := by
  let linear : (Fin heads → Mat rows dk) →ₗ[ℝ] Mat rows (heads * dk) :=
    { toFun := fun a => concatHeads a
      map_add' := fun _ _ => rfl
      map_smul' := fun _ _ => rfl }
  refine hasBackward_of_linear linear _ (fun g v => ?_) a
  change dot g (concatHeads v) = dot (splitHeads g) v
  rw [dot_mat, dot_pi (splitHeads g)]
  simp only [dot_mat, sum_columns, concatHeads, Equiv.symm_apply_apply]
  exact Finset.sum_comm

end Real

/-! ## Attention layers -/

/-- The ranks of the adapters that have been enabled. -/
structure Ranks where
  q : Option Nat
  k : Option Nat
  v : Option Nat
  o : Option Nat

variable {ranks : Ranks}

/-- The projections of `MultiHeadAttention` and `CrossAttention`. -/
structure Attention (K : Type) (heads dk : Nat) (ranks : Ranks) where
  q : Projection K (heads * dk) ranks.q
  k : Projection K (heads * dk) ranks.k
  v : Projection K (heads * dk) ranks.v
  o : Projection K (heads * dk) ranks.o

namespace Attention

/-- The weights of the projections. -/
abbrev Weights (K : Type) (heads dk : Nat) (ranks : Ranks) :=
  (Projection.Weights K (heads * dk) ranks.q × Projection.Weights K (heads * dk) ranks.k) ×
    Projection.Weights K (heads * dk) ranks.v × Projection.Weights K (heads * dk) ranks.o

/-- What a forward pass leaves behind. -/
structure Cache (K : Type) (tgt src heads dk : Nat) where
  query : Mat tgt (heads * dk) K
  kv : Mat src (heads * dk) K
  Q : Mat tgt (heads * dk) K
  K' : Mat src (heads * dk) K
  V : Mat src (heads * dk) K
  headWeights : Fin heads → Mat tgt src K
  attentionOutput : Mat tgt (heads * dk) K

/-- `CrossAttention::forward_with_scores`; without a bias, `CrossAttention::forward`. -/
def attend (bias mask : Option (Mat tgt src K)) (attention : Attention K heads dk ranks)
    (query : Mat tgt (heads * dk) K) (kv : Mat src (heads * dk) K) :
    Cache K tgt src heads dk × Mat tgt (heads * dk) K :=
  let Q := attention.q.forward query
  let K' := attention.k.forward kv
  let V := attention.v.forward kv
  let weights := fun h => headWeights bias mask (splitHeads Q h) (splitHeads K' h)
  let concatenated := concatHeads fun h => Mat.mul (weights h) (splitHeads V h)
  (⟨query, kv, Q, K', V, weights, concatenated⟩, attention.o.forward concatenated)

/-- `CrossAttention::backward`: the gradients of the queries and of the keys and values. -/
def backward (attention : Attention K heads dk ranks) (cache : Cache K tgt src heads dk)
    (gradOutput : Mat tgt (heads * dk) K) :
    Attention K heads dk ranks × Mat tgt (heads * dk) K × Mat src (heads * dk) K :=
  let o := attention.o.backward cache.attentionOutput gradOutput
  let gradHeads := fun h => headBackward (cache.headWeights h) (splitHeads cache.Q h)
    (splitHeads cache.K' h) (splitHeads cache.V h) (splitHeads o.2 h)
  let dQ := concatHeads fun h => (gradHeads h).1
  let dK := concatHeads fun h => (gradHeads h).2.1
  let dV := concatHeads fun h => (gradHeads h).2.2
  let q := attention.q.backward cache.query dQ
  let k := attention.k.backward cache.kv dK
  let v := attention.v.backward cache.kv dV
  (⟨q.1, k.1, v.1, o.1⟩, q.2, k.2 + v.2)

/-- The layer that attends from given queries to given keys. -/
def layer (bias mask : Option (Mat tgt src K)) :
    Layer (Attention K heads dk ranks) (Weights K heads dk ranks)
      (Mat tgt (heads * dk) K × Mat src (heads * dk) K) (Mat tgt (heads * dk) K) where
  Cache := Cache K tgt src heads dk
  weights := fun attention =>
    (((Projection.layer tgt).weights attention.q, (Projection.layer src).weights attention.k),
      (Projection.layer src).weights attention.v, (Projection.layer tgt).weights attention.o)
  grads := fun attention =>
    (((Projection.layer tgt).grads attention.q, (Projection.layer src).grads attention.k),
      (Projection.layer src).grads attention.v, (Projection.layer tgt).grads attention.o)
  withWeights := fun attention weights =>
    ⟨(Projection.layer tgt).withWeights attention.q weights.1.1,
      (Projection.layer src).withWeights attention.k weights.1.2,
      (Projection.layer src).withWeights attention.v weights.2.1,
      (Projection.layer tgt).withWeights attention.o weights.2.2⟩
  forward := fun attention x => attend bias mask attention x.1 x.2
  backward := backward

/-- The backward pass is exact. -/
theorem exact (bias mask : Option (Mat tgt src)) (attention : Attention ℝ heads dk ranks)
    (x : Mat tgt (heads * dk) × Mat src (heads * dk)) :
    (layer bias mask).Exact attention x := by
  let weights : Weights ℝ heads dk ranks := (layer bias mask).weights attention
  have whole := hasBackward_fst (V := Weights ℝ heads dk ranks) (weights, x)
  have inputs := hasBackward_snd (V := Weights ℝ heads dk ranks) (weights, x)
  have queryKey := whole.followedBy (hasBackward_fst weights)
  have valueOutput := whole.followedBy (hasBackward_snd weights)
  have query := inputs.followedBy (hasBackward_fst x)
  have kv := inputs.followedBy (hasBackward_snd x)
  have queries := ((queryKey.followedBy (hasBackward_fst weights.1)).pair query).followedBy
    (attention.q.exact x.1).hasBackward
  have keys := ((queryKey.followedBy (hasBackward_snd weights.1)).pair kv).followedBy
    (attention.k.exact x.2).hasBackward
  have values := ((valueOutput.followedBy (hasBackward_fst weights.2)).pair kv).followedBy
    (attention.v.exact x.2).hasBackward
  have split := (queries.pair (keys.pair values)).followedBy (hasBackward_splitHeads _)
  have concatenated := (split.followedBy (hasBackward_map fun h =>
    hasBackward_head bias mask _)).followedBy (hasBackward_concatHeads _)
  have output := ((valueOutput.followedBy (hasBackward_snd weights.2)).pair
    concatenated).followedBy (attention.o.exact _).hasBackward
  refine ⟨output.congr (fun _ => rfl) fun g => ?_, fun cache g => ?_, ?_⟩
  · have queries_eq : (Projection.layer tgt).value attention.q (weights.1.1, x.1) =
        attention.q.forward x.1 := (attention.q.exact x.1).value_eq
    have keys_eq : (Projection.layer src).value attention.k (weights.1.2, x.2) =
        attention.k.forward x.2 := (attention.k.exact x.2).value_eq
    have values_eq : (Projection.layer src).value attention.v (weights.2.1, x.2) =
        attention.v.forward x.2 := (attention.v.exact x.2).value_eq
    simp only [Prod.mk_add_mk, add_zero, zero_add, queries_eq, keys_eq, values_eq]
    rfl
  · exact Prod.ext
      (Prod.ext ((attention.q.exact x.1).kept _ _) ((attention.k.exact x.2).kept _ _))
      (Prod.ext ((attention.v.exact x.2).kept _ _) ((attention.o.exact x.1).kept _ _))
  · change Attention.mk _ _ _ _ = Attention.mk attention.q attention.k attention.v attention.o
    rw [Attention.mk.injEq]
    exact ⟨(attention.q.exact x.1).restored, (attention.k.exact x.2).restored,
      (attention.v.exact x.2).restored, (attention.o.exact x.1).restored⟩

/-! ## Self-attention -/

/-- `MultiHeadAttention::forward`. -/
def attendSelf (mask : Option (Mat rows rows K)) (attention : Attention K heads dk ranks)
    (input : Mat rows (heads * dk) K) : Cache K rows rows heads dk × Mat rows (heads * dk) K :=
  attend none mask attention input input

/-- `MultiHeadAttention::backward`, which adds up the gradients of queries, keys and values. -/
def backwardSelf (attention : Attention K heads dk ranks) (cache : Cache K rows rows heads dk)
    (gradOutput : Mat rows (heads * dk) K) :
    Attention K heads dk ranks × Mat rows (heads * dk) K :=
  let after := backward attention cache gradOutput
  (after.1, after.2.1 + after.2.2)

/-- The layer that attends among the rows of its input. -/
def selfLayer (mask : Option (Mat rows rows K)) :
    Layer (Attention K heads dk ranks) (Weights K heads dk ranks) (Mat rows (heads * dk) K)
      (Mat rows (heads * dk) K) where
  Cache := Cache K rows rows heads dk
  weights := (layer none mask).weights
  grads := (layer none mask).grads
  withWeights := (layer none mask).withWeights
  forward := attendSelf mask
  backward := backwardSelf

/-- The backward pass is exact. -/
theorem exactSelf (mask : Option (Mat rows rows)) (attention : Attention ℝ heads dk ranks)
    (input : Mat rows (heads * dk)) : (selfLayer mask).Exact attention input := by
  let weights : Weights ℝ heads dk ranks := (selfLayer mask).weights attention
  have whole := hasBackward_fst (V := Weights ℝ heads dk ranks) (weights, input)
  have start := hasBackward_snd (V := Weights ℝ heads dk ranks) (weights, input)
  have cross := exact none mask attention (input, input)
  have output := (whole.pair (start.pair start)).followedBy cross.hasBackward
  refine ⟨output.congr (fun _ => rfl) fun g => ?_, fun cache g => cross.kept cache g,
    cross.restored⟩
  simp only [Prod.mk_add_mk, add_zero, zero_add]
  rfl

end Attention

end Adai.Transformer

end

/-! ## Back-propagation through attention

After a forward pass of `MultiHeadAttention`, a backward pass returns the gradient for the
input and adds that for the weights; a second one adds again
(`attention_backward_exact`).
-/

noncomputable section

namespace Adai.Transformer

open Backpropagation Gradients

variable {rows heads dk : Nat} {ranks : Ranks}

section Kept

variable {K : Type} [Field K] {dim : Nat} {rank : Option Nat}

/-- A backward pass changes no weight that a forward pass reads. -/
theorem Projection.forward_backward (projection : Projection K dim rank)
    (input gradOutput x : Mat rows dim K) :
    (projection.backward input gradOutput).1.forward x = projection.forward x := by
  cases rank <;> rfl

theorem Projection.withWeights_backward (projection : Projection K dim rank)
    (input gradOutput x : Mat rows dim K) (weights : Projection.Weights K dim rank) :
    ((Projection.layer rows).withWeights (projection.backward input gradOutput).1 weights).forward x =
      ((Projection.layer rows).withWeights projection weights).forward x := by
  cases rank <;> rfl

end Kept

namespace Attention

theorem attendSelf_backwardSelf (mask : Option (Mat rows rows))
    (attention : Attention ℝ heads dk ranks) (cache : Cache ℝ rows rows heads dk)
    (gradOutput x : Mat rows (heads * dk)) :
    attendSelf mask (backwardSelf attention cache gradOutput).1 x = attendSelf mask attention x := by
  simp only [attendSelf, attend, backwardSelf, backward, Projection.forward_backward]

theorem attendSelf_withWeights_backwardSelf (mask : Option (Mat rows rows))
    (attention : Attention ℝ heads dk ranks) (cache : Cache ℝ rows rows heads dk)
    (gradOutput x : Mat rows (heads * dk)) (weights : Weights ℝ heads dk ranks) :
    attendSelf mask ((selfLayer mask).withWeights (backwardSelf attention cache gradOutput).1
        weights) x =
      attendSelf mask ((selfLayer mask).withWeights attention weights) x := by
  simp only [attendSelf, attend, selfLayer, layer, backwardSelf, backward,
    Projection.withWeights_backward]

/-- The weighted sum of the outputs, as a function of the weights and of the input. -/
def weightedOutput (mask : Option (Mat rows rows)) (attention : Attention ℝ heads dk ranks)
    (g : Mat rows (heads * dk)) (x : Weights ℝ heads dk ranks × Mat rows (heads * dk)) : ℝ :=
  ∑ i, ∑ j, g i j * (attendSelf mask ((selfLayer mask).withWeights attention x.1) x.2).2 i j

/-- What one backward pass adds and returns. -/
theorem backwardSelf_exact (mask : Option (Mat rows rows)) (attention : Attention ℝ heads dk ranks)
    (input g : Mat rows (heads * dk)) :
    let after := backwardSelf attention (attendSelf mask attention input).1 g
    ∃ gradient : Weights ℝ heads dk ranks × Mat rows (heads * dk),
      HasGrad (weightedOutput mask attention g) gradient
          ((selfLayer mask).weights attention, input) ∧
        after.2 = gradient.2 ∧
          (selfLayer mask).grads after.1 = (selfLayer mask).grads attention + gradient.1 := by
  have whole := (exactSelf mask attention input).hasBackward.grad g
  simp only [dot_mat] at whole
  exact ⟨_, whole, rfl, (add_sub_cancel _ _).symm⟩

end Attention

open Attention

/-- After a forward pass, a backward pass returns the gradient of the weighted sum of the
outputs for the input, adds that for the weights to their gradients, and changes no weight;
a second backward pass returns and adds the gradient for its own sum. -/
theorem attention_backward_exact (mask : Option (Mat rows rows))
    (attention : Attention ℝ heads dk ranks) (input g g' : Mat rows (heads * dk)) :
    let forward := attendSelf mask attention input
    let first := backwardSelf attention forward.1 g
    let second := backwardSelf first.1 forward.1 g'
    let weights := (selfLayer mask).weights attention
    ∃ gradient gradient' : Weights ℝ heads dk ranks × Mat rows (heads * dk),
      HasGrad (weightedOutput mask attention g) gradient (weights, input) ∧
        HasGrad (weightedOutput mask attention g') gradient' (weights, input) ∧
        first.2 = gradient.2 ∧ second.2 = gradient'.2 ∧
        (selfLayer mask).weights second.1 = weights ∧
        (selfLayer mask).grads first.1 = (selfLayer mask).grads attention + gradient.1 ∧
        (selfLayer mask).grads second.1 =
          (selfLayer mask).grads attention + gradient.1 + gradient'.1 := by
  intro forward first second weights
  have kept : (selfLayer mask).weights first.1 = weights :=
    (exactSelf mask attention input).kept forward.1 g
  have again : attendSelf mask first.1 input = forward :=
    attendSelf_backwardSelf mask attention forward.1 g input
  have same : weightedOutput mask first.1 g' = weightedOutput mask attention g' := by
    funext x
    simp only [weightedOutput, first, attendSelf_withWeights_backwardSelf]
  obtain ⟨gradient, isGradient, returned, added⟩ := backwardSelf_exact mask attention input g
  obtain ⟨gradient', isGradient', returned', added'⟩ := backwardSelf_exact mask first.1 input g'
  rw [again] at returned' added'
  rw [same, kept] at isGradient'
  refine ⟨gradient, gradient', isGradient, isGradient', returned, returned', ?_, added, ?_⟩
  · exact ((exactSelf mask first.1 input).kept forward.1 g').trans kept
  · exact added'.trans (congrArg (· + gradient'.1) added)

end Adai.Transformer

end
