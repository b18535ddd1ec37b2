import Adai.Transformer.Attention

/-! # Merging adapters

`MultiHeadAttention::merge_lora` folds each adapter into the weights of its projection.
The projection then maps every input to what it mapped it to before
(`Projection.forward_merge`), so `forward` and `forward_with_cache` return what they
returned, with any mask and any cache (`merge_lora_keeps_output`). Here a masked score is
filled with a large negative number, as in the code.
-/

noncomputable section

namespace Adai.Transformer

open Gradients Adai.Transformer.Transcendental

/-! ## Merging -/

section Merge

variable {K : Type} [Field K] {rows dim rank : Nat}

theorem mul_assoc_mat {m n p q : Nat} (a : Mat m n K) (b : Mat n p K) (c : Mat p q K) :
    Mat.mul (Mat.mul a b) c = Mat.mul a (Mat.mul b c) :=
  Matrix.mul_assoc a b c

/-- `W' = W + (alpha/r) * A^T * B^T`. -/
def LoRAAdapter.mergeWithBase (adapter : LoRAAdapter K dim rank) (W : Mat dim dim K) :
    Mat dim dim K :=
  let deltaW := Mat.mul adapter.A.transpose adapter.B.transpose
  fun r c => W r c + deltaW r c * adapter.scale

/-- The merged weights act as the weights and the adapter do. -/
theorem LoRAAdapter.mul_mergeWithBase (adapter : LoRAAdapter K dim rank) (x : Mat rows dim K)
    (W : Mat dim dim K) :
    Mat.mul x (adapter.mergeWithBase W) = adapter.forward x (Mat.mul x W) := by
  funext i j
  let deltaW := Mat.mul adapter.A.transpose adapter.B.transpose
  have distributed (k : Fin dim) : x i k * (W k j + deltaW k j * adapter.scale) =
      x i k * W k j + x i k * deltaW k j * adapter.scale := by
    ring
  calc ∑ k, x i k * (W k j + deltaW k j * adapter.scale)
      = ∑ k, x i k * W k j + (∑ k, x i k * deltaW k j) * adapter.scale := by
        rw [Finset.sum_mul, ← Finset.sum_add_distrib]
        exact Finset.sum_congr rfl fun k _ => distributed k
    _ = Mat.mul x W i j + adapter.scale * Mat.mul x deltaW i j := by
        rw [mul_comm adapter.scale]
        rfl
    _ = adapter.forward x (Mat.mul x W) i j := by
        rw [LoRAAdapter.forward, mul_assoc_mat]

/-- A projection whose adapter, if it has one, is merged and reset. -/
def Projection.merge {rank : Option Nat} (projection : Projection K dim rank) :
    Projection K dim none :=
  match rank, projection with
  | none, projection => projection
  | some _, projection =>
    { W := LoRAAdapter.mergeWithBase projection.lora projection.W
      grad := projection.grad
      lora := ⟨⟩ }

theorem Projection.forward_merge {rank : Option Nat} (projection : Projection K dim rank)
    (x : Mat rows dim K) : projection.merge.forward x = projection.forward x := by
  cases rank with
  | none => rfl
  | some r => exact LoRAAdapter.mul_mergeWithBase projection.lora x projection.W

end Merge

/-! ## Matrices of any size -/

/-- A `Matrix`, whose size is checked where it is used. -/
structure SizedMatrix (K : Type) where
  rows : Nat
  cols : Nat
  data : Mat rows cols K

def SizedMatrix.withSize {K : Type} {rows cols : Nat} (m : SizedMatrix K) (sameRows : m.rows = rows)
    (sameCols : m.cols = cols) : Mat rows cols K :=
  fun i j => m.data (Fin.cast sameRows.symm i) (Fin.cast sameCols.symm j)

/-- The keys and values of earlier positions. -/
structure KVCache (K : Type) (width : Nat) where
  currentLength : Nat
  keys : Mat currentLength width K
  values : Mat currentLength width K

/-- `KVCache::append`. -/
def KVCache.append {K : Type} {rows cols width : Nat} (cache : KVCache K width)
    (newKeys newValues : Mat rows cols K) : Except String (KVCache K cols) :=
  if cache.currentLength = 0 then .ok ⟨rows, newKeys, newValues⟩
  else if same : cols = width then
    .ok ⟨cache.currentLength + rows,
      Fin.append (fun i j => cache.keys i (Fin.cast same j)) newKeys,
      Fin.append (fun i j => cache.values i (Fin.cast same j)) newValues⟩
  else .error ("KVCache::append: new rows have width " ++ toString cols ++ ", the cache " ++
    toString width)

/-- A mask of the size that is needed, or the error. -/
def fitMask {K : Type} (tgt src : Nat) (message : SizedMatrix K → String) :
    Option (SizedMatrix K) → Except String (Option (Mat tgt src K))
  | none => .ok none
  | some mask =>
    if fits : mask.rows = tgt ∧ mask.cols = src then .ok (some (mask.withSize fits.1 fits.2))
    else .error (message mask)

/-! ## The forward passes -/

section Forward

variable {K : Type} [Field K] [LinearOrder K] [Transcendental K] {tgt src heads dk : Nat}
  {ranks : Ranks}

/-- The attention weights of a head; masked scores are filled before the softmax. -/
def filledHeadWeights (mask : Option (Mat tgt src K)) (q : Mat tgt dk K) (k : Mat src dk K) :
    Mat tgt src K :=
  fun i => softmaxRow (fun _ => true) fun j =>
    if allowedKeys mask i j then Mat.mul q k.transpose i j * scaleFactor K dk else -((10 ^ 9 : Nat) : K)

namespace Attention

/-- From the queries, keys and values to the output. -/
def output (attention : Attention K heads dk ranks) (mask : Option (Mat tgt src K))
    (Q : Mat tgt (heads * dk) K) (K' V : Mat src (heads * dk) K) : SizedMatrix K where
  rows := tgt
  cols := heads * dk
  data := attention.o.forward (concatHeads fun h =>
    Mat.mul (filledHeadWeights mask (splitHeads Q h) (splitHeads K' h)) (splitHeads V h))

def inputError (heads dk : Nat) (input : SizedMatrix K) : String :=
  "Input dimension (" ++ toString input.cols ++ ") must match d_model (" ++
    toString (heads * dk) ++ ")"

/-- `MultiHeadAttention::forward`. -/
def forward (attention : Attention K heads dk ranks) (mask : Option (SizedMatrix K))
    (input : SizedMatrix K) : Except String (SizedMatrix K) :=
  if fits : input.cols = heads * dk then do
    let x := input.withSize rfl fits
    let mask ← fitMask input.rows input.rows
      (fun _ => "Mask dimensions must match sequence length") mask
    return attention.output mask (attention.q.forward x) (attention.k.forward x)
      (attention.v.forward x)
  else .error (inputError heads dk input)

def cachedMaskError (tgt src : Nat) (mask : SizedMatrix K) : String :=
  "Mask dimensions (" ++ toString mask.rows ++ ", " ++ toString mask.cols ++
    ") must match [num_new_tokens=" ++ toString tgt ++ ", total_seq_len=" ++ toString src ++ "]"

/-- `MultiHeadAttention::forward_with_cache`, with the cache that it leaves behind. -/
def forwardWithCache (attention : Attention K heads dk ranks) (mask : Option (SizedMatrix K))
    (input : SizedMatrix K) (useCache : Bool) :
    Option (Sigma (KVCache K)) → Except String (SizedMatrix K) × Option (Sigma (KVCache K))
  | none => (attention.forward mask input, none)
  | some cache =>
    if useCache then
      if fits : input.cols = heads * dk then
        let x := input.withSize rfl fits
        let Q := attention.q.forward x
        match cache.2.append (attention.k.forward x) (attention.v.forward x) with
        | .error message => (.error message, some cache)
        | .ok full =>
          let result := do
            let mask ← fitMask input.rows full.currentLength
              (cachedMaskError input.rows full.currentLength) mask
            return attention.output mask Q full.keys full.values
          (result, some ⟨_, full⟩)
      else (.error (inputError heads dk input), some cache)
    else (attention.forward mask input, some cache)

/-- `MultiHeadAttention::merge_lora`. -/
def mergeLora (attention : Attention K heads dk ranks) :
    Attention K heads dk ⟨none, none, none, none⟩ where
  q := attention.q.merge
  k := attention.k.merge
  v := attention.v.merge
  o := attention.o.merge

theorem output_mergeLora (attention : Attention K heads dk ranks) (mask : Option (Mat tgt src K))
    (Q : Mat tgt (heads * dk) K) (K' V : Mat src (heads * dk) K) :
    attention.mergeLora.output mask Q K' V = attention.output mask Q K' V :=
  congrArg (SizedMatrix.mk tgt (heads * dk)) (attention.o.forward_merge _)

theorem forward_mergeLora (attention : Attention K heads dk ranks) (mask : Option (SizedMatrix K))
    (input : SizedMatrix K) :
    attention.mergeLora.forward mask input = attention.forward mask input := by
  simp only [forward, output_mergeLora]
  simp only [mergeLora, Projection.forward_merge]

end Attention

/-- Merging the adapters changes neither what a forward pass returns, nor what one with a
cache returns and leaves in the cache. -/
theorem merge_lora_keeps_output (attention : Attention K heads dk ranks)
    (mask : Option (SizedMatrix K)) (input : SizedMatrix K) :
    attention.mergeLora.forward mask input = attention.forward mask input ∧
      ∀ useCache cache, attention.mergeLora.forwardWithCache mask input useCache cache =
        attention.forwardWithCache mask input useCache cache := by
  refine ⟨attention.forward_mergeLora mask input, fun useCache cache => ?_⟩
  cases cache with
  | none => exact congrArg (·, none) (attention.forward_mergeLora mask input)
  | some cache =>
      simp only [Attention.forwardWithCache, Attention.forward_mergeLora,
        Attention.output_mergeLora]
      simp only [Attention.mergeLora, Projection.forward_merge]

end Forward

end Adai.Transformer

end
