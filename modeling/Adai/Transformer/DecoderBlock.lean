import Adai.Transformer.SelectedRows

/-! # Decoder blocks

`DecoderBlock`: masked self-attention, cross-attention to the encoder's output, the gated
paths to a world model and to a hippocampal memory where the block has them, and a
feed-forward network, each behind a norm and beside a residual connection. With caches, a
block sees the new rows only, and takes the keys and values of the others from the caches.
-/

noncomputable section

namespace Adai.Transformer

open Backpropagation Gradients Adai.Transformer.Transcendental

/-! ## Gated paths -/

/-- Rows that a layer can attend to. -/
structure Encoding (K : Type) (dModel : Nat) where
  rows : Nat
  data : Mat rows dModel K

def Encoding.toRows {K : Type} {dModel : Nat} (encoding : Encoding K dModel) :
    List (Fin dModel → K) :=
  List.ofFn encoding.data

/-- What the forward pass reads of a hippocampal memory. -/
structure MemoryContents (K : Type) (dModel : Nat) where
  size : Nat
  keys : Mat size dModel K
  coverage : Fin size → K
  association : Mat size size K

/-- What is passed along with the decoder's input. -/
structure GatedInputs (K : Type) (dModel : Nat) where
  worldModelOutput : Option (Encoding K dModel)
  memory : Option (MemoryContents K dModel)
  repetitionAlpha : K
  crossReferenceAlpha : K

/-- What a gated path attends to, with a bias for each key. -/
structure GatedSource (K : Type) (dModel : Nat) where
  rows : Nat
  data : Mat rows dModel K
  bias : Option (Fin rows → K)

section Sources

variable {K : Type} [Field K] [DecidableEq K] [Transcendental K] {dModel : Nat}

/-- `hippocampal_score_bias`, which is the same for every query. -/
def hippocampalScoreBias (memory : MemoryContents K dModel)
    (repetitionAlpha crossReferenceAlpha : K) : Fin memory.size → K :=
  let signal := fun slot => ∑ other, if other ≠ slot then
    memory.association slot other * memory.coverage other else 0
  let crossRefBoost := fun slot =>
    if crossReferenceAlpha ≠ 0 then crossReferenceAlpha * tanh (signal slot) else 0
  fun slot => -repetitionAlpha * memory.coverage slot + crossRefBoost slot

def GatedInputs.worldModelSource (inputs : GatedInputs K dModel) :
    Option (GatedSource K dModel) :=
  inputs.worldModelOutput.map fun output => ⟨output.rows, output.data, none⟩

/-- The keys double as values. -/
def GatedInputs.hippocampalSource (inputs : GatedInputs K dModel) :
    Option (GatedSource K dModel) :=
  inputs.memory.bind fun memory =>
    if 0 < memory.size then
      some ⟨memory.size, memory.keys,
        some (hippocampalScoreBias memory inputs.repetitionAlpha inputs.crossReferenceAlpha)⟩
    else none

end Sources

/-- The cross-attention of a gated path, with its norm and its gate. -/
structure GatedPath (K : Type) (heads dk : Nat) (ranks : Ranks) where
  attention : Attention K heads dk ranks
  norm : LayerNorm K (heads * dk)
  gate : K
  gateGrad : K

/-- What a forward pass leaves behind in a gated path. -/
structure GatedPath.Cache (K : Type) (rows heads dk : Nat) where
  src : Nat
  norm : LayerNorm.Cache K rows (heads * dk)
  attention : Attention.Cache K rows src heads dk
  output : Mat rows (heads * dk) K

variable {K : Type} [Field K] [LinearOrder K] [Transcendental K] {rows heads dk : Nat}

namespace GatedPath

variable {ranks : Ranks}

def forward (path : GatedPath K heads dk ranks) (source : GatedSource K (heads * dk))
    (residual : Mat rows (heads * dk) K) : Cache K rows heads dk × Mat rows (heads * dk) K :=
  let normed := path.norm.forward residual
  let attended := Attention.attend (source.bias.map fun bias _ => bias) none path.attention
    normed.2 source.data
  (⟨source.rows, normed.1, attended.1, attended.2⟩,
    fun i j => residual i j + tanh path.gate * attended.2 i j)

def backward (path : GatedPath K heads dk ranks) (cache : Cache K rows heads dk)
    (gradOutput : Mat rows (heads * dk) K) :
    GatedPath K heads dk ranks × Mat rows (heads * dk) K :=
  let gateTanh := tanh path.gate
  let gradAttn : Mat rows (heads * dk) K := fun i j => gradOutput i j * gateTanh
  let gateDot := ∑ i, ∑ j, gradOutput i j * cache.output i j
  let attended := path.attention.backward cache.attention gradAttn
  let norm := path.norm.backward cache.norm attended.2.1
  (⟨attended.1, norm.1, path.gate, path.gateGrad + gateDot * (1 - gateTanh * gateTanh)⟩,
    gradOutput + norm.2)

/-- A path that the block may lack, and a source that may be absent. -/
def forwardOptional : {ranks : Option Ranks} → Slot (GatedPath K heads dk) ranks →
    Option (GatedSource K (heads * dk)) → Mat rows (heads * dk) K →
    Option (Cache K rows heads dk) × Mat rows (heads * dk) K
  | some ranks, path, some source, residual =>
    let after := forward path source residual
    (some after.1, after.2)
  | _, _, _, residual => (none, residual)

/-- A path is unwound where it was active. -/
def backwardOptional : {ranks : Option Ranks} → Slot (GatedPath K heads dk) ranks →
    Option (Cache K rows heads dk) → Mat rows (heads * dk) K →
    Slot (GatedPath K heads dk) ranks × Mat rows (heads * dk) K
  | some ranks, path, some cache, gradOutput => backward path cache gradOutput
  | _, path, _, gradOutput => (path, gradOutput)

theorem forwardOptional_rows {n : Nat} {ranks : Option Ranks}
    (path : Slot (GatedPath K heads dk) ranks) (source : Option (GatedSource K (heads * dk)))
    (residual : Mat n (heads * dk) K) (r : Fin rows → Fin n) :
    (forwardOptional path source (residual ∘ r)).2 = (forwardOptional path source residual).2 ∘ r := by
  rcases ranks with _ | ranks
  · rfl
  · rcases source with _ | source
    · rfl
    · let path : GatedPath K heads dk ranks := path
      have attended := path.attention.attend_rows source.bias (path.norm.forward residual).2 source.data r
      rw [← LayerNorm.forward_rows] at attended
      funext i j
      exact congrArg (residual (r i) j + tanh path.gate * ·) (congrFun (congrFun attended i) j)

end GatedPath

/-! ## Blocks -/

/-- The adapters in a block, and those in the gated paths that it has. -/
structure BlockShape where
  selfAttention : Ranks
  crossAttention : Ranks
  worldModel : Option Ranks
  hippocampal : Option Ranks

structure DecoderBlock (K : Type) (heads dk dFf : Nat) (shape : BlockShape) where
  selfAttention : Attention K heads dk shape.selfAttention
  crossAttention : Attention K heads dk shape.crossAttention
  feedForward : FeedForward K (heads * dk) dFf
  norm1 : LayerNorm K (heads * dk)
  norm2 : LayerNorm K (heads * dk)
  norm3 : LayerNorm K (heads * dk)
  worldModel : Slot (GatedPath K heads dk) shape.worldModel
  hippocampal : Slot (GatedPath K heads dk) shape.hippocampal

/-- The caches of the self-attention and of the cross-attention of a layer. -/
structure LayerCache (K : Type) (dModel : Nat) where
  selfAttention : KVCache K dModel
  crossAttention : KVCache K dModel

/-- `KVCache::append` of rows of the cache's width. -/
def KVCache.appendRows {K : Type} {rows width : Nat} (cache : KVCache K width)
    (newKeys newValues : Mat rows width K) : KVCache K width :=
  if cache.currentLength = 0 then ⟨rows, newKeys, newValues⟩
  else ⟨cache.currentLength + rows, Fin.append cache.keys newKeys,
    Fin.append cache.values newValues⟩

theorem KVCache.append_eq {K : Type} {rows width : Nat} (cache : KVCache K width)
    (newKeys newValues : Mat rows width K) :
    cache.append newKeys newValues = .ok (cache.appendRows newKeys newValues) := by
  unfold append appendRows
  split
  · rfl
  · exact dif_pos rfl

namespace Attention

variable {tgt src : Nat} {ranks : Ranks}

/-- `MultiHeadAttention::forward_with_cache`, which appends the keys and values of the rows to
the cache. -/
def attendCached (mask : SizedMatrix K) (attention : Attention K heads dk ranks)
    (cache : KVCache K (heads * dk)) (input : Mat rows (heads * dk) K) :
    Except String (KVCache K (heads * dk) × Mat rows (heads * dk) K) := do
  let Q := attention.q.forward input
  let full := cache.appendRows (attention.k.forward input) (attention.v.forward input)
  let mask ← fitMask rows full.currentLength (cachedMaskError rows full.currentLength) (some mask)
  return (full, outputOf none mask attention Q full.keys full.values)

/-- `CrossAttention::forward_with_cache`, which fills the cache once. -/
def attendConstant (attention : Attention K heads dk ranks) (cache : KVCache K (heads * dk))
    (query : Mat tgt (heads * dk) K) (kv : Mat src (heads * dk) K) :
    KVCache K (heads * dk) × Mat tgt (heads * dk) K :=
  let Q := attention.q.forward query
  let full := if cache.currentLength = 0 then
      cache.appendRows (attention.k.forward kv) (attention.v.forward kv)
    else cache
  (full, outputOf none none attention Q full.keys full.values)

end Attention

namespace DecoderBlock

variable {src dFf : Nat} {shape : BlockShape}

/-- What a forward pass leaves behind behind the cross-attention. -/
structure FinishCache (K : Type) (rows heads dk dFf : Nat) where
  worldModel : Option (GatedPath.Cache K rows heads dk)
  hippocampal : Option (GatedPath.Cache K rows heads dk)
  norm3 : LayerNorm.Cache K rows (heads * dk)
  feedForward : FeedForward.Cache K rows (heads * dk) dFf

/-- What a forward pass leaves behind in the parts of a block. -/
structure Cache (K : Type) (rows src heads dk dFf : Nat) where
  norm1 : LayerNorm.Cache K rows (heads * dk)
  selfAttention : Attention.Cache K rows rows heads dk
  norm2 : LayerNorm.Cache K rows (heads * dk)
  crossAttention : Attention.Cache K rows src heads dk
  finish : FinishCache K rows heads dk dFf

/-- The gated paths and the feed-forward network. -/
def finish (block : DecoderBlock K heads dk dFf shape) (inputs : GatedInputs K (heads * dk))
    (residual2 : Mat rows (heads * dk) K) :
    FinishCache K rows heads dk dFf × Mat rows (heads * dk) K :=
  let world := GatedPath.forwardOptional block.worldModel inputs.worldModelSource residual2
  let hippocampal :=
    GatedPath.forwardOptional block.hippocampal inputs.hippocampalSource world.2
  let normed3 := block.norm3.forward hippocampal.2
  let ffOut := block.feedForward.forward normed3.2
  (⟨world.1, hippocampal.1, normed3.1, ffOut.1⟩, hippocampal.2 + ffOut.2)

def forward (block : DecoderBlock K heads dk dFf shape) (inputs : GatedInputs K (heads * dk))
    (encoderOutput : Mat src (heads * dk) K) (selfAttnMask : Mat rows rows K)
    (input : Mat rows (heads * dk) K) :
    Cache K rows src heads dk dFf × Mat rows (heads * dk) K :=
  let normed1 := block.norm1.forward input
  let selfAttnOut := Attention.attendSelf (some selfAttnMask) block.selfAttention normed1.2
  let residual1 := input + selfAttnOut.2
  let normed2 := block.norm2.forward residual1
  let crossAttnOut := Attention.attend none none block.crossAttention normed2.2 encoderOutput
  let finished := block.finish inputs (residual1 + crossAttnOut.2)
  (⟨normed1.1, selfAttnOut.1, normed2.1, crossAttnOut.1, finished.1⟩, finished.2)

/-- From the output of the block back to the output of the cross-attention. -/
def finishBackward (block : DecoderBlock K heads dk dFf shape)
    (cache : FinishCache K rows heads dk dFf) (gradOutput : Mat rows (heads * dk) K) :
    DecoderBlock K heads dk dFf shape × Mat rows (heads * dk) K :=
  let feedForward := block.feedForward.backward cache.feedForward gradOutput
  let norm3 := block.norm3.backward cache.norm3 feedForward.2
  let gradResidual2 := gradOutput + norm3.2
  let hippocampal := GatedPath.backwardOptional block.hippocampal cache.hippocampal gradResidual2
  let world := GatedPath.backwardOptional block.worldModel cache.worldModel hippocampal.2
  ({ block with
      feedForward := feedForward.1
      norm3 := norm3.1
      worldModel := world.1
      hippocampal := hippocampal.1 },
    world.2)

/-- The gradients of the input and of the encoder's output. -/
def backward (block : DecoderBlock K heads dk dFf shape) (cache : Cache K rows src heads dk dFf)
    (gradOutput : Mat rows (heads * dk) K) :
    DecoderBlock K heads dk dFf shape × Mat rows (heads * dk) K × Mat src (heads * dk) K :=
  let finished := block.finishBackward cache.finish gradOutput
  let cross := block.crossAttention.backward cache.crossAttention finished.2
  let norm2 := block.norm2.backward cache.norm2 cross.2.1
  let gradResidual1 := finished.2 + norm2.2
  let attended := block.selfAttention.backwardSelf cache.selfAttention gradResidual1
  let norm1 := block.norm1.backward cache.norm1 attended.2
  ({ finished.1 with
      selfAttention := attended.1
      crossAttention := cross.1
      norm1 := norm1.1
      norm2 := norm2.1 },
    gradResidual1 + norm1.2, cross.2.2)

def forwardWithCache (block : DecoderBlock K heads dk dFf shape)
    (inputs : GatedInputs K (heads * dk)) (encoderOutput : Mat src (heads * dk) K)
    (selfAttnMask : SizedMatrix K) (cache : LayerCache K (heads * dk))
    (input : Mat rows (heads * dk) K) :
    Except String (LayerCache K (heads * dk) × Mat rows (heads * dk) K) := do
  let normed1 := block.norm1.forward input
  let selfAttnOut ← Attention.attendCached selfAttnMask block.selfAttention cache.selfAttention
    normed1.2
  let residual1 := input + selfAttnOut.2
  let normed2 := block.norm2.forward residual1
  let crossAttnOut := Attention.attendConstant block.crossAttention cache.crossAttention normed2.2
    encoderOutput
  return (⟨selfAttnOut.1, crossAttnOut.1⟩,
    (block.finish inputs (residual1 + crossAttnOut.2)).2)

/-! ## Blocks on some of the rows -/

theorem finish_rows {n : Nat} (block : DecoderBlock K heads dk dFf shape)
    (inputs : GatedInputs K (heads * dk)) (residual2 : Mat n (heads * dk) K)
    (r : Fin rows → Fin n) :
    (block.finish inputs (residual2 ∘ r)).2 = (block.finish inputs residual2).2 ∘ r := by
  simp only [finish, GatedPath.forwardOptional_rows, LayerNorm.forward_rows,
    FeedForward.forward_rows]
  rfl

end DecoderBlock

end Adai.Transformer

end
