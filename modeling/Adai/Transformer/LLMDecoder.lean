import Adai.Transformer.DecoderBlock

/-! # The decoder

`LLMDecoder`: token embeddings with their positions, the decoder blocks and a final norm.
`forward_with_encoder` decodes a whole sequence under a causal mask; `forward_with_cache`
decodes the next tokens of one, whose earlier keys and values are in the caches.
-/

noncomputable section

namespace Adai.Transformer

open Gradients

/-! ## Embeddings -/

structure TokenEmbedding (K : Type) (vocabSize dModel : Nat) where
  embeddingMatrix : Mat vocabSize dModel K
  embeddingGrad : Mat vocabSize dModel K

theorem row_lt {vocabSize : Nat} {tokenId : Int} (inside : 0 ≤ tokenId ∧ tokenId < vocabSize) :
    tokenId.toNat < vocabSize := by
  omega

/-- The row of a token. -/
def tokenRow (vocabSize : Nat) (tokenId : Int) : Except String (Fin vocabSize) :=
  if inside : 0 ≤ tokenId ∧ tokenId < vocabSize then .ok ⟨tokenId.toNat, row_lt inside⟩
  else .error ("Token ID " ++ toString tokenId ++ " out of range [0, " ++ toString vocabSize ++ ")")

namespace TokenEmbedding

variable {K : Type} {vocabSize dModel : Nat}

def lookup (embedding : TokenEmbedding K vocabSize dModel) (indices : List (Fin vocabSize)) :
    Mat indices.length dModel K :=
  fun i => embedding.embeddingMatrix (indices.get i)

def forward (embedding : TokenEmbedding K vocabSize dModel) (tokenIds : List Int) :
    Except String (Encoding K dModel) := do
  let indices ← tokenIds.mapM (tokenRow vocabSize)
  return ⟨indices.length, embedding.lookup indices⟩

/-- Each row of the gradient is added to that of its token. -/
def backward [Field K] (embedding : TokenEmbedding K vocabSize dModel)
    (tokenIds : List (Fin vocabSize)) (gradOutput : Mat tokenIds.length dModel K) :
    TokenEmbedding K vocabSize dModel :=
  { embedding with
    embeddingGrad := fun tokenId j => embedding.embeddingGrad tokenId j +
      ∑ i, if tokenIds.get i = tokenId then gradOutput i j else 0 }

end TokenEmbedding

variable {K : Type} [Field K]

/-- Adds the rows of the table from a position on; the rows beyond the table are as they were.
`PositionalEncoding::forward` adds them from the first position on. -/
def Encoding.addPositions {rows dModel : Nat} (table : Encoding K dModel) (position : Nat)
    (input : Mat rows dModel K) : Mat rows dModel K :=
  fun i j => if inside : position + i.val < table.rows then
    input i j + table.data ⟨position + i.val, inside⟩ j else input i j

/-! ## The stack of blocks -/

variable [LinearOrder K] [Transcendental K] {vocabSize heads dk dFf : Nat}

/-- A query attends to the rows up to its own. -/
def causalMask (seqLength : Nat) : Mat seqLength seqLength K :=
  fun i j => if j.val ≤ i.val then 1 else 0

/-- The queries of the new rows. -/
def cachedMask (currentPosition numNewTokens : Nat) : SizedMatrix K where
  rows := numNewTokens
  cols := currentPosition + numNewTokens
  data := fun i j => if j.val ≤ currentPosition + i.val then 1 else 0

section Stack

variable {rows src : Nat}

/-- One block after the other. -/
def forwardBlocks (inputs : GatedInputs K (heads * dk)) (encoderOutput : Mat src (heads * dk) K)
    (selfAttnMask : Mat rows rows K) : {layers : Nat} → {shape : Fin layers → BlockShape} →
    (∀ l, DecoderBlock K heads dk dFf (shape l)) → Mat rows (heads * dk) K →
    (Fin layers → DecoderBlock.Cache K rows src heads dk dFf) × Mat rows (heads * dk) K
  | 0, _, _, x => (fun l => l.elim0, x)
  | _ + 1, _, blocks, x =>
    let first := (blocks 0).forward inputs encoderOutput selfAttnMask x
    let rest := forwardBlocks inputs encoderOutput selfAttnMask (fun l => blocks l.succ) first.2
    (Fin.cons first.1 rest.1, rest.2)

theorem forwardBlocks_succ (inputs : GatedInputs K (heads * dk))
    (encoderOutput : Mat src (heads * dk) K) (selfAttnMask : Mat rows rows K) {layers : Nat}
    {shape : Fin (layers + 1) → BlockShape} (blocks : ∀ l, DecoderBlock K heads dk dFf (shape l))
    (x : Mat rows (heads * dk) K) :
    forwardBlocks inputs encoderOutput selfAttnMask blocks x =
      let first := (blocks 0).forward inputs encoderOutput selfAttnMask x
      let rest := forwardBlocks inputs encoderOutput selfAttnMask (fun l => blocks l.succ) first.2
      (Fin.cons first.1 rest.1, rest.2) := rfl

/-- The first gradient is taken as it is, and the others are added to it. -/
def accumulate (sum : Option (Mat src (heads * dk) K)) (grad : Mat src (heads * dk) K) :
    Mat src (heads * dk) K :=
  match sum with
  | none => grad
  | some sum => sum + grad

/-- The blocks in reverse order. Each adds to the gradient of the encoder's output, which is not
set without a block. -/
def backwardBlocks : {layers : Nat} → {shape : Fin layers → BlockShape} →
    (∀ l, DecoderBlock K heads dk dFf (shape l)) →
    (Fin layers → DecoderBlock.Cache K rows src heads dk dFf) → Mat rows (heads * dk) K →
    (∀ l, DecoderBlock K heads dk dFf (shape l)) × Mat rows (heads * dk) K ×
      Option (Mat src (heads * dk) K)
  | 0, _, blocks, _, grad => (blocks, grad, none)
  | _ + 1, _, blocks, caches, grad =>
    let rest := backwardBlocks (fun l => blocks l.succ) (fun l => caches l.succ) grad
    let first := (blocks 0).backward (caches 0) rest.2.1
    (Fin.cons first.1 rest.1, first.2.1, some (accumulate rest.2.2 first.2.2))

def forwardBlocksWithCache (inputs : GatedInputs K (heads * dk))
    (encoderOutput : Mat src (heads * dk) K) (selfAttnMask : SizedMatrix K) :
    {layers : Nat} → {shape : Fin layers → BlockShape} →
    (∀ l, DecoderBlock K heads dk dFf (shape l)) → (Fin layers → LayerCache K (heads * dk)) →
    Mat rows (heads * dk) K →
    Except String ((Fin layers → LayerCache K (heads * dk)) × Mat rows (heads * dk) K)
  | 0, _, _, caches, x => .ok (caches, x)
  | layers + 1, _, blocks, caches, x => do
    let top : Fin (layers + 1) := ⟨0, Nat.succ_pos layers⟩
    let first ← (blocks top).forwardWithCache inputs encoderOutput selfAttnMask (caches top) x
    let rest ← forwardBlocksWithCache inputs encoderOutput selfAttnMask (fun l => blocks l.succ)
      (fun l => caches l.succ) first.2
    return (Fin.cons first.1 rest.1, rest.2)

theorem forwardBlocksWithCache_succ (inputs : GatedInputs K (heads * dk))
    (encoderOutput : Mat src (heads * dk) K) (selfAttnMask : SizedMatrix K) {layers : Nat}
    {shape : Fin (layers + 1) → BlockShape} (blocks : ∀ l, DecoderBlock K heads dk dFf (shape l))
    (caches : Fin (layers + 1) → LayerCache K (heads * dk)) (x : Mat rows (heads * dk) K) :
    forwardBlocksWithCache inputs encoderOutput selfAttnMask blocks caches x = do
      let first ← (blocks 0).forwardWithCache inputs encoderOutput selfAttnMask (caches 0) x
      let rest ← forwardBlocksWithCache inputs encoderOutput selfAttnMask (fun l => blocks l.succ)
        (fun l => caches l.succ) first.2
      return (Fin.cons first.1 rest.1, rest.2) := rfl

end Stack

/-! ## The decoder -/

structure LLMDecoder (K : Type) (vocabSize heads dk dFf : Nat) {layers : Nat}
    (shape : Fin layers → BlockShape) where
  tokenEmbedding : TokenEmbedding K vocabSize (heads * dk)
  positionalEncoding : Encoding K (heads * dk)
  decoderBlocks : ∀ l, DecoderBlock K heads dk dFf (shape l)
  finalNorm : LayerNorm K (heads * dk)

/-- The caches of all layers. -/
abbrev DecoderKVCache (K : Type) (layers dModel : Nat) := Fin layers → LayerCache K dModel

namespace DecoderKVCache

variable {dModel : Nat}

def fresh (K : Type) (layers dModel : Nat) : DecoderKVCache K layers dModel :=
  fun _ => ⟨⟨0, Fin.elim0, Fin.elim0⟩, ⟨0, Fin.elim0, Fin.elim0⟩⟩

/-- The number of rows in the first layer's cache. -/
def currentLength {K : Type} : {layers : Nat} → DecoderKVCache K layers dModel → Nat
  | 0, _ => 0
  | layers + 1, caches => (caches ⟨0, Nat.succ_pos layers⟩).selfAttention.currentLength

end DecoderKVCache

namespace LLMDecoder

variable {layers : Nat} {shape : Fin layers → BlockShape}

/-- What stands in for the output of an encoder where there is none. -/
def emptyEncoder : Encoding K (heads * dk) := ⟨1, 0⟩

/-- What a forward pass leaves behind. -/
structure Cache (K : Type) (rows src heads dk dFf layers : Nat) where
  blocks : Fin layers → DecoderBlock.Cache K rows src heads dk dFf
  finalNorm : LayerNorm.Cache K rows (heads * dk)

/-- From the embeddings on. -/
def decode {rows src : Nat} (decoder : LLMDecoder K vocabSize heads dk dFf shape)
    (inputs : GatedInputs K (heads * dk)) (encoderOutput : Mat src (heads * dk) K)
    (embeddings : Mat rows (heads * dk) K) :
    Cache K rows src heads dk dFf layers × Mat rows (heads * dk) K :=
  let posEncoded := decoder.positionalEncoding.addPositions 0 embeddings
  let decoded := forwardBlocks inputs encoderOutput (causalMask rows) decoder.decoderBlocks posEncoded
  let normed := decoder.finalNorm.forward decoded.2
  (⟨decoded.1, normed.1⟩, normed.2)

/-- The encoder's output that `forward_with_encoder` uses. -/
def usedEncoder (encoderOutput : Encoding K (heads * dk)) : Encoding K (heads * dk) :=
  if 0 < encoderOutput.rows ∧ 0 < heads * dk then encoderOutput else emptyEncoder

def forwardWithEncoder (decoder : LLMDecoder K vocabSize heads dk dFf shape)
    (inputs : GatedInputs K (heads * dk)) (encoderOutput : Encoding K (heads * dk))
    (tokenIds : List Int) : Except String (Encoding K (heads * dk)) := do
  let embeddings ← decoder.tokenEmbedding.forward tokenIds
  let encoder := usedEncoder encoderOutput
  return ⟨embeddings.rows, (decoder.decode inputs encoder.data embeddings.data).2⟩

/-- The gradient of the encoder's output, where it is set. -/
def backward (requiresGrad : Bool) (decoder : LLMDecoder K vocabSize heads dk dFf shape)
    (tokenIds : List (Fin vocabSize)) (cache : Cache K tokenIds.length src heads dk dFf layers)
    (gradOutput : Mat tokenIds.length (heads * dk) K) :
    LLMDecoder K vocabSize heads dk dFf shape × Option (Mat src (heads * dk) K) :=
  if requiresGrad then
    let norm := decoder.finalNorm.backward cache.finalNorm gradOutput
    let blocks := backwardBlocks decoder.decoderBlocks cache.blocks norm.2
    let embedding := decoder.tokenEmbedding.backward tokenIds blocks.2.1
    ({ decoder with
        tokenEmbedding := embedding
        decoderBlocks := blocks.1
        finalNorm := norm.1 },
      blocks.2.2)
  else (decoder, none)

/-- The encoder's output that `forward_with_cache` uses. -/
def usedEncoderCached : Option (Encoding K (heads * dk)) → Encoding K (heads * dk)
  | some encoderOutput => if 0 < encoderOutput.rows then encoderOutput else emptyEncoder
  | none => emptyEncoder

/-- From the embeddings of the new tokens on. -/
def decodeWithCache {rows src : Nat} (decoder : LLMDecoder K vocabSize heads dk dFf shape)
    (inputs : GatedInputs K (heads * dk)) (encoderOutput : Mat src (heads * dk) K)
    (kvCache : DecoderKVCache K layers (heads * dk)) (embeddings : Mat rows (heads * dk) K) :
    Except String (DecoderKVCache K layers (heads * dk) × Mat rows (heads * dk) K) := do
  let currentPosition := kvCache.currentLength
  let posEncoded := decoder.positionalEncoding.addPositions currentPosition embeddings
  let decoded ← forwardBlocksWithCache inputs encoderOutput (cachedMask currentPosition rows)
    decoder.decoderBlocks kvCache posEncoded
  return (decoded.1, (decoder.finalNorm.forward decoded.2).2)

def forwardWithCache (decoder : LLMDecoder K vocabSize heads dk dFf shape)
    (inputs : GatedInputs K (heads * dk)) (encoderOutput : Option (Encoding K (heads * dk)))
    (kvCache : DecoderKVCache K layers (heads * dk)) (tokenIds : List Int) :
    Except String (DecoderKVCache K layers (heads * dk) × Encoding K (heads * dk)) := do
  let embeddings ← decoder.tokenEmbedding.forward tokenIds
  let encoder := usedEncoderCached encoderOutput
  let decoded ← decoder.decodeWithCache inputs encoder.data kvCache embeddings.data
  return (decoded.1, ⟨embeddings.rows, decoded.2⟩)

end LLMDecoder

end Adai.Transformer

end
