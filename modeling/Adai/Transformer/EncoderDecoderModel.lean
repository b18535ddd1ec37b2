import Adai.Transformer.EncoderBlock
import Adai.Transformer.LLMDecoder

/-! # The encoder-decoder model

`EncoderDecoderModel`: the encoder's output for the end of the input, the decoder over a
target behind BOS, and the projection to the vocabulary. `forward` shifts the target by one
row, for training; `next_token_logits` takes the tokens decoded so far and projects the last
rows only.
-/

noncomputable section

namespace Adai.Transformer

open Gradients

/-! ## The encoder -/

structure LLMEncoder (K : Type) (vocabSize heads dk dFf : Nat) {layers : Nat}
    (ranks : Fin layers → Ranks) where
  maxSeqLength : Int
  tokenEmbedding : TokenEmbedding K vocabSize (heads * dk)
  positionalEncoding : Encoding K (heads * dk)
  encoderBlocks : ∀ l, EncoderBlock K (Attention K heads dk (ranks l)) (heads * dk) dFf
  finalNorm : LayerNorm K (heads * dk)

variable {K : Type} [Field K] [LinearOrder K] [Transcendental K] {vocabSize heads dk dFf : Nat}

/-- What a forward pass leaves behind in a block. -/
abbrev EncoderCache (K : Type) (rows heads dk dFf : Nat) :=
  EncoderBlock.Cache K (Attention.Cache K rows rows heads dk) rows (heads * dk) dFf

/-- One block after the other. -/
def encodeBlocks {rows : Nat} (mask : Mat rows rows K) : {layers : Nat} →
    {ranks : Fin layers → Ranks} →
    (∀ l, EncoderBlock K (Attention K heads dk (ranks l)) (heads * dk) dFf) →
    Mat rows (heads * dk) K → (Fin layers → EncoderCache K rows heads dk dFf) ×
      Mat rows (heads * dk) K
  | 0, _, _, x => (fun l => l.elim0, x)
  | _ + 1, _, blocks, x =>
    let first := (blocks 0).forward (Attention.selfLayer (some mask)) x
    let rest := encodeBlocks mask (fun l => blocks l.succ) first.2
    (Fin.cons first.1 rest.1, rest.2)

theorem encodeBlocks_succ {rows : Nat} (mask : Mat rows rows K) {layers : Nat}
    {ranks : Fin (layers + 1) → Ranks}
    (blocks : ∀ l, EncoderBlock K (Attention K heads dk (ranks l)) (heads * dk) dFf)
    (x : Mat rows (heads * dk) K) :
    encodeBlocks mask blocks x =
      let first := (blocks 0).forward (Attention.selfLayer (some mask)) x
      let rest := encodeBlocks mask (fun l => blocks l.succ) first.2
      (Fin.cons first.1 rest.1, rest.2) := rfl

/-- The blocks in reverse order. -/
def backwardEncoderBlocks (mask : Mat rows rows K) : {layers : Nat} → {ranks : Fin layers → Ranks} →
    (∀ l, EncoderBlock K (Attention K heads dk (ranks l)) (heads * dk) dFf) →
    (Fin layers → EncoderCache K rows heads dk dFf) → Mat rows (heads * dk) K →
    (∀ l, EncoderBlock K (Attention K heads dk (ranks l)) (heads * dk) dFf) ×
      Mat rows (heads * dk) K
  | 0, _, blocks, _, grad => (blocks, grad)
  | _ + 1, _, blocks, caches, grad =>
    let rest := backwardEncoderBlocks mask (fun l => blocks l.succ) (fun l => caches l.succ) grad
    let first := (blocks 0).backward (Attention.selfLayer (some mask)) (caches 0) rest.2
    (Fin.cons first.1 rest.1, first.2)

/-- Positions beyond the table have no encoding, so they are refused. -/
def checkEncoderLength (n : Nat) (maxSeqLength : Int) (location : String) : Except String Unit :=
  if 0 < maxSeqLength ∧ maxSeqLength < n then
    .error (location ++ ": " ++ toString n ++ " tokens exceed max_seq_length " ++
      toString maxSeqLength ++ " (truncate with keep_last_positions())")
  else .ok ()

namespace LLMEncoder

variable {layers : Nat} {ranks : Fin layers → Ranks}

def keepLastPositions (encoder : LLMEncoder K vocabSize heads dk dFf ranks) (tokenIds : List Int) :
    List Int :=
  let limit := (max 0 encoder.maxSeqLength).toNat
  if limit < tokenIds.length then tokenIds.drop (tokenIds.length - limit) else tokenIds

/-- What a forward pass leaves behind. -/
structure Cache (K : Type) (rows heads dk dFf layers : Nat) where
  blocks : Fin layers → EncoderCache K rows heads dk dFf
  finalNorm : LayerNorm.Cache K rows (heads * dk)

/-- From the embeddings on. -/
def encode {rows : Nat} (encoder : LLMEncoder K vocabSize heads dk dFf ranks)
    (attentionMask : Mat rows rows K) (embeddings : Mat rows (heads * dk) K) :
    Cache K rows heads dk dFf layers × Mat rows (heads * dk) K :=
  let posEncoded := encoder.positionalEncoding.addPositions 0 embeddings
  let encoded := encodeBlocks attentionMask encoder.encoderBlocks posEncoded
  let normed := encoder.finalNorm.forward encoded.2
  (⟨encoded.1, normed.1⟩, normed.2)

def encodeWithMask (encoder : LLMEncoder K vocabSize heads dk dFf ranks) (tokenIds : List Int)
    (attentionMask : ∀ rows, Mat rows rows K) : Except String (Encoding K (heads * dk)) := do
  checkEncoderLength tokenIds.length encoder.maxSeqLength "LLMEncoder::encode_with_mask"
  let embeddings ← encoder.tokenEmbedding.forward tokenIds
  return ⟨embeddings.rows, (encoder.encode (attentionMask embeddings.rows) embeddings.data).2⟩

/-- The rows that the training forward pass lets attend to each other: all. -/
def fullMask (rows : Nat) : Mat rows rows K := fun _ _ => 1

/-- From a gradient with the shape of the encoder's output on. -/
def backwardRows (encoder : LLMEncoder K vocabSize heads dk dFf ranks)
    (tokenIds : List (Fin vocabSize)) (cache : Cache K tokenIds.length heads dk dFf layers)
    (gradOutput : Mat tokenIds.length (heads * dk) K) :
    LLMEncoder K vocabSize heads dk dFf ranks :=
  let norm := encoder.finalNorm.backward cache.finalNorm gradOutput
  let blocks := backwardEncoderBlocks (fullMask tokenIds.length) encoder.encoderBlocks cache.blocks
    norm.2
  { encoder with
    tokenEmbedding := encoder.tokenEmbedding.backward tokenIds blocks.2
    encoderBlocks := blocks.1
    finalNorm := norm.1 }

/-- What refuses a gradient of another shape: the norm where it reads behind its cache, the
feed-forward network of the last block, or the embedding. -/
def gradientError (layers rows dModel : Nat) (gradOutput : SizedMatrix K) : String :=
  if dModel < gradOutput.cols ∨ rows < gradOutput.rows ∧ 0 < gradOutput.cols then
    "Matrix index out of bounds"
  else if 0 < layers then "Gradient dimensions must match forward pass output dimensions"
  else if rows ≠ gradOutput.rows then "Token IDs length must match gradient output rows"
  else "Gradient output columns must match d_model"

def backward (requiresGrad : Bool) (encoder : LLMEncoder K vocabSize heads dk dFf ranks)
    (tokenIds : List (Fin vocabSize)) (cache : Cache K tokenIds.length heads dk dFf layers)
    (gradOutput : SizedMatrix K) : Except String (LLMEncoder K vocabSize heads dk dFf ranks) :=
  if requiresGrad then
    if fits : gradOutput.rows = tokenIds.length ∧ gradOutput.cols = heads * dk then
      .ok (encoder.backwardRows tokenIds cache (gradOutput.withSize fits.1 fits.2))
    else .error (gradientError layers tokenIds.length (heads * dk) gradOutput)
  else .ok encoder

end LLMEncoder

/-! ## The language model head -/

structure LanguageModelHead (K : Type) (dModel vocabSize : Nat) where
  WOutput : Mat dModel vocabSize K
  bias : Fin vocabSize → K
  WOutputGrad : Mat dModel vocabSize K
  biasGrad : Fin vocabSize → K

def LanguageModelHead.forward {rows dModel : Nat} (head : LanguageModelHead K dModel vocabSize)
    (input : Mat rows dModel K) : Mat rows vocabSize K :=
  Mat.addRow (Mat.mul input head.WOutput) head.bias

def LanguageModelHead.backward {rows dModel : Nat}
    (head : LanguageModelHead K dModel vocabSize) (input : Mat rows dModel K)
    (gradOutput : Mat rows vocabSize K) :
    LanguageModelHead K dModel vocabSize × Mat rows dModel K :=
  ({ head with
      WOutputGrad := head.WOutputGrad + Mat.mul input.transpose gradOutput
      biasGrad := head.biasGrad + gradOutput.sumRows },
    Mat.mul gradOutput head.WOutput.transpose)

/-! ## The model -/

structure EncoderDecoderModel (K : Type) (vocabSize heads dk dFf : Nat)
    {encoderLayers decoderLayers : Nat} (ranks : Fin encoderLayers → Ranks)
    (shape : Fin decoderLayers → BlockShape) where
  encoder : LLMEncoder K vocabSize heads dk dFf ranks
  decoder : LLMDecoder K vocabSize heads dk dFf shape
  lmHead : LanguageModelHead K (heads * dk) vocabSize
  bosTokenId : Int
  /-- What the world model makes of the input, and the contents of the memory. -/
  gatedInputs : List Int → GatedInputs K (heads * dk)

/-- The flags of a model, of its encoder and of its decoder. -/
structure RequiresGrad where
  model : Bool
  encoder : Bool
  decoder : Bool

def RequiresGrad.setTraining (mode : Bool) : RequiresGrad := ⟨mode, mode, mode⟩

namespace Encoding

variable {K : Type} {dModel : Nat}

/-- The last rows, as many as there are up to the given number. -/
def lastRows (encoding : Encoding K dModel) (count : Nat) : Encoding K dModel where
  rows := min count encoding.rows
  data := fun r => encoding.data ⟨encoding.rows - min count encoding.rows + r.val, by omega⟩

/-- `last_row`, which is zero where there is no row. -/
def lastRow [Zero K] (encoding : Encoding K dModel) : Encoding K dModel where
  rows := 1
  data := fun _ => if some : 0 < encoding.rows then encoding.data ⟨encoding.rows - 1, by omega⟩
    else 0

end Encoding

namespace EncoderDecoderModel

variable {encoderLayers decoderLayers : Nat} {ranks : Fin encoderLayers → Ranks}
  {shape : Fin decoderLayers → BlockShape}

/-- BOS and all but the last target. -/
def makeDecoderInput (model : EncoderDecoderModel K vocabSize heads dk dFf ranks shape)
    (targetTokens : List Int) : List Int :=
  model.bosTokenId :: targetTokens.dropLast

def runDecoder (model : EncoderDecoderModel K vocabSize heads dk dFf ranks shape)
    (inputTokens decoderInput : List Int) : Except String (Encoding K (heads * dk)) := do
  let encoderOutput ← model.encoder.encodeWithMask inputTokens fun _ _ _ => 1
  model.decoder.forwardWithEncoder (model.gatedInputs inputTokens) encoderOutput decoderInput

/-- The projection of every row. -/
def project (model : EncoderDecoderModel K vocabSize heads dk dFf ranks shape)
    (decoderOutput : Encoding K (heads * dk)) : Encoding K vocabSize :=
  ⟨decoderOutput.rows, model.lmHead.forward decoderOutput.data⟩

def forward (model : EncoderDecoderModel K vocabSize heads dk dFf ranks shape)
    (rawInputTokens targetTokens : List Int) : Except String (Encoding K vocabSize) := do
  let inputTokens := model.encoder.keepLastPositions rawInputTokens
  let decoderOutput ← model.runDecoder inputTokens (model.makeDecoderInput targetTokens)
  return model.project decoderOutput

/-- What a forward pass leaves behind: the tokens, and the caches of the parts. -/
structure Cache (K : Type) (vocabSize heads dk dFf encoderLayers decoderLayers : Nat) where
  inputIds : List (Fin vocabSize)
  targetIds : List (Fin vocabSize)
  encoder : LLMEncoder.Cache K inputIds.length heads dk dFf encoderLayers
  src : Nat
  decoder : LLMDecoder.Cache K targetIds.length src heads dk dFf decoderLayers
  decoderOutput : Mat targetIds.length (heads * dk) K

/-- The decoder over the output of an encoder. -/
def decoded (model : EncoderDecoderModel K vocabSize heads dk dFf ranks shape)
    (inputs : GatedInputs K (heads * dk)) (inputIds targetIds : List (Fin vocabSize))
    (encoder : LLMEncoder.Cache K inputIds.length heads dk dFf encoderLayers)
    (encoderOutput : Encoding K (heads * dk)) :
    Cache K vocabSize heads dk dFf encoderLayers decoderLayers :=
  let after := model.decoder.decode inputs encoderOutput.data
    (model.decoder.tokenEmbedding.lookup targetIds)
  ⟨inputIds, targetIds, encoder, encoderOutput.rows, after.1, after.2⟩

/-- What the forward pass leaves behind for given tokens. -/
def activations (model : EncoderDecoderModel K vocabSize heads dk dFf ranks shape)
    (inputs : GatedInputs K (heads * dk)) (inputIds targetIds : List (Fin vocabSize)) :
    Cache K vocabSize heads dk dFf encoderLayers decoderLayers :=
  let encoded := model.encoder.encode (LLMEncoder.fullMask inputIds.length)
    (model.encoder.tokenEmbedding.lookup inputIds)
  model.decoded inputs inputIds targetIds encoded.1
    (LLMDecoder.usedEncoder ⟨inputIds.length, encoded.2⟩)

/-- The forward pass of training, with what it leaves behind. -/
def forwardCached (model : EncoderDecoderModel K vocabSize heads dk dFf ranks shape)
    (rawInputTokens targetTokens : List Int) :
    Except String (Cache K vocabSize heads dk dFf encoderLayers decoderLayers) := do
  let inputTokens := model.encoder.keepLastPositions rawInputTokens
  checkEncoderLength inputTokens.length model.encoder.maxSeqLength "LLMEncoder::encode_with_mask"
  let inputIds ← inputTokens.mapM (tokenRow vocabSize)
  let targetIds ← (model.makeDecoderInput targetTokens).mapM (tokenRow vocabSize)
  return model.activations (model.gatedInputs inputTokens) inputIds targetIds

/-- The logits. -/
def logits (model : EncoderDecoderModel K vocabSize heads dk dFf ranks shape)
    (cache : Cache K vocabSize heads dk dFf encoderLayers decoderLayers) : Encoding K vocabSize :=
  ⟨cache.targetIds.length, model.lmHead.forward cache.decoderOutput⟩

/-- The gradient that reaches the encoder: an empty matrix where no block has set it. -/
def gradEncoderOutput {src dModel : Nat} : Option (Mat src dModel K) → SizedMatrix K
  | none => ⟨0, 0, Fin.elim0⟩
  | some grad => ⟨src, dModel, grad⟩

def backward (requiresGrad : RequiresGrad)
    (model : EncoderDecoderModel K vocabSize heads dk dFf ranks shape)
    (cache : Cache K vocabSize heads dk dFf encoderLayers decoderLayers)
    (gradOutput : Mat cache.targetIds.length vocabSize K) :
    Except String (EncoderDecoderModel K vocabSize heads dk dFf ranks shape) :=
  if requiresGrad.model then do
    let head := model.lmHead.backward cache.decoderOutput gradOutput
    let decoder := model.decoder.backward requiresGrad.decoder cache.targetIds cache.decoder head.2
    let encoder ← model.encoder.backward requiresGrad.encoder cache.inputIds cache.encoder
      (gradEncoderOutput decoder.2)
    return { model with encoder := encoder, decoder := decoder.1, lmHead := head.1 }
  else return model

/-- The decoded tokens, behind BOS where they do not start with it. -/
def generationInput (model : EncoderDecoderModel K vocabSize heads dk dFf ranks shape)
    (decoderTokens : List Int) : List Int :=
  if decoderTokens.head? = some model.bosTokenId then decoderTokens
  else model.bosTokenId :: decoderTokens

def nextTokenLogits (model : EncoderDecoderModel K vocabSize heads dk dFf ranks shape)
    (rawInputTokens decoderTokens : List Int) (lastRows : Int) :
    Except String (Encoding K vocabSize) := do
  let inputTokens := model.encoder.keepLastPositions rawInputTokens
  let decoderOut ← model.runDecoder inputTokens (model.generationInput decoderTokens)
  if lastRows ≤ 1 then return model.project decoderOut.lastRow
  else return model.project (decoderOut.lastRows lastRows.toNat)

end EncoderDecoderModel

end Adai.Transformer

end
