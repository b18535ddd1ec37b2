import Adai.Transformer.DecoderGradient
import Adai.Transformer.TeacherForcing

/-! # Back-propagation through the model

The encoder, the decoder and the head as layers whose backward passes are exact, and the
model made of them. `model_backward_exact_iff` tells when a backward pass after a forward pass adds
the derivatives to the gradients: the decoder has to pass a gradient to the encoder, which it
does with at least one block, and the encoder has to have fed the decoder.
-/

noncomputable section

namespace Adai.Transformer

open Backpropagation Gradients Adai.Transformer.Transcendental

variable {K : Type} [Field K] [LinearOrder K] [Transcendental K] {rows src heads dk dFf : Nat}

/-! ## Embeddings -/

namespace TokenEmbedding

variable {vocabSize dModel : Nat}

/-- The rows of the tokens with their positions. -/
def positioned (table : Encoding K dModel) (tokenIds : List (Fin vocabSize))
    (embeddingMatrix : Mat vocabSize dModel K) : Mat tokenIds.length dModel K :=
  table.addPositions 0 fun i => embeddingMatrix (tokenIds.get i)

/-- A row of the matrix gets the gradients of all the places of its token. -/
theorem hasBackward_lookup (tokenIds : List (Fin vocabSize))
    (embeddingMatrix : Mat vocabSize dModel) :
    HasBackward (fun (a : Mat vocabSize dModel) i => a (tokenIds.get i))
      (fun g tokenId j => ∑ i, if tokenIds.get i = tokenId then g i j else 0) embeddingMatrix := by
  let linear : Mat vocabSize dModel →ₗ[ℝ] Mat tokenIds.length dModel :=
    { toFun := fun a i => a (tokenIds.get i)
      map_add' := fun _ _ => rfl
      map_smul' := fun _ _ => rfl }
  refine hasBackward_of_linear linear _ (fun g v => ?_) embeddingMatrix
  rw [dot_mat, dot_mat]
  change ∑ i, ∑ j, g i j * v (tokenIds.get i) j =
    ∑ t, ∑ j, (∑ i, if tokenIds.get i = t then g i j else 0) * v t j
  have place (i : Fin tokenIds.length) (j : Fin dModel) :
      g i j * v (tokenIds.get i) j = ∑ t, (if tokenIds.get i = t then g i j else 0) * v t j := by
    simp only [ite_mul, zero_mul, Finset.sum_ite_eq, Finset.mem_univ, if_true]
  simp only [place, Finset.sum_mul]
  calc ∑ i, ∑ j, ∑ t, (if tokenIds.get i = t then g i j else 0) * v t j
      _ = ∑ i, ∑ t, ∑ j, (if tokenIds.get i = t then g i j else 0) * v t j :=
        Finset.sum_congr rfl fun i _ => Finset.sum_comm
      _ = ∑ t, ∑ i, ∑ j, (if tokenIds.get i = t then g i j else 0) * v t j := Finset.sum_comm
      _ = ∑ t, ∑ j, ∑ i, (if tokenIds.get i = t then g i j else 0) * v t j :=
        Finset.sum_congr rfl fun t _ => Finset.sum_comm

theorem hasBackward_positioned (table : Encoding ℝ dModel) (tokenIds : List (Fin vocabSize))
    (embeddingMatrix : Mat vocabSize dModel) :
    HasBackward (positioned table tokenIds)
      (fun g tokenId j => ∑ i, if tokenIds.get i = tokenId then g i j else 0) embeddingMatrix := by
  let offsets : Mat tokenIds.length dModel := fun i j =>
    if inside : 0 + i.val < table.rows then table.data ⟨0 + i.val, inside⟩ j else 0
  have rows := hasBackward_lookup tokenIds embeddingMatrix
  refine (rows.add (hasBackward_const offsets _)).congr (fun a => ?_) fun g => (add_zero _).symm
  funext i j
  change table.addPositions 0 (fun i => a (tokenIds.get i)) i j = a (tokenIds.get i) j + offsets i j
  unfold Encoding.addPositions
  by_cases inside : 0 + i.val < table.rows
  · have offset : offsets i j = table.data ⟨0 + i.val, inside⟩ j := dif_pos inside
    rw [dif_pos inside, offset]
  · have offset : offsets i j = 0 := dif_neg inside
    rw [dif_neg inside, offset, add_zero]

end TokenEmbedding

/-! ## The decoder -/

namespace LLMDecoder

variable {vocabSize layers : Nat} {shape : Fin layers → BlockShape}

/-- The weights of the embedding, of the blocks and of the final norm. -/
def Weights (K : Type) (vocabSize heads dk dFf : Nat) {layers : Nat}
    (shape : Fin layers → BlockShape) : Type :=
  (Mat vocabSize (heads * dk) K × ∀ l, DecoderBlock.Weights K heads dk dFf (shape l)) ×
    LayerNorm.Weights K (heads * dk)

section Spaces

variable (vocabSize) (shape)

instance : NormedAddCommGroup (Weights ℝ vocabSize heads dk dFf shape) :=
  inferInstanceAs (NormedAddCommGroup ((Mat vocabSize (heads * dk) ×
    ∀ l, DecoderBlock.Weights ℝ heads dk dFf (shape l)) × LayerNorm.Weights ℝ (heads * dk)))

instance : NormedSpace ℝ (Weights ℝ vocabSize heads dk dFf shape) :=
  inferInstanceAs (NormedSpace ℝ ((Mat vocabSize (heads * dk) ×
    ∀ l, DecoderBlock.Weights ℝ heads dk dFf (shape l)) × LayerNorm.Weights ℝ (heads * dk)))

instance : Coordinates (Weights ℝ vocabSize heads dk dFf shape) :=
  inferInstanceAs (Coordinates ((Mat vocabSize (heads * dk) ×
    ∀ l, DecoderBlock.Weights ℝ heads dk dFf (shape l)) × LayerNorm.Weights ℝ (heads * dk)))

end Spaces

def weights (decoder : LLMDecoder K vocabSize heads dk dFf shape) :
    Weights K vocabSize heads dk dFf shape :=
  ((decoder.tokenEmbedding.embeddingMatrix, fun l => (decoder.decoderBlocks l).weights),
    decoder.finalNorm.weights)

def grads (decoder : LLMDecoder K vocabSize heads dk dFf shape) :
    Weights K vocabSize heads dk dFf shape :=
  ((decoder.tokenEmbedding.embeddingGrad, fun l => (decoder.decoderBlocks l).grads),
    decoder.finalNorm.grads)

def withWeights (decoder : LLMDecoder K vocabSize heads dk dFf shape)
    (weights : Weights K vocabSize heads dk dFf shape) :
    LLMDecoder K vocabSize heads dk dFf shape :=
  { decoder with
    tokenEmbedding := { decoder.tokenEmbedding with embeddingMatrix := weights.1.1 }
    decoderBlocks := fun l => (decoder.decoderBlocks l).withWeights (weights.1.2 l)
    finalNorm := decoder.finalNorm.withWeights weights.2 }

/-- The layer that decodes given tokens. -/
def layer (inputs : GatedInputs K (heads * dk)) (tokenIds : List (Fin vocabSize)) :
    Layer (LLMDecoder K vocabSize heads dk dFf shape) (Weights K vocabSize heads dk dFf shape)
      (Mat src (heads * dk) K) (Mat tokenIds.length (heads * dk) K) where
  Cache := Cache K tokenIds.length src heads dk dFf layers
  weights := weights
  grads := grads
  withWeights := withWeights
  forward := fun decoder encoderOutput =>
    decoder.decode inputs encoderOutput (decoder.tokenEmbedding.lookup tokenIds)
  backward := fun decoder cache gradOutput =>
    let after := decoder.backward true tokenIds cache gradOutput
    (after.1, after.2.getD 0)

/-- The norms of a decoder have positive epsilons. -/
structure EpsPositive (decoder : LLMDecoder ℝ vocabSize heads dk dFf shape) : Prop where
  blocks : ∀ l, (decoder.decoderBlocks l).EpsPositive
  finalNorm : 0 < decoder.finalNorm.eps

/-- The backward pass of the decoder is exact. -/
theorem exact (decoder : LLMDecoder ℝ vocabSize heads dk dFf shape) (positive : decoder.EpsPositive)
    (inputs : GatedInputs ℝ (heads * dk)) (tokenIds : List (Fin vocabSize))
    (encoderOutput : Mat src (heads * dk)) :
    (layer inputs tokenIds).Exact decoder encoderOutput := by
  have embedded := TokenEmbedding.hasBackward_positioned decoder.positionalEncoding tokenIds
    decoder.tokenEmbedding.embeddingMatrix
  let posEncoded := TokenEmbedding.positioned decoder.positionalEncoding tokenIds
    decoder.tokenEmbedding.embeddingMatrix
  have decoded := blocks_exact decoder.decoderBlocks positive.blocks inputs
    (causalMask tokenIds.length) posEncoded encoderOutput
  have normed := decoder.finalNorm.exact positive.finalNorm
    (forwardBlocks inputs encoderOutput (causalMask tokenIds.length) decoder.decoderBlocks
      posEncoded).2
  have both := (embedded.withInput encoderOutput).chain rfl decoded.hasBackward
  have whole := both.chain decoded.value_eq normed.hasBackward
  refine ⟨whole.congr (fun _ => rfl) fun g => ?_, fun cache g => ?_, ?_⟩
  · refine Prod.ext (Prod.ext (Prod.ext ?_ rfl) rfl) rfl
    exact add_sub_cancel_left decoder.tokenEmbedding.embeddingGrad _
  · exact Prod.ext (Prod.ext rfl (decoded.kept _ _)) rfl
  · obtain ⟨tokenEmbedding, positionalEncoding, decoderBlocks, finalNorm⟩ := decoder
    exact congrArg (fun blocks => LLMDecoder.mk tokenEmbedding positionalEncoding blocks finalNorm)
      decoded.restored

end LLMDecoder

/-! ## The encoder -/

/-- The weights of an encoder block. -/
def EncoderWeights (K : Type) (heads dk dFf : Nat) (ranks : Ranks) : Type :=
  EncoderBlock.Weights K (Attention.Weights K heads dk ranks) (heads * dk) dFf

section Spaces

variable (ranks : Ranks)

instance : NormedAddCommGroup (EncoderWeights ℝ heads dk dFf ranks) :=
  inferInstanceAs (NormedAddCommGroup (AttentionWeights ℝ heads dk ranks ×
    LayerNorm.Weights ℝ (heads * dk) × FeedForward.Weights ℝ (heads * dk) dFf))

instance : NormedSpace ℝ (EncoderWeights ℝ heads dk dFf ranks) :=
  inferInstanceAs (NormedSpace ℝ (AttentionWeights ℝ heads dk ranks ×
    LayerNorm.Weights ℝ (heads * dk) × FeedForward.Weights ℝ (heads * dk) dFf))

instance : Coordinates (EncoderWeights ℝ heads dk dFf ranks) :=
  inferInstanceAs (Coordinates (AttentionWeights ℝ heads dk ranks ×
    LayerNorm.Weights ℝ (heads * dk) × FeedForward.Weights ℝ (heads * dk) dFf))

end Spaces

/-- The layer of an encoder block. -/
def encoderBlockLayer (mask : Mat rows rows K) (ranks : Ranks) :
    Layer (EncoderBlock K (Attention K heads dk ranks) (heads * dk) dFf)
      (EncoderWeights K heads dk dFf ranks) (Mat rows (heads * dk) K) (Mat rows (heads * dk) K) :=
  EncoderBlock.layer (Attention.selfLayer (some mask))

theorem encoderBlock_exact {ranks : Ranks} (mask : Mat rows rows)
    (block : EncoderBlock ℝ (Attention ℝ heads dk ranks) (heads * dk) dFf)
    (positive1 : 0 < block.norm1.eps) (positive2 : 0 < block.norm2.eps)
    (input : Mat rows (heads * dk)) : (encoderBlockLayer mask ranks).Exact block input :=
  block.exact positive1 positive2 input (Attention.exactSelf (some mask) block.attention)

section EncoderStack

variable {layers : Nat} {ranks : Fin layers → Ranks}

/-- The layer of all blocks. -/
def encoderBlocksLayer (mask : Mat rows rows K) :
    Layer (∀ l, EncoderBlock K (Attention K heads dk (ranks l)) (heads * dk) dFf)
      (∀ l, EncoderWeights K heads dk dFf (ranks l)) (Mat rows (heads * dk) K)
      (Mat rows (heads * dk) K) where
  Cache := Fin layers → EncoderCache K rows heads dk dFf
  weights := fun blocks l => (encoderBlockLayer mask _).weights (blocks l)
  grads := fun blocks l => (encoderBlockLayer mask _).grads (blocks l)
  withWeights := fun blocks weights l =>
    (encoderBlockLayer mask _).withWeights (blocks l) (weights l)
  forward := fun blocks x => encodeBlocks mask blocks x
  backward := backwardEncoderBlocks mask

/-- The norms of the encoder's blocks have positive epsilons. -/
def EncoderEpsPositive
    (blocks : ∀ l, EncoderBlock ℝ (Attention ℝ heads dk (ranks l)) (heads * dk) dFf) : Prop :=
  ∀ l, 0 < (blocks l).norm1.eps ∧ 0 < (blocks l).norm2.eps

theorem encoderBlocks_exact
    (blocks : ∀ l, EncoderBlock ℝ (Attention ℝ heads dk (ranks l)) (heads * dk) dFf)
    (positive : EncoderEpsPositive blocks) (mask : Mat rows rows)
    (input : Mat rows (heads * dk)) : (encoderBlocksLayer mask).Exact blocks input := by
  induction layers generalizing input with
  | zero =>
      refine ⟨?_, fun _ _ => rfl, funext fun l => l.elim0⟩
      refine (hasBackward_snd _).congr (fun _ => rfl) fun g => ?_
      exact Prod.ext (funext fun l => l.elim0) rfl
  | succ layers ih =>
      have first := encoderBlock_exact mask (blocks 0) (positive 0).1 (positive 0).2 input
      have rest := ih (fun l => blocks l.succ) (fun l => positive l.succ)
        ((blocks 0).forward (Attention.selfLayer (some mask)) input).2
      have whole := HasBackward.stack (W := fun l => EncoderWeights ℝ heads dk dFf (ranks l))
        (w := fun l => (encoderBlockLayer mask _).weights (blocks l)) first.hasBackward
        first.value_eq rest.hasBackward
      refine ⟨whole.congr (fun _ => rfl) fun g => ?_, fun caches g => ?_, ?_⟩
      · refine Prod.ext (funext fun l => ?_) rfl
        cases l using Fin.cases with
        | zero => rfl
        | succ l => rfl
      · funext l
        cases l using Fin.cases with
        | zero => exact first.kept (caches 0) _
        | succ l => exact congrFun (rest.kept (fun l => caches l.succ) g) l
      · funext l
        cases l using Fin.cases with
        | zero => exact first.restored
        | succ l => exact congrFun rest.restored l

end EncoderStack

namespace LLMEncoder

variable {vocabSize layers : Nat} {ranks : Fin layers → Ranks}

/-- The weights of the embedding, of the blocks and of the final norm. -/
def Weights (K : Type) (vocabSize heads dk dFf : Nat) {layers : Nat}
    (ranks : Fin layers → Ranks) : Type :=
  (Mat vocabSize (heads * dk) K × ∀ l, EncoderWeights K heads dk dFf (ranks l)) ×
    LayerNorm.Weights K (heads * dk)

section Spaces

variable (vocabSize) (ranks)

instance : NormedAddCommGroup (Weights ℝ vocabSize heads dk dFf ranks) :=
  inferInstanceAs (NormedAddCommGroup ((Mat vocabSize (heads * dk) ×
    ∀ l, EncoderWeights ℝ heads dk dFf (ranks l)) × LayerNorm.Weights ℝ (heads * dk)))

instance : NormedSpace ℝ (Weights ℝ vocabSize heads dk dFf ranks) :=
  inferInstanceAs (NormedSpace ℝ ((Mat vocabSize (heads * dk) ×
    ∀ l, EncoderWeights ℝ heads dk dFf (ranks l)) × LayerNorm.Weights ℝ (heads * dk)))

instance : Coordinates (Weights ℝ vocabSize heads dk dFf ranks) :=
  inferInstanceAs (Coordinates ((Mat vocabSize (heads * dk) ×
    ∀ l, EncoderWeights ℝ heads dk dFf (ranks l)) × LayerNorm.Weights ℝ (heads * dk)))

end Spaces

def weights (encoder : LLMEncoder K vocabSize heads dk dFf ranks) :
    Weights K vocabSize heads dk dFf ranks :=
  ((encoder.tokenEmbedding.embeddingMatrix,
      fun l => (encoderBlockLayer (fullMask 0) _).weights (encoder.encoderBlocks l)),
    encoder.finalNorm.weights)

def grads (encoder : LLMEncoder K vocabSize heads dk dFf ranks) :
    Weights K vocabSize heads dk dFf ranks :=
  ((encoder.tokenEmbedding.embeddingGrad,
      fun l => (encoderBlockLayer (fullMask 0) _).grads (encoder.encoderBlocks l)),
    encoder.finalNorm.grads)

def withWeights (encoder : LLMEncoder K vocabSize heads dk dFf ranks)
    (weights : Weights K vocabSize heads dk dFf ranks) :
    LLMEncoder K vocabSize heads dk dFf ranks :=
  { encoder with
    tokenEmbedding := { encoder.tokenEmbedding with embeddingMatrix := weights.1.1 }
    encoderBlocks := fun l =>
      (encoderBlockLayer (fullMask 0) _).withWeights (encoder.encoderBlocks l) (weights.1.2 l)
    finalNorm := encoder.finalNorm.withWeights weights.2 }

/-- The layer that encodes given tokens. -/
def layer (tokenIds : List (Fin vocabSize)) :
    Layer (LLMEncoder K vocabSize heads dk dFf ranks) (Weights K vocabSize heads dk dFf ranks)
      Unit (Mat tokenIds.length (heads * dk) K) where
  Cache := Cache K tokenIds.length heads dk dFf layers
  weights := weights
  grads := grads
  withWeights := withWeights
  forward := fun encoder _ =>
    encoder.encode (fullMask tokenIds.length) (encoder.tokenEmbedding.lookup tokenIds)
  backward := fun encoder cache gradOutput => (encoder.backwardRows tokenIds cache gradOutput, ())

/-- The norms of an encoder have positive epsilons. -/
structure EpsPositive (encoder : LLMEncoder ℝ vocabSize heads dk dFf ranks) : Prop where
  blocks : EncoderEpsPositive encoder.encoderBlocks
  finalNorm : 0 < encoder.finalNorm.eps

/-- The backward pass of the encoder is exact. -/
theorem exact (encoder : LLMEncoder ℝ vocabSize heads dk dFf ranks) (positive : encoder.EpsPositive)
    (tokenIds : List (Fin vocabSize)) : (layer tokenIds).Exact encoder () := by
  have embedded := TokenEmbedding.hasBackward_positioned encoder.positionalEncoding tokenIds
    encoder.tokenEmbedding.embeddingMatrix
  let posEncoded := TokenEmbedding.positioned encoder.positionalEncoding tokenIds
    encoder.tokenEmbedding.embeddingMatrix
  have encoded := encoderBlocks_exact encoder.encoderBlocks positive.blocks
    (fullMask tokenIds.length) posEncoded
  have normed := encoder.finalNorm.exact positive.finalNorm
    (encodeBlocks (fullMask tokenIds.length) encoder.encoderBlocks posEncoded).2
  have start := (hasBackward_fst (encoder.tokenEmbedding.embeddingMatrix, ())).followedBy embedded
  have whole := (start.chain rfl encoded.hasBackward).chain encoded.value_eq normed.hasBackward
  refine ⟨whole.congr (fun _ => rfl) fun g => ?_, fun cache g => ?_, ?_⟩
  · refine Prod.ext (Prod.ext (Prod.ext ?_ rfl) rfl) rfl
    exact add_sub_cancel_left encoder.tokenEmbedding.embeddingGrad _
  · exact Prod.ext (Prod.ext rfl (encoded.kept _ _)) rfl
  · obtain ⟨maxSeqLength, tokenEmbedding, positionalEncoding, encoderBlocks, finalNorm⟩ := encoder
    exact congrArg (fun blocks => LLMEncoder.mk maxSeqLength tokenEmbedding positionalEncoding
      blocks finalNorm) encoded.restored

end LLMEncoder

/-! ## The language model head -/

namespace LanguageModelHead

variable {dModel vocabSize : Nat}

/-- The weights and the bias of the projection. -/
abbrev Weights (K : Type) (dModel vocabSize : Nat) := LinearWeights K dModel vocabSize

def weights (head : LanguageModelHead K dModel vocabSize) : Weights K dModel vocabSize :=
  (head.WOutput, head.bias)

def grads (head : LanguageModelHead K dModel vocabSize) : Weights K dModel vocabSize :=
  (head.WOutputGrad, head.biasGrad)

def withWeights (head : LanguageModelHead K dModel vocabSize)
    (weights : Weights K dModel vocabSize) : LanguageModelHead K dModel vocabSize :=
  { head with WOutput := weights.1, bias := weights.2 }

/-- The layer that projects a given number of rows. -/
def layer (rows : Nat) : Layer (LanguageModelHead K dModel vocabSize)
    (Weights K dModel vocabSize) (Mat rows dModel K) (Mat rows vocabSize K) where
  Cache := Mat rows dModel K
  weights := weights
  grads := grads
  withWeights := withWeights
  forward := fun head input => (input, head.forward input)
  backward := backward

/-- The backward pass is exact. -/
theorem exact (head : LanguageModelHead ℝ dModel vocabSize) (input : Mat rows dModel) :
    (layer rows).Exact head input := by
  refine ⟨(hasBackward_linear (head.weights, input)).congr (fun _ => rfl) fun g => ?_,
    fun _ _ => rfl, rfl⟩
  refine Prod.ext (Prod.ext ?_ ?_) rfl
  · exact add_sub_cancel_left head.WOutputGrad _
  · exact add_sub_cancel_left head.biasGrad _

end LanguageModelHead

/-! ## The model -/

namespace EncoderDecoderModel

variable {vocabSize encoderLayers decoderLayers : Nat} {ranks : Fin encoderLayers → Ranks}
  {shape : Fin decoderLayers → BlockShape}

theorem forward_eq (model : EncoderDecoderModel K vocabSize heads dk dFf ranks shape)
    (rawInputTokens targetTokens : List Int) :
    model.forward rawInputTokens targetTokens =
      (model.forwardCached rawInputTokens targetTokens).map model.logits := by
  unfold forward runDecoder LLMEncoder.encodeWithMask LLMDecoder.forwardWithEncoder
    TokenEmbedding.forward forwardCached
  dsimp only
  cases checkEncoderLength (model.encoder.keepLastPositions rawInputTokens).length
      model.encoder.maxSeqLength "LLMEncoder::encode_with_mask" with
  | error e => rfl
  | ok _ =>
      cases (model.encoder.keepLastPositions rawInputTokens).mapM (tokenRow vocabSize) with
      | error e => rfl
      | ok inputIds =>
          cases (model.makeDecoderInput targetTokens).mapM (tokenRow vocabSize) with
          | error e => rfl
          | ok targetIds => rfl

/-- The weights of the encoder, of the decoder and of the head. -/
def Weights (K : Type) (vocabSize heads dk dFf : Nat) {encoderLayers decoderLayers : Nat}
    (ranks : Fin encoderLayers → Ranks) (shape : Fin decoderLayers → BlockShape) : Type :=
  (LLMEncoder.Weights K vocabSize heads dk dFf ranks ×
      LLMDecoder.Weights K vocabSize heads dk dFf shape) ×
    LanguageModelHead.Weights K (heads * dk) vocabSize

section Spaces

variable (vocabSize) (ranks) (shape)

instance : NormedAddCommGroup (Weights ℝ vocabSize heads dk dFf ranks shape) :=
  inferInstanceAs (NormedAddCommGroup ((LLMEncoder.Weights ℝ vocabSize heads dk dFf ranks ×
      LLMDecoder.Weights ℝ vocabSize heads dk dFf shape) ×
    LanguageModelHead.Weights ℝ (heads * dk) vocabSize))

instance : NormedSpace ℝ (Weights ℝ vocabSize heads dk dFf ranks shape) :=
  inferInstanceAs (NormedSpace ℝ ((LLMEncoder.Weights ℝ vocabSize heads dk dFf ranks ×
      LLMDecoder.Weights ℝ vocabSize heads dk dFf shape) ×
    LanguageModelHead.Weights ℝ (heads * dk) vocabSize))

instance : Coordinates (Weights ℝ vocabSize heads dk dFf ranks shape) :=
  inferInstanceAs (Coordinates ((LLMEncoder.Weights ℝ vocabSize heads dk dFf ranks ×
      LLMDecoder.Weights ℝ vocabSize heads dk dFf shape) ×
    LanguageModelHead.Weights ℝ (heads * dk) vocabSize))

end Spaces

def weights (model : EncoderDecoderModel K vocabSize heads dk dFf ranks shape) :
    Weights K vocabSize heads dk dFf ranks shape :=
  ((model.encoder.weights, model.decoder.weights), model.lmHead.weights)

def grads (model : EncoderDecoderModel K vocabSize heads dk dFf ranks shape) :
    Weights K vocabSize heads dk dFf ranks shape :=
  ((model.encoder.grads, model.decoder.grads), model.lmHead.grads)

def withWeights (model : EncoderDecoderModel K vocabSize heads dk dFf ranks shape)
    (weights : Weights K vocabSize heads dk dFf ranks shape) :
    EncoderDecoderModel K vocabSize heads dk dFf ranks shape :=
  { model with
    encoder := model.encoder.withWeights weights.1.1
    decoder := model.decoder.withWeights weights.1.2
    lmHead := model.lmHead.withWeights weights.2 }

/-- The layer for given tokens, where the encoder's output feeds the decoder. -/
def layer (inputs : GatedInputs K (heads * dk)) (inputIds targetIds : List (Fin vocabSize)) :
    Layer (EncoderDecoderModel K vocabSize heads dk dFf ranks shape)
      (Weights K vocabSize heads dk dFf ranks shape) Unit (Mat targetIds.length vocabSize K) where
  Cache := LLMEncoder.Cache K inputIds.length heads dk dFf encoderLayers ×
    LLMDecoder.Cache K targetIds.length inputIds.length heads dk dFf decoderLayers ×
      Mat targetIds.length (heads * dk) K
  weights := weights
  grads := grads
  withWeights := withWeights
  forward := fun model _ =>
    let encoded := (LLMEncoder.layer inputIds).forward model.encoder ()
    let decoded := (LLMDecoder.layer inputs targetIds).forward model.decoder encoded.2
    ((encoded.1, decoded.1, decoded.2), model.lmHead.forward decoded.2)
  backward := fun model cache gradOutput =>
    let head := model.lmHead.backward cache.2.2 gradOutput
    let decoder := (LLMDecoder.layer inputs targetIds).backward model.decoder cache.2.1 head.2
    let encoder := (LLMEncoder.layer inputIds).backward model.encoder cache.1 decoder.2
    ({ model with encoder := encoder.1, decoder := decoder.1, lmHead := head.1 }, ())

/-- The norms of a model have positive epsilons. -/
structure EpsPositive (model : EncoderDecoderModel ℝ vocabSize heads dk dFf ranks shape) :
    Prop where
  encoder : model.encoder.EpsPositive
  decoder : model.decoder.EpsPositive

theorem exact (model : EncoderDecoderModel ℝ vocabSize heads dk dFf ranks shape)
    (positive : model.EpsPositive) (inputs : GatedInputs ℝ (heads * dk))
    (inputIds targetIds : List (Fin vocabSize)) :
    (layer inputs inputIds targetIds).Exact model () := by
  have encoded := model.encoder.exact positive.encoder inputIds
  let encoderOutput := ((LLMEncoder.layer inputIds).forward model.encoder ()).2
  have decoded := model.decoder.exact positive.decoder inputs targetIds encoderOutput
  have projected := model.lmHead.exact
    ((LLMDecoder.layer inputs targetIds).forward model.decoder encoderOutput).2
  have both := encoded.hasBackward.chain encoded.value_eq decoded.hasBackward
  have reached := (congrArg (fun x => (LLMDecoder.layer inputs targetIds).value model.decoder
    (model.decoder.weights, x)) encoded.value_eq).trans decoded.value_eq
  have whole := both.chain reached projected.hasBackward
  refine ⟨whole.congr (fun _ => rfl) fun g => rfl, fun cache g => ?_, ?_⟩
  · exact Prod.ext (Prod.ext (encoded.kept _ _) (decoded.kept _ _)) rfl
  · obtain ⟨encoder, decoder, lmHead, bosTokenId, gatedInputs⟩ := model
    exact congrArg₂ (fun encoder decoder => EncoderDecoderModel.mk encoder decoder lmHead bosTokenId
      gatedInputs) encoded.restored decoded.restored

/-! ## Whole passes -/

variable {rawInputTokens targetTokens : List Int} {inputIds targetIds : List (Fin vocabSize)}

/-- The tokens of a pass are in the vocabulary, and the kept input is not too long. -/
structure Tokenized (model : EncoderDecoderModel K vocabSize heads dk dFf ranks shape)
    (rawInputTokens targetTokens : List Int) (inputIds targetIds : List (Fin vocabSize)) :
    Prop where
  short : checkEncoderLength (model.encoder.keepLastPositions rawInputTokens).length
    model.encoder.maxSeqLength "LLMEncoder::encode_with_mask" = .ok ()
  input : (model.encoder.keepLastPositions rawInputTokens).mapM (tokenRow vocabSize) = .ok inputIds
  target : (model.makeDecoderInput targetTokens).mapM (tokenRow vocabSize) = .ok targetIds

/-- What the gated paths attend to in a pass. -/
def keptInputs (model : EncoderDecoderModel K vocabSize heads dk dFf ranks shape)
    (rawInputTokens : List Int) : GatedInputs K (heads * dk) :=
  model.gatedInputs (model.encoder.keepLastPositions rawInputTokens)

theorem forwardCached_of_tokenized
    {model : EncoderDecoderModel K vocabSize heads dk dFf ranks shape}
    (tokenized : model.Tokenized rawInputTokens targetTokens inputIds targetIds) :
    model.forwardCached rawInputTokens targetTokens =
      .ok (model.activations (model.keptInputs rawInputTokens) inputIds targetIds) := by
  unfold forwardCached
  dsimp only
  rw [tokenized.short, tokenized.input, tokenized.target]
  rfl

theorem tokenized_of_forwardCached
    {model : EncoderDecoderModel K vocabSize heads dk dFf ranks shape}
    {cache : Cache K vocabSize heads dk dFf encoderLayers decoderLayers}
    (passed : model.forwardCached rawInputTokens targetTokens = .ok cache) :
    ∃ inputIds targetIds, model.Tokenized rawInputTokens targetTokens inputIds targetIds ∧
      cache = model.activations (model.keptInputs rawInputTokens) inputIds targetIds := by
  unfold forwardCached at passed
  dsimp only at passed
  cases short : checkEncoderLength (model.encoder.keepLastPositions rawInputTokens).length
      model.encoder.maxSeqLength "LLMEncoder::encode_with_mask" with
  | error e =>
      rw [short] at passed
      cases passed
  | ok checked =>
      cases input : (model.encoder.keepLastPositions rawInputTokens).mapM (tokenRow vocabSize) with
      | error e =>
          rw [short, input] at passed
          cases passed
      | ok inputIds =>
          cases target : (model.makeDecoderInput targetTokens).mapM (tokenRow vocabSize) with
          | error e =>
              rw [short, input, target] at passed
              cases passed
          | ok targetIds =>
              rw [short, input, target] at passed
              exact ⟨inputIds, targetIds, ⟨short, input, target⟩, (Except.ok.inj passed).symm⟩

/-- After a forward pass, a backward pass returns, adds the derivatives of the weighted sum of the
logits to the gradients and changes no weight. -/
def BackwardExact (model : EncoderDecoderModel ℝ vocabSize heads dk dFf ranks shape)
    (rawInputTokens targetTokens : List Int)
    (cache : Cache ℝ vocabSize heads dk dFf encoderLayers decoderLayers) : Prop :=
  ∀ g : Mat cache.targetIds.length vocabSize,
    ∃ logits : Weights ℝ vocabSize heads dk dFf ranks shape → Mat cache.targetIds.length vocabSize,
      (∀ weights, (model.withWeights weights).forward rawInputTokens targetTokens =
        .ok ⟨cache.targetIds.length, logits weights⟩) ∧
      ∃ gradient after,
        HasGrad (fun weights => ∑ i, ∑ j, g i j * logits weights i j) gradient model.weights ∧
          model.backward (.setTraining true) cache g = .ok after ∧
            after.grads = model.grads + gradient ∧ after.weights = model.weights

section Passes

variable (model : EncoderDecoderModel ℝ vocabSize heads dk dFf ranks shape)

/-- The encoder's part of a pass. -/
def encoded (inputIds : List (Fin vocabSize)) :
    LLMEncoder.Cache ℝ inputIds.length heads dk dFf encoderLayers ×
      Mat inputIds.length (heads * dk) :=
  model.encoder.encode (LLMEncoder.fullMask inputIds.length)
    (model.encoder.tokenEmbedding.lookup inputIds)

/-- A kept input that is not empty feeds the decoder. -/
theorem activations_of_nonempty (wide : 0 < heads * dk) (nonempty : 0 < inputIds.length)
    (inputs : GatedInputs ℝ (heads * dk)) :
    model.activations inputs inputIds targetIds =
      model.decoded inputs inputIds targetIds (model.encoded inputIds).1
        ⟨inputIds.length, (model.encoded inputIds).2⟩ := by
  have used : LLMDecoder.usedEncoder ⟨inputIds.length, (model.encoded inputIds).2⟩ =
      ⟨inputIds.length, (model.encoded inputIds).2⟩ := if_pos ⟨nonempty, wide⟩
  exact congrArg (model.decoded inputs inputIds targetIds (model.encoded inputIds).1) used

/-- An empty one is replaced by a row of zeros. -/
theorem activations_src_of_empty (empty : inputIds.length = 0)
    (inputs : GatedInputs ℝ (heads * dk)) :
    (model.activations inputs inputIds targetIds).src = 1 := by
  have used : LLMDecoder.usedEncoder ⟨inputIds.length, (model.encoded inputIds).2⟩ =
      LLMDecoder.emptyEncoder := if_neg fun both => absurd empty (Nat.ne_of_gt both.1)
  exact congrArg Encoding.rows used

/-- With a block, the decoder passes a gradient on. -/
theorem backwardBlocks_isSome {rows src layers : Nat} {shape : Fin layers → BlockShape}
    (layered : 0 < layers) (blocks : ∀ l, DecoderBlock ℝ heads dk dFf (shape l))
    (caches : Fin layers → DecoderBlock.Cache ℝ rows src heads dk dFf)
    (grad : Mat rows (heads * dk)) :
    ∃ gradEncoderOutput, (backwardBlocks blocks caches grad).2.2 = some gradEncoderOutput := by
  cases layers with
  | zero => exact absurd layered (Nat.lt_irrefl 0)
  | succ layers => exact ⟨_, rfl⟩

/-- Without one, it passes none. -/
theorem backwardBlocks_isNone {rows src layers : Nat} {shape : Fin layers → BlockShape}
    (layerless : layers = 0) (blocks : ∀ l, DecoderBlock ℝ heads dk dFf (shape l))
    (caches : Fin layers → DecoderBlock.Cache ℝ rows src heads dk dFf)
    (grad : Mat rows (heads * dk)) : (backwardBlocks blocks caches grad).2.2 = none := by
  subst layerless
  rfl

/-- With every flag set, all that can fail is the encoder. -/
theorem backward_eq_bind
    (cache : Cache ℝ vocabSize heads dk dFf encoderLayers decoderLayers)
    (g : Mat cache.targetIds.length vocabSize)
    {passedOn : Option (Mat cache.src (heads * dk))}
    (passed : (model.decoder.backward true cache.targetIds cache.decoder
      (model.lmHead.backward cache.decoderOutput g).2).2 = passedOn) :
    model.backward (.setTraining true) cache g = do
      let head := model.lmHead.backward cache.decoderOutput g
      let decoder := model.decoder.backward true cache.targetIds cache.decoder head.2
      let encoder ← model.encoder.backward true cache.inputIds cache.encoder
        (gradEncoderOutput passedOn)
      return { model with encoder := encoder, decoder := decoder.1, lmHead := head.1 } := by
  subst passed
  rfl

theorem backward_eq (layered : 0 < decoderLayers) (inputs : GatedInputs ℝ (heads * dk))
    (g : Mat targetIds.length vocabSize) :
    model.backward (.setTraining true)
        (model.decoded inputs inputIds targetIds (model.encoded inputIds).1
          ⟨inputIds.length, (model.encoded inputIds).2⟩) g =
      .ok ((layer inputs inputIds targetIds).backward model
        ((layer inputs inputIds targetIds).forward model ()).1 g).1 := by
  let decoded := model.decoder.decode inputs (model.encoded inputIds).2
    (model.decoder.tokenEmbedding.lookup targetIds)
  let head := model.lmHead.backward decoded.2 g
  obtain ⟨grad, passed⟩ := backwardBlocks_isSome layered model.decoder.decoderBlocks
    decoded.1.blocks (model.decoder.finalNorm.backward decoded.1.finalNorm head.2).2
  have given : (model.decoder.backward true targetIds decoded.1 head.2).2 = some grad := passed
  have fed : ((LLMDecoder.layer inputs targetIds).backward model.decoder decoded.1 head.2).2 =
      grad := congrArg (fun passedOn => passedOn.getD 0) given
  have fits : model.encoder.backward true inputIds (model.encoded inputIds).1
      ⟨inputIds.length, heads * dk, grad⟩ =
        .ok (model.encoder.backwardRows inputIds (model.encoded inputIds).1 grad) :=
    dif_pos ⟨rfl, rfl⟩
  let cache := model.decoded inputs inputIds targetIds (model.encoded inputIds).1
    ⟨inputIds.length, (model.encoded inputIds).2⟩
  let decoder := (model.decoder.backward true targetIds decoded.1 head.2).1
  calc model.backward (.setTraining true) cache g
      _ = (model.encoder.backward true inputIds (model.encoded inputIds).1
            ⟨inputIds.length, heads * dk, grad⟩).map fun encoder =>
              { model with encoder := encoder, decoder := decoder, lmHead := head.1 } :=
        model.backward_eq_bind cache g given
      _ = .ok { model with
            encoder := model.encoder.backwardRows inputIds (model.encoded inputIds).1 grad
            decoder := decoder
            lmHead := head.1 } := by
        rw [fits]
        rfl
      _ = .ok ((layer inputs inputIds targetIds).backward model
            ((layer inputs inputIds targetIds).forward model ()).1 g).1 := by
        rw [← fed]
        rfl

theorem fits_of_backward (wide : 0 < heads * dk)
    {cache : Cache ℝ vocabSize heads dk dFf encoderLayers decoderLayers}
    {g : Mat cache.targetIds.length vocabSize}
    {after : EncoderDecoderModel ℝ vocabSize heads dk dFf ranks shape}
    (returned : model.backward (.setTraining true) cache g = .ok after) :
    0 < decoderLayers ∧ cache.src = cache.inputIds.length := by
  have refused (gradOutput : SizedMatrix ℝ)
      (other : ¬ (gradOutput.rows = cache.inputIds.length ∧ gradOutput.cols = heads * dk)) :
      ∃ message, model.encoder.backward true cache.inputIds cache.encoder gradOutput =
        .error message := ⟨_, dif_neg other⟩
  rcases Nat.eq_zero_or_pos decoderLayers with layerless | layered
  · have passed : (model.decoder.backward true cache.targetIds cache.decoder
        (model.lmHead.backward cache.decoderOutput g).2).2 = none :=
      backwardBlocks_isNone layerless _ _ _
    obtain ⟨message, throws⟩ := refused ⟨0, 0, Fin.elim0⟩
      fun fits => absurd fits.2 (Nat.ne_of_lt wide)
    rw [model.backward_eq_bind cache g passed] at returned
    dsimp only [gradEncoderOutput] at returned
    rw [throws] at returned
    cases returned
  · refine ⟨layered, ?_⟩
    by_contra other
    obtain ⟨grad, passed⟩ := backwardBlocks_isSome layered model.decoder.decoderBlocks
      cache.decoder.blocks (model.decoder.finalNorm.backward cache.decoder.finalNorm
        (model.lmHead.backward cache.decoderOutput g).2).2
    have given : (model.decoder.backward true cache.targetIds cache.decoder
        (model.lmHead.backward cache.decoderOutput g).2).2 = some grad := passed
    obtain ⟨message, throws⟩ := refused ⟨cache.src, heads * dk, grad⟩
      fun fits => other fits.1
    rw [model.backward_eq_bind cache g given] at returned
    dsimp only [gradEncoderOutput] at returned
    rw [throws] at returned
    cases returned

/-- Where the encoder's output feeds the decoder, the backward pass is exact. -/
theorem backwardExact_of_layered (positive : model.EpsPositive) (layered : 0 < decoderLayers)
    (wide : 0 < heads * dk) (nonempty : 0 < inputIds.length)
    (tokenized : model.Tokenized rawInputTokens targetTokens inputIds targetIds) :
    model.BackwardExact rawInputTokens targetTokens
      (model.decoded (model.keptInputs rawInputTokens) inputIds targetIds
        (model.encoded inputIds).1 ⟨inputIds.length, (model.encoded inputIds).2⟩) := by
  intro g
  change Mat targetIds.length vocabSize at g
  let inputs := model.keptInputs rawInputTokens
  have exact := model.exact positive inputs inputIds targetIds
  have gradient := exact.hasBackward.atInput.grad g
  let logits := fun weights : Weights ℝ vocabSize heads dk dFf ranks shape =>
    (layer inputs inputIds targetIds).value model (weights, ())
  let after := ((layer inputs inputIds targetIds).backward model
    ((layer inputs inputIds targetIds).forward model ()).1 g).1
  have weighted : (fun weights => dot g (logits weights)) =
      fun weights => ∑ i, ∑ j, g i j * logits weights i j := funext fun _ => dot_mat g _
  have derivative : HasGrad (fun weights => ∑ i, ∑ j, g i j * logits weights i j)
      (after.grads - model.grads) model.weights := weighted ▸ gradient
  refine ⟨logits, fun weights => ?_, _, after, derivative, model.backward_eq layered inputs g,
    (add_sub_cancel model.grads _).symm, exact.kept _ _⟩
  have same : (model.withWeights weights).Tokenized rawInputTokens targetTokens inputIds
      targetIds := ⟨tokenized.short, tokenized.input, tokenized.target⟩
  rw [forward_eq, forwardCached_of_tokenized same, activations_of_nonempty _ wide nonempty]
  rfl

end Passes

/-- A kept input is empty for an empty input, and where no position is kept. -/
theorem keepLastPositions_ne_nil {encoder : LLMEncoder ℝ vocabSize heads dk dFf ranks}
    {tokens : List Int} :
    encoder.keepLastPositions tokens ≠ [] ↔ 0 < encoder.maxSeqLength ∧ tokens ≠ [] := by
  unfold LLMEncoder.keepLastPositions
  dsimp only
  rw [← List.length_pos_iff, ← List.length_pos_iff]
  split_ifs with long
  · rw [List.length_drop]
    omega
  · constructor
    · intro some_
      exact ⟨by omega, some_⟩
    · exact And.right

end EncoderDecoderModel

open EncoderDecoderModel

/-- **Back-propagation through the model.** After a forward pass, a backward pass adds to every
gradient the derivative of the weighted sum of the logits, and changes no weight, exactly if the
decoder has a layer and a token of the input is kept. -/
theorem model_backward_exact_iff {vocabSize encoderLayers decoderLayers : Nat}
    {ranks : Fin encoderLayers → Ranks} {shape : Fin decoderLayers → BlockShape}
    {rawInputTokens targetTokens : List Int}
    (model : EncoderDecoderModel ℝ vocabSize heads dk dFf ranks shape)
    (positive : model.EpsPositive) (wide : 0 < heads * dk)
    {cache : Cache ℝ vocabSize heads dk dFf encoderLayers decoderLayers}
    (passed : model.forwardCached rawInputTokens targetTokens = .ok cache) :
    model.BackwardExact rawInputTokens targetTokens cache ↔
      0 < decoderLayers ∧ 0 < model.encoder.maxSeqLength ∧ rawInputTokens ≠ [] := by
  obtain ⟨inputIds, targetIds, tokenized, rfl⟩ := tokenized_of_forwardCached passed
  have kept : 0 < inputIds.length ↔ 0 < model.encoder.maxSeqLength ∧ rawInputTokens ≠ [] := by
    rw [← keepLastPositions_ne_nil, ← List.length_pos_iff, length_mapM tokenized.input]
  rw [← kept]
  constructor
  · intro right
    obtain ⟨-, -, -, after, -, returned, -⟩ := right 0
    obtain ⟨layered, fits⟩ := model.fits_of_backward wide returned
    refine ⟨layered, Nat.pos_of_ne_zero fun empty => ?_⟩
    rw [model.activations_src_of_empty empty] at fits
    exact absurd (fits.trans empty) Nat.one_ne_zero
  · rintro ⟨layered, nonempty⟩
    rw [model.activations_of_nonempty wide nonempty]
    exact model.backwardExact_of_layered positive layered wide nonempty tokenized

theorem zeroModel_epsPositive : zeroModel.EpsPositive where
  encoder := ⟨fun _ => ⟨one_pos, one_pos⟩, one_pos⟩
  decoder := ⟨fun _ => ⟨one_pos, one_pos, one_pos, trivial, trivial⟩, one_pos⟩

/-- One token in the small model. -/
theorem model_backward_exact_iff_one :
    ∃ cache, zeroModel.forwardCached [1] [1] = .ok cache ∧
      zeroModel.BackwardExact [1] [1] cache := by
  have tokenized : zeroModel.Tokenized [1] [1] [1] [0] := ⟨rfl, rfl, rfl⟩
  have passed := forwardCached_of_tokenized tokenized
  exact ⟨_, passed, (model_backward_exact_iff zeroModel zeroModel_epsPositive one_pos passed).mpr
    ⟨one_pos, by decide, by decide⟩⟩

/-- The small model without the decoder's layer. -/
def decoderless : EncoderDecoderModel ℝ 2 1 1 1 (fun _ : Fin 1 => ⟨none, none, none, none⟩)
    (fun l : Fin 0 => l.elim0) where
  encoder := zeroModel.encoder
  decoder := ⟨⟨0, 0⟩, ⟨4, 0⟩, fun l => l.elim0, ⟨1, 1, 0, 0, 0⟩⟩
  lmHead := zeroModel.lmHead
  bosTokenId := 0
  gatedInputs := zeroModel.gatedInputs

/-- The forward pass of that model returns, but the encoder refuses what the backward pass of the
decoder leaves as its gradient. -/
theorem decoderless_refused :
    ∃ cache logits, decoderless.forwardCached [1] [1] = .ok cache ∧
      decoderless.forward [1] [1] = .ok logits ∧
      decoderless.backward (.setTraining true) cache 0 =
        .error "Gradient dimensions must match forward pass output dimensions" ∧
      ¬ decoderless.BackwardExact [1] [1] cache := by
  have tokenized : decoderless.Tokenized [1] [1] [1] [0] := ⟨rfl, rfl, rfl⟩
  have passed := forwardCached_of_tokenized tokenized
  refine ⟨_, _, passed, (decoderless.forward_eq _ _).trans (congrArg _ passed), ?_, fun exact => ?_⟩
  · rfl
  · obtain ⟨-, -, -, after, -, returned, -⟩ := exact 0
    exact absurd (decoderless.fits_of_backward one_pos returned).1 (Nat.lt_irrefl 0)

end Adai.Transformer

end
