import Adai.Math.GradientDescent
import Adai.Transformer.ModelGradient

/-! # Clearing gradients and updating weights

`zero_grad` and `update_weights` of each part of the model, with one learning rate for all of
them and no optimizer registered. A step leaves the factors of the adapters as they are, so
only the `trained` part of a gradient is used. No forward pass reads a gradient
(`forward_zeroGrad`), and a backward pass changes nothing else (`zeroGrad_backward`).
-/

noncomputable section

namespace Adai.Transformer

open Backpropagation Gradients Adai.Transformer.Transcendental

variable {rows src heads dk dFf : Nat}

/-! ## Projections -/

section Projections

variable {K : Type} [Field K] {dim rank : Nat}

def LoRAAdapter.zeroGrad (adapter : LoRAAdapter K dim rank) : LoRAAdapter K dim rank :=
  { adapter with gradA := 0, gradB := 0 }

namespace Projection

variable {rank : Option Nat}

def zeroGrad (projection : Projection K dim rank) : Projection K dim rank :=
  { projection with
    grad := 0
    lora := Slot.map (fun _ adapter => adapter.zeroGrad) projection.lora }

def updateWeights (learningRate : K) (projection : Projection K dim rank) :
    Projection K dim rank :=
  zeroGrad { projection with W := projection.W - learningRate • projection.grad }

theorem forward_zeroGrad (projection : Projection K dim rank) (x : Mat rows dim K) :
    projection.zeroGrad.forward x = projection.forward x := by
  cases rank with
  | none => rfl
  | some r => rfl

theorem zeroGrad_backward (projection : Projection K dim rank) (x gradOutput : Mat rows dim K) :
    (projection.backward x gradOutput).1.zeroGrad = projection.zeroGrad := by
  cases rank with
  | none => rfl
  | some r => rfl

/-- The weight matrix without the factors of the adapter. -/
def trained (weights : Weights ℝ dim rank) : Weights ℝ dim rank := (weights.1, 0)

def parameters : Parameters (Projection ℝ dim rank) (Weights ℝ dim rank) :=
  (layer 0).parameters zeroGrad updateWeights trained

theorem lawful : (parameters : Parameters (Projection ℝ dim rank) _).Lawful := by
  cases rank with
  | none => constructor <;> intros <;> rfl
  | some r =>
      refine ⟨fun _ _ => rfl, fun _ _ _ => rfl, fun _ _ => rfl, fun _ => rfl, fun _ => rfl,
        fun _ => rfl, fun rate projection => ?_⟩
      let adapter : LoRAAdapter ℝ dim r := projection.lora
      have kept : adapter.weights = adapter.weights - rate • 0 := by
        rw [smul_zero, sub_zero]
      exact congrArg (fun factors => (⟨projection.W - rate • projection.grad, 0,
        adapter.zeroGrad.withWeights factors⟩ : Projection ℝ dim (some r))) kept

end Projection

end Projections

/-! ## Attention -/

namespace Attention

variable {K : Type} [Field K] {ranks : Ranks}

def zeroGrad (attention : Attention K heads dk ranks) : Attention K heads dk ranks :=
  ⟨attention.q.zeroGrad, attention.k.zeroGrad, attention.v.zeroGrad, attention.o.zeroGrad⟩

/-- `update_weights` of `MultiHeadAttention` and `CrossAttention`. -/
def updateWeights (learningRate : K) (attention : Attention K heads dk ranks) :
    Attention K heads dk ranks :=
  ⟨attention.q.updateWeights learningRate, attention.k.updateWeights learningRate,
    attention.v.updateWeights learningRate, attention.o.updateWeights learningRate⟩

def parameters : Parameters (Attention ℝ heads dk ranks) (Weights ℝ heads dk ranks) :=
  ((Projection.parameters.prod Projection.parameters).prod
    (Projection.parameters.prod Projection.parameters)).within
      (fun attention => ((attention.q, attention.k), attention.v, attention.o))
      fun _ parts => ⟨parts.1.1, parts.1.2, parts.2.1, parts.2.2⟩

theorem lawful : (parameters : Parameters (Attention ℝ heads dk ranks) _).Lawful :=
  ((Projection.lawful.prod Projection.lawful).prod (Projection.lawful.prod
    Projection.lawful)).within (fun _ _ => rfl) fun _ _ _ => rfl

variable [Transcendental K]

theorem zeroGrad_backward {tgt : Nat} (attention : Attention K heads dk ranks)
    (cache : Cache K tgt src heads dk) (gradOutput : Mat tgt (heads * dk) K) :
    (attention.backward cache gradOutput).1.zeroGrad = attention.zeroGrad := by
  simp only [backward, zeroGrad, Projection.zeroGrad_backward]

variable [LinearOrder K]

theorem forward_zeroGrad {tgt : Nat} (bias mask : Option (Mat tgt src K))
    (attention : Attention K heads dk ranks) (query : Mat tgt (heads * dk) K)
    (kv : Mat src (heads * dk) K) :
    attention.zeroGrad.attend bias mask query kv = attention.attend bias mask query kv := by
  simp only [attend, zeroGrad, Projection.forward_zeroGrad]

end Attention

/-! ## Norms, feed-forward networks, embeddings and the head -/

section Leaves

variable {K : Type} [Field K]

namespace LayerNorm

variable {dim : Nat}

def zeroGrad (norm : LayerNorm K dim) : LayerNorm K dim :=
  { norm with gammaGrad := 0, betaGrad := 0 }

def updateWeights (learningRate : K) (norm : LayerNorm K dim) : LayerNorm K dim :=
  zeroGrad { norm with
    gamma := norm.gamma - learningRate • norm.gammaGrad
    beta := norm.beta - learningRate • norm.betaGrad }

def parameters : Parameters (LayerNorm ℝ dim) (Weights ℝ dim) :=
  ⟨weights, grads, withWeights, zeroGrad, updateWeights, id⟩

theorem lawful : (parameters : Parameters (LayerNorm ℝ dim) _).Lawful := by
  constructor <;> intros <;> rfl

end LayerNorm

namespace FeedForward

variable {dModel : Nat}

def zeroGrad (ff : FeedForward K dModel dFf) : FeedForward K dModel dFf :=
  { ff with W1Grad := 0, b1Grad := 0, W2Grad := 0, b2Grad := 0 }

def updateWeights (learningRate : K) (ff : FeedForward K dModel dFf) : FeedForward K dModel dFf :=
  zeroGrad { ff with
    W1 := ff.W1 - learningRate • ff.W1Grad
    W2 := ff.W2 - learningRate • ff.W2Grad
    b1 := ff.b1 - learningRate • ff.b1Grad
    b2 := ff.b2 - learningRate • ff.b2Grad }

def parameters : Parameters (FeedForward ℝ dModel dFf) (Weights ℝ dModel dFf) :=
  ⟨weights, grads, withWeights, zeroGrad, updateWeights, id⟩

theorem lawful : (parameters : Parameters (FeedForward ℝ dModel dFf) _).Lawful := by
  constructor <;> intros <;> rfl

end FeedForward

namespace TokenEmbedding

variable {vocabSize dModel : Nat}

def zeroGrad (embedding : TokenEmbedding K vocabSize dModel) : TokenEmbedding K vocabSize dModel :=
  { embedding with embeddingGrad := 0 }

def updateWeights (learningRate : K) (embedding : TokenEmbedding K vocabSize dModel) :
    TokenEmbedding K vocabSize dModel :=
  zeroGrad { embedding with
    embeddingMatrix := embedding.embeddingMatrix - learningRate • embedding.embeddingGrad }

def parameters : Parameters (TokenEmbedding ℝ vocabSize dModel) (Mat vocabSize dModel) where
  weights := embeddingMatrix
  grads := embeddingGrad
  withWeights := fun embedding matrix => { embedding with embeddingMatrix := matrix }
  zeroGrad := zeroGrad
  updateWeights := updateWeights
  trained := id

theorem lawful : (parameters : Parameters (TokenEmbedding ℝ vocabSize dModel) _).Lawful := by
  constructor <;> intros <;> rfl

end TokenEmbedding

namespace LanguageModelHead

variable {dModel vocabSize : Nat}

def zeroGrad (head : LanguageModelHead K dModel vocabSize) : LanguageModelHead K dModel vocabSize :=
  { head with WOutputGrad := 0, biasGrad := 0 }

def updateWeights (learningRate : K) (head : LanguageModelHead K dModel vocabSize) :
    LanguageModelHead K dModel vocabSize :=
  zeroGrad { head with
    WOutput := head.WOutput - learningRate • head.WOutputGrad
    bias := head.bias - learningRate • head.biasGrad }

def parameters : Parameters (LanguageModelHead ℝ dModel vocabSize) (Weights ℝ dModel vocabSize) :=
  ⟨weights, grads, withWeights, zeroGrad, updateWeights, id⟩

theorem lawful : (parameters : Parameters (LanguageModelHead ℝ dModel vocabSize) _).Lawful := by
  constructor <;> intros <;> rfl

end LanguageModelHead

end Leaves

/-! ## Decoder blocks -/

/-- The parameters of an attention with its norm. -/
def attentionParameters (ranks : Ranks) :
    Parameters (LayerNorm ℝ (heads * dk) × Attention ℝ heads dk ranks)
      (AttentionWeights ℝ heads dk ranks) :=
  LayerNorm.parameters.prod Attention.parameters

theorem attention_lawful (ranks : Ranks) :
    (attentionParameters ranks : Parameters (_ × Attention ℝ heads dk ranks) _).Lawful :=
  LayerNorm.lawful.prod Attention.lawful

namespace GatedPath

section Path

variable {K : Type} [Field K] {ranks : Ranks}

def zeroGrad (path : GatedPath K heads dk ranks) : GatedPath K heads dk ranks :=
  { path with
    attention := path.attention.zeroGrad
    norm := path.norm.zeroGrad
    gateGrad := 0 }

def updateWeights (learningRate : K) (path : GatedPath K heads dk ranks) :
    GatedPath K heads dk ranks :=
  { path with
    attention := path.attention.updateWeights learningRate
    norm := path.norm.updateWeights learningRate
    gate := path.gate - learningRate * path.gateGrad
    gateGrad := 0 }

/-- A gate and its gradient. -/
def gateParameters : Parameters (ℝ × ℝ) ℝ where
  weights := Prod.fst
  grads := Prod.snd
  withWeights := fun gate value => (value, gate.2)
  zeroGrad := fun gate => (gate.1, 0)
  updateWeights := fun rate gate => (gate.1 - rate * gate.2, 0)
  trained := id

theorem gate_lawful : gateParameters.Lawful := by
  constructor <;> intros <;> rfl

def parameters : Parameters (GatedPath ℝ heads dk ranks) (Weights ℝ heads dk ranks) :=
  ((attentionParameters ranks).prod gateParameters).within
    (fun path => ((path.norm, path.attention), path.gate, path.gateGrad))
    fun _ parts => ⟨parts.1.2, parts.1.1, parts.2.1, parts.2.2⟩

theorem lawful : (parameters : Parameters (GatedPath ℝ heads dk ranks) _).Lawful :=
  ((attention_lawful ranks).prod gate_lawful).within (fun _ _ => rfl) fun _ _ _ => rfl

end Path

variable {K : Type} [Field K] [Transcendental K]

theorem zeroGrad_backwardOptional {ranks : Option Ranks} (path : Slot (GatedPath K heads dk) ranks)
    (cache : Option (Cache K rows heads dk)) (gradOutput : Mat rows (heads * dk) K) :
    Slot.map (fun _ path => path.zeroGrad) (backwardOptional path cache gradOutput).1 =
      Slot.map (fun _ path => path.zeroGrad) path := by
  cases ranks with
  | none => rfl
  | some ranks =>
      cases cache with
      | none => rfl
      | some cache =>
          let path : GatedPath K heads dk ranks := path
          exact congrArg (fun attention => GatedPath.mk attention path.norm.zeroGrad path.gate 0)
            (path.attention.zeroGrad_backward cache.attention _)

variable [LinearOrder K]

theorem forwardOptional_zeroGrad {ranks : Option Ranks} (path : Slot (GatedPath K heads dk) ranks)
    (source : Option (GatedSource K (heads * dk))) (residual : Mat rows (heads * dk) K) :
    forwardOptional (Slot.map (fun _ path => path.zeroGrad) path) source residual =
      forwardOptional path source residual := by
  cases ranks with
  | none => rfl
  | some ranks =>
      cases source with
      | none => rfl
      | some source =>
          let path : GatedPath K heads dk ranks := path
          have attended := path.attention.forward_zeroGrad
            (source.bias.map fun bias (_ : Fin rows) => bias) none (path.norm.forward residual).2
            source.data
          exact congrArg (fun attended => (some (Cache.mk source.rows
            (path.norm.forward residual).1 attended.1 attended.2),
            fun i j => residual i j + tanh path.gate * attended.2 i j)) attended

end GatedPath

namespace DecoderBlock

variable {K : Type} [Field K] {shape : BlockShape}

def zeroGrad (block : DecoderBlock K heads dk dFf shape) : DecoderBlock K heads dk dFf shape where
  selfAttention := block.selfAttention.zeroGrad
  crossAttention := block.crossAttention.zeroGrad
  feedForward := block.feedForward.zeroGrad
  norm1 := block.norm1.zeroGrad
  norm2 := block.norm2.zeroGrad
  norm3 := block.norm3.zeroGrad
  worldModel := Slot.map (fun _ path => path.zeroGrad) block.worldModel
  hippocampal := Slot.map (fun _ path => path.zeroGrad) block.hippocampal

def updateWeights (learningRate : K) (block : DecoderBlock K heads dk dFf shape) :
    DecoderBlock K heads dk dFf shape where
  selfAttention := block.selfAttention.updateWeights learningRate
  crossAttention := block.crossAttention.updateWeights learningRate
  feedForward := block.feedForward.updateWeights learningRate
  norm1 := block.norm1.updateWeights learningRate
  norm2 := block.norm2.updateWeights learningRate
  norm3 := block.norm3.updateWeights learningRate
  worldModel := Slot.map (fun _ path => path.updateWeights learningRate) block.worldModel
  hippocampal := Slot.map (fun _ path => path.updateWeights learningRate) block.hippocampal

/-- The parameters behind the cross-attention. -/
def finishParameters (shape : BlockShape) :
    Parameters ((Slot (GatedPath ℝ heads dk) shape.worldModel ×
        Slot (GatedPath ℝ heads dk) shape.hippocampal) ×
      LayerNorm ℝ (heads * dk) × FeedForward ℝ (heads * dk) dFf)
      (FinishWeights ℝ heads dk dFf shape) :=
  ((Parameters.slot (fun _ => GatedPath.parameters) shape.worldModel).prod
    (Parameters.slot (fun _ => GatedPath.parameters) shape.hippocampal)).prod
      (LayerNorm.parameters.prod FeedForward.parameters)

theorem finish_lawful (shape : BlockShape) :
    (finishParameters shape : Parameters (_ × _ × FeedForward ℝ (heads * dk) dFf) _).Lawful := by
  have paths (ranks : Option Ranks) : (Parameters.slot (fun i =>
      (GatedPath.parameters : Parameters (GatedPath ℝ heads dk i) _)) ranks).Lawful :=
    .slot (fun _ => GatedPath.lawful) ranks
  exact ((paths _).prod (paths _)).prod (LayerNorm.lawful.prod FeedForward.lawful)

def parameters : Parameters (DecoderBlock ℝ heads dk dFf shape) (Weights ℝ heads dk dFf shape) :=
  (((attentionParameters shape.selfAttention).prod (attentionParameters shape.crossAttention)).prod
    (finishParameters shape)).within
      (fun block => (((block.norm1, block.selfAttention), block.norm2, block.crossAttention),
        (block.worldModel, block.hippocampal), block.norm3, block.feedForward))
      fun _ parts => ⟨parts.1.1.2, parts.1.2.2, parts.2.2.2, parts.1.1.1, parts.1.2.1, parts.2.2.1,
        parts.2.1.1, parts.2.1.2⟩

theorem lawful : (parameters : Parameters (DecoderBlock ℝ heads dk dFf shape) _).Lawful :=
  (((attention_lawful shape.selfAttention).prod (attention_lawful shape.crossAttention)).prod
    (finish_lawful shape)).within (fun _ _ => rfl) fun _ _ _ => rfl

variable [Transcendental K]

theorem zeroGrad_backward (block : DecoderBlock K heads dk dFf shape)
    (cache : Cache K rows src heads dk dFf) (gradOutput : Mat rows (heads * dk) K) :
    (block.backward cache gradOutput).1.zeroGrad = block.zeroGrad := by
  simp only [backward, finishBackward, zeroGrad, Attention.backwardSelf,
    Attention.zeroGrad_backward, GatedPath.zeroGrad_backwardOptional]
  rfl

variable [LinearOrder K]

theorem forward_zeroGrad (block : DecoderBlock K heads dk dFf shape)
    (inputs : GatedInputs K (heads * dk)) (encoderOutput : Mat src (heads * dk) K)
    (selfAttnMask : Mat rows rows K) (input : Mat rows (heads * dk) K) :
    block.zeroGrad.forward inputs encoderOutput selfAttnMask input =
      block.forward inputs encoderOutput selfAttnMask input := by
  simp only [forward, finish, zeroGrad, Attention.attendSelf, Attention.forward_zeroGrad,
    GatedPath.forwardOptional_zeroGrad]
  rfl

end DecoderBlock

section Stack

variable {K : Type} [Field K] [Transcendental K] {layers : Nat}
  {shape : Fin layers → BlockShape}

theorem zeroGrad_backwardBlocks (blocks : ∀ l, DecoderBlock K heads dk dFf (shape l))
    (caches : Fin layers → DecoderBlock.Cache K rows src heads dk dFf)
    (gradOutput : Mat rows (heads * dk) K) (l : Fin layers) :
    ((backwardBlocks blocks caches gradOutput).1 l).zeroGrad = (blocks l).zeroGrad := by
  induction layers with
  | zero => exact l.elim0
  | succ layers ih =>
      cases l using Fin.cases with
      | zero => exact (blocks 0).zeroGrad_backward (caches 0) _
      | succ l => exact ih (fun l => blocks l.succ) (fun l => caches l.succ) l

variable [LinearOrder K]

theorem forwardBlocks_zeroGrad (inputs : GatedInputs K (heads * dk))
    (encoderOutput : Mat src (heads * dk) K) (selfAttnMask : Mat rows rows K)
    (blocks : ∀ l, DecoderBlock K heads dk dFf (shape l)) (x : Mat rows (heads * dk) K) :
    forwardBlocks inputs encoderOutput selfAttnMask (fun l => (blocks l).zeroGrad) x =
      forwardBlocks inputs encoderOutput selfAttnMask blocks x := by
  induction layers generalizing x with
  | zero => rfl
  | succ layers ih =>
      simp only [forwardBlocks_succ, DecoderBlock.forward_zeroGrad]
      rw [ih fun l => blocks l.succ]

end Stack

/-! ## The decoder -/

namespace LLMDecoder

variable {K : Type} [Field K] {vocabSize layers : Nat} {shape : Fin layers → BlockShape}

def zeroGrad (decoder : LLMDecoder K vocabSize heads dk dFf shape) :
    LLMDecoder K vocabSize heads dk dFf shape :=
  { decoder with
    tokenEmbedding := decoder.tokenEmbedding.zeroGrad
    decoderBlocks := fun l => (decoder.decoderBlocks l).zeroGrad
    finalNorm := decoder.finalNorm.zeroGrad }

/-- Without gradients, nothing is updated. -/
def updateWeights (requiresGrad : Bool) (learningRate : K)
    (decoder : LLMDecoder K vocabSize heads dk dFf shape) :
    LLMDecoder K vocabSize heads dk dFf shape :=
  if requiresGrad then
    { decoder with
      tokenEmbedding := decoder.tokenEmbedding.updateWeights learningRate
      decoderBlocks := fun l => (decoder.decoderBlocks l).updateWeights learningRate
      finalNorm := decoder.finalNorm.updateWeights learningRate }
  else decoder

def parameters :
    Parameters (LLMDecoder ℝ vocabSize heads dk dFf shape)
      (Weights ℝ vocabSize heads dk dFf shape) :=
  ((TokenEmbedding.parameters.prod (Parameters.pi fun _ => DecoderBlock.parameters)).prod
    LayerNorm.parameters).within
      (fun decoder => ((decoder.tokenEmbedding, decoder.decoderBlocks), decoder.finalNorm))
      fun decoder parts => { decoder with
        tokenEmbedding := parts.1.1
        decoderBlocks := parts.1.2
        finalNorm := parts.2 }

theorem lawful :
    (parameters : Parameters (LLMDecoder ℝ vocabSize heads dk dFf shape) _).Lawful := by
  have blocks := Parameters.Lawful.pi fun l =>
    (DecoderBlock.lawful : (_ : Parameters (DecoderBlock ℝ heads dk dFf (shape l)) _).Lawful)
  exact ((TokenEmbedding.lawful.prod blocks).prod LayerNorm.lawful).within (fun _ _ => rfl)
    fun _ _ _ => rfl

variable [Transcendental K]

theorem zeroGrad_backward (decoder : LLMDecoder K vocabSize heads dk dFf shape)
    (tokenIds : List (Fin vocabSize)) (cache : Cache K tokenIds.length src heads dk dFf layers)
    (gradOutput : Mat tokenIds.length (heads * dk) K) :
    (decoder.backward true tokenIds cache gradOutput).1.zeroGrad = decoder.zeroGrad := by
  have blocks := funext (zeroGrad_backwardBlocks decoder.decoderBlocks cache.blocks
    (decoder.finalNorm.backward cache.finalNorm gradOutput).2)
  exact congrArg (fun blocks => LLMDecoder.mk decoder.tokenEmbedding.zeroGrad
    decoder.positionalEncoding blocks decoder.finalNorm.zeroGrad) blocks

variable [LinearOrder K]

theorem forward_zeroGrad (decoder : LLMDecoder K vocabSize heads dk dFf shape)
    (inputs : GatedInputs K (heads * dk)) (encoderOutput : Mat src (heads * dk) K)
    (embeddings : Mat rows (heads * dk) K) :
    decoder.zeroGrad.decode inputs encoderOutput embeddings =
      decoder.decode inputs encoderOutput embeddings := by
  simp only [decode, zeroGrad, forwardBlocks_zeroGrad]
  rfl

end LLMDecoder

/-! ## The encoder -/

namespace EncoderBlock

variable {K : Type} [Field K] {ranks : Ranks}

def zeroGrad (block : EncoderBlock K (Attention K heads dk ranks) (heads * dk) dFf) :
    EncoderBlock K (Attention K heads dk ranks) (heads * dk) dFf :=
  ⟨block.attention.zeroGrad, block.feedForward.zeroGrad, block.norm1.zeroGrad,
    block.norm2.zeroGrad⟩

def updateWeights (learningRate : K)
    (block : EncoderBlock K (Attention K heads dk ranks) (heads * dk) dFf) :
    EncoderBlock K (Attention K heads dk ranks) (heads * dk) dFf :=
  ⟨block.attention.updateWeights learningRate, block.feedForward.updateWeights learningRate,
    block.norm1.updateWeights learningRate, block.norm2.updateWeights learningRate⟩

def parameters : Parameters (EncoderBlock ℝ (Attention ℝ heads dk ranks) (heads * dk) dFf)
    (EncoderWeights ℝ heads dk dFf ranks) :=
  ((attentionParameters ranks).prod (LayerNorm.parameters.prod FeedForward.parameters)).within
    (fun block => ((block.norm1, block.attention), block.norm2, block.feedForward))
    fun _ parts => ⟨parts.1.2, parts.2.2, parts.1.1, parts.2.1⟩

theorem parameters_lawful :
    (parameters : Parameters (EncoderBlock ℝ (Attention ℝ heads dk ranks) (heads * dk) dFf)
      _).Lawful :=
  ((attention_lawful ranks).prod (LayerNorm.lawful.prod FeedForward.lawful)).within
    (fun _ _ => rfl) fun _ _ _ => rfl

variable [LinearOrder K] [Transcendental K]

theorem forward_zeroGrad (block : EncoderBlock K (Attention K heads dk ranks) (heads * dk) dFf)
    (mask : Mat rows rows K) (input : Mat rows (heads * dk) K) :
    block.zeroGrad.forward (Attention.selfLayer (some mask)) input =
      block.forward (Attention.selfLayer (some mask)) input := by
  simp only [forward, zeroGrad, Attention.selfLayer, Attention.attendSelf,
    Attention.forward_zeroGrad]
  rfl

theorem zeroGrad_backward (block : EncoderBlock K (Attention K heads dk ranks) (heads * dk) dFf)
    (mask : Mat rows rows K) (cache : EncoderCache K rows heads dk dFf)
    (gradOutput : Mat rows (heads * dk) K) :
    (block.backward (Attention.selfLayer (some mask)) cache gradOutput).1.zeroGrad =
      block.zeroGrad := by
  simp only [backward, zeroGrad, Attention.selfLayer, Attention.backwardSelf,
    Attention.zeroGrad_backward]
  rfl

end EncoderBlock

section EncoderStack

variable {K : Type} [Field K] [LinearOrder K] [Transcendental K] {layers : Nat}
  {ranks : Fin layers → Ranks}

theorem encodeBlocks_zeroGrad (mask : Mat rows rows K)
    (blocks : ∀ l, EncoderBlock K (Attention K heads dk (ranks l)) (heads * dk) dFf)
    (x : Mat rows (heads * dk) K) :
    encodeBlocks mask (fun l => (blocks l).zeroGrad) x = encodeBlocks mask blocks x := by
  induction layers generalizing x with
  | zero => rfl
  | succ layers ih =>
      simp only [encodeBlocks_succ, EncoderBlock.forward_zeroGrad]
      rw [ih fun l => blocks l.succ]

theorem zeroGrad_backwardEncoderBlocks (mask : Mat rows rows K)
    (blocks : ∀ l, EncoderBlock K (Attention K heads dk (ranks l)) (heads * dk) dFf)
    (caches : Fin layers → EncoderCache K rows heads dk dFf) (gradOutput : Mat rows (heads * dk) K)
    (l : Fin layers) :
    ((backwardEncoderBlocks mask blocks caches gradOutput).1 l).zeroGrad = (blocks l).zeroGrad := by
  induction layers with
  | zero => exact l.elim0
  | succ layers ih =>
      cases l using Fin.cases with
      | zero => exact (blocks 0).zeroGrad_backward mask (caches 0) _
      | succ l => exact ih (fun l => blocks l.succ) (fun l => caches l.succ) l

end EncoderStack

namespace LLMEncoder

variable {K : Type} [Field K] {vocabSize layers : Nat} {ranks : Fin layers → Ranks}

def zeroGrad (encoder : LLMEncoder K vocabSize heads dk dFf ranks) :
    LLMEncoder K vocabSize heads dk dFf ranks :=
  { encoder with
    tokenEmbedding := encoder.tokenEmbedding.zeroGrad
    encoderBlocks := fun l => (encoder.encoderBlocks l).zeroGrad
    finalNorm := encoder.finalNorm.zeroGrad }

def updateWeights (learningRate : K) (encoder : LLMEncoder K vocabSize heads dk dFf ranks) :
    LLMEncoder K vocabSize heads dk dFf ranks :=
  { encoder with
    tokenEmbedding := encoder.tokenEmbedding.updateWeights learningRate
    encoderBlocks := fun l => (encoder.encoderBlocks l).updateWeights learningRate
    finalNorm := encoder.finalNorm.updateWeights learningRate }

def parameters :
    Parameters (LLMEncoder ℝ vocabSize heads dk dFf ranks)
      (Weights ℝ vocabSize heads dk dFf ranks) :=
  ((TokenEmbedding.parameters.prod (Parameters.pi fun _ => EncoderBlock.parameters)).prod
    LayerNorm.parameters).within
      (fun encoder => ((encoder.tokenEmbedding, encoder.encoderBlocks), encoder.finalNorm))
      fun encoder parts => { encoder with
        tokenEmbedding := parts.1.1
        encoderBlocks := parts.1.2
        finalNorm := parts.2 }

theorem lawful :
    (parameters : Parameters (LLMEncoder ℝ vocabSize heads dk dFf ranks) _).Lawful := by
  have blocks := Parameters.Lawful.pi fun l =>
    (EncoderBlock.parameters_lawful :
      (_ : Parameters (EncoderBlock ℝ (Attention ℝ heads dk (ranks l)) (heads * dk) dFf) _).Lawful)
  exact ((TokenEmbedding.lawful.prod blocks).prod LayerNorm.lawful).within (fun _ _ => rfl)
    fun _ _ _ => rfl

variable [LinearOrder K] [Transcendental K]

theorem forward_zeroGrad (encoder : LLMEncoder K vocabSize heads dk dFf ranks)
    (mask : Mat rows rows K) (embeddings : Mat rows (heads * dk) K) :
    encoder.zeroGrad.encode mask embeddings = encoder.encode mask embeddings := by
  simp only [encode, zeroGrad, encodeBlocks_zeroGrad]
  rfl

theorem zeroGrad_backward (encoder : LLMEncoder K vocabSize heads dk dFf ranks)
    (tokenIds : List (Fin vocabSize)) (cache : Cache K tokenIds.length heads dk dFf layers)
    (gradOutput : Mat tokenIds.length (heads * dk) K) :
    (encoder.backwardRows tokenIds cache gradOutput).zeroGrad = encoder.zeroGrad := by
  have blocks := funext (zeroGrad_backwardEncoderBlocks (fullMask tokenIds.length)
    encoder.encoderBlocks cache.blocks (encoder.finalNorm.backward cache.finalNorm gradOutput).2)
  exact congrArg (fun blocks => LLMEncoder.mk encoder.maxSeqLength encoder.tokenEmbedding.zeroGrad
    encoder.positionalEncoding blocks encoder.finalNorm.zeroGrad) blocks

end LLMEncoder

/-! ## The model -/

namespace EncoderDecoderModel

variable {K : Type} [Field K] {vocabSize encoderLayers decoderLayers : Nat}
  {ranks : Fin encoderLayers → Ranks} {shape : Fin decoderLayers → BlockShape}

def zeroGrad (model : EncoderDecoderModel K vocabSize heads dk dFf ranks shape) :
    EncoderDecoderModel K vocabSize heads dk dFf ranks shape :=
  { model with
    encoder := model.encoder.zeroGrad
    decoder := model.decoder.zeroGrad
    lmHead := model.lmHead.zeroGrad }

/-- Without an optimizer, every part takes a step of its own. -/
def updateWeights (requiresGrad : RequiresGrad) (learningRate : K)
    (model : EncoderDecoderModel K vocabSize heads dk dFf ranks shape) :
    EncoderDecoderModel K vocabSize heads dk dFf ranks shape :=
  { model with
    encoder := model.encoder.updateWeights learningRate
    decoder := model.decoder.updateWeights requiresGrad.decoder learningRate
    lmHead := model.lmHead.updateWeights learningRate }

def parameters : Parameters (EncoderDecoderModel ℝ vocabSize heads dk dFf ranks shape)
    (Weights ℝ vocabSize heads dk dFf ranks shape) :=
  ((LLMEncoder.parameters.prod LLMDecoder.parameters).prod LanguageModelHead.parameters).within
    (fun model => ((model.encoder, model.decoder), model.lmHead))
    fun model parts => { model with
      encoder := parts.1.1
      decoder := parts.1.2
      lmHead := parts.2 }

theorem lawful :
    (parameters : Parameters (EncoderDecoderModel ℝ vocabSize heads dk dFf ranks shape)
      _).Lawful :=
  ((LLMEncoder.lawful.prod LLMDecoder.lawful).prod LanguageModelHead.lawful).within
    (fun _ _ => rfl) fun _ _ _ => rfl

/-- The part of a gradient that a step uses: all but that of the adapters. -/
def trained : Weights ℝ vocabSize heads dk dFf ranks shape →
    Weights ℝ vocabSize heads dk dFf ranks shape :=
  (parameters : Parameters (EncoderDecoderModel ℝ vocabSize heads dk dFf ranks shape) _).trained

theorem trains (inputs : GatedInputs ℝ (heads * dk)) (inputIds targetIds : List (Fin vocabSize)) :
    (layer inputs inputIds targetIds :
      Layer (EncoderDecoderModel ℝ vocabSize heads dk dFf ranks shape) _ _ _).Trains zeroGrad
        (updateWeights (.setTraining true)) trained where
  toLawful := lawful
  forward_zeroGrad := fun model _ => by
    have encoded := model.encoder.forward_zeroGrad (LLMEncoder.fullMask inputIds.length)
      (model.encoder.tokenEmbedding.lookup inputIds)
    have decoded := model.decoder.forward_zeroGrad inputs
      (model.encoder.encode (LLMEncoder.fullMask inputIds.length)
        (model.encoder.tokenEmbedding.lookup inputIds)).2
      (model.decoder.tokenEmbedding.lookup targetIds)
    have both := (congrArg (fun encoded => (encoded, model.decoder.zeroGrad.decode inputs encoded.2
      (model.decoder.tokenEmbedding.lookup targetIds))) encoded).trans
        (congrArg (Prod.mk _) decoded)
    exact congrArg (fun x => ((x.1.1, x.2.1, x.2.2), model.lmHead.forward x.2.2)) both
  zeroGrad_backward := fun model cache g => by
    have decoded := model.decoder.zeroGrad_backward targetIds cache.2.1
      (model.lmHead.backward cache.2.2 g).2
    have encoded := model.encoder.zeroGrad_backward inputIds cache.1
      ((LLMDecoder.layer inputs targetIds).backward model.decoder cache.2.1
        (model.lmHead.backward cache.2.2 g).2).2
    exact congrArg₂ (fun encoder decoder => EncoderDecoderModel.mk encoder decoder
      model.lmHead.zeroGrad model.bosTokenId model.gatedInputs) encoded decoded

end EncoderDecoderModel

end Adai.Transformer

end
