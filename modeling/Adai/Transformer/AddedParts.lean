import Adai.Transformer.EncoderDecoderModel

/-! # Parts added to a model

Adapters are enabled with zero factors and merged away in the end, and gated paths start with
closed gates. Models whose blocks act alike have the same outputs, with caches and without
(`Adai.Transformer.EncoderDecoderModel.Alike.sameOutputs`). So enabling adapters leaves the
outputs of the base weights, merging leaves the outputs of the adapted weights
(`Adai.Transformer.adapters_leave_outputs`), and behind closed gates neither the world model
nor the memory is seen (`Adai.Transformer.closed_gates_leave_outputs`).
-/

noncomputable section

namespace Adai.Transformer

open Backpropagation Gradients Adai.Transformer.Transcendental

/-! ## Projections and attentions that act alike -/

section Alike

variable {K : Type} [Field K] {dim : Nat} {rank rank' : Option Nat}

/-- The second maps every input to what the first maps it to. -/
def Projection.Alike (first : Projection K dim rank) (second : Projection K dim rank') : Prop :=
  ∀ (rows : Nat) (x : Mat rows dim K), second.forward x = first.forward x

theorem Projection.alike_merge (projection : Projection K dim rank) :
    projection.Alike projection.merge :=
  fun _ x => projection.forward_merge x

/-- The same weights with another adapter or none. -/
def Projection.setLora (projection : Projection K dim rank)
    (lora : Slot (LoRAAdapter K dim) rank') :
    Projection K dim rank' where
  W := projection.W
  grad := projection.grad
  lora := lora

def Projection.withoutLora (projection : Projection K dim rank) : Projection K dim none :=
  projection.setLora ⟨⟩

structure Attention.Alike {heads dk : Nat} {ranks ranks' : Ranks}
    (first : Attention K heads dk ranks) (second : Attention K heads dk ranks') : Prop where
  q : first.q.Alike second.q
  k : first.k.Alike second.k
  v : first.v.Alike second.v
  o : first.o.Alike second.o

end Alike

variable {K : Type} [Field K] [LinearOrder K] [Transcendental K] {heads dk dFf vocabSize : Nat}

namespace Attention

variable {ranks ranks' : Ranks} {first : Attention K heads dk ranks}
  {second : Attention K heads dk ranks'} {rows tgt src : Nat}

theorem Alike.outputOf (alike : first.Alike second) (bias mask : Option (Mat tgt src K))
    (Q : Mat tgt (heads * dk) K) (K' V : Mat src (heads * dk) K) :
    outputOf bias mask second Q K' V = Attention.outputOf bias mask first Q K' V :=
  alike.o _ _

theorem Alike.attend (alike : first.Alike second) (bias mask : Option (Mat tgt src K))
    (query : Mat tgt (heads * dk) K) (kv : Mat src (heads * dk) K) :
    (attend bias mask second query kv).2 = (Attention.attend bias mask first query kv).2 := by
  rw [attend_eq, attend_eq, alike.outputOf, alike.q, alike.k, alike.v]

theorem Alike.attendCached (alike : first.Alike second) (mask : SizedMatrix K)
    (cache : KVCache K (heads * dk)) (input : Mat rows (heads * dk) K) :
    attendCached mask second cache input = Attention.attendCached mask first cache input := by
  rw [Attention.attendCached, Attention.attendCached, alike.q, alike.k, alike.v]
  simp only [alike.outputOf]

theorem Alike.attendConstant (alike : first.Alike second) (cache : KVCache K (heads * dk))
    (query : Mat tgt (heads * dk) K) (kv : Mat src (heads * dk) K) :
    attendConstant second cache query kv = Attention.attendConstant first cache query kv := by
  rw [Attention.attendConstant, Attention.attendConstant, alike.q, alike.k, alike.v]
  simp only [alike.outputOf]

end Attention

/-! ## Blocks and models that act alike -/

/-- With its inputs the second block gives what the first gives with its own. -/
structure DecoderBlock.Alike {shape shape' : BlockShape}
    (inputs inputs' : GatedInputs K (heads * dk))
    (first : DecoderBlock K heads dk dFf shape) (second : DecoderBlock K heads dk dFf shape') :
    Prop where
  forward : ∀ {rows src : Nat} (encoderOutput : Mat src (heads * dk) K) (mask : Mat rows rows K)
    (x : Mat rows (heads * dk) K),
    (second.forward inputs' encoderOutput mask x).2 = (first.forward inputs encoderOutput mask x).2
  forwardWithCache : ∀ {rows src : Nat} (encoderOutput : Mat src (heads * dk) K)
    (mask : SizedMatrix K) (cache : LayerCache K (heads * dk)) (x : Mat rows (heads * dk) K),
    second.forwardWithCache inputs' encoderOutput mask cache x =
      first.forwardWithCache inputs encoderOutput mask cache x

/-- Blocks act alike when their attentions do and what comes behind these. -/
theorem DecoderBlock.alike_of_parts {shape shape' : BlockShape}
    {inputs inputs' : GatedInputs K (heads * dk)} {first : DecoderBlock K heads dk dFf shape}
    {second : DecoderBlock K heads dk dFf shape'}
    (selfAttention : first.selfAttention.Alike second.selfAttention)
    (crossAttention : first.crossAttention.Alike second.crossAttention)
    (norm1 : second.norm1 = first.norm1) (norm2 : second.norm2 = first.norm2)
    (finish : ∀ {rows : Nat} (residual2 : Mat rows (heads * dk) K),
      (second.finish inputs' residual2).2 = (first.finish inputs residual2).2) :
    DecoderBlock.Alike inputs inputs' first second where
  forward encoderOutput mask x := by
    rw [DecoderBlock.forward, DecoderBlock.forward]
    dsimp only [Attention.attendSelf]
    rw [norm1, norm2, selfAttention.attend, crossAttention.attend, finish]
  forwardWithCache encoderOutput mask cache x := by
    rw [DecoderBlock.forwardWithCache, DecoderBlock.forwardWithCache, norm1, norm2,
      selfAttention.attendCached]
    simp only [crossAttention.attendConstant, finish]

theorem forwardBlocks_alike {inputs inputs' : GatedInputs K (heads * dk)} {rows src : Nat}
    (encoderOutput : Mat src (heads * dk) K) (mask : Mat rows rows K) {layers : Nat}
    {shape shape' : Fin layers → BlockShape} {first : ∀ l, DecoderBlock K heads dk dFf (shape l)}
    {second : ∀ l, DecoderBlock K heads dk dFf (shape' l)}
    (alike : ∀ l, DecoderBlock.Alike inputs inputs' (first l) (second l))
    (x : Mat rows (heads * dk) K) :
    (forwardBlocks inputs' encoderOutput mask second x).2 =
      (forwardBlocks inputs encoderOutput mask first x).2 := by
  induction layers generalizing x with
  | zero => rfl
  | succ layers ih =>
      rw [forwardBlocks_succ, forwardBlocks_succ]
      dsimp only
      rw [(alike 0).forward]
      exact ih (fun l => alike l.succ) _

theorem forwardBlocksWithCache_alike {inputs inputs' : GatedInputs K (heads * dk)} {rows src : Nat}
    (encoderOutput : Mat src (heads * dk) K) (mask : SizedMatrix K) {layers : Nat}
    {shape shape' : Fin layers → BlockShape} {first : ∀ l, DecoderBlock K heads dk dFf (shape l)}
    {second : ∀ l, DecoderBlock K heads dk dFf (shape' l)}
    (alike : ∀ l, DecoderBlock.Alike inputs inputs' (first l) (second l))
    (caches : Fin layers → LayerCache K (heads * dk)) (x : Mat rows (heads * dk) K) :
    forwardBlocksWithCache inputs' encoderOutput mask second caches x =
      forwardBlocksWithCache inputs encoderOutput mask first caches x := by
  induction layers generalizing x with
  | zero => rfl
  | succ layers ih =>
      rw [forwardBlocksWithCache_succ, forwardBlocksWithCache_succ, (alike 0).forwardWithCache]
      have others (x : Mat rows (heads * dk) K) :=
        ih (fun l => alike l.succ) (fun l => caches l.succ) x
      simp only [others]

theorem encodeBlocks_alike {rows : Nat} (mask : Mat rows rows K) {layers : Nat}
    {ranks ranks' : Fin layers → Ranks}
    {first : ∀ l, EncoderBlock K (Attention K heads dk (ranks l)) (heads * dk) dFf}
    {second : ∀ l, EncoderBlock K (Attention K heads dk (ranks' l)) (heads * dk) dFf}
    (attention : ∀ l, (first l).attention.Alike (second l).attention)
    (norm1 : ∀ l, (second l).norm1 = (first l).norm1)
    (norm2 : ∀ l, (second l).norm2 = (first l).norm2)
    (feedForward : ∀ l, (second l).feedForward = (first l).feedForward)
    (x : Mat rows (heads * dk) K) :
    (encodeBlocks mask second x).2 = (encodeBlocks mask first x).2 := by
  induction layers generalizing x with
  | zero => rfl
  | succ layers ih =>
      have block : ((second 0).forward (Attention.selfLayer (some mask)) x).2 =
          ((first 0).forward (Attention.selfLayer (some mask)) x).2 := by
        rw [EncoderBlock.forward, EncoderBlock.forward]
        dsimp only [Attention.selfLayer, Attention.attendSelf]
        rw [norm1, norm2, feedForward, (attention 0).attend]
      rw [encodeBlocks_succ, encodeBlocks_succ]
      dsimp only
      rw [block]
      exact ih (fun l => attention l.succ) (fun l => norm1 l.succ) (fun l => norm2 l.succ)
        (fun l => feedForward l.succ) _

namespace EncoderDecoderModel

variable {encoderLayers decoderLayers : Nat} {ranks ranks' : Fin encoderLayers → Ranks}
  {shape shape' : Fin decoderLayers → BlockShape}

structure Alike (first : EncoderDecoderModel K vocabSize heads dk dFf ranks shape)
    (second : EncoderDecoderModel K vocabSize heads dk dFf ranks' shape') : Prop where
  maxSeqLength : second.encoder.maxSeqLength = first.encoder.maxSeqLength
  encoderEmbedding : second.encoder.tokenEmbedding = first.encoder.tokenEmbedding
  encoderPositions : second.encoder.positionalEncoding = first.encoder.positionalEncoding
  encoderNorm : second.encoder.finalNorm = first.encoder.finalNorm
  encoderBlocks : ∀ {rows : Nat} (mask : Mat rows rows K) (x : Mat rows (heads * dk) K),
    (encodeBlocks mask second.encoder.encoderBlocks x).2 =
      (encodeBlocks mask first.encoder.encoderBlocks x).2
  decoderEmbedding : second.decoder.tokenEmbedding = first.decoder.tokenEmbedding
  decoderPositions : second.decoder.positionalEncoding = first.decoder.positionalEncoding
  decoderNorm : second.decoder.finalNorm = first.decoder.finalNorm
  decoderBlocks : ∀ tokens l,
    DecoderBlock.Alike (first.gatedInputs tokens) (second.gatedInputs tokens)
      (first.decoder.decoderBlocks l) (second.decoder.decoderBlocks l)
  lmHead : second.lmHead = first.lmHead
  bosTokenId : second.bosTokenId = first.bosTokenId

/-- The passes of training and of decoding return the same, and decoding with caches returns
and keeps the same. -/
structure SameOutputs (first : EncoderDecoderModel K vocabSize heads dk dFf ranks shape)
    (second : EncoderDecoderModel K vocabSize heads dk dFf ranks' shape') : Prop where
  forward : ∀ inputTokens targetTokens,
    second.forward inputTokens targetTokens = first.forward inputTokens targetTokens
  nextTokenLogits : ∀ inputTokens decoderTokens lastRows,
    second.nextTokenLogits inputTokens decoderTokens lastRows =
      first.nextTokenLogits inputTokens decoderTokens lastRows
  forwardWithCache : ∀ inputTokens encoderOutput kvCache tokenIds,
    second.decoder.forwardWithCache (second.gatedInputs inputTokens) encoderOutput kvCache
        tokenIds =
      first.decoder.forwardWithCache (first.gatedInputs inputTokens) encoderOutput kvCache tokenIds

variable {first : EncoderDecoderModel K vocabSize heads dk dFf ranks shape}
  {second : EncoderDecoderModel K vocabSize heads dk dFf ranks' shape'}

theorem Alike.runDecoder (alike : Alike first second) (inputTokens decoderInput : List Int) :
    runDecoder second inputTokens decoderInput =
      EncoderDecoderModel.runDecoder first inputTokens decoderInput := by
  have encode {rows : Nat} (mask : Mat rows rows K) (embeddings : Mat rows (heads * dk) K) :
      (second.encoder.encode mask embeddings).2 = (first.encoder.encode mask embeddings).2 := by
    rw [LLMEncoder.encode, LLMEncoder.encode]
    dsimp only
    rw [alike.encoderPositions, alike.encoderNorm, alike.encoderBlocks]
  have decode {rows src : Nat} (encoderOutput : Mat src (heads * dk) K)
      (embeddings : Mat rows (heads * dk) K) :
      (second.decoder.decode (second.gatedInputs inputTokens) encoderOutput embeddings).2 =
        (first.decoder.decode (first.gatedInputs inputTokens) encoderOutput embeddings).2 := by
    rw [LLMDecoder.decode, LLMDecoder.decode]
    dsimp only
    rw [alike.decoderPositions, alike.decoderNorm,
      forwardBlocks_alike encoderOutput (causalMask rows) (alike.decoderBlocks inputTokens)]
  rw [EncoderDecoderModel.runDecoder, EncoderDecoderModel.runDecoder]
  simp only [LLMEncoder.encodeWithMask, LLMDecoder.forwardWithEncoder, encode, decode,
    alike.maxSeqLength, alike.encoderEmbedding, alike.decoderEmbedding]

theorem Alike.sameOutputs (alike : Alike first second) : SameOutputs first second where
  forward inputTokens targetTokens := by
    rw [EncoderDecoderModel.forward, EncoderDecoderModel.forward]
    simp only [alike.runDecoder, LLMEncoder.keepLastPositions, alike.maxSeqLength,
      makeDecoderInput, alike.bosTokenId, project, alike.lmHead]
  nextTokenLogits inputTokens decoderTokens lastRows := by
    rw [EncoderDecoderModel.nextTokenLogits, EncoderDecoderModel.nextTokenLogits]
    simp only [alike.runDecoder, LLMEncoder.keepLastPositions, alike.maxSeqLength,
      generationInput, alike.bosTokenId, project, alike.lmHead]
  forwardWithCache inputTokens encoderOutput kvCache tokenIds := by
    rw [LLMDecoder.forwardWithCache, LLMDecoder.forwardWithCache, alike.decoderEmbedding]
    simp only [LLMDecoder.decodeWithCache, alike.decoderPositions, alike.decoderNorm,
      forwardBlocksWithCache_alike _ _ (alike.decoderBlocks inputTokens)]

/-! ## Adapters -/

/-- The model with other attentions in its encoder and its decoder. -/
def withAttentions (model : EncoderDecoderModel K vocabSize heads dk dFf ranks shape)
    (encoderAttention : ∀ l, Attention K heads dk (ranks' l))
    {selfRanks crossRanks : Fin decoderLayers → Ranks}
    (selfAttention : ∀ l, Attention K heads dk (selfRanks l))
    (crossAttention : ∀ l, Attention K heads dk (crossRanks l)) :
    EncoderDecoderModel K vocabSize heads dk dFf ranks' fun l =>
      { shape l with selfAttention := selfRanks l, crossAttention := crossRanks l } where
  encoder :=
    { maxSeqLength := model.encoder.maxSeqLength
      tokenEmbedding := model.encoder.tokenEmbedding
      positionalEncoding := model.encoder.positionalEncoding
      encoderBlocks := fun l =>
        ⟨encoderAttention l, (model.encoder.encoderBlocks l).feedForward,
          (model.encoder.encoderBlocks l).norm1, (model.encoder.encoderBlocks l).norm2⟩
      finalNorm := model.encoder.finalNorm }
  decoder :=
    { tokenEmbedding := model.decoder.tokenEmbedding
      positionalEncoding := model.decoder.positionalEncoding
      decoderBlocks := fun l =>
        let block := model.decoder.decoderBlocks l
        ⟨selfAttention l, crossAttention l, block.feedForward, block.norm1, block.norm2,
          block.norm3, block.worldModel, block.hippocampal⟩
      finalNorm := model.decoder.finalNorm }
  lmHead := model.lmHead
  bosTokenId := model.bosTokenId
  gatedInputs := model.gatedInputs

theorem alike_withAttentions (model : EncoderDecoderModel K vocabSize heads dk dFf ranks shape)
    {ranks₁ ranks₂ : Fin encoderLayers → Ranks}
    {self₁ self₂ cross₁ cross₂ : Fin decoderLayers → Ranks}
    {encoder₁ : ∀ l, Attention K heads dk (ranks₁ l)}
    {encoder₂ : ∀ l, Attention K heads dk (ranks₂ l)}
    {selfAttention₁ : ∀ l, Attention K heads dk (self₁ l)}
    {selfAttention₂ : ∀ l, Attention K heads dk (self₂ l)}
    {crossAttention₁ : ∀ l, Attention K heads dk (cross₁ l)}
    {crossAttention₂ : ∀ l, Attention K heads dk (cross₂ l)}
    (encoder : ∀ l, (encoder₁ l).Alike (encoder₂ l))
    (selfAttention : ∀ l, (selfAttention₁ l).Alike (selfAttention₂ l))
    (crossAttention : ∀ l, (crossAttention₁ l).Alike (crossAttention₂ l)) :
    Alike (model.withAttentions encoder₁ selfAttention₁ crossAttention₁)
      (model.withAttentions encoder₂ selfAttention₂ crossAttention₂) where
  maxSeqLength := rfl
  encoderEmbedding := rfl
  encoderPositions := rfl
  encoderNorm := rfl
  encoderBlocks mask x := by
    refine encodeBlocks_alike mask ?_ ?_ ?_ ?_ x
    · exact encoder
    · exact fun _ => rfl
    · exact fun _ => rfl
    · exact fun _ => rfl
  decoderEmbedding := rfl
  decoderPositions := rfl
  decoderNorm := rfl
  decoderBlocks _ l :=
    DecoderBlock.alike_of_parts (selfAttention l) (crossAttention l) rfl rfl fun _ => rfl
  lmHead := rfl
  bosTokenId := rfl

end EncoderDecoderModel

structure LoRAConfig (K : Type) where
  rank : Int
  alpha : K
  applyToQuery : Bool
  applyToKey : Bool
  applyToValue : Bool
  applyToOutput : Bool

/-- The rank of an adapter that is allocated or not. -/
def allocated (rank : Int) : Bool → Option Nat
  | true => some rank.toNat
  | false => none

def LoRAConfig.ranks (config : LoRAConfig K) : Ranks where
  q := allocated config.rank config.applyToQuery
  k := allocated config.rank config.applyToKey
  v := allocated config.rank config.applyToValue
  o := allocated config.rank config.applyToOutput

/-- A new adapter, with a random first factor. -/
def LoRAAdapter.initialize {dim rank : Nat} (alpha : K) (A : Mat rank dim K) :
    LoRAAdapter K dim rank where
  alpha := if alpha < 0 then (rank : K) else alpha
  A := A
  B := 0
  gradA := 0
  gradB := 0

def newSlot {dim : Nat} (config : LoRAConfig K) (A : Mat config.rank.toNat dim K) :
    (apply : Bool) → Slot (LoRAAdapter K dim) (allocated config.rank apply)
  | true => ( LoRAAdapter.initialize config.alpha A : LoRAAdapter K dim config.rank.toNat)
  | false => ⟨⟩

/-- The random factors of the adapters of an attention. -/
structure RandomFactors (K : Type) (rank dim : Nat) where
  q : Mat rank dim K
  k : Mat rank dim K
  v : Mat rank dim K
  o : Mat rank dim K

namespace Attention

variable {ranks : Ranks} (attention : Attention K heads dk ranks)

/-- New adapters, without those that were there. -/
def enableLora (config : LoRAConfig K) (factors : RandomFactors K config.rank.toNat (heads * dk)) :
    Attention K heads dk config.ranks where
  q := attention.q.setLora (newSlot config factors.q config.applyToQuery)
  k := attention.k.setLora (newSlot config factors.k config.applyToKey)
  v := attention.v.setLora (newSlot config factors.v config.applyToValue)
  o := attention.o.setLora (newSlot config factors.o config.applyToOutput)

def withoutLora : Attention K heads dk ⟨none, none, none, none⟩ where
  q := attention.q.withoutLora
  k := attention.k.withoutLora
  v := attention.v.withoutLora
  o := attention.o.withoutLora

end Attention

omit [Transcendental K] in
theorem LoRAAdapter.forward_initialize {dim rank rows : Nat} (alpha : K) (A : Mat rank dim K)
    (x output : Mat rows dim K) : ( LoRAAdapter.initialize alpha A).forward x output = output := by
  funext i j
  have zero : Mat.mul (Mat.mul x A.transpose) (Mat.transpose (0 : Mat dim rank K)) i j = 0 :=
    Finset.sum_eq_zero fun k _ => mul_zero _
  rw [LoRAAdapter.forward]
  dsimp only [ LoRAAdapter.initialize]
  rw [zero, mul_zero, add_zero]

omit [Transcendental K] in
theorem Projection.alike_newSlot {dim : Nat} {rank : Option Nat}
    (projection : Projection K dim rank)
    (config : LoRAConfig K) (A : Mat config.rank.toNat dim K) (apply : Bool) :
    projection.withoutLora.Alike (projection.setLora (newSlot config A apply)) := by
  intro rows x
  cases apply with
  | false => rfl
  | true => exact LoRAAdapter.forward_initialize config.alpha A x _

omit [Transcendental K] in
theorem Attention.alike_enableLora {ranks : Ranks} (attention : Attention K heads dk ranks)
    (config : LoRAConfig K) (factors : RandomFactors K config.rank.toNat (heads * dk)) :
    attention.withoutLora.Alike (attention.enableLora config factors) where
  q := attention.q.alike_newSlot config factors.q _
  k := attention.k.alike_newSlot config factors.k _
  v := attention.v.alike_newSlot config factors.v _
  o := attention.o.alike_newSlot config factors.o _

omit [LinearOrder K] [Transcendental K] in
theorem Attention.alike_mergeLora {ranks : Ranks} (attention : Attention K heads dk ranks) :
    attention.Alike attention.mergeLora where
  q := attention.q.alike_merge
  k := attention.k.alike_merge
  v := attention.v.alike_merge
  o := attention.o.alike_merge

namespace EncoderDecoderModel

variable {encoderLayers decoderLayers : Nat} {ranks : Fin encoderLayers → Ranks}
  {shape : Fin decoderLayers → BlockShape}

/-- The constructor of the first adapter refuses its rank. -/
def enableLora (model : EncoderDecoderModel K vocabSize heads dk dFf ranks shape)
    (config : LoRAConfig K)
    (encoderFactors : Fin encoderLayers → RandomFactors K config.rank.toNat (heads * dk))
    (selfFactors crossFactors : Fin decoderLayers →
      RandomFactors K config.rank.toNat (heads * dk)) :
    Except String (EncoderDecoderModel K vocabSize heads dk dFf
      (fun _ : Fin encoderLayers => config.ranks) fun l : Fin decoderLayers =>
        { shape l with selfAttention := config.ranks, crossAttention := config.ranks }) :=
  if 0 < encoderLayers + decoderLayers ∧
      (config.applyToQuery || config.applyToKey || config.applyToValue || config.applyToOutput) ∧
      (config.rank ≤ 0 ∨ (heads * dk : Nat) < config.rank) then
    .error "Invalid LoRA rank"
  else
    .ok (model.withAttentions
      (fun l => (model.encoder.encoderBlocks l).attention.enableLora config (encoderFactors l))
      (fun l => (model.decoder.decoderBlocks l).selfAttention.enableLora config (selfFactors l))
      (fun l => (model.decoder.decoderBlocks l).crossAttention.enableLora config (crossFactors l)))

/-- The adapters of the gated paths are not merged. -/
def mergeLora (model : EncoderDecoderModel K vocabSize heads dk dFf ranks shape) :=
  model.withAttentions (fun l => (model.encoder.encoderBlocks l).attention.mergeLora)
    (fun l => (model.decoder.decoderBlocks l).selfAttention.mergeLora)
    (fun l => (model.decoder.decoderBlocks l).crossAttention.mergeLora)

/-- The base weights alone. -/
def withoutLora (model : EncoderDecoderModel K vocabSize heads dk dFf ranks shape) :=
  model.withAttentions (fun l => (model.encoder.encoderBlocks l).attention.withoutLora)
    (fun l => (model.decoder.decoderBlocks l).selfAttention.withoutLora)
    (fun l => (model.decoder.decoderBlocks l).crossAttention.withoutLora)

/-! ## Closed gates -/

/-- The gate of a path is closed, if the block has the path. -/
def gateClosed : {ranks : Option Ranks} → Slot (GatedPath ℝ heads dk) ranks → Prop
  | none, _ => True
  | some _, path => GatedPath.gate path = 0

theorem forwardOptional_closed {ranks : Option Ranks} {path : Slot (GatedPath ℝ heads dk) ranks}
    (closed : gateClosed path) {rows : Nat} (source : Option (GatedSource ℝ (heads * dk)))
    (residual : Mat rows (heads * dk)) :
    (GatedPath.forwardOptional path source residual).2 = residual := by
  rcases ranks with _ | ranks
  · rfl
  · rcases source with _ | source
    · rfl
    · have zero : GatedPath.gate path = 0 := closed
      funext i j
      change residual i j + Real.tanh (GatedPath.gate path) * _ = _
      rw [zero, Real.tanh_zero, zero_mul, add_zero]

theorem alike_of_closed {shape : BlockShape} {block : DecoderBlock ℝ heads dk dFf shape}
    (world : gateClosed block.worldModel) (hippocampal : gateClosed block.hippocampal)
    (inputs inputs' : GatedInputs ℝ (heads * dk)) : DecoderBlock.Alike inputs inputs' block block :=
  DecoderBlock.alike_of_parts ⟨fun _ _ => rfl, fun _ _ => rfl, fun _ _ => rfl, fun _ _ => rfl⟩
    ⟨fun _ _ => rfl, fun _ _ => rfl, fun _ _ => rfl, fun _ _ => rfl⟩ rfl rfl fun residual2 => by
      rw [DecoderBlock.finish, DecoderBlock.finish]
      dsimp only
      rw [forwardOptional_closed world, forwardOptional_closed hippocampal,
        forwardOptional_closed world, forwardOptional_closed hippocampal]

end EncoderDecoderModel

open EncoderDecoderModel

variable {encoderLayers decoderLayers : Nat} {ranks : Fin encoderLayers → Ranks}
  {shape : Fin decoderLayers → BlockShape}

/-- **Adapters.** Merging the adapters leaves all outputs as they are. Enabling adapters leaves
the outputs of the base weights, whatever the random factors, and whichever adapters there were
before. -/
theorem adapters_leave_outputs (model : EncoderDecoderModel K vocabSize heads dk dFf ranks shape) :
    SameOutputs model model.mergeLora ∧
      ∀ config encoderFactors selfFactors crossFactors after,
        model.enableLora config encoderFactors selfFactors crossFactors = .ok after →
          SameOutputs model.withoutLora after := by
  refine ⟨?_, fun config encoderFactors selfFactors crossFactors after enabled => ?_⟩
  · have alike : Alike model model.mergeLora :=
      model.alike_withAttentions
        (fun l => (model.encoder.encoderBlocks l).attention.alike_mergeLora)
        (fun l => (model.decoder.decoderBlocks l).selfAttention.alike_mergeLora)
        (fun l => (model.decoder.decoderBlocks l).crossAttention.alike_mergeLora)
    exact alike.sameOutputs
  · rw [EncoderDecoderModel.enableLora] at enabled
    split at enabled
    · cases enabled
    · obtain rfl := Except.ok.inj enabled
      refine (model.alike_withAttentions ?_ ?_ ?_).sameOutputs
      · exact fun l => Attention.alike_enableLora _ config (encoderFactors l)
      · exact fun l => Attention.alike_enableLora _ config (selfFactors l)
      · exact fun l => Attention.alike_enableLora _ config (crossFactors l)

/-- **Closed gates.** While all gates are closed, the outputs do not depend on the world model
or on the memory. -/
theorem closed_gates_leave_outputs
    (model : EncoderDecoderModel ℝ vocabSize heads dk dFf ranks shape)
    (world : ∀ l, gateClosed (model.decoder.decoderBlocks l).worldModel)
    (hippocampal : ∀ l, gateClosed (model.decoder.decoderBlocks l).hippocampal)
    (inputs : List Int → GatedInputs ℝ (heads * dk)) :
    SameOutputs model { model with gatedInputs := inputs } := by
  refine Alike.sameOutputs ⟨rfl, rfl, rfl, rfl, fun _ _ => rfl, rfl, rfl, rfl, fun tokens l => ?_,
    rfl, rfl⟩
  exact alike_of_closed (world l) (hippocampal l) _ _

/-- A layer with a new path to a world model and none to a memory. -/
def gatedModel : EncoderDecoderModel ℝ 2 1 1 1 (fun l : Fin 0 => l.elim0)
    (fun _ : Fin 1 => ⟨⟨none, none, none, none⟩, ⟨none, none, none, none⟩,
      some ⟨none, none, none, none⟩, none⟩) :=
  let attention : Attention ℝ 1 1 ⟨none, none, none, none⟩ :=
    ⟨⟨1, 0, ⟨⟩⟩, ⟨1, 0, ⟨⟩⟩, ⟨1, 0, ⟨⟩⟩, ⟨1, 0, ⟨⟩⟩⟩
  let norm : LayerNorm ℝ (1 * 1) := ⟨1, 1, 0, 0, 0⟩
  { encoder := ⟨4, ⟨1, 0⟩, ⟨4, 0⟩, fun l => l.elim0, norm⟩
    decoder := ⟨⟨1, 0⟩, ⟨4, 0⟩, fun _ => ⟨attention, attention, ⟨1, 0, 1, 0, 0, 0, 0, 0⟩, norm,
      norm, norm, (⟨attention, norm, 0, 0⟩ : GatedPath ℝ 1 1 ⟨none, none, none, none⟩), ⟨⟩⟩,
      norm⟩
    lmHead := ⟨1, 0, 0, 0⟩
    bosTokenId := 0
    gatedInputs := fun _ => ⟨none, none, 0, 0⟩ }

theorem closed_gates_leave_outputs_world :
    SameOutputs gatedModel { gatedModel with gatedInputs := fun _ => ⟨some ⟨1, 1⟩, none, 0, 0⟩ } :=
  closed_gates_leave_outputs gatedModel (fun _ => rfl) (fun _ => trivial) _

end Adai.Transformer

end
