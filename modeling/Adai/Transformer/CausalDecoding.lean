import Adai.Transformer.LLMDecoder

/-! # Decoding the first tokens of a sequence

Under a causal mask a row depends on no later row, in any number of layers
(`forwardBlocks_initial`). So the decoder's output for the first tokens of a sequence, and
the keys and values of its layers, are the first rows of those for all tokens.
-/

noncomputable section

namespace Adai.Transformer

open Gradients

variable {K : Type} [Field K] {vocabSize heads dk dFf src m n : Nat} {r : Fin m → Fin n}

/-! ## Attention -/

section Mask

variable (keeps : ∀ i, (r i).val = i.val)
include keeps

theorem strictMono_of_keeps : StrictMono r := by
  intro i j less
  rw [Fin.lt_def, keeps, keeps]
  exact less

theorem causalMask_inside (i : Fin m) (j : Fin n) (seen : causalMask (K := K) n (r i) j ≠ 0) :
    j ∈ Set.range r := by
  have below : j.val ≤ i.val := by
    by_contra above
    exact seen (if_neg (by rwa [keeps]))
  exact ⟨⟨j, by omega⟩, Fin.ext (keeps _)⟩

theorem causalMask_restrict :
    (fun i j => causalMask n (r i) (r j)) = causalMask (K := K) m := by
  funext i j
  simp only [causalMask, keeps]

theorem Encoding.addPositions_initial {dModel : Nat} (table : Encoding K dModel)
    (x : Mat n dModel K) : table.addPositions 0 (x ∘ r) = table.addPositions 0 x ∘ r := by
  funext i j
  simp only [addPositions, Function.comp_apply, keeps]

variable [LinearOrder K] [Transcendental K]

theorem Attention.attendSelf_initial {ranks : Ranks} (attention : Attention K heads dk ranks)
    (x : Mat n (heads * dk) K) :
    (attendSelf (some (causalMask m)) attention (x ∘ r)).2 =
      (attendSelf (some (causalMask n)) attention x).2 ∘ r := by
  have restricted := outputOf_restrict attention (strictMono_of_keeps keeps)
    (causalMask_inside keeps) (attention.q.forward x) (attention.k.forward x)
    (attention.v.forward x)
  rw [causalMask_restrict keeps] at restricted
  simp only [attendSelf, attend_eq, Projection.forward_rows]
  exact restricted

end Mask

variable [LinearOrder K] [Transcendental K]

/-! ## Blocks -/

namespace DecoderBlock

variable {shape : BlockShape} (block : DecoderBlock K heads dk dFf shape)
  (inputs : GatedInputs K (heads * dk)) (encoderOutput : Mat src (heads * dk) K)

/-- The cross-attention, the gated paths and the feed-forward network. -/
def behindSelf (residual1 : Mat n (heads * dk) K) : Mat n (heads * dk) K :=
  (block.finish inputs (residual1 + (Attention.attend none none block.crossAttention
    (block.norm2.forward residual1).2 encoderOutput).2)).2

theorem forward_eq (mask : Mat n n K) (x : Mat n (heads * dk) K) :
    (block.forward inputs encoderOutput mask x).2 = block.behindSelf inputs encoderOutput
      (x + (Attention.attendSelf (some mask) block.selfAttention (block.norm1.forward x).2).2) :=
  rfl

theorem behindSelf_rows (residual1 : Mat n (heads * dk) K) (r : Fin m → Fin n) :
    block.behindSelf inputs encoderOutput (residual1 ∘ r) =
      block.behindSelf inputs encoderOutput residual1 ∘ r := by
  have attended := block.crossAttention.attend_rows none (block.norm2.forward residual1).2
    encoderOutput r
  have finished := block.finish_rows inputs (residual1 + (Attention.attend none none
    block.crossAttention (block.norm2.forward residual1).2 encoderOutput).2) r
  rw [behindSelf, LayerNorm.forward_rows]
  exact (congrArg (fun crossAttnOut => (block.finish inputs (residual1 ∘ r + crossAttnOut)).2)
    attended).trans finished

theorem forward_initial (keeps : ∀ i, (r i).val = i.val) (x : Mat n (heads * dk) K) :
    (block.forward inputs encoderOutput (causalMask m) (x ∘ r)).2 =
      (block.forward inputs encoderOutput (causalMask n) x).2 ∘ r := by
  rw [forward_eq, forward_eq, ← behindSelf_rows, LayerNorm.forward_rows,
    Attention.attendSelf_initial keeps]
  rfl

/-- The keys of the self-attention, and the values. -/
theorem forward_keys (mask : Mat n n K) (mask' : Mat m m K) (x : Mat n (heads * dk) K) :
    let part := (block.forward inputs encoderOutput mask' (x ∘ r)).1.selfAttention
    let whole := (block.forward inputs encoderOutput mask x).1.selfAttention
    part.K' = whole.K' ∘ r ∧ part.V = whole.V ∘ r :=
  ⟨block.selfAttention.k.forward_rows (block.norm1.forward x).2 r,
    block.selfAttention.v.forward_rows (block.norm1.forward x).2 r⟩

end DecoderBlock

/-! ## The decoder -/

/-- The rows of the output depend on the rows up to their own. -/
theorem forwardBlocks_initial (keeps : ∀ i, (r i).val = i.val)
    (inputs : GatedInputs K (heads * dk)) (encoderOutput : Mat src (heads * dk) K) {layers : Nat}
    {shape : Fin layers → BlockShape} (blocks : ∀ l, DecoderBlock K heads dk dFf (shape l))
    (x : Mat n (heads * dk) K) :
    let part := forwardBlocks inputs encoderOutput (causalMask m) blocks (x ∘ r)
    let whole := forwardBlocks inputs encoderOutput (causalMask n) blocks x
    part.2 = whole.2 ∘ r ∧ ∀ l, (part.1 l).selfAttention.K' = (whole.1 l).selfAttention.K' ∘ r ∧
      (part.1 l).selfAttention.V = (whole.1 l).selfAttention.V ∘ r := by
  induction layers generalizing x with
  | zero => exact ⟨rfl, fun l => l.elim0⟩
  | succ layers ih =>
      have first := (blocks 0).forward_initial inputs encoderOutput keeps x
      have keys := (blocks 0).forward_keys (r := r) inputs encoderOutput (causalMask n)
        (causalMask m) x
      have rest := ih (fun l => blocks l.succ)
        ((blocks 0).forward inputs encoderOutput (causalMask n) x).2
      rw [← first] at rest
      refine ⟨rest.1, fun l => ?_⟩
      refine Fin.cases ?_ (fun l => ?_) l
      · exact keys
      · exact rest.2 l

namespace LLMDecoder

variable {layers : Nat} {shape : Fin layers → BlockShape}
  (decoder : LLMDecoder K vocabSize heads dk dFf shape) (inputs : GatedInputs K (heads * dk))
  (encoderOutput : Mat src (heads * dk) K)

theorem decode_initial (keeps : ∀ i, (r i).val = i.val) (x : Mat n (heads * dk) K) :
    let part := decoder.decode inputs encoderOutput (x ∘ r)
    let whole := decoder.decode inputs encoderOutput x
    part.2 = whole.2 ∘ r ∧ ∀ l,
      (part.1.blocks l).selfAttention.K' = (whole.1.blocks l).selfAttention.K' ∘ r ∧
        (part.1.blocks l).selfAttention.V = (whole.1.blocks l).selfAttention.V ∘ r := by
  have decoded := forwardBlocks_initial keeps inputs encoderOutput decoder.decoderBlocks
    (decoder.positionalEncoding.addPositions 0 x)
  rw [← Encoding.addPositions_initial keeps] at decoded
  refine ⟨?_, decoded.2⟩
  exact (congrArg (fun x => (decoder.finalNorm.forward x).2) decoded.1).trans
    (decoder.finalNorm.forward_rows _ r)

/-- The output for the tokens of these rows, row by row. -/
def outputRows (indices : List (Fin vocabSize)) : List (Fin (heads * dk) → K) :=
  List.ofFn (decoder.decode inputs encoderOutput (decoder.tokenEmbedding.lookup indices)).2

theorem length_outputRows (indices : List (Fin vocabSize)) :
    (decoder.outputRows inputs encoderOutput indices).length = indices.length :=
  List.length_ofFn

/-- The first rows are the output for the first tokens. -/
theorem take_outputRows (indices : List (Fin vocabSize)) (count : Nat) :
    (decoder.outputRows inputs encoderOutput indices).take count =
      decoder.outputRows inputs encoderOutput (indices.take count) := by
  let r : Fin (indices.take count).length → Fin indices.length :=
    Fin.castLE (List.length_take_le' count indices)
  have first : decoder.tokenEmbedding.lookup indices ∘ r =
      decoder.tokenEmbedding.lookup (indices.take count) :=
    funext fun i => congrArg decoder.tokenEmbedding.embeddingMatrix List.getElem_take.symm
  have rows := (decoder.decode_initial (r := r) inputs encoderOutput (fun _ => rfl)
    (decoder.tokenEmbedding.lookup indices)).1
  rw [first] at rows
  refine List.ext_getElem ?_ fun i there there' => ?_
  · rw [List.length_take, length_outputRows, length_outputRows, List.length_take]
  · simp only [outputRows, List.getElem_take, List.getElem_ofFn, rows]
    rfl

end LLMDecoder

end Adai.Transformer

end
