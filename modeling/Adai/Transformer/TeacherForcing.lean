import Adai.Transformer.CausalDecoding
import Adai.Transformer.EncoderDecoderModel

/-! # Teacher forcing agrees with decoding step by step

The decoder's input for the first targets is the front of its input for all of them, and
under the causal mask so are its outputs. So each row of `forward` is what
`next_token_logits` returns for the targets before it (`teacher_forcing_agrees`).
-/

noncomputable section

namespace Adai.Transformer

open Gradients

section Results

variable {ε α β : Type} {f : α → Except ε β}

theorem mapM_cons_eq_ok {item : α} {items : List α} {results : List β}
    (mapped : (item :: items).mapM f = .ok results) :
    ∃ result rest, f item = .ok result ∧ items.mapM f = .ok rest ∧ results = result :: rest := by
  rw [List.mapM_cons] at mapped
  cases first : f item with
  | error e =>
      rw [first] at mapped
      cases mapped
  | ok result =>
      rw [first] at mapped
      cases others : items.mapM f with
      | error e =>
          rw [others] at mapped
          cases mapped
      | ok rest =>
          rw [others] at mapped
          exact ⟨result, rest, rfl, rfl, (Except.ok.inj mapped).symm⟩

theorem length_mapM {items : List α} {results : List β} (mapped : items.mapM f = .ok results) :
    results.length = items.length := by
  induction items generalizing results with
  | nil => exact congrArg List.length (Except.ok.inj mapped).symm
  | cons item items ih =>
      obtain ⟨result, rest, -, others, rfl⟩ := mapM_cons_eq_ok mapped
      exact congrArg (· + 1) (ih others)

/-- The first results are those for the first elements. -/
theorem mapM_take {items : List α} {results : List β} (mapped : items.mapM f = .ok results)
    (count : Nat) : (items.take count).mapM f = .ok (results.take count) := by
  induction items generalizing results count with
  | nil =>
      cases Except.ok.inj mapped
      rw [List.take_nil]
      exact congrArg Except.ok List.take_nil.symm
  | cons item items ih =>
      obtain ⟨result, rest, first, others, rfl⟩ := mapM_cons_eq_ok mapped
      cases count with
      | zero => rfl
      | succ count =>
          rw [List.take_succ_cons, List.take_succ_cons, List.mapM_cons, first, ih others count]
          rfl

end Results

/-! ## Rows -/

namespace Encoding

variable {K : Type} {dModel : Nat}

theorem length_toRows (encoding : Encoding K dModel) : encoding.toRows.length = encoding.rows :=
  List.length_ofFn

theorem toRows_lastRows (encoding : Encoding K dModel) (count : Nat) :
    (encoding.lastRows count).toRows = encoding.toRows.drop (encoding.rows - count) := by
  refine List.ext_getElem ?_ fun i there there' => ?_
  · rw [List.length_drop, length_toRows, length_toRows]
    simp only [lastRows]
    omega
  · simp only [toRows, lastRows, List.getElem_drop, List.getElem_ofFn]
    congr 2
    omega

theorem toRows_lastRow [Zero K] {encoding : Encoding K dModel} (some : 0 < encoding.rows) :
    encoding.lastRow.toRows = encoding.toRows.drop (encoding.rows - 1) := by
  refine List.ext_getElem ?_ fun i there there' => ?_
  · rw [List.length_drop, length_toRows, length_toRows]
    simp only [lastRow]
    omega
  · have first : i = 0 := by
      simp only [length_toRows, lastRow] at there
      omega
    subst first
    simp only [toRows, lastRow, List.getElem_drop, List.getElem_ofFn, dif_pos some]
    rfl

end Encoding

variable {K : Type} {vocabSize heads dk dFf encoderLayers decoderLayers : Nat}
  {ranks : Fin encoderLayers → Ranks} {shape : Fin decoderLayers → BlockShape}

namespace EncoderDecoderModel

variable (model : EncoderDecoderModel K vocabSize heads dk dFf ranks shape)

theorem generationInput_pos (decoderTokens : List Int) :
    0 < (model.generationInput decoderTokens).length := by
  unfold generationInput
  split
  next start =>
    cases decoderTokens with
    | nil => cases start
    | cons => exact Nat.succ_pos _
  next => exact Nat.succ_pos _

/-- The decoder's input for the targets before a row. -/
theorem generationInput_take {targetTokens : List Int}
    (first : targetTokens.head? ≠ some model.bosTokenId) {t : Nat}
    (inside : t < (model.makeDecoderInput targetTokens).length) :
    model.generationInput (targetTokens.take t) =
      (model.makeDecoderInput targetTokens).take (t + 1) := by
  have start : (targetTokens.take t).head? ≠ some model.bosTokenId := by
    cases t with
    | zero => exact fun none_ => nomatch none_
    | succ t => rwa [List.head?_take, if_neg (Nat.succ_ne_zero t)]
  have shorter : t ≤ targetTokens.length - 1 := by
    rw [makeDecoderInput, List.length_cons, List.length_dropLast] at inside
    omega
  rw [generationInput, if_neg start, makeDecoderInput, List.take_succ_cons,
    List.dropLast_eq_take, List.take_take, min_eq_left shorter]

variable [Field K]

theorem toRows_project (output : Encoding K (heads * dk)) :
    (model.project output).toRows = output.toRows.map fun row j =>
      (∑ k, row k * model.lmHead.WOutput k j) + model.lmHead.bias j := by
  rw [Encoding.toRows, Encoding.toRows, List.map_ofFn]
  rfl

variable [LinearOrder K] [Transcendental K]

/-- The logits of all positions of the decoder. -/
def decoderLogits (rawInputTokens decoderTokens : List Int) : Except String (Encoding K vocabSize) :=
  (model.runDecoder (model.encoder.keepLastPositions rawInputTokens)
    (model.generationInput decoderTokens)).map model.project

/-- A row for each token; and the first rows are the output for the first tokens. -/
theorem runDecoder_take {inputTokens decoderInput : List Int} {output : Encoding K (heads * dk)}
    (ran : model.runDecoder inputTokens decoderInput = .ok output) :
    output.rows = decoderInput.length ∧
      ∀ count, ∃ part, model.runDecoder inputTokens (decoderInput.take count) = .ok part ∧
        part.toRows = output.toRows.take count := by
  unfold runDecoder LLMDecoder.forwardWithEncoder TokenEmbedding.forward at *
  cases encoded : model.encoder.encodeWithMask inputTokens fun _ _ _ => 1 with
  | error e =>
      rw [encoded] at ran
      cases ran
  | ok encoder =>
      rw [encoded] at ran
      change (decoderInput.mapM (tokenRow vocabSize) >>= _) >>= _ = _ at ran
      cases known : decoderInput.mapM (tokenRow vocabSize) with
      | error e =>
          rw [known] at ran
          cases ran
      | ok indices =>
          rw [known] at ran
          cases Except.ok.inj ran
          refine ⟨length_mapM known, fun count => ⟨⟨(indices.take count).length, _⟩, ?_,
            (model.decoder.take_outputRows (model.gatedInputs inputTokens)
              (LLMDecoder.usedEncoder encoder).data indices count).symm⟩⟩
          change ((decoderInput.take count).mapM (tokenRow vocabSize) >>= _) >>= _ = _
          rw [mapM_take known count]
          rfl

/-- The last rows of the logits. -/
theorem nextTokenLogits_rows (rawInputTokens decoderTokens : List Int) (lastRows : Int) :
    (model.nextTokenLogits rawInputTokens decoderTokens lastRows).map Encoding.toRows =
      (model.decoderLogits rawInputTokens decoderTokens).map fun logits =>
        logits.toRows.drop (logits.rows - (max 1 lastRows).toNat) := by
  unfold nextTokenLogits decoderLogits
  dsimp only
  cases ran : model.runDecoder (model.encoder.keepLastPositions rawInputTokens)
      (model.generationInput decoderTokens) with
  | error e => rfl
  | ok output =>
      have some : 0 < output.rows := by
        rw [(model.runDecoder_take ran).1]
        exact model.generationInput_pos decoderTokens
      change (if lastRows ≤ 1 then _ else _ : Except String _).map _ = .ok _
      split
      · rw [max_eq_left ‹_›]
        change Except.ok (model.project output.lastRow).toRows =
          .ok ((model.project output).toRows.drop (output.rows - 1))
        rw [toRows_project, toRows_project, Encoding.toRows_lastRow some, List.map_drop]
      · rw [max_eq_right (by omega)]
        change Except.ok (model.project (output.lastRows lastRows.toNat)).toRows =
          .ok ((model.project output).toRows.drop (output.rows - lastRows.toNat))
        rw [toRows_project, toRows_project, Encoding.toRows_lastRows, List.map_drop]

end EncoderDecoderModel

open EncoderDecoderModel

variable [Field K] [LinearOrder K] [Transcendental K]

/-- **Teacher forcing.** For a target that does not start with BOS, each row of the logits is
what decoding step by step computes for the targets before it. Decoding returns the last rows
of the logits of all positions of the decoder, as many as asked for but at least one. -/
theorem teacher_forcing_agrees (model : EncoderDecoderModel K vocabSize heads dk dFf ranks shape)
    (inputTokens targetTokens : List Int)
    (first : targetTokens.head? ≠ some model.bosTokenId) :
    (∀ logits, model.forward inputTokens targetTokens = .ok logits →
      ∀ t row, logits.toRows[t]? = some row →
        (model.nextTokenLogits inputTokens (targetTokens.take t) 1).map Encoding.toRows =
          .ok [row]) ∧
      ∀ decoderTokens lastRows,
        (model.nextTokenLogits inputTokens decoderTokens lastRows).map Encoding.toRows =
          (model.decoderLogits inputTokens decoderTokens).map fun logits =>
            logits.toRows.drop (logits.rows - (max 1 lastRows).toNat) := by
  refine ⟨fun logits ran t row there => ?_, fun decoderTokens lastRows =>
    model.nextTokenLogits_rows inputTokens decoderTokens lastRows⟩
  unfold forward at ran
  dsimp only at ran
  cases decoded : model.runDecoder (model.encoder.keepLastPositions inputTokens)
      (model.makeDecoderInput targetTokens) with
  | error e =>
      rw [decoded] at ran
      cases ran
  | ok output =>
      rw [decoded] at ran
      cases Except.ok.inj ran
      obtain ⟨rows, parts⟩ := model.runDecoder_take decoded
      have inside := (List.getElem?_eq_some_iff.mp there).1
      rw [Encoding.length_toRows] at inside
      obtain ⟨part, partDecoded, partRows⟩ := parts (t + 1)
      have count : part.rows = t + 1 := by
        rw [← part.length_toRows, partRows, List.length_take, Encoding.length_toRows]
        exact min_eq_left inside
      rw [nextTokenLogits_rows, decoderLogits, generationInput_take model first (rows ▸ inside),
        partDecoded]
      change Except.ok ((model.project part).toRows.drop (part.rows - 1)) = .ok [row]
      rw [toRows_project, partRows, List.map_take, ← toRows_project, count, List.take_add_one,
        there]
      refine congrArg Except.ok (List.drop_left' ?_)
      rw [List.length_take, Encoding.length_toRows]
      exact min_eq_left inside.le

/-! ## A small model -/

/-- Attention of one head of width one. -/
def zeroAttention : Attention ℝ 1 1 ⟨none, none, none, none⟩ :=
  ⟨⟨0, 0, ⟨⟩⟩, ⟨0, 0, ⟨⟩⟩, ⟨0, 0, ⟨⟩⟩, ⟨0, 0, ⟨⟩⟩⟩

/-- One layer each, with all weights zero. -/
def zeroModel : EncoderDecoderModel ℝ 2 1 1 1 (fun _ : Fin 1 => ⟨none, none, none, none⟩)
    (fun _ : Fin 1 => ⟨⟨none, none, none, none⟩, ⟨none, none, none, none⟩, none, none⟩) where
  encoder := ⟨4, ⟨0, 0⟩, ⟨4, 0⟩, fun _ => zeroBlock, ⟨1, 1, 0, 0, 0⟩⟩
  decoder := ⟨⟨0, 0⟩, ⟨4, 0⟩, fun _ => ⟨zeroAttention, zeroAttention, ⟨0, 0, 0, 0, 0, 0, 0, 0⟩,
    ⟨1, 1, 0, 0, 0⟩, ⟨1, 1, 0, 0, 0⟩, ⟨1, 1, 0, 0, 0⟩, ⟨⟩, ⟨⟩⟩, ⟨1, 1, 0, 0, 0⟩⟩
  lmHead := ⟨0, 0, 0, 0⟩
  bosTokenId := 0
  gatedInputs := fun _ => ⟨none, none, 0, 0⟩

/-- A target of one token. -/
theorem teacher_forcing_agrees_one :
    (∃ logits, zeroModel.forward [] [1] = .ok logits ∧ logits.rows = 1) ∧
    (∀ logits, zeroModel.forward [] [1] = .ok logits → ∀ t row, logits.toRows[t]? = some row →
      (zeroModel.nextTokenLogits [] ([1].take t) 1).map Encoding.toRows = .ok [row]) ∧
    ∀ decoderTokens lastRows,
      (zeroModel.nextTokenLogits [] decoderTokens lastRows).map Encoding.toRows =
        (zeroModel.decoderLogits [] decoderTokens).map fun logits =>
          logits.toRows.drop (logits.rows - (max 1 lastRows).toNat) :=
  ⟨⟨_, rfl, rfl⟩, teacher_forcing_agrees zeroModel [] [1] (by decide)⟩

/-- Asked for no rows, decoding returns the last one. -/
theorem last_rows_none :
    (zeroModel.nextTokenLogits [] [] 0).map Encoding.toRows ≠
      (zeroModel.decoderLogits [] []).map fun logits =>
        logits.toRows.drop (logits.rows - (0 : Int).toNat) := by
  intro same
  have lengths := congrArg (Except.map List.length) same
  cases lengths

end Adai.Transformer

end
