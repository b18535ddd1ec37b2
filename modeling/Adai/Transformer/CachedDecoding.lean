import Adai.Transformer.CausalDecoding

/-! # Decoding with caches

Feeding a sequence in chunks to `forward_with_cache`, from a fresh cache on, gives the rows
of the output of `forward_with_encoder` for the whole sequence, and after each chunk the
caches of the self-attention hold the keys and values of the tokens fed so far
(`cached_decoding_exact`). A decoder without layers has no cache to take the position from.
-/

noncomputable section

namespace Adai.Transformer

open Gradients

/-! ## Caches -/

namespace KVCache

variable {K : Type} {width : Nat}

theorem eq_of_rows {cache cache' : KVCache K width}
    (lengths : cache.currentLength = cache'.currentLength)
    (keys : ∀ i i', i.val = i'.val → cache.keys i = cache'.keys i')
    (values : ∀ i i', i.val = i'.val → cache.values i = cache'.values i') : cache = cache' := by
  rcases cache with ⟨length, keys', values'⟩
  rcases cache' with ⟨length', keys'', values''⟩
  cases lengths
  congr
  · exact funext fun i => keys i i rfl
  · exact funext fun i => values i i rfl

/-- The cache of the first rows, and the other rows. -/
theorem appendRows_split {c k : Nat} (keys values : Mat (c + k) width K) :
    appendRows ⟨c, keys ∘ Fin.castAdd k, values ∘ Fin.castAdd k⟩ (keys ∘ Fin.natAdd c)
      (values ∘ Fin.natAdd c) = ⟨c + k, keys, values⟩ := by
  unfold appendRows
  by_cases empty : c = 0
  · rw [if_pos empty]
    refine eq_of_rows (by simp only [empty, zero_add]) (fun i i' same => ?_) fun i i' same => ?_
    · exact congrArg keys (Fin.ext (by simp only [Fin.val_natAdd, empty, zero_add, same]))
    · exact congrArg values (Fin.ext (by simp only [Fin.val_natAdd, empty, zero_add, same]))
  · rw [if_neg empty]
    congr
    · exact Fin.append_castAdd_natAdd
    · exact Fin.append_castAdd_natAdd

end KVCache

theorem fitMask_of_fits {K : Type} {tgt src : Nat} {message : SizedMatrix K → String}
    {mask : SizedMatrix K} (fits : mask.rows = tgt ∧ mask.cols = src) :
    fitMask tgt src message (some mask) = .ok (some (mask.withSize fits.1 fits.2)) :=
  dif_pos fits

variable {K : Type} [Field K] [LinearOrder K] [Transcendental K]
  {vocabSize heads dk dFf src c k : Nat}

namespace Attention

variable {ranks : Ranks}

theorem attendCached_eq {rows : Nat} {mask : SizedMatrix K} {attention : Attention K heads dk ranks}
    {cache full : KVCache K (heads * dk)} {input : Mat rows (heads * dk) K}
    (appended : cache.appendRows (attention.k.forward input) (attention.v.forward input) = full)
    (fits : mask.rows = rows ∧ mask.cols = full.currentLength) :
    attendCached mask attention cache input = .ok (full, outputOf none
      (some (mask.withSize fits.1 fits.2)) attention (attention.q.forward input) full.keys
      full.values) := by
  subst appended
  unfold attendCached
  dsimp only
  rw [fitMask_of_fits fits]
  rfl

/-- With the keys and values of the first rows in the cache, the other rows. -/
theorem attendCached_chunk (attention : Attention K heads dk ranks)
    (x : Mat (c + k) (heads * dk) K) :
    attendCached (cachedMask c k) attention
        ⟨c, attention.k.forward x ∘ Fin.castAdd k, attention.v.forward x ∘ Fin.castAdd k⟩
        (x ∘ Fin.natAdd c) =
      .ok (⟨c + k, attention.k.forward x, attention.v.forward x⟩,
        (attendSelf (some (causalMask (c + k))) attention x).2 ∘ Fin.natAdd c) := by
  have restricted := @outputOf_restrict K _ _ _ _ _ _ _ ranks k (c + k) (Fin.natAdd c) id attention
    (causalMask (c + k)) strictMono_id (fun _ j _ => ⟨j, rfl⟩) (attention.q.forward x)
    (attention.k.forward x) (attention.v.forward x)
  have appended := KVCache.appendRows_split (c := c) (k := k) (attention.k.forward x)
    (attention.v.forward x)
  rw [← Projection.forward_rows _ x (Fin.natAdd c), ← Projection.forward_rows _ x (Fin.natAdd c)]
    at appended
  rw [attendCached_eq appended ⟨rfl, rfl⟩, Projection.forward_rows]
  exact congrArg (fun output => Except.ok (KVCache.mk (c + k) (attention.k.forward x)
    (attention.v.forward x), output)) restricted

/-- The cache of the cross-attention is empty or holds the keys and values of the encoder's
output. -/
def Ready (attention : Attention K heads dk ranks) (kv : Mat src (heads * dk) K)
    (cache : KVCache K (heads * dk)) : Prop :=
  cache.currentLength = 0 ∨ cache = ⟨src, attention.k.forward kv, attention.v.forward kv⟩

theorem attendConstant_eq {rows : Nat} {attention : Attention K heads dk ranks}
    {kv : Mat src (heads * dk) K} {cache : KVCache K (heads * dk)}
    (ready : attention.Ready kv cache) (query : Mat rows (heads * dk) K) :
    attendConstant attention cache query kv =
      (⟨src, attention.k.forward kv, attention.v.forward kv⟩,
        (attend none none attention query kv).2) := by
  have filled : (if cache.currentLength = 0 then
      cache.appendRows (attention.k.forward kv) (attention.v.forward kv) else cache) =
      ⟨src, attention.k.forward kv, attention.v.forward kv⟩ := by
    split
    · exact if_pos ‹_›
    · exact ready.resolve_left ‹_›
  rw [attendConstant, filled]
  rfl

end Attention

/-! ## Layers -/

namespace DecoderBlock

variable {shape : BlockShape}

/-- The cache of a layer holds the keys and values of the first rows. -/
structure CacheOf (block : DecoderBlock K heads dk dFf shape) (encoderOutput : Mat src (heads * dk) K)
    {n : Nat} (forwarded : Cache K n src heads dk dFf) (r : Fin c → Fin n)
    (cache : LayerCache K (heads * dk)) : Prop where
  selfAttention : cache.selfAttention =
    ⟨c, forwarded.selfAttention.K' ∘ r, forwarded.selfAttention.V ∘ r⟩
  crossAttention : block.crossAttention.Ready encoderOutput cache.crossAttention

theorem forwardWithCache_eq {rows : Nat} {block : DecoderBlock K heads dk dFf shape}
    {inputs : GatedInputs K (heads * dk)} {encoderOutput : Mat src (heads * dk) K}
    {mask : SizedMatrix K} {cache : LayerCache K (heads * dk)} {input : Mat rows (heads * dk) K}
    {after : KVCache K (heads * dk) × Mat rows (heads * dk) K}
    (attended : Attention.attendCached mask block.selfAttention cache.selfAttention
      (block.norm1.forward input).2 = .ok after)
    (ready : block.crossAttention.Ready encoderOutput cache.crossAttention) :
    block.forwardWithCache inputs encoderOutput mask cache input =
      .ok (⟨after.1, ⟨src, block.crossAttention.k.forward encoderOutput,
          block.crossAttention.v.forward encoderOutput⟩⟩,
        block.behindSelf inputs encoderOutput (input + after.2)) := by
  have crossed := Attention.attendConstant_eq ready (block.norm2.forward (input + after.2)).2
  unfold forwardWithCache
  dsimp only
  rw [attended]
  exact congrArg (fun crossAttnOut : KVCache K (heads * dk) × Mat rows (heads * dk) K =>
    Except.ok (LayerCache.mk after.1 crossAttnOut.1,
      (block.finish inputs (input + after.2 + crossAttnOut.2)).2)) crossed

/-- With the keys and values of the first rows in the cache, the other rows. -/
theorem forwardWithCache_chunk {block : DecoderBlock K heads dk dFf shape}
    (inputs : GatedInputs K (heads * dk)) {encoderOutput : Mat src (heads * dk) K}
    {cache : LayerCache K (heads * dk)} (x : Mat (c + k) (heads * dk) K)
    (holds : block.CacheOf encoderOutput
      (block.forward inputs encoderOutput (causalMask (c + k)) x).1 (Fin.castAdd k) cache) :
    let whole := block.forward inputs encoderOutput (causalMask (c + k)) x
    ∃ after, block.forwardWithCache inputs encoderOutput (cachedMask c k) cache
        (x ∘ Fin.natAdd c) = .ok (after, whole.2 ∘ Fin.natAdd c) ∧
      block.CacheOf encoderOutput whole.1 id after := by
  intro whole
  have attended := block.selfAttention.attendCached_chunk (block.norm1.forward x).2
  rw [← LayerNorm.forward_rows] at attended
  have held : cache.selfAttention =
      ⟨c, block.selfAttention.k.forward (block.norm1.forward x).2 ∘ Fin.castAdd k,
        block.selfAttention.v.forward (block.norm1.forward x).2 ∘ Fin.castAdd k⟩ :=
    holds.selfAttention
  rw [← held] at attended
  have rows := block.behindSelf_rows inputs encoderOutput (x + (Attention.attendSelf
    (some (causalMask (c + k))) block.selfAttention (block.norm1.forward x).2).2) (Fin.natAdd c)
  refine ⟨⟨⟨c + k, whole.1.selfAttention.K', whole.1.selfAttention.V⟩, ⟨src,
    block.crossAttention.k.forward encoderOutput, block.crossAttention.v.forward encoderOutput⟩⟩,
    ?_, rfl, .inr rfl⟩
  rw [forwardWithCache_eq attended holds.crossAttention]
  exact congrArg (fun output => Except.ok (_, output)) rows

end DecoderBlock

theorem forwardBlocksWithCache_chunk (inputs : GatedInputs K (heads * dk))
    (encoderOutput : Mat src (heads * dk) K) {layers : Nat} {shape : Fin layers → BlockShape}
    (blocks : ∀ l, DecoderBlock K heads dk dFf (shape l))
    (caches : Fin layers → LayerCache K (heads * dk)) (x : Mat (c + k) (heads * dk) K)
    (holds : ∀ l, (blocks l).CacheOf encoderOutput
      ((forwardBlocks inputs encoderOutput (causalMask (c + k)) blocks x).1 l) (Fin.castAdd k)
      (caches l)) :
    let whole := forwardBlocks inputs encoderOutput (causalMask (c + k)) blocks x
    ∃ after, forwardBlocksWithCache inputs encoderOutput (cachedMask c k) blocks caches
        (x ∘ Fin.natAdd c) = .ok (after, whole.2 ∘ Fin.natAdd c) ∧
      ∀ l, (blocks l).CacheOf encoderOutput (whole.1 l) id (after l) := by
  induction layers generalizing x with
  | zero => exact ⟨caches, rfl, fun l => l.elim0⟩
  | succ layers ih =>
      intro whole
      obtain ⟨first, firstRuns, firstHolds⟩ :=
        DecoderBlock.forwardWithCache_chunk inputs x (holds 0)
      obtain ⟨rest, restRuns, restHolds⟩ := ih (fun l => blocks l.succ) (fun l => caches l.succ)
        ((blocks 0).forward inputs encoderOutput (causalMask (c + k)) x).2 fun l => holds l.succ
      refine ⟨Fin.cons first rest, ?_, fun l => ?_⟩
      · rw [forwardBlocksWithCache_succ, firstRuns]
        change (forwardBlocksWithCache inputs encoderOutput (cachedMask c k) (fun l => blocks l.succ)
          (fun l => caches l.succ) _ >>= _) = _
        rw [restRuns]
        rfl
      · refine Fin.cases ?_ (fun l => ?_) l
        · exact firstHolds
        · exact restHolds l

/-! ## The decoder -/

namespace LLMDecoder

variable {layers : Nat} {shape : Fin (layers + 1) → BlockShape}
  (decoder : LLMDecoder K vocabSize heads dk dFf shape) (inputs : GatedInputs K (heads * dk))
  (encoderOutput : Mat src (heads * dk) K)

theorem decodeWithCache_chunk (caches : DecoderKVCache K (layers + 1) (heads * dk))
    (x : Mat (c + k) (heads * dk) K)
    (holds : ∀ l, (decoder.decoderBlocks l).CacheOf encoderOutput
      ((decoder.decode inputs encoderOutput x).1.blocks l) (Fin.castAdd k) (caches l)) :
    let whole := decoder.decode inputs encoderOutput x
    ∃ after, decoder.decodeWithCache inputs encoderOutput caches (x ∘ Fin.natAdd c) =
        .ok (after, whole.2 ∘ Fin.natAdd c) ∧
      ∀ l, (decoder.decoderBlocks l).CacheOf encoderOutput (whole.1.blocks l) id (after l) := by
  intro whole
  have position : caches.currentLength = c := congrArg KVCache.currentLength (holds 0).selfAttention
  obtain ⟨after, runs, after_holds⟩ := forwardBlocksWithCache_chunk inputs encoderOutput
    decoder.decoderBlocks caches (decoder.positionalEncoding.addPositions 0 x) holds
  refine ⟨after, ?_, after_holds⟩
  have positions : decoder.positionalEncoding.addPositions c (x ∘ Fin.natAdd (m := k) c) =
      decoder.positionalEncoding.addPositions 0 x ∘ Fin.natAdd c := by
    funext i j
    simp only [Encoding.addPositions, Function.comp_apply, Fin.val_natAdd, zero_add]
  rw [decodeWithCache, position, positions, runs]
  rfl

/-! ## Chunks -/

/-- The caches hold the keys and values of these tokens. -/
def Holds (indices : List (Fin vocabSize)) (caches : DecoderKVCache K (layers + 1) (heads * dk)) :
    Prop :=
  ∀ l, (decoder.decoderBlocks l).CacheOf encoderOutput
    ((decoder.decode inputs encoderOutput (decoder.tokenEmbedding.lookup indices)).1.blocks l) id
    (caches l)

theorem holds_fresh : decoder.Holds inputs encoderOutput [] (.fresh K _ _) := by
  intro l
  refine ⟨KVCache.eq_of_rows rfl (fun i => i.elim0) fun i => i.elim0, .inl rfl⟩

/-- The rows of the new tokens. -/
def newRows (indices new : List (Fin vocabSize)) : Fin new.length → Fin (indices ++ new).length :=
  fun i => Fin.cast List.length_append.symm (Fin.natAdd indices.length i)

variable {decoder inputs encoderOutput}

theorem decodeWithCache_step {indices : List (Fin vocabSize)}
    {caches : DecoderKVCache K (layers + 1) (heads * dk)}
    (holds : decoder.Holds inputs encoderOutput indices caches) (new : List (Fin vocabSize)) :
    let whole := decoder.decode inputs encoderOutput (decoder.tokenEmbedding.lookup (indices ++ new))
    ∃ after, decoder.decodeWithCache inputs encoderOutput caches
        (decoder.tokenEmbedding.lookup new) = .ok (after, whole.2 ∘ newRows indices new) ∧
      decoder.Holds inputs encoderOutput (indices ++ new) after := by
  intro whole
  let embeddings := decoder.tokenEmbedding.lookup (indices ++ new)
  let e : Fin (indices.length + new.length) → Fin (indices ++ new).length :=
    Fin.cast List.length_append.symm
  obtain ⟨rows, keys⟩ := decoder.decode_initial (r := e) inputs encoderOutput (fun _ => rfl) embeddings
  have front := (decoder.decode_initial (r := Fin.castAdd new.length) inputs encoderOutput
    (fun _ => rfl) (embeddings ∘ e)).2
  have embedded : (embeddings ∘ e) ∘ Fin.castAdd new.length = decoder.tokenEmbedding.lookup indices :=
    funext fun i => congrArg decoder.tokenEmbedding.embeddingMatrix (List.getElem_append_left i.isLt)
  have embedded' : (embeddings ∘ e) ∘ Fin.natAdd indices.length = decoder.tokenEmbedding.lookup new :=
    funext fun i => congrArg decoder.tokenEmbedding.embeddingMatrix <| by
      simp only [e, List.get_eq_getElem, Fin.val_cast, Fin.val_natAdd,
        List.getElem_append_right (Nat.le_add_right ..), Nat.add_sub_cancel_left]
  rw [embedded] at front
  obtain ⟨after, runs, after_holds⟩ := decoder.decodeWithCache_chunk inputs encoderOutput caches
    (embeddings ∘ e) fun l => by
      refine ⟨(holds l).selfAttention.trans ?_, (holds l).crossAttention⟩
      rw [(front l).1, (front l).2]
      rfl
  refine ⟨after, ?_, fun l => ⟨(after_holds l).selfAttention.trans ?_, (after_holds l).crossAttention⟩⟩
  · rw [← embedded', runs, rows]
    rfl
  · rw [(keys l).1, (keys l).2]
    refine KVCache.eq_of_rows List.length_append.symm (fun i i' same => ?_) fun i i' same => ?_
    · exact congrArg (whole.1.blocks l).selfAttention.K' (Fin.ext same)
    · exact congrArg (whole.1.blocks l).selfAttention.V (Fin.ext same)

/-- What a chunk returns: the rows of the output behind those of the earlier tokens. -/
theorem ofFn_newRows (indices new : List (Fin vocabSize)) :
    List.ofFn ((decoder.decode inputs encoderOutput
        (decoder.tokenEmbedding.lookup (indices ++ new))).2 ∘ newRows indices new) =
      (decoder.outputRows inputs encoderOutput (indices ++ new)).drop indices.length := by
  refine List.ext_getElem ?_ fun i there there' => ?_
  · rw [List.length_ofFn, List.length_drop, length_outputRows, List.length_append,
      Nat.add_sub_cancel_left]
  · simp only [outputRows, List.getElem_drop, List.getElem_ofFn]
    rfl

section Chunks

variable {layers : Nat} {shape : Fin layers → BlockShape}

/-- Feeds the chunks one after the other; what each returns, with the caches it leaves. -/
def decodeChunks (decoder : LLMDecoder K vocabSize heads dk dFf shape)
    (inputs : GatedInputs K (heads * dk)) (encoderOutput : Option (Encoding K (heads * dk))) :
    DecoderKVCache K layers (heads * dk) → List (List Int) →
    Except String (List (DecoderKVCache K layers (heads * dk) × Encoding K (heads * dk)))
  | _, [] => .ok []
  | caches, chunk :: rest => do
    let step ← decoder.forwardWithCache inputs encoderOutput caches chunk
    let later ← decoder.decodeChunks inputs encoderOutput step.1 rest
    return step :: later

end Chunks

variable {layers : Nat} {shape : Fin (layers + 1) → BlockShape}
  {decoder : LLMDecoder K vocabSize heads dk dFf shape} {inputs : GatedInputs K (heads * dk)}
  {encoderOutput : Option (Encoding K (heads * dk))} {indices : List (Fin vocabSize)}
  {caches : DecoderKVCache K (layers + 1) (heads * dk)}

theorem forwardWithCache_step {chunk : List Int} {new : List (Fin vocabSize)}
    (known : chunk.mapM (tokenRow vocabSize) = .ok new)
    (holds : decoder.Holds inputs (usedEncoderCached encoderOutput).data indices caches) :
    ∃ step, decoder.forwardWithCache inputs encoderOutput caches chunk = .ok step ∧
      step.2.toRows = (decoder.outputRows inputs (usedEncoderCached encoderOutput).data
        (indices ++ new)).drop indices.length ∧
      decoder.Holds inputs (usedEncoderCached encoderOutput).data (indices ++ new) step.1 := by
  obtain ⟨after, runs, after_holds⟩ := decodeWithCache_step holds new
  refine ⟨(after, ⟨new.length, _⟩), ?_, ofFn_newRows indices new, after_holds⟩
  unfold forwardWithCache TokenEmbedding.forward
  rw [known]
  change (decoder.decodeWithCache inputs _ caches (decoder.tokenEmbedding.lookup new) >>= _) = _
  rw [runs]
  rfl

theorem forwardWithCache_unknown {chunk : List Int} {message : String}
    (unknown : chunk.mapM (tokenRow vocabSize) = .error message) :
    decoder.forwardWithCache inputs encoderOutput caches chunk = .error message := by
  unfold forwardWithCache TokenEmbedding.forward
  rw [unknown]
  rfl

theorem drop_outputRows_append (indices new others : List (Fin vocabSize)) :
    (decoder.outputRows inputs (usedEncoderCached encoderOutput).data (indices ++ new)).drop
          indices.length ++
        (decoder.outputRows inputs (usedEncoderCached encoderOutput).data
          (indices ++ new ++ others)).drop (indices ++ new).length =
      (decoder.outputRows inputs (usedEncoderCached encoderOutput).data
        (indices ++ (new ++ others))).drop indices.length := by
  have first := decoder.take_outputRows inputs (usedEncoderCached encoderOutput).data
    (indices ++ new ++ others) (indices ++ new).length
  rw [List.take_left] at first
  have inside : indices.length ≤ (decoder.outputRows inputs (usedEncoderCached encoderOutput).data
      (indices ++ new)).length := by
    rw [length_outputRows, List.length_append]
    exact Nat.le_add_right ..
  rw [← List.drop_append_of_le_length inside, ← first, List.take_append_drop, List.append_assoc]

/-- The chunks return the rows of the output one after the other. -/
theorem decodeChunks_rows (chunks : List (List Int))
    (holds : decoder.Holds inputs (usedEncoderCached encoderOutput).data indices caches) :
    (decoder.decodeChunks inputs encoderOutput caches chunks).map
        (List.flatMap fun step => step.2.toRows) =
      (chunks.flatten.mapM (tokenRow vocabSize)).map fun new =>
        (decoder.outputRows inputs (usedEncoderCached encoderOutput).data
          (indices ++ new)).drop indices.length := by
  induction chunks generalizing indices caches with
  | nil =>
      refine congrArg Except.ok ?_
      have all := (decoder.length_outputRows inputs (usedEncoderCached encoderOutput).data
        (indices ++ [])).trans (congrArg List.length (List.append_nil indices))
      exact (List.drop_eq_nil_of_le all.le).symm
  | cons chunk rest ih =>
      rw [List.flatten_cons, List.mapM_append, decodeChunks]
      cases known : chunk.mapM (tokenRow vocabSize) with
      | error message =>
          rw [forwardWithCache_unknown known]
          rfl
      | ok new =>
          obtain ⟨step, runs, rows, holds⟩ := forwardWithCache_step known holds
          have later := ih holds
          rw [runs]
          change Except.map _ (decoder.decodeChunks inputs encoderOutput step.1 rest >>= _) =
            Except.map _ (rest.flatten.mapM (tokenRow vocabSize) >>= _)
          cases after : decoder.decodeChunks inputs encoderOutput step.1 rest with
          | error message =>
              rw [after] at later
              cases unknown : rest.flatten.mapM (tokenRow vocabSize) with
              | error message' =>
                  rw [unknown] at later
                  exact congrArg Except.error (Except.error.inj later)
              | ok others =>
                  rw [unknown] at later
                  cases later
          | ok steps =>
              rw [after] at later
              cases known : rest.flatten.mapM (tokenRow vocabSize) with
              | error message =>
                  rw [known] at later
                  cases later
              | ok others =>
                  rw [known] at later
                  refine congrArg Except.ok ?_
                  exact (congrArg₂ (· ++ ·) rows (Except.ok.inj later)).trans
                    (drop_outputRows_append indices new others)

theorem decodeChunks_caches (chunks : List (List Int))
    (holds : decoder.Holds inputs (usedEncoderCached encoderOutput).data indices caches)
    {steps : List (DecoderKVCache K (layers + 1) (heads * dk) × Encoding K (heads * dk))}
    (ran : decoder.decodeChunks inputs encoderOutput caches chunks = .ok steps) (i : Nat)
    {step : DecoderKVCache K (layers + 1) (heads * dk) × Encoding K (heads * dk)}
    (there : steps[i]? = some step) :
    ∃ fed, (chunks.take (i + 1)).flatten.mapM (tokenRow vocabSize) = .ok fed ∧
      decoder.Holds inputs (usedEncoderCached encoderOutput).data (indices ++ fed) step.1 := by
  induction chunks generalizing indices caches steps i with
  | nil =>
      cases Except.ok.inj ran
      cases there
  | cons chunk rest ih =>
      rw [List.take_succ_cons, List.flatten_cons, List.mapM_append]
      rw [decodeChunks] at ran
      cases known : chunk.mapM (tokenRow vocabSize) with
      | error message =>
          rw [forwardWithCache_unknown known] at ran
          cases ran
      | ok new =>
          obtain ⟨first, runs, -, held⟩ := forwardWithCache_step known holds
          rw [runs] at ran
          change (decoder.decodeChunks inputs encoderOutput first.1 rest >>= _) = _ at ran
          cases after : decoder.decodeChunks inputs encoderOutput first.1 rest with
          | error message =>
              rw [after] at ran
              cases ran
          | ok later =>
              rw [after] at ran
              cases Except.ok.inj ran
              cases i with
              | zero =>
                  cases Option.some.inj there
                  exact ⟨new ++ [], rfl, by rwa [List.append_nil]⟩
              | succ i =>
                  obtain ⟨fed, known', holds'⟩ := ih held after i there
                  refine ⟨new ++ fed, ?_, by rwa [← List.append_assoc]⟩
                  change (List.mapM (tokenRow vocabSize) (rest.take (i + 1)).flatten >>= _) = _
                  rw [known']
                  rfl

/-- Without columns it does not matter which rows are attended to. -/
theorem decode_usedEncoder (decoder : LLMDecoder K vocabSize heads dk dFf shape)
    (inputs : GatedInputs K (heads * dk)) (encoderOutput : Option (Encoding K (heads * dk))) {n : Nat}
    (embeddings : Mat n (heads * dk) K) :
    let whole := decoder.decode inputs (usedEncoderCached encoderOutput).data embeddings
    let whole' := decoder.decode inputs (usedEncoder (encoderOutput.getD ⟨0, Fin.elim0⟩)).data
      embeddings
    whole.2 = whole'.2 ∧ ∀ l,
      (whole.1.blocks l).selfAttention.K' = (whole'.1.blocks l).selfAttention.K' ∧
        (whole.1.blocks l).selfAttention.V = (whole'.1.blocks l).selfAttention.V := by
  by_cases width : 0 < heads * dk
  · have same : usedEncoderCached encoderOutput =
        usedEncoder (encoderOutput.getD ⟨0, Fin.elim0⟩) := by
      cases encoderOutput with
      | none => exact (if_neg fun present => absurd present.1 (lt_irrefl 0)).symm
      | some encoder => simp only [usedEncoderCached, usedEncoder, Option.getD_some, width, and_true]
    rw [same]
    exact ⟨rfl, fun l => ⟨rfl, rfl⟩⟩
  · have none (a b : Mat n (heads * dk) K) : a = b :=
      funext fun i => funext fun j => absurd (Nat.zero_lt_of_lt j.isLt) width
    exact ⟨none _ _, fun l => ⟨none _ _, none _ _⟩⟩

/-- The cache of a layer holds the keys and values that `forward_with_encoder` computes for
these tokens. -/
def HoldsTokens (decoder : LLMDecoder K vocabSize heads dk dFf shape)
    (inputs : GatedInputs K (heads * dk)) (encoderOutput : Encoding K (heads * dk))
    (tokenIds : List Int) (l : Fin (layers + 1)) (cache : KVCache K (heads * dk)) : Prop :=
  ∃ indices, tokenIds.mapM (tokenRow vocabSize) = .ok indices ∧
    let forwarded := (decoder.decode inputs (usedEncoder encoderOutput).data
      (decoder.tokenEmbedding.lookup indices)).1.blocks l
    cache = ⟨indices.length, forwarded.selfAttention.K', forwarded.selfAttention.V⟩

end LLMDecoder

open LLMDecoder

/-- **Cached decoding.** With at least one layer, chunks that are fed to `forward_with_cache`
one after the other, from a fresh cache on, return the rows of the output of
`forward_with_encoder` for the whole sequence, or its error. After each chunk the cache of
every layer's self-attention holds exactly the tokens fed so far. -/
theorem cached_decoding_exact {layers : Nat} {shape : Fin (layers + 1) → BlockShape}
    (decoder : LLMDecoder K vocabSize heads dk dFf shape) (inputs : GatedInputs K (heads * dk))
    (encoderOutput : Option (Encoding K (heads * dk))) (chunks : List (List Int)) :
    let run := decoder.decodeChunks inputs encoderOutput (.fresh K _ _) chunks
    let encoder := encoderOutput.getD ⟨0, Fin.elim0⟩
    run.map (List.flatMap fun step => step.2.toRows) =
        (decoder.forwardWithEncoder inputs encoder chunks.flatten).map Encoding.toRows ∧
      ∀ steps, run = .ok steps → ∀ i step, steps[i]? = some step → ∀ l,
        decoder.HoldsTokens inputs encoder (chunks.take (i + 1)).flatten l
          (step.1 l).selfAttention := by
  intro run encoder
  have fresh := decoder.holds_fresh inputs (usedEncoderCached encoderOutput).data
  refine ⟨(decodeChunks_rows chunks fresh).trans ?_, fun steps ran i step there l => ?_⟩
  · unfold forwardWithEncoder TokenEmbedding.forward
    cases chunks.flatten.mapM (tokenRow vocabSize) with
    | error message => rfl
    | ok indices =>
        refine congrArg Except.ok ?_
        exact congrArg List.ofFn (decoder.decode_usedEncoder inputs encoderOutput
          (decoder.tokenEmbedding.lookup indices)).1
  · obtain ⟨fed, known, holds⟩ := decodeChunks_caches chunks fresh ran i there
    obtain ⟨keys, values⟩ := (decoder.decode_usedEncoder inputs encoderOutput
      (decoder.tokenEmbedding.lookup fed)).2 l
    refine ⟨fed, known, ((holds l).selfAttention).trans ?_⟩
    refine KVCache.eq_of_rows rfl (fun j j' same => ?_) fun j j' same => ?_
    · exact (congrFun keys j).trans (congrArg _ (Fin.ext same))
    · exact (congrFun values j).trans (congrArg _ (Fin.ext same))

/-- A decoder without layers, over the real numbers and with the positions of two rows. -/
def layerless : LLMDecoder ℝ 1 1 2 1 (fun l : Fin 0 => l.elim0) where
  tokenEmbedding := ⟨0, 0⟩
  positionalEncoding := ⟨2, ![![Real.sin 0, Real.cos 0], ![Real.sin 1, Real.cos 1]]⟩
  decoderBlocks := fun l => l.elim0
  finalNorm := ⟨1, 1, 0, 0, 0⟩

/-- The first column of a normalized row. -/
theorem layerless_entry (x : Mat 1 (1 * 2) ℝ) :
    ∃ scale > 0, (layerless.finalNorm.forward x).2 0 0 = (x 0 0 - x 0 1) * scale := by
  have nonneg : 0 ≤ LayerNorm.variance (x 0) :=
    div_nonneg (Finset.sum_nonneg fun j _ => mul_self_nonneg _) (Nat.cast_nonneg _)
  have inverse : 0 < LayerNorm.invStd 1 (LayerNorm.variance (x 0)) :=
    one_div_pos.mpr (Real.sqrt_pos.mpr (by linarith))
  refine ⟨LayerNorm.invStd 1 (LayerNorm.variance (x 0)) / 2, half_pos inverse, ?_⟩
  have mean : LayerNorm.mean (x 0) = (x 0 0 + x 0 1) / 2 :=
    congrArg₂ (· / ·) (Fin.sum_univ_two (x 0)) Nat.cast_two
  change 1 * ((x 0 0 - LayerNorm.mean (x 0)) * LayerNorm.invStd 1 (LayerNorm.variance (x 0))) + 0 = _
  rw [mean]
  ring

/-- Without layers every chunk starts at the first position. -/
theorem cached_decoding_layerless :
    (layerless.decodeChunks ⟨none, none, 0, 0⟩ none (.fresh ℝ _ _) [[0], [0]]).map
        (List.flatMap fun step => step.2.toRows) ≠
      (layerless.forwardWithEncoder ⟨none, none, 0, 0⟩ ⟨0, Fin.elim0⟩ [0, 0]).map
        Encoding.toRows := by
  intro same
  let positions (position : ℕ) : Mat 1 (1 * 2) ℝ :=
    layerless.positionalEncoding.addPositions position 0
  let first := (layerless.finalNorm.forward (positions 0)).2 0
  let second := (layerless.finalNorm.forward (positions 1)).2 0
  have rows : (Except.ok [first, first] : Except String _) = .ok [first, second] := same
  have equal : first 0 = second 0 := by
    injection rows with rows
    injection rows with _ rows
    injection rows with row
    exact congrFun row 0
  obtain ⟨scale, positive, first_eq⟩ := layerless_entry (positions 0)
  obtain ⟨scale', positive', second_eq⟩ := layerless_entry (positions 1)
  have below : positions 0 0 0 - positions 0 0 1 < 0 := by
    change 0 + Real.sin 0 - (0 + Real.cos 0) < 0
    simp only [Real.sin_zero, Real.cos_zero]
    norm_num
  have above : 0 < positions 1 0 0 - positions 1 0 1 := by
    change 0 < 0 + Real.sin 1 - (0 + Real.cos 1)
    have sin := Real.sin_gt_sub_cube one_pos
    have cos := Real.cos_one_le
    linarith
  have negative := mul_neg_of_neg_of_pos below positive
  rw [← first_eq] at negative
  have nonnegative := mul_pos above positive'
  rw [← second_eq] at nonnegative
  exact absurd equal (negative.trans nonnegative).ne

end Adai.Transformer

end
