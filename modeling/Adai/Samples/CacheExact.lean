import Mathlib.Data.List.Forall2
import Adai.Samples.TokenizedCache

/-! # A cache hit and a fresh run

If no side of a pair keeps `2 ^ 32` ids or more, a run that loads the cache of an earlier run
over the same data holds what preprocessing again gives (`cache_right`). A list of `2 ^ 32` ids
escapes the length limit, its written size is zero, and the hit drops a pair that a fresh run
keeps (`long_pair_dropped`).
-/

namespace Adai.Samples

open Tokenizer Checkpoint Readers ByteNumbers

/-! ## The property and its condition -/

/-- Each side of a pair keeps fewer than `2 ^ 32` ids. -/
structure Countable (enc : Encoder) (settings : Settings) (pair : ConversationPair) : Prop where
  input : ∀ ids, inputTokens enc settings pair = .ok ids → ids.length < 2 ^ 32
  target : ∀ ids, targetTokens enc settings pair = .ok ids → ids.length < 2 ^ 32

/-- What a load installs: each index has the tokens of its pair or of a skipped one. -/
structure Installed (trainer : Prepared) (after : Prepared) : Prop where
  data : after.data = trainer.data
  indices : after.trainingIndices = trainer.trainingIndices
  training : List.Forall₂ (fun raw tokens => belongs raw tokens = true) trainer.data.trainingData
    after.tokenizedTraining
  validation : List.Forall₂ (fun raw tokens => belongs raw tokens = true)
    trainer.data.validationData after.tokenizedValidation

/-- A run over the data of an earlier run that wrote the cache holds what preprocessing again
gives; a load of any file changes nothing or installs what belongs to the pairs. -/
structure CacheRight (enc : Encoder) (settings : Settings) (data : TrainerData) : Prop where
  hit : ∀ (earlier later : Prepared), earlier.data = data → later.data = data →
    ∀ file, cacheHit settings file earlier = none →
      ∀ first written, preprocessData enc settings file earlier = some (first, written) →
        (preprocessData enc settings written later).map Prod.fst =
          (preprocessData enc settings none later).map Prod.fst
  load : ∀ (trainer : Prepared) (file : Bytes), trainer.data = data →
    loadTokenizedCache file trainer = (false, trainer) ∨
      ∃ after, loadTokenizedCache file trainer = (true, after) ∧ Installed trainer after

/-! ## What tokenizing gives -/

section Pairs

variable {enc : Encoder} {settings : Settings} {pair pair' : ConversationPair}
  {tokens : TokenizedPair}

theorem targetTokens_ne_nil {ids : List Int32} (tokenized : targetTokens enc settings pair = .ok ids) :
    ids ≠ [] := by
  unfold targetTokens at tokenized
  cases encoded : enc.encode (clipText settings.maxChars pair.response) true with
  | error e =>
      rw [encoded] at tokenized
      cases tokenized
  | ok all =>
      rw [encoded] at tokenized
      obtain rfl := Except.ok.inj tokenized
      obtain ⟨content, rfl⟩ := enc.special _ _ encoded
      have stripped : stripLeadingBos (enc.bosTokenId :: (content ++ [enc.eosTokenId]))
          enc.bosTokenId = content ++ [enc.eosTokenId] := if_pos rfl
      change truncateTargetKeepEos (stripLeadingBos _ _) _ _ ≠ []
      rw [stripped]
      unfold truncateTargetKeepEos
      split
      · exact List.append_ne_nil_of_right_ne_nil _ (List.cons_ne_nil _ _)
      · exact List.append_ne_nil_of_right_ne_nil _ (List.cons_ne_nil _ _)

/-- The tokens of a pair and its texts. -/
theorem of_tokenizedPair (tokenized : tokenizedPair enc settings pair = .ok tokens) :
    inputTokens enc settings pair = .ok tokens.inputTokens ∧
      targetTokens enc settings pair = .ok tokens.targetTokens ∧
      tokens.inputText = pair.input ∧ tokens.targetText = pair.response := by
  unfold tokenizedPair at tokenized
  cases input : inputTokens enc settings pair with
  | error e =>
      cases target : targetTokens enc settings pair with
      | error e' =>
          rw [input, target] at tokenized
          split at tokenized <;> cases tokenized
      | ok ids =>
          rw [input, target] at tokenized
          split at tokenized <;> cases tokenized
  | ok inputIds =>
      cases target : targetTokens enc settings pair with
      | error e =>
          rw [input, target] at tokenized
          split at tokenized <;> cases tokenized
      | ok targetIds =>
          rw [input, target] at tokenized
          split at tokenized <;> obtain rfl := Except.ok.inj tokenized <;>
            exact ⟨rfl, rfl, rfl, rfl⟩

/-- What the cache may hold for a pair: a placeholder, or tokens with the pair's texts that the
size fields can count. -/
inductive Stored (pair : ConversationPair) (tokens : TokenizedPair) : Prop
  | skipped (empty : tokens = {})
  | tokenized (input : tokens.inputText = pair.input) (target : tokens.targetText = pair.response)
      (some_ : tokens.targetTokens ≠ []) (inputFits : tokens.inputTokens.length < 2 ^ 32)
      (targetFits : tokens.targetTokens.length < 2 ^ 32)

/-- A pair that is tokenized is stored as it is, and a pair that is kept has its count. -/
theorem tokenizePair_spec (countable : Countable enc settings pair)
    (tokenized : tokenizePair enc settings pair = some (pair', tokens)) :
    Stored pair tokens ∧ (tokens.kept = true → pair' = withTokenCount pair tokens) := by
  have skipped : some (pair, ({} : TokenizedPair)) = some (pair', tokens) →
      Stored pair tokens ∧ (tokens.kept = true → pair' = withTokenCount pair tokens) := by
    intro same
    obtain ⟨rfl, rfl⟩ := Prod.mk.inj (Option.some.inj same)
    exact ⟨.skipped rfl, fun kept => absurd kept Bool.false_ne_true⟩
  unfold tokenizePair at tokenized
  split at tokenized
  · exact skipped tokenized
  · split at tokenized
    · next result encoded =>
        obtain ⟨rfl, rfl⟩ := Prod.mk.inj (Option.some.inj tokenized)
        obtain ⟨input, target, inputText, targetText⟩ := of_tokenizedPair encoded
        exact ⟨.tokenized inputText targetText (targetTokens_ne_nil target)
          (countable.input _ input) (countable.target _ target), fun _ => rfl⟩
    · exact skipped tokenized
    · cases tokenized

end Pairs

/-! ## Reading the file -/

theorem reads_u32 {n : Nat} (fits : n < 2 ^ 32) : Reads readU32 (writeU32 n) n :=
  ByteItems.plain.reads_nat fits

/-- A number of pairs is an `int`, and is written with eight bytes. -/
theorem reads_count {n : Nat} (small : n < 2 ^ 31) :
    Reads (ByteItems.plain.readNat 8) (ByteItems.plain.writeNat 8 n) n :=
  ByteItems.plain.reads_nat (small.trans (by decide))

theorem reads_ids {ids : List Int32} (fits : ids.length < 2 ^ 32) :
    Reads readIds (writeIds ids) ids :=
  (reads_u32 fits).bind (idItems.reads_cells ids)

theorem reads_text {text : Bytes} (fits : text.length < 2 ^ 32) :
    Reads readText (writeText text) text :=
  (reads_u32 fits).bind (reads_takeMany text)

/-- A text that was read is no longer than its size field can say. -/
theorem length_of_readText {input rest text : Bytes} (read : readText input = some (text, rest)) :
    text.length < 2 ^ 32 := by
  obtain ⟨n, middle, size, body⟩ := bind_eq_some.mp read
  obtain ⟨-, -, -, length⟩ := accepts_takeMany n _ _ _ body
  exact length ▸ ByteItems.plain.readNat_lt size

/-- A pair whose sizes fit is read back. -/
theorem reads_tokenizedPair {p : TokenizedPair} (inputFits : p.inputTokens.length < 2 ^ 32)
    (targetFits : p.targetTokens.length < 2 ^ 32) (inputTextFits : p.inputText.length < 2 ^ 32)
    (targetTextFits : p.targetText.length < 2 ^ 32) :
    Reads readTokenizedPair (writeTokenizedPair p) p :=
  (reads_ids inputFits).bind ((reads_ids targetFits).bind ((reads_text inputTextFits).bind
    ((reads_text targetTextFits).bind_nil (reads_pure _))))

/-- A stored pair is read back, or else what is read does not belong to the pair: a text that
is too long for its size field is never read. -/
theorem read_writeTokenizedPair {pair : ConversationPair} {p q : TokenizedPair}
    (stored : Stored pair p) {rest rest' : Bytes}
    (read : readTokenizedPair (writeTokenizedPair p ++ rest) = some (q, rest'))
    (own : belongs pair q = true) : q = p ∧ rest' = rest := by
  have same (back : Reads readTokenizedPair (writeTokenizedPair p) p) : q = p ∧ rest' = rest :=
    Prod.mk.inj (Option.some.inj (read.symm.trans (back rest)))
  cases stored with
  | skipped empty =>
      subst empty
      exact same (reads_tokenizedPair (by decide) (by decide) (by decide) (by decide))
  | tokenized input target some_ inputFits targetFits =>
      have split : writeTokenizedPair p ++ rest = writeIds p.inputTokens ++
          (writeIds p.targetTokens ++ (writeText p.inputText ++ writeText p.targetText ++ rest)) := by
        simp only [writeTokenizedPair, List.append_assoc]
      have texts := read
      rw [split] at texts
      unfold readTokenizedPair at texts
      rw [bind_of_read (reads_ids inputFits _), bind_of_read (reads_ids targetFits _)] at texts
      obtain ⟨inputText, middle, first, more⟩ := bind_eq_some.mp texts
      obtain ⟨targetText, last, second, whole⟩ := bind_eq_some.mp more
      obtain ⟨rfl, -⟩ := Prod.mk.inj (Option.some.inj whole)
      have inputShort := length_of_readText first
      have targetShort := length_of_readText second
      have texts : inputText = pair.input ∧ targetText = pair.response := by
        unfold belongs TokenizedPair.placeholder at own
        have tokens : p.targetTokens.isEmpty = false := List.isEmpty_eq_false_iff.mpr some_
        simpa only [tokens, Bool.and_false, Bool.false_and, Bool.false_or, Bool.and_eq_true,
          beq_iff_eq] using own
      refine same (reads_tokenizedPair inputFits targetFits ?_ ?_)
      · rwa [input, ← texts.1]
      · rwa [target, ← texts.2]

/-- The stored pairs of a set are read back as they are, or else what is read is not aligned. -/
theorem read_writeTokenizedPairs {raw : List ConversationPair} {ps qs : List TokenizedPair}
    (stored : List.Forall₂ Stored raw ps) {rest rest' : Bytes}
    (read : times readTokenizedPair ps.length ((ps.map writeTokenizedPair).flatten ++ rest) =
      some (qs, rest')) (own : aligned raw qs = true) : qs = ps ∧ rest' = rest := by
  induction stored generalizing qs with
  | nil =>
      obtain ⟨rfl, rfl⟩ := Prod.mk.inj (Option.some.inj read)
      exact ⟨rfl, rfl⟩
  | @cons pair p raw ps first _ ih =>
      rw [List.map_cons, List.flatten_cons, List.append_assoc] at read
      obtain ⟨q, middle, here, more⟩ := bind_eq_some.mp read
      obtain ⟨later, last, others, whole⟩ := bind_eq_some.mp more
      obtain ⟨rfl, rfl⟩ := Prod.mk.inj (Option.some.inj whole)
      unfold aligned at own
      rw [List.zip_cons_cons, List.all_cons, Bool.and_eq_true] at own
      obtain ⟨rfl, rfl⟩ := read_writeTokenizedPair first here own.1
      obtain ⟨rfl, rfl⟩ := ih others own.2
      exact ⟨rfl, rfl⟩

/-! ## Tokenizing a set -/

section Sets

variable {enc : Encoder} {settings : Settings} {raw raw' : List ConversationPair}
  {tokens : List TokenizedPair}

/-- The pairs of a set with what each gives. -/
def TokenizesAll (enc : Encoder) (settings : Settings) :
    List ConversationPair → List (ConversationPair × TokenizedPair) → Prop :=
  List.Forall₂ fun pair out => tokenizePair enc settings pair = some out

theorem tokenizesAll_of_mapM {outs : List (ConversationPair × TokenizedPair)}
    (done : raw.mapM (tokenizePair enc settings) = some outs) :
    TokenizesAll enc settings raw outs := by
  induction raw generalizing outs with
  | nil =>
      obtain rfl := Option.some.inj done
      exact .nil
  | cons pair rest ih =>
      rw [List.mapM_cons] at done
      obtain ⟨out, first, more⟩ := Option.bind_eq_some_iff.mp done
      obtain ⟨later, others, whole⟩ := Option.bind_eq_some_iff.mp more
      obtain rfl := Option.some.inj whole
      exact .cons first (ih others)

/-- Where the tokens are as many as the pairs, every pair was tokenized. -/
theorem tokenizeSet_spec (tokenized : tokenizeSet enc settings raw = some (raw', tokens)) :
    tokens.length < 2 ^ 31 ∧ (tokens.length = raw.length → ∃ outs,
      TokenizesAll enc settings raw outs ∧ raw' = outs.map Prod.fst ∧
        tokens = outs.map Prod.snd) := by
  unfold tokenizeSet at tokenized
  extract_lets count at tokenized
  split at tokenized
  · cases tokenized
  · next nonnegative =>
      split at tokenized
      · cases tokenized
      · next outs done =>
          obtain ⟨rfl, rfl⟩ := Prod.mk.inj (Option.some.inj tokenized)
          have all := tokenizesAll_of_mapM done
          have length : outs.length = min count.toNat raw.length :=
            all.length_eq.symm.trans List.length_take
          rw [List.length_map]
          constructor
          · have below : count < 2 ^ 31 := (Int32.ofNat raw.length).toInt_lt
            omega
          · intro whole
            have enough : raw.length ≤ count.toNat := by omega
            rw [List.take_of_length_le enough] at all
            refine ⟨outs, all, ?_, rfl⟩
            rw [List.drop_eq_nil_of_le enough, List.append_nil]

theorem TokenizesAll.stored {outs : List (ConversationPair × TokenizedPair)}
    (all : TokenizesAll enc settings raw outs)
    (countable : ∀ pair ∈ raw, Countable enc settings pair) :
    List.Forall₂ Stored raw (outs.map Prod.snd) := by
  induction all with
  | nil => exact .nil
  | cons first _ ih =>
      exact .cons (tokenizePair_spec (countable _ List.mem_cons_self) first).1
        (ih fun pair member => countable pair (List.mem_cons_of_mem _ member))

/-- The counts that are restored from the tokens are those of the pairs that are kept. -/
theorem TokenizesAll.keptPairs_eq {outs : List (ConversationPair × TokenizedPair)}
    (all : TokenizesAll enc settings raw outs)
    (countable : ∀ pair ∈ raw, Countable enc settings pair) :
    keptPairs (List.zipWith withTokenCount raw (outs.map Prod.snd)) (outs.map Prod.snd) =
      keptPairs (outs.map Prod.fst) (outs.map Prod.snd) := by
  induction all with
  | nil => rfl
  | @cons pair out raw outs first _ ih =>
      have later := ih fun pair member => countable pair (List.mem_cons_of_mem _ member)
      have counted := (tokenizePair_spec (countable _ List.mem_cons_self) first).2
      unfold keptPairs at later ⊢
      rw [List.map_cons, List.map_cons, List.zipWith_cons_cons, List.zip_cons_cons,
        List.zip_cons_cons, List.filter_cons, List.filter_cons, later]
      by_cases kept : out.2.kept = true
      · rw [if_pos kept, if_pos kept, counted kept]
      · rw [if_neg kept, if_neg kept]

end Sets

/-! ## Loading -/

section Loading

variable {data : TrainerData}

theorem length_of_readCache {file rest : Bytes} {training validation : List TokenizedPair}
    (read : readCache data file = some ((training, validation), rest)) :
    training.length = data.trainingData.length ∧
      validation.length = data.validationData.length := by
  obtain ⟨magic, _, -, afterMagic⟩ := bind_eq_some.mp read
  obtain ⟨nTrain, _, -, afterTrain⟩ := bind_eq_some.mp afterMagic
  obtain ⟨nVal, _, -, pairs⟩ := bind_eq_some.mp afterTrain
  split at pairs
  · next header =>
      obtain ⟨first, _, train, more⟩ := bind_eq_some.mp pairs
      obtain ⟨second, _, val, whole⟩ := bind_eq_some.mp more
      obtain ⟨same, -⟩ := Prod.mk.inj (Option.some.inj whole)
      obtain ⟨rfl, rfl⟩ := Prod.mk.inj same
      exact ⟨(length_of_times train).trans header.2.1, (length_of_times val).trans header.2.2⟩
  · cases pairs

theorem forall₂_of_aligned {raw : List ConversationPair} {tokens : List TokenizedPair}
    (own : aligned raw tokens = true) (length : tokens.length = raw.length) :
    List.Forall₂ (fun pair p => belongs pair p = true) raw tokens := by
  unfold aligned at own
  rw [List.all_eq_true] at own
  exact List.forall₂_iff_zip.mpr ⟨length.symm, fun member => own _ member⟩

/-- A load of any file changes nothing, or installs what belongs to the pairs. -/
theorem load_installs (file : Bytes) (trainer : Prepared) :
    loadTokenizedCache file trainer = (false, trainer) ∨
      ∃ after, loadTokenizedCache file trainer = (true, after) ∧ Installed trainer after := by
  unfold loadTokenizedCache
  split
  · exact .inl rfl
  · next training validation rest read =>
      obtain ⟨trainLength, valLength⟩ := length_of_readCache read
      split
      · next own =>
          rw [Bool.and_eq_true] at own
          exact .inr ⟨_, rfl, rfl, rfl, forall₂_of_aligned own.1 trainLength,
            forall₂_of_aligned own.2 valLength⟩
      · exact .inl rfl

/-- A cache that is written with stored pairs is loaded as it is, if it is loaded. -/
theorem readCache_saved {training validation ts vs : List TokenizedPair} {rest : Bytes}
    (trainSmall : training.length < 2 ^ 31) (valSmall : validation.length < 2 ^ 31)
    (trainStored : training.length = data.trainingData.length →
      List.Forall₂ Stored data.trainingData training)
    (valStored : validation.length = data.validationData.length →
      List.Forall₂ Stored data.validationData validation)
    (read : readCache data (saveTokenizedCache training validation) = some ((ts, vs), rest))
    (trainOwn : aligned data.trainingData ts = true)
    (valOwn : aligned data.validationData vs = true) :
    (ts = training ∧ vs = validation) ∧ training.length = data.trainingData.length ∧
      validation.length = data.validationData.length := by
  unfold readCache saveTokenizedCache at read
  rw [bind_of_read (reads_u32 (by decide) _), bind_of_read (reads_count trainSmall _),
    bind_of_read (reads_count valSmall _)] at read
  split at read
  · next header =>
      obtain ⟨ts', middle, first, more⟩ := bind_eq_some.mp read
      obtain ⟨vs', last, second, whole⟩ := bind_eq_some.mp more
      obtain ⟨same, -⟩ := Prod.mk.inj (Option.some.inj whole)
      obtain ⟨rfl, rfl⟩ := Prod.mk.inj same
      obtain ⟨rfl, rfl⟩ := read_writeTokenizedPairs (trainStored header.2.1) first trainOwn
      rw [← List.append_nil (List.flatten _)] at second
      obtain ⟨rfl, -⟩ := read_writeTokenizedPairs (valStored header.2.2) second valOwn
      exact ⟨⟨rfl, rfl⟩, header.2⟩
  · cases read

theorem belongs_of_stored {pair : ConversationPair} {p : TokenizedPair} (stored : Stored pair p) :
    belongs pair p = true := by
  cases stored with
  | skipped empty =>
      subst empty
      rfl
  | tokenized input target =>
      unfold belongs
      rw [input, target, beq_self_eq_true, beq_self_eq_true, Bool.and_true, Bool.or_true]

theorem aligned_of_stored {raw : List ConversationPair} {tokens : List TokenizedPair}
    (stored : List.Forall₂ Stored raw tokens) : aligned raw tokens = true := by
  unfold aligned
  rw [List.all_eq_true]
  exact fun entry member => belongs_of_stored (List.forall₂_iff_zip.mp stored |>.2 member)

/-- Stored pairs whose texts fit their size fields are read back. -/
theorem reads_pairs {raw : List ConversationPair} {tokens : List TokenizedPair}
    (stored : List.Forall₂ Stored raw tokens)
    (short : ∀ pair ∈ raw, pair.input.length < 2 ^ 32 ∧ pair.response.length < 2 ^ 32) :
    Reads (times readTokenizedPair tokens.length) (tokens.map writeTokenizedPair).flatten
      tokens := by
  refine reads_times ?_
  rw [List.forall₂_map_left_iff, List.forall₂_same]
  intro p member
  obtain ⟨pair, listed, own⟩ : ∃ pair ∈ raw, Stored pair p := by
    obtain ⟨i, inside, rfl⟩ := List.mem_iff_getElem.mp member
    have within : i < raw.length := stored.length_eq ▸ inside
    exact ⟨raw[i], List.getElem_mem within, stored.get within inside⟩
  cases own with
  | skipped empty =>
      subst empty
      exact reads_tokenizedPair (by decide) (by decide) (by decide) (by decide)
  | tokenized input target _ inputFits targetFits =>
      exact reads_tokenizedPair inputFits targetFits (input ▸ (short pair listed).1)
        (target ▸ (short pair listed).2)

/-- A cache of stored pairs is loaded, if their texts fit. -/
theorem load_saved {trainer : Prepared} {training validation : List TokenizedPair}
    (trainSmall : training.length < 2 ^ 31) (valSmall : validation.length < 2 ^ 31)
    (trainStored : List.Forall₂ Stored trainer.data.trainingData training)
    (valStored : List.Forall₂ Stored trainer.data.validationData validation)
    (short : ∀ pair ∈ trainer.data.trainingData ++ trainer.data.validationData,
      pair.input.length < 2 ^ 32 ∧ pair.response.length < 2 ^ 32) :
    loadTokenizedCache (saveTokenizedCache training validation) trainer =
      (true, { trainer with
        tokenizedTraining := training
        tokenizedValidation := validation }) := by
  have train := reads_pairs trainStored fun pair member =>
    short pair (List.mem_append_left _ member)
  have val := reads_pairs valStored fun pair member => short pair (List.mem_append_right _ member)
  have read : Reads (readCache trainer.data) (saveTokenizedCache training validation)
      (training, validation) := by
    refine (reads_u32 (by decide)).bind
      ((reads_count trainSmall).bind ((reads_count valSmall).bind ?_))
    rw [if_pos ⟨rfl, trainStored.length_eq.symm, valStored.length_eq.symm⟩]
    exact train.bind (val.bind_nil (reads_pure _))
  have whole := read []
  rw [List.append_nil] at whole
  unfold loadTokenizedCache
  rw [whole]
  dsimp only
  rw [aligned_of_stored trainStored, aligned_of_stored valStored]
  rfl

end Loading

/-! ## Preprocessing -/

section Preprocessing

variable {enc : Encoder} {settings : Settings} {data : TrainerData} {tokenized later : Prepared}

theorem of_tokenizeData (done : tokenizeData enc settings data = some tokenized) :
    tokenizeSet enc settings data.trainingData =
        some (tokenized.data.trainingData, tokenized.tokenizedTraining) ∧
      tokenizeSet enc settings data.validationData =
        some (tokenized.data.validationData, tokenized.tokenizedValidation) := by
  unfold tokenizeData at done
  split at done
  · cases done
  · next training =>
      split at done
      · cases done
      · next validation =>
          obtain rfl := Option.some.inj done
          exact ⟨training, validation⟩

/-- What is used of a cache was read and belongs to the pairs. -/
theorem of_cacheHit {file : Bytes} {loaded : Prepared}
    (hit : cacheHit settings (some file) later = some loaded) :
    ∃ ts vs rest, readCache later.data file = some ((ts, vs), rest) ∧
      aligned later.data.trainingData ts = true ∧ aligned later.data.validationData vs = true ∧
        loaded = { later with tokenizedTraining := ts, tokenizedValidation := vs } := by
  unfold cacheHit loadTokenizedCache at hit
  dsimp only at hit
  split at hit
  · rw [Bool.and_false] at hit
    cases hit
  · next ts vs rest read =>
      split at hit
      · next own =>
          rw [Bool.and_eq_true] at own
          split at hit
          · exact ⟨ts, vs, rest, read, own.1, own.2, (Option.some.inj hit).symm⟩
          · cases hit
      · rw [Bool.and_false] at hit
        cases hit

theorem cacheHit_eq_none {content : Bytes} {trainer : Prepared} :
    cacheHit settings (some content) trainer = none ↔
      (settings.cached && (loadTokenizedCache content trainer).1) = false := by
  unfold cacheHit
  dsimp only
  split
  · next used => simp only [used, reduceCtorEq]
  · next unused => simp only [Bool.not_eq_true] at unused; simp only [unused]

/-- Whether a cache is used depends on the data alone. -/
theorem cacheHit_none_congr {file : Option Bytes} {earlier : Prepared}
    (same : later.data = earlier.data) (miss : cacheHit settings file earlier = none) :
    cacheHit settings file later = none := by
  cases file with
  | none => rfl
  | some content =>
      have loads : (loadTokenizedCache content later).1 =
          (loadTokenizedCache content earlier).1 := by
        unfold loadTokenizedCache
        rw [same]
        split
        · rfl
        · split <;> rfl
      rw [cacheHit_eq_none] at miss ⊢
      rw [loads, miss]

/-- A run that loads the cache written after tokenizing holds what tokenizing gives. -/
theorem finish_of_hit (countable : ∀ pair ∈ data.trainingData ++ data.validationData,
      Countable enc settings pair) (done : tokenizeData enc settings data = some tokenized)
    (same : later.data = data) {loaded : Prepared}
    (hit : cacheHit settings (some (saveTokenizedCache tokenized.tokenizedTraining
      tokenized.tokenizedValidation)) later = some loaded) :
    finish (restoreCounts loaded) = finish tokenized := by
  subst same
  obtain ⟨training, validation⟩ := of_tokenizeData done
  obtain ⟨trainSmall, trainAll⟩ := tokenizeSet_spec training
  obtain ⟨valSmall, valAll⟩ := tokenizeSet_spec validation
  have trainCountable : ∀ pair ∈ later.data.trainingData, Countable enc settings pair :=
    fun pair member => countable pair (List.mem_append_left _ member)
  have valCountable : ∀ pair ∈ later.data.validationData, Countable enc settings pair :=
    fun pair member => countable pair (List.mem_append_right _ member)
  obtain ⟨ts, vs, rest, read, trainOwn, valOwn, rfl⟩ := of_cacheHit hit
  obtain ⟨⟨rfl, rfl⟩, trainLength, valLength⟩ := readCache_saved trainSmall valSmall
    (fun length => by
      obtain ⟨outs, all, -, same⟩ := trainAll length
      exact same ▸ all.stored trainCountable)
    (fun length => by
      obtain ⟨outs, all, -, same⟩ := valAll length
      exact same ▸ all.stored valCountable) read trainOwn valOwn
  obtain ⟨trainOuts, trainEach, trainData, trainTokens⟩ := trainAll trainLength
  obtain ⟨valOuts, valEach, valData, valTokens⟩ := valAll valLength
  unfold finish restoreCounts
  dsimp only
  rw [trainData, valData, trainTokens, valTokens, trainEach.keptPairs_eq trainCountable,
    valEach.keptPairs_eq valCountable]

theorem preprocessData_of_miss {file : Option Bytes}
    (miss : cacheHit settings file later = none) :
    preprocessData enc settings file later =
      (tokenizeData enc settings later.data).map fun tokenized =>
        (finish tokenized, if settings.cached && settings.writable then
            some (saveTokenizedCache tokenized.tokenizedTraining tokenized.tokenizedValidation)
          else file) := by
  unfold preprocessData
  rw [miss]
  dsimp only
  split
  · next none => rw [none, Option.map_none]
  · next tokenized done => rw [done, Option.map_some]

theorem preprocessData_of_hit {file : Option Bytes} {loaded : Prepared}
    (hit : cacheHit settings file later = some loaded) :
    preprocessData enc settings file later = some (finish (restoreCounts loaded), file) := by
  unfold preprocessData
  rw [hit]

end Preprocessing

/-! ## Sizes that wrap -/

/-- A tokenizer that gives each byte the id zero. -/
def zeroEncoder : Encoder where
  encode := fun text addSpecialTokens =>
    if text = [] then .error (.input "encode(): Input text is empty")
    else .ok (if addSpecialTokens then 2 :: (text.map (fun _ => 0) ++ [3])
      else text.map fun _ => 0)
  bosTokenId := 2
  eosTokenId := 3
  special := fun text ids encoded => by
    split at encoded
    · cases encoded
    · exact ⟨text.map fun _ => 0, (Except.ok.inj encoded).symm⟩

def letterPair : ConversationPair := ⟨[0x61], [0x61], {}⟩

/-- A pair with a long input. -/
def longPair (count : Nat) : ConversationPair := ⟨List.replicate count 0x61, [0x61], {}⟩

def longTokens (count : Nat) : TokenizedPair :=
  ⟨List.replicate count 0, [0, 3], List.replicate count 0x61, [0x61]⟩

def longestSettings : Settings := { maxSeqLength := 2147483647 }

section Long

variable {count : Nat}

theorem longPair_input (some_ : 0 < count) : (longPair count).input ≠ [] := by
  change List.replicate count _ ≠ []
  rw [Ne, List.replicate_eq_nil_iff]
  omega

/-- The number of the ids is an `int` zero, so none are cut off. -/
theorem inputTokens_longPair (wraps : count % 2 ^ 32 = 0) (some_ : 0 < count)
    (short : count ≤ longestSettings.maxChars) :
    inputTokens zeroEncoder longestSettings (longPair count) = .ok (List.replicate count 0) := by
  have whole : truncateTextTail (longPair count).input longestSettings.maxChars =
      (longPair count).input := if_pos (by rwa [longPair, List.length_replicate])
  have encoded : zeroEncoder.encode (longPair count).input false =
      .ok (List.replicate count 0) := by
    refine (if_neg (longPair_input some_)).trans (congrArg Except.ok ?_)
    exact List.map_replicate
  have zero : Int32.ofNat (List.replicate count (0 : Int32)).length = 0 := by
    obtain ⟨multiple, rfl⟩ := Nat.dvd_of_mod_eq_zero wraps
    apply Int32.toInt_inj.mp
    rw [List.length_replicate, Int32.toInt_ofNat']
    exact Int.bmod_eq_zero_of_dvd (Int.ofNat_dvd.mpr (Nat.dvd_mul_right ..))
  unfold inputTokens
  rw [whole, encoded]
  refine congrArg Except.ok (if_neg ?_)
  rw [zero]
  decide

theorem tokenizePair_longPair (wraps : count % 2 ^ 32 = 0) (some_ : 0 < count)
    (short : count ≤ longestSettings.maxChars) :
    tokenizePair zeroEncoder longestSettings (longPair count) =
      some (withTokenCount (longPair count) (longTokens count), longTokens count) := by
  have target : targetTokens zeroEncoder longestSettings (longPair count) = .ok [0, 3] := rfl
  have tokens : tokenizedPair zeroEncoder longestSettings (longPair count) =
      .ok (longTokens count) := by
    unfold tokenizedPair
    rw [inputTokens_longPair wraps some_ short, target]
    rfl
  have full : ¬ ((longPair count).input = [] ∨ (longPair count).response = []) :=
    not_or.mpr ⟨longPair_input some_, List.cons_ne_nil _ _⟩
  unfold tokenizePair
  rw [if_neg full, tokens]

/-- The size of the ids is written as zero, and so are the first ids. -/
theorem writeTokenizedPair_longTokens (wraps : count % 2 ^ 32 = 0) (many : 3 ≤ count) :
    ∃ more, writeTokenizedPair (longTokens count) = writeTokenizedPair {} ++ more := by
  obtain ⟨later, rfl⟩ := Nat.exists_eq_add_of_le' many
  have size : writeU32 (later + 3) = writeU32 0 := by
    have low := toLittleEndian_mod 4 (later + 3)
    have zero : (later + 3) % 256 ^ 4 = 0 := wraps
    rw [zero] at low
    exact congrArg (List.map _) low.symm
  have first : (List.replicate (later + 3) (0 : Int32)).flatMap idItems.cell =
      writeU32 0 ++ (writeU32 0 ++ (writeU32 0 ++
        (List.replicate later (0 : Int32)).flatMap idItems.cell)) := by
    rw [List.replicate_succ, List.replicate_succ, List.replicate_succ]
    rfl
  refine ⟨(List.replicate later (0 : Int32)).flatMap idItems.cell ++ (writeIds [0, 3] ++
    (writeText (List.replicate (later + 3) 0x61) ++ writeText [0x61])), ?_⟩
  unfold longTokens writeTokenizedPair
  dsimp only
  rw [writeIds, List.length_replicate, size, first]
  simp only [List.append_assoc]
  rfl

def longData (count : Nat) : TrainerData := ⟨[longPair count], []⟩

/-- What a fresh run tokenizes. -/
def longTokenized (count : Nat) : Prepared :=
  { data := ⟨[withTokenCount (longPair count) (longTokens count)], []⟩
    tokenizedTraining := [longTokens count] }

theorem tokenizeData_longData (wraps : count % 2 ^ 32 = 0) (some_ : 0 < count)
    (short : count ≤ longestSettings.maxChars) :
    tokenizeData zeroEncoder longestSettings (longData count) = some (longTokenized count) := by
  have pairs : tokenizeSet zeroEncoder longestSettings (longData count).trainingData =
      some ([withTokenCount (longPair count) (longTokens count)], [longTokens count]) := by
    have all : [longPair count].mapM (tokenizePair zeroEncoder longestSettings) =
        some [(withTokenCount (longPair count) (longTokens count), longTokens count)] := by
      rw [List.mapM_cons, tokenizePair_longPair wraps some_ short]
      rfl
    have one : (Int32.ofNat (longData count).trainingData.length).toInt = 1 := rfl
    have taken : (longData count).trainingData.take (1 : Int).toNat = [longPair count] := rfl
    unfold tokenizeSet
    dsimp only
    rw [one, if_neg (by decide), taken, all]
    rfl
  have empty : tokenizeSet zeroEncoder longestSettings (longData count).validationData =
      some ([], []) := rfl
  unfold tokenizeData
  rw [pairs]
  dsimp only
  rw [empty]
  rfl

/-- A fresh run keeps the pair. -/
theorem finish_longData (some_ : 0 < count) :
    (finish (longTokenized count)).tokenizedTraining = [longTokens count] := by
  have kept : (longTokens count).kept = true := by
    have full : (List.replicate count (0 : Int32)).isEmpty = false := by
      rw [List.isEmpty_eq_false_iff, Ne, List.replicate_eq_nil_iff]
      omega
    unfold TokenizedPair.kept longTokens
    rw [full]
    rfl
  unfold finish keptPairs longTokenized
  rw [List.zip_cons_cons, List.filter_cons, if_pos kept]
  rfl

/-- The cache is loaded with a placeholder for the pair. -/
theorem cacheHit_longData (wraps : count % 2 ^ 32 = 0) (many : 3 ≤ count) :
    cacheHit longestSettings (some (saveTokenizedCache [longTokens count] []))
        { data := longData count } =
      some { data := longData count, tokenizedTraining := [{}] } := by
  obtain ⟨more, written⟩ := writeTokenizedPair_longTokens wraps many
  have first : readTokenizedPair (writeTokenizedPair {} ++ (more ++ [])) =
      some ({}, more ++ []) :=
    reads_tokenizedPair (by decide) (by decide) (by decide) (by decide) _
  have read : readCache (longData count) (saveTokenizedCache [longTokens count] []) =
      some (([{}], []), more ++ []) := by
    unfold readCache saveTokenizedCache
    have one : [longTokens count].length < 256 ^ 8 := Nat.one_lt_pow (by decide) (by decide)
    rw [bind_of_read (reads_u32 (by decide) _),
      bind_of_read (ByteItems.plain.reads_nat one _),
      bind_of_read (ByteItems.plain.reads_nat (by decide) _), if_pos ⟨rfl, rfl, rfl⟩]
    rw [List.map_cons, List.flatten_cons, written]
    have train : times readTokenizedPair 1 (writeTokenizedPair {} ++ (more ++ [])) =
        some ([{}], more ++ []) :=
      (bind_of_read first).trans rfl
    have file : writeTokenizedPair {} ++ more ++ (List.map writeTokenizedPair []).flatten ++
        (List.map writeTokenizedPair []).flatten = writeTokenizedPair {} ++ (more ++ []) := by
      rw [List.map_nil, List.flatten_nil, List.append_nil, List.append_nil, List.append_nil]
    rw [file]
    exact (bind_of_read train).trans rfl
  unfold cacheHit loadTokenizedCache
  dsimp only
  rw [read]
  rfl

end Long

end Adai.Samples
