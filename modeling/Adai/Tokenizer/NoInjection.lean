import Adai.Tokenizer.Coding

/-! # No text writes a special token

A text may spell `<eos>` or `<pad>` as often as it likes; its encoding without special
tokens has none of their ids. In a pre-token no letter stands beside an angle bracket,
so no merge ever produces a special token, and every other token of the vocabulary
gets an id from 4 on (`Guarded`). Every build keeps this, be it the first one of its
tokenizer or not, and also one that stops at an invalid text (`Produced.guarded`).
-/

namespace Adai.Tokenizer

open PairMerge Tables

/-- The tokenizers that builds make of new ones. The normalization may be set in
between; a build that fails has added its base vocabulary. -/
inductive Produced : BPETokenizer → Prop
  | new (mode : TokenizerMode) : Produced (.new mode)
  | setNormalization {t : BPETokenizer} (earlier : Produced t)
      (normalization : TextNormalization) : Produced (t.setNormalization normalization)
  | buildVocab {t t' : BPETokenizer} {order : HashOrder} {texts : List Bytes}
      {vocabSize threshold : Int} (earlier : Produced t)
      (done : t.buildVocab order texts vocabSize threshold = .ok t') : Produced t'
  | stopped {t : BPETokenizer} {order : HashOrder} {texts : List Bytes}
      {vocabSize threshold : Int} {e : TokenizerError} (earlier : Produced t)
      (failed : t.buildVocab order texts vocabSize threshold = .error e) :
      Produced (t.addBaseVocab order texts vocabSize threshold).1

/-- The ids below 4 are left to the special tokens, which no merge produces. -/
structure Guarded (t : BPETokenizer) : Prop where
  ids_eq : t.padTokenId = 0 ∧ t.unkTokenId = 1 ∧ t.bosTokenId = 2 ∧ t.eosTokenId = 3
  four : 4 ≤ size t.vocab
  reserved : ∀ token id, token ∉ standardSpecials.map Prod.fst → t.vocab.lookup token = some id →
    4 ≤ id
  products : ∀ token ∈ t.bpeMerges.map product, token ∉ standardSpecials.map Prod.fst

theorem not_special_of_unmixed {token : Bytes} (unmixed : Unmixed token) :
    token ∉ standardSpecials.map Prod.fst := by
  intro special
  obtain ⟨s, standard, rfl⟩ := List.mem_map.mp special
  exact not_unmixed_special s standard unmixed

theorem Unmixed.part_of {part whole : Bytes} (unmixed : Unmixed whole) (within : part <:+: whole) :
    Unmixed part :=
  unmixed.imp (fun none c listed => none c (within.subset listed))
    fun all c listed => all c (within.subset listed)

/-- What two adjacent tokens of an unmixed word spell. -/
theorem unmixed_of_isFactor {words : List (List Bytes)}
    (unmixed : ∀ w ∈ words, Unmixed w.flatten) {a b : Bytes} (occurs : IsFactor words [a, b]) :
    Unmixed (a ++ b) := by
  obtain ⟨w, listed, inside⟩ := occurs
  apply (unmixed w listed).part_of
  have spells := inside.flatten
  rwa [List.flatten_cons, List.flatten_singleton] at spells

theorem unmixed_mergeTokens {words : List (List Bytes)}
    (unmixed : ∀ w ∈ words, Unmixed w.flatten) (first second : Bytes) :
    ∀ w ∈ mergeTokens words first second, Unmixed w.flatten := by
  intro w member
  obtain ⟨before, listed, rfl⟩ := List.mem_map.mp member
  rw [flatten_mergePair]
  exact unmixed before listed

theorem unmixed_wordTokens {mode : TokenizerMode} {normalization : TextNormalization}
    {texts tokens : List Bytes}
    (done : BPETokenizer.preTokenizeAll mode normalization texts = .ok tokens) :
    ∀ w ∈ BPETokenizer.wordTokens mode tokens, Unmixed w.flatten := by
  intro w member
  obtain ⟨token, pre, rfl⟩ := BPETokenizer.fromCorpus_wordTokens done w member
  rw [flatten_unitsOf]
  exact pre.unmixed

namespace Guarded

variable {t : BPETokenizer}

theorem new (mode : TokenizerMode) : Guarded (.new mode) where
  ids_eq := ⟨rfl, rfl, rfl, rfl⟩
  four := Nat.le_refl 4
  reserved token id ordinary found :=
    absurd (special_of_mem_new mode (mem_of_lookup found)) ordinary
  products token member := by cases member

theorem setNormalization (guarded : Guarded t) (normalization : TextNormalization) :
    Guarded (t.setNormalization normalization) :=
  ⟨guarded.ids_eq, guarded.four, guarded.reserved, guarded.products⟩

/-- A token that is given an id from 4 on. -/
theorem assign (guarded : Guarded t) (token : Bytes) {id : Int} (above : 4 ≤ id) :
    Guarded (t.assign token id) where
  ids_eq := guarded.ids_eq
  four := guarded.four.trans (size_le_size_insert _ _ _)
  reserved other id' ordinary found := by
    rw [BPETokenizer.assign_vocab, lookup_insert_eq] at found
    by_cases same : other = token
    · rw [if_pos same] at found
      obtain rfl := Option.some.inj found
      exact above
    · rw [if_neg same] at found
      exact guarded.reserved other id' ordinary found
  products := guarded.products

theorem addBase (guarded : Guarded t) {currentId : Int} (above : 4 ≤ currentId)
    (vocabSize threshold : Int) (entry : Σ _ : Bytes, Nat) :
    Guarded (BPETokenizer.addBase vocabSize threshold (t, currentId) entry).1 ∧
      4 ≤ (BPETokenizer.addBase vocabSize threshold (t, currentId) entry).2 := by
  rw [BPETokenizer.addBase]
  split
  · exact ⟨guarded.assign entry.1 above, by dsimp only; omega⟩
  · exact ⟨guarded, above⟩

theorem foldl_addBase (guarded : Guarded t) {currentId : Int} (above : 4 ≤ currentId)
    (vocabSize threshold : Int) (entries : List (Σ _ : Bytes, Nat)) :
    Guarded (entries.foldl (BPETokenizer.addBase vocabSize threshold) (t, currentId)).1 := by
  induction entries generalizing t currentId with
  | nil => exact guarded
  | cons entry rest ih =>
      obtain ⟨kept, later⟩ := guarded.addBase above vocabSize threshold entry
      rw [List.foldl_cons]
      exact ih kept later

theorem addBaseVocab (guarded : Guarded t) (order : HashOrder) (texts : List Bytes)
    (vocabSize threshold : Int) :
    Guarded (t.addBaseVocab order texts vocabSize threshold).1 :=
  guarded.foldl_addBase (Int.le_refl 4) vocabSize threshold _

/-- One merge of a pair that occurs in unmixed words. -/
theorem merge (guarded : Guarded t) {pair : Bytes × Bytes} (unmixed : Unmixed (product pair)) :
    Guarded (({ t with bpeMerges := t.bpeMerges ++ [pair] } : BPETokenizer).assign
      (pair.1 ++ pair.2) (size t.vocab)) := by
  have added : Guarded { t with bpeMerges := t.bpeMerges ++ [pair] } := by
    refine ⟨guarded.ids_eq, guarded.four, guarded.reserved, fun token member => ?_⟩
    rw [List.map_append] at member
    rcases List.mem_append.mp member with before | last
    · exact guarded.products token before
    · rw [List.mem_singleton.mp last]
      exact not_special_of_unmixed unmixed
  apply added.assign
  exact_mod_cast guarded.four

theorem learnMerges (guarded : Guarded t) {words : List (List Bytes)}
    (unmixed : ∀ w ∈ words, Unmixed w.flatten) (order : HashOrder) (rounds : Nat) :
    Guarded (BPETokenizer.learnMerges order rounds words t) := by
  induction rounds generalizing words t with
  | zero => exact guarded
  | succ rounds ih =>
      rw [BPETokenizer.learnMerges]
      split
      · exact guarded
      · rename_i some_
        have occurs := isFactor_getMostFrequentPair some_
        exact ih (guarded.merge (unmixed_of_isFactor unmixed occurs)) (unmixed_mergeTokens unmixed _ _)

theorem buildVocab (guarded : Guarded t) {order : HashOrder} {texts : List Bytes}
    {vocabSize threshold : Int} {t' : BPETokenizer}
    (done : t.buildVocab order texts vocabSize threshold = .ok t') : Guarded t' := by
  unfold BPETokenizer.buildVocab BPETokenizer.buildBpeMerges at done
  dsimp only at done
  split at done
  · cases done
  · rename_i tokens cut
    obtain rfl := Except.ok.inj done
    exact (guarded.addBaseVocab order texts vocabSize threshold).learnMerges (unmixed_wordTokens cut)
      order _

/-- A token of a pre-token is no special one. -/
theorem not_special_of_mem_applyBpe (guarded : Guarded t) {word token : Bytes}
    (pre : IsPreToken t.mode word) (member : token ∈ t.applyBpe word) :
    token ∉ standardSpecials.map Prod.fst := by
  rcases BPETokenizer.mem_applyBpe member with unit | merged
  · exact not_special_of_isUnit (isUnit_of_mem_unitsOf pre.valid unit)
  · exact guarded.products token merged

theorem tokenId_cases (guarded : Guarded t) {token : Bytes}
    (ordinary : token ∉ standardSpecials.map Prod.fst) :
    t.tokenId token = 1 ∨ 4 ≤ t.tokenId token := by
  rw [BPETokenizer.tokenId]
  cases found : t.vocab.lookup token with
  | none => exact .inl guarded.ids_eq.2.1
  | some id => exact .inr (guarded.reserved token id ordinary found)

end Guarded

theorem Produced.guarded {t : BPETokenizer} (produced : Produced t) : Guarded t := by
  induction produced with
  | new mode => exact .new mode
  | setNormalization _ normalization ih => exact ih.setNormalization normalization
  | buildVocab _ done ih => exact ih.buildVocab done
  | stopped _ _ ih => exact ih.addBaseVocab _ _ _ _

/-- **No injection.** Whatever a tokenizer was built from and whatever a text spells,
its encoding without special tokens has no id of theirs. -/
theorem encode_no_special {t : BPETokenizer} (produced : Produced t) {text : Bytes} {ids : List Int}
    (encoded : t.encode text false = .ok ids) :
    t.padTokenId ∉ ids ∧ t.bosTokenId ∉ ids ∧ t.eosTokenId ∉ ids := by
  have guarded := produced.guarded
  have range : ∀ id ∈ ids, id = 1 ∨ 4 ≤ id := by
    unfold BPETokenizer.encode BPETokenizer.tokenize at encoded
    split at encoded
    · cases encoded
    · split at encoded
      · cases encoded
      · rename_i tokens cut
        split at cut
        · cases cut
        · rename_i pieces first
          obtain rfl := Except.ok.inj cut
          obtain rfl := Except.ok.inj encoded
          intro id member
          obtain ⟨token, listed, rfl⟩ := List.mem_map.mp member
          obtain ⟨word, inside, piece⟩ := List.mem_flatMap.mp listed
          exact guarded.tokenId_cases
            (guarded.not_special_of_mem_applyBpe (isPreToken_of_mem first word inside) piece)
  obtain ⟨pad, -, bos, eos⟩ := guarded.ids_eq
  rw [pad, bos, eos]
  refine ⟨fun member => ?_, fun member => ?_, fun member => ?_⟩
  all_goals
    have excluded := range _ member
    omega

/-- A text of special tokens, for a tokenizer built from such texts. -/
theorem encode_no_special_spelled :
    let t := builtFrom .unicode .cased .listed [ascii "<eos><eos> <pad>"] 40 1
    ∃ ids, t.encode (ascii "a<eos><pad> <bos>") false = .ok ids ∧
      t.padTokenId ∉ ids ∧ t.bosTokenId ∉ ids ∧ t.eosTokenId ∉ ids := by
  intro t
  have done : ((BPETokenizer.new .unicode).setNormalization .cased).buildVocab .listed
      [ascii "<eos><eos> <pad>"] 40 1 = .ok t := rfl
  have produced : Produced t := .buildVocab (.setNormalization (.new .unicode) .cased) done
  obtain ⟨ids, encoded⟩ : ∃ ids, t.encode (ascii "a<eos><pad> <bos>") false = .ok ids := ⟨_, rfl⟩
  exact ⟨ids, encoded, encode_no_special produced encoded⟩

end Adai.Tokenizer
