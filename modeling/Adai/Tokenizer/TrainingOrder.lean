import Adai.Tokenizer.Training

/-! # What training depends on

The merges that a build learns depend on the multiset of the texts only: pairs are counted
over all words, and the most frequent pair is the same in whatever order the counts are
walked. The ids of the base vocabulary follow that order. So a build of the same texts
gives the same ids in every order exactly when at most one unit gets a base id
(`build_vocab_order_iff`).
-/

namespace Adai.Tokenizer

open PairMerge Tables

/-! ## The most frequent pair -/

theorem pairLess_iff {p q : Bytes × Bytes} :
    pairLess p q = true ↔ p.1 < q.1 ∨ (p.1 = q.1 ∧ p.2 < q.2) := by
  simp only [pairLess, Bool.or_eq_true, Bool.and_eq_true, Bool.not_eq_true', decide_eq_true_eq,
    decide_eq_false_iff_not]
  rcases Std.lt_trichotomy p.1 q.1 with less | same | more
  · simp only [less, true_or]
  · simp only [same, List.lt_irrefl, not_false_eq_true, true_and, false_or]
  · have other : ¬p.1 = q.1 := fun same => List.lt_irrefl q.1 (same ▸ more)
    simp only [more, List.lt_asymm more, not_true_eq_false, false_and, other, or_false]

/-- The entry that `preferred` takes over the best one so far. -/
abbrev Outranks (it best : Σ _ : Bytes × Bytes, Nat) : Prop :=
  it.2 > best.2 ∨ (it.2 = best.2 ∧ pairLess it.1 best.1 = true)

theorem pairLess_trans {p q r : Bytes × Bytes} (first : pairLess p q = true)
    (second : pairLess q r = true) : pairLess p r = true := by
  rw [pairLess_iff] at *
  rcases first with less | ⟨same, less⟩
  · rcases second with less' | ⟨same', _⟩
    · exact .inl (List.lt_trans less less')
    · exact .inl (same' ▸ less)
  · rcases second with less' | ⟨same', less'⟩
    · exact .inl (same ▸ less')
    · exact .inr ⟨same.trans same', List.lt_trans less less'⟩

theorem pairLess_irrefl (p : Bytes × Bytes) : ¬pairLess p p = true := by
  rw [pairLess_iff]
  rintro (less | ⟨_, less⟩) <;> exact List.lt_irrefl _ less

theorem pairLess_trichotomy (p q : Bytes × Bytes) :
    pairLess p q = true ∨ p = q ∨ pairLess q p = true := by
  rw [pairLess_iff, pairLess_iff]
  rcases Std.lt_trichotomy p.1 q.1 with less | same | more
  · exact .inl (.inl less)
  · rcases Std.lt_trichotomy p.2 q.2 with less | same' | more
    · exact .inl (.inr ⟨same, less⟩)
    · exact .inr (.inl (Prod.ext same same'))
    · exact .inr (.inr (.inr ⟨same.symm, more⟩))
  · exact .inr (.inr (.inl more))

instance : IsStrictTotalOrder (Σ _ : Bytes × Bytes, Nat) Outranks where
  irrefl e := by
    rintro (more | ⟨_, less⟩)
    · exact Nat.lt_irrefl _ more
    · exact pairLess_irrefl _ less
  trans a b c := by
    rintro (more | ⟨equal, less⟩) (more' | ⟨equal', less'⟩)
    · exact .inl (Nat.lt_trans more' more)
    · exact .inl (equal' ▸ more)
    · exact .inl (equal ▸ more')
    · exact .inr ⟨equal.trans equal', pairLess_trans less less'⟩
  trichotomous a b := by
    intro notMore notLess
    obtain ⟨p, n⟩ := a
    obtain ⟨q, m⟩ := b
    simp only [Outranks, not_or, not_and] at notMore notLess
    obtain rfl : n = m := by omega
    rcases pairLess_trichotomy p q with less | rfl | more
    · exact absurd less (notMore.2 rfl)
    · rfl
    · exact absurd more (notLess.2 rfl)

theorem preferred_eq_choose : preferred = choose Outranks := rfl

/-- The most frequent pair of the same words in any order, found in any walk. -/
theorem getMostFrequentPair_perm (order order' : HashOrder) {words words' : List (List Bytes)}
    (perm : words.Perm words') :
    getMostFrequentPair order words = getMostFrequentPair order' words' := by
  have walks := perm_walk_tally (perm.flatMap fun w _ => List.Perm.refl (adjacentPairs w)) order
    order'
  unfold getMostFrequentPair
  rw [preferred_eq_choose]
  generalize order.walk (tally (words.flatMap adjacentPairs)).entries = walk at walks ⊢
  generalize order'.walk (tally (words'.flatMap adjacentPairs)).entries = walk' at walks ⊢
  cases walk with
  | nil => rw [List.nil_perm.mp walks]
  | cons best rest =>
      cases walk' with
      | nil => cases List.perm_nil.mp walks
      | cons best' rest' => exact congrArg Sigma.fst (foldl_choose_perm Outranks walks)

namespace BPETokenizer

/-! ## The merges -/

/-- The merges that are learned do not depend on the ids. -/
theorem bpeMerges_learnMerges (order order' : HashOrder) (rounds : Nat)
    {words words' : List (List Bytes)} (perm : words.Perm words') {t t' : BPETokenizer}
    (merges : t.bpeMerges = t'.bpeMerges) :
    (learnMerges order rounds words t).bpeMerges =
      (learnMerges order' rounds words' t').bpeMerges := by
  induction rounds generalizing words words' t t' with
  | zero => exact merges
  | succ rounds ih =>
      have best := getMostFrequentPair_perm order order' perm
      rw [learnMerges, learnMerges, best]
      split
      · exact merges
      · apply ih (perm.map _)
        simp only [assign_bpeMerges, merges]

/-- Where the ids were the same before, so are they afterwards. -/
theorem lookup_learnMerges (order order' : HashOrder) (rounds : Nat)
    {words words' : List (List Bytes)} (perm : words.Perm words') {t t' : BPETokenizer}
    (ids : ∀ token, t.vocab.lookup token = t'.vocab.lookup token) (token : Bytes) :
    (learnMerges order rounds words t).vocab.lookup token =
      (learnMerges order' rounds words' t').vocab.lookup token := by
  induction rounds generalizing words words' t t' with
  | zero => exact ids token
  | succ rounds ih =>
      have best := getMostFrequentPair_perm order order' perm
      rw [learnMerges, learnMerges, best]
      split
      · exact ids token
      · apply ih (perm.map _)
        intro other
        rw [assign_vocab, assign_vocab, lookup_insert_eq, lookup_insert_eq]
        simp only [ids, size_congr ids]

/-- Merging gives ids from the vocabulary's size on. -/
theorem inverseVocab_learnMerges (order : HashOrder) (rounds : Nat) (words : List (List Bytes))
    (t : BPETokenizer) {id : Int} (old : id < size t.vocab) :
    (learnMerges order rounds words t).inverseVocab.lookup id = t.inverseVocab.lookup id := by
  induction rounds generalizing words t with
  | zero => rfl
  | succ rounds ih =>
      rw [learnMerges]
      split
      · rfl
      · have grown := size_le_size_insert t.vocab ((getMostFrequentPair order words).1 ++
          (getMostFrequentPair order words).2) (size t.vocab : Int)
        refine (ih _ _ ?_).trans ?_
        · rw [assign_vocab]
          dsimp only
          omega
        · exact AList.lookup_insert_ne (by omega)

/-! ## The words -/

/-- The pre-tokens of a valid text. -/
def preTokens (mode : TokenizerMode) (normalization : TextNormalization) (text : Bytes) :
    List Bytes :=
  (((tokenPattern mode).findAll (lowerText mode normalization text)).map collapse).filter
    fun token => token ≠ []

theorem preTokenize_eq (mode : TokenizerMode) (normalization : TextNormalization) (text : Bytes) :
    Tokenizer.preTokenize mode normalization text =
      if isValidUtf8 text = true then .ok (preTokens mode normalization text)
      else .error (.encoding "pre_tokenize(): Input text contains invalid UTF-8 sequences") := by
  by_cases valid : isValidUtf8 text = true
  · rw [if_pos valid]
    exact preTokenize_eq_ok valid
  · have some_ : text ≠ [] := by
      rintro rfl
      exact valid rfl
    rw [if_neg valid, Tokenizer.preTokenize, if_pos ⟨some_, Bool.eq_false_iff.mpr valid⟩]

theorem preTokenizeAll_eq (mode : TokenizerMode) (normalization : TextNormalization)
    (texts : List Bytes) :
    preTokenizeAll mode normalization texts =
      if ∀ text ∈ texts, isValidUtf8 text = true then
        .ok (texts.flatMap (preTokens mode normalization))
      else .error (.encoding "pre_tokenize(): Input text contains invalid UTF-8 sequences") := by
  induction texts with
  | nil => rfl
  | cons text rest ih =>
      rw [preTokenizeAll, preTokenize_eq, ih]
      by_cases here : isValidUtf8 text = true
      · by_cases later : ∀ other ∈ rest, isValidUtf8 other = true
        · have all : ∀ other ∈ text :: rest, isValidUtf8 other = true :=
            List.forall_mem_cons.mpr ⟨here, later⟩
          rw [if_pos here, if_pos later, if_pos all, List.flatMap_cons]
        · have some_ : ¬∀ other ∈ text :: rest, isValidUtf8 other = true :=
            fun all => later (List.forall_mem_cons.mp all).2
          rw [if_pos here, if_neg later, if_neg some_]
      · have some_ : ¬∀ other ∈ text :: rest, isValidUtf8 other = true :=
          fun all => here (List.forall_mem_cons.mp all).1
        rw [if_neg here, if_neg some_]

/-! ## The base vocabulary -/

/-- The next id for an entry of the counts. -/
def assignNext (state : BPETokenizer × Int) (entry : Σ _ : Bytes, Nat) : BPETokenizer × Int :=
  (state.1.assign entry.1 state.2, state.2 + 1)

/-- The entries that are frequent enough get ids while there are any left. -/
theorem foldl_addBase_eq (vocabSize threshold : Int) (entries : List (Σ _ : Bytes, Nat))
    (t : BPETokenizer) (id : Int) :
    entries.foldl (addBase vocabSize threshold) (t, id) =
      ((entries.filter fun e => threshold ≤ (e.2 : Int)).take (vocabSize - id).toNat).foldl
        assignNext (t, id) := by
  induction entries generalizing t id with
  | nil => rw [List.filter_nil, List.take_nil, List.foldl_nil, List.foldl_nil]
  | cons e rest ih =>
      rw [List.foldl_cons, addBase]
      by_cases frequent : threshold ≤ (e.2 : Int)
      · rw [List.filter_cons_of_pos (by simpa using frequent)]
        by_cases room : id < vocabSize
        · have more : (vocabSize - id).toNat = (vocabSize - (id + 1)).toNat + 1 := by omega
          rw [if_pos ⟨frequent, room⟩, ih, more, List.take_succ_cons, List.foldl_cons]
          rfl
        · have full : (vocabSize - id).toNat = 0 := by omega
          rw [if_neg fun both => room both.2, ih, full, List.take_zero, List.take_zero]
      · rw [if_neg fun both => frequent both.1, ih,
          List.filter_cons_of_neg (by simpa using frequent)]

theorem foldl_assignNext (entries : List (Σ _ : Bytes, Nat)) (t : BPETokenizer) (id : Int) :
    let state := entries.foldl assignNext (t, id)
    state.2 = id + entries.length ∧ state.1.mode = t.mode ∧
      state.1.normalization = t.normalization ∧ state.1.bpeMerges = t.bpeMerges ∧
      ∀ old < id, state.1.inverseVocab.lookup old = t.inverseVocab.lookup old := by
  induction entries generalizing t id with
  | nil => exact ⟨by simp, rfl, rfl, rfl, fun _ _ => rfl⟩
  | cons e rest ih =>
      obtain ⟨next, mode, normalization, merges, kept⟩ := ih (t.assign e.1 id) (id + 1)
      refine ⟨?_, mode, normalization, merges, fun old below => ?_⟩
      · rw [List.foldl_cons, List.length_cons]
        exact next.trans (by push_cast; omega)
      · exact (kept old (by omega)).trans (AList.lookup_insert_ne (by omega))

/-- The first of the entries has the first id. -/
theorem inverseVocab_foldl_assignNext (e : Σ _ : Bytes, Nat) (rest : List (Σ _ : Bytes, Nat))
    (t : BPETokenizer) (id : Int) :
    ((e :: rest).foldl assignNext (t, id)).1.inverseVocab.lookup id = some e.1 := by
  rw [List.foldl_cons]
  refine ((foldl_assignNext rest _ _).2.2.2.2 id (by simp)).trans ?_
  exact AList.lookup_insert _

/-- The entries that get base ids when the counts are walked in an order. -/
def baseEntries (t : BPETokenizer) (order : HashOrder) (texts : List Bytes)
    (vocabSize threshold : Int) : List (Σ _ : Bytes, Nat) :=
  ((order.walk (tally (texts.flatMap fun text => unitsOf t.mode (t.asSeen text))).entries).filter
    fun e => threshold ≤ (e.2 : Int)).take (vocabSize - 4).toNat

theorem addBaseVocab_eq (t : BPETokenizer) (order : HashOrder) (texts : List Bytes)
    (vocabSize threshold : Int) :
    t.addBaseVocab order texts vocabSize threshold =
      (t.baseEntries order texts vocabSize threshold).foldl assignNext (t, 4) :=
  foldl_addBase_eq ..

/-- What a build comes to. -/
theorem buildVocab_eq (t : BPETokenizer) (order : HashOrder) (texts : List Bytes)
    (vocabSize threshold : Int) :
    t.buildVocab order texts vocabSize threshold =
      if ∀ text ∈ texts, isValidUtf8 text = true then
        .ok (learnMerges order
          (vocabSize - (4 + (t.baseEntries order texts vocabSize threshold).length)).toNat
          (wordTokens t.mode (texts.flatMap (preTokens t.mode t.normalization)))
          ((t.baseEntries order texts vocabSize threshold).foldl assignNext (t, 4)).1)
      else .error (.encoding "pre_tokenize(): Input text contains invalid UTF-8 sequences") := by
  have base := foldl_assignNext (t.baseEntries order texts vocabSize threshold) t 4
  dsimp only at base
  obtain ⟨next, mode, normalization, _⟩ := base
  rw [buildVocab, addBaseVocab_eq, buildBpeMerges, mode, normalization, next, preTokenizeAll_eq]
  by_cases valid : ∀ text ∈ texts, isValidUtf8 text = true
  · rw [if_pos valid, if_pos valid]
  · rw [if_neg valid, if_neg valid]

section Permuted

variable {t : BPETokenizer} {texts texts' : List Bytes} (perm : texts.Perm texts')
  (order order' : HashOrder) (vocabSize threshold : Int)

include perm

theorem frequent_perm :
    ((order.walk (tally (texts.flatMap fun text =>
        unitsOf t.mode (t.asSeen text))).entries).filter fun e => threshold ≤ (e.2 : Int)).Perm
      ((order'.walk (tally (texts'.flatMap fun text =>
        unitsOf t.mode (t.asSeen text))).entries).filter fun e => threshold ≤ (e.2 : Int)) :=
  (perm_walk_tally (perm.flatMap fun _ _ => .refl _) order order').filter _

theorem length_baseEntries :
    (t.baseEntries order texts vocabSize threshold).length =
      (t.baseEntries order' texts' vocabSize threshold).length := by
  unfold baseEntries
  rw [List.length_take, List.length_take,
    (frequent_perm perm order order' threshold).length_eq]

theorem wordTokens_perm (mode : TokenizerMode) (normalization : TextNormalization) :
    (wordTokens mode (texts.flatMap (preTokens mode normalization))).Perm
      (wordTokens mode (texts'.flatMap (preTokens mode normalization))) :=
  ((perm.flatMap fun _ _ => .refl _).map _).filter _

/-- The same texts in any order teach the same merges. -/
theorem bpeMerges_buildVocab :
    (t.buildVocab order texts vocabSize threshold).map bpeMerges =
      (t.buildVocab order' texts' vocabSize threshold).map bpeMerges := by
  have validity : (∀ text ∈ texts, isValidUtf8 text = true) ↔
      ∀ text ∈ texts', isValidUtf8 text = true :=
    forall_congr' fun text => imp_congr_left perm.mem_iff
  rw [buildVocab_eq, buildVocab_eq]
  by_cases valid : ∀ text ∈ texts, isValidUtf8 text = true
  · rw [if_pos valid, if_pos (validity.mp valid),
      length_baseEntries perm order order' vocabSize threshold]
    refine congrArg Except.ok (bpeMerges_learnMerges _ _ _ (wordTokens_perm perm _ _) ?_)
    exact (foldl_assignNext _ t 4).2.2.2.1.trans (foldl_assignNext _ t 4).2.2.2.1.symm
  · rw [if_neg valid, if_neg fun all => valid (validity.mpr all)]

/-- Where the base ids are the same, so are all ids. -/
theorem lookup_buildVocab
    (same : t.baseEntries order texts vocabSize threshold =
      t.baseEntries order' texts' vocabSize threshold) (token : Bytes) :
    (t.buildVocab order texts vocabSize threshold).map (·.vocab.lookup token) =
      (t.buildVocab order' texts' vocabSize threshold).map (·.vocab.lookup token) := by
  have validity : (∀ text ∈ texts, isValidUtf8 text = true) ↔
      ∀ text ∈ texts', isValidUtf8 text = true :=
    forall_congr' fun text => imp_congr_left perm.mem_iff
  rw [buildVocab_eq, buildVocab_eq, same]
  by_cases valid : ∀ text ∈ texts, isValidUtf8 text = true
  · rw [if_pos valid, if_pos (validity.mp valid)]
    exact congrArg Except.ok
      (lookup_learnMerges _ _ _ (wordTokens_perm perm _ _) (fun _ => rfl) token)
  · rw [if_neg valid, if_neg fun all => valid (validity.mpr all)]

end Permuted

theorem size_foldl_assignNext (entries : List (Σ _ : Bytes, Nat)) (t : BPETokenizer) (id : Int) :
    size t.vocab ≤ size (entries.foldl assignNext (t, id)).1.vocab := by
  induction entries generalizing t id with
  | nil => exact Nat.le_refl _
  | cons e rest ih => exact (size_le_size_insert t.vocab e.1 id).trans (ih (t.assign e.1 id) (id + 1))

end BPETokenizer

/-! ## One build of a new tokenizer -/

/-- A new tokenizer of a mode, trained. -/
def trainNew (mode : TokenizerMode) (normalization : TextNormalization) (order : HashOrder)
    (texts : List Bytes) (vocabSize threshold : Int) : Except TokenizerError BPETokenizer :=
  ((BPETokenizer.new mode).setNormalization normalization).buildVocab order texts vocabSize
    threshold

/-- The units of the texts, as they are counted. -/
def corpusUnits (mode : TokenizerMode) (normalization : TextNormalization) (texts : List Bytes) :
    List Bytes :=
  texts.flatMap fun text =>
    unitsOf mode (((BPETokenizer.new mode).setNormalization normalization).asSeen text)

/-- A unit of the texts that reaches the threshold. -/
def IsFrequent (mode : TokenizerMode) (normalization : TextNormalization) (texts : List Bytes)
    (threshold : Int) (u : Bytes) : Prop :=
  u ∈ corpusUnits mode normalization texts ∧
    threshold ≤ ((corpusUnits mode normalization texts).count u : Int)

/-- The counts that reach the threshold, in the order they are walked. -/
def frequentEntries (mode : TokenizerMode) (normalization : TextNormalization) (order : HashOrder)
    (texts : List Bytes) (threshold : Int) : List (Σ _ : Bytes, Nat) :=
  (order.walk (tally (corpusUnits mode normalization texts)).entries).filter
    fun e => threshold ≤ (e.2 : Int)

section New

variable {mode : TokenizerMode} {normalization : TextNormalization} {order order' : HashOrder}
  {texts texts' : List Bytes} {vocabSize threshold : Int}

theorem mem_frequentEntries {e : Σ _ : Bytes, Nat} :
    e ∈ frequentEntries mode normalization order texts threshold ↔
      IsFrequent mode normalization texts threshold e.1 ∧
        e.2 = (corpusUnits mode normalization texts).count e.1 := by
  obtain ⟨u, n⟩ := e
  rw [frequentEntries, List.mem_filter, order.mem_walk, mem_entries_tally, IsFrequent,
    decide_eq_true_eq]
  dsimp only
  constructor
  · rintro ⟨⟨listed, rfl⟩, frequent⟩
    exact ⟨⟨listed, frequent⟩, rfl⟩
  · rintro ⟨⟨listed, frequent⟩, rfl⟩
    exact ⟨⟨listed, rfl⟩, frequent⟩

theorem nodup_frequentEntries :
    ((frequentEntries mode normalization order texts threshold).map Sigma.fst).Nodup := by
  have keys : ((order.walk (tally (corpusUnits mode normalization texts)).entries).map
      Sigma.fst).Nodup :=
    (((order.perm _).map Sigma.fst).nodup_iff).mpr (AList.keys_nodup _)
  exact keys.sublist (List.filter_sublist.map Sigma.fst)

/-- With one frequent unit at most, the counts that reach the threshold are the same in
every order. -/
theorem frequentEntries_eq
    (single : ∀ u v, IsFrequent mode normalization texts threshold u →
      IsFrequent mode normalization texts threshold v → u = v)
    (perm : texts.Perm texts') :
    frequentEntries mode normalization order texts threshold =
      frequentEntries mode normalization order' texts' threshold := by
  have same : (frequentEntries mode normalization order texts threshold).Perm
      (frequentEntries mode normalization order' texts' threshold) :=
    BPETokenizer.frequent_perm (t := (BPETokenizer.new mode).setNormalization normalization) perm
      order order' threshold
  have distinct := @nodup_frequentEntries mode normalization order texts threshold
  have members : ∀ e ∈ frequentEntries mode normalization order texts threshold,
      IsFrequent mode normalization texts threshold e.1 :=
    fun e member => (mem_frequentEntries.mp member).1
  match found : frequentEntries mode normalization order texts threshold with
  | [] =>
      rw [found] at same
      exact (List.nil_perm.mp same).symm
  | [e] =>
      rw [found] at same
      exact List.singleton_perm.mp same
  | e :: e' :: rest =>
      rw [found] at distinct members
      have equal := single e.1 e'.1 (members e List.mem_cons_self)
        (members e' (List.mem_cons_of_mem _ List.mem_cons_self))
      exact absurd (equal ▸ List.mem_cons_self) (List.nodup_cons.mp distinct).1

/-- The first of the frequent entries has the first base id. -/
theorem lookup_first (valid : ∀ text ∈ texts, isValidUtf8 text = true) (room : 4 < vocabSize)
    {e : Σ _ : Bytes, Nat} {rest : List (Σ _ : Bytes, Nat)}
    (found : frequentEntries mode normalization order texts threshold = e :: rest) :
    ∃ t, trainNew mode normalization order texts vocabSize threshold = .ok t ∧
      ∀ u, t.vocab.lookup u = some 4 ↔ u = e.1 := by
  let fresh := (BPETokenizer.new mode).setNormalization normalization
  obtain ⟨t, start, words, done, corpus, trained, _⟩ :=
    buildVocab_trained order vocabSize threshold mode normalization valid
  refine ⟨t, done, fun u => ?_⟩
  rw [trained.numbered.inverse]
  have some_ : (vocabSize - 4).toNat = (vocabSize - 5).toNat + 1 := by omega
  have base : fresh.baseEntries order texts vocabSize threshold =
      e :: rest.take (vocabSize - 5).toNat := by
    rw [← List.take_succ_cons, ← some_, ← found]
    rfl
  have new : e.1 ∉ fresh.vocab := by
    have listed : e ∈ frequentEntries mode normalization order texts threshold :=
      found ▸ List.mem_cons_self
    obtain ⟨text, member, inside⟩ := List.mem_flatMap.mp (mem_frequentEntries.mp listed).1.1
    have unit : IsUnit mode e.1 := isUnit_of_mem_asSeen (t := fresh) (valid text member) inside
    exact fun known => not_special_of_isUnit unit (special_of_mem_new mode known)
  have grown : (4 : Int) < size ((fresh.baseEntries order texts vocabSize threshold).foldl
      BPETokenizer.assignNext (fresh, 4)).1.vocab := by
    have five : size (fresh.assign e.1 4).vocab = 5 := size_insert new 4
    have more := BPETokenizer.size_foldl_assignNext (rest.take (vocabSize - 5).toNat)
      (fresh.assign e.1 4) 5
    rw [base, List.foldl_cons]
    change (4 : Int) < size ((rest.take (vocabSize - 5).toNat).foldl BPETokenizer.assignNext
      (fresh.assign e.1 4, 5)).1.vocab
    omega
  have first : t.inverseVocab.lookup 4 = some e.1 := by
    have built := done
    rw [BPETokenizer.buildVocab_eq, if_pos valid] at built
    rw [← Except.ok.inj built, BPETokenizer.inverseVocab_learnMerges _ _ _ _ grown, base]
    exact BPETokenizer.inverseVocab_foldl_assignNext ..
  rw [first, Option.some.injEq]
  exact eq_comm

/-- Two walks, one the reverse of the other, start with different units if there are
any two. -/
theorem isFrequent_single (valid : ∀ text ∈ texts, isValidUtf8 text = true) (room : 4 < vocabSize)
    (same : ∀ token, (trainNew mode normalization HashOrder.listed texts vocabSize threshold).map
        (·.vocab.lookup token) =
      (trainNew mode normalization HashOrder.inserted texts vocabSize threshold).map
        (·.vocab.lookup token)) :
    ∀ u v, IsFrequent mode normalization texts threshold u →
      IsFrequent mode normalization texts threshold v → u = v := by
  intro u v frequent frequent'
  have reversed : frequentEntries mode normalization HashOrder.inserted texts threshold =
      (frequentEntries mode normalization HashOrder.listed texts threshold).reverse :=
    List.filter_reverse
  have distinct := @nodup_frequentEntries mode normalization HashOrder.listed texts threshold
  have listed {u : Bytes} (frequent : IsFrequent mode normalization texts threshold u) :
      ⟨u, (corpusUnits mode normalization texts).count u⟩ ∈
        frequentEntries mode normalization HashOrder.listed texts threshold :=
    mem_frequentEntries.mpr ⟨frequent, rfl⟩
  have member := listed frequent
  have member' := listed frequent'
  match found : frequentEntries mode normalization HashOrder.listed texts threshold with
  | [] =>
      rw [found] at member
      cases member
  | first :: rest =>
      rcases List.eq_nil_or_concat rest with rfl | ⟨middle, last, rfl⟩
      · rw [found, List.mem_singleton] at member member'
        exact congrArg Sigma.fst (member.trans member'.symm)
      · rw [found] at reversed distinct
        rw [List.concat_eq_append] at found reversed distinct
        rw [List.reverse_cons, List.reverse_append, List.reverse_singleton,
          List.singleton_append, List.cons_append] at reversed
        obtain ⟨t, done, ids⟩ := lookup_first valid room found
        obtain ⟨t', done', ids'⟩ := lookup_first valid room reversed
        have equal := same last.1
        rw [done, done'] at equal
        have lookups : t.vocab.lookup last.1 = t'.vocab.lookup last.1 := Except.ok.inj equal
        have one : last.1 = first.1 := (ids last.1).mp (lookups.trans ((ids' last.1).mpr rfl))
        rw [List.map_cons, List.nodup_cons, ← one] at distinct
        exact (distinct.1 (List.mem_map_of_mem (by simp))).elim

end New

/-! ## The result -/

/-- **What a build depends on.** The same texts in any order, and however the tables are
walked, teach the same merges. They give the same ids exactly when a text is refused, no
base id is to be had, or at most one unit reaches the threshold. -/
theorem build_vocab_order_iff (mode : TokenizerMode) (normalization : TextNormalization)
    (texts : List Bytes) (vocabSize threshold : Int) :
    (∀ (texts' : List Bytes) (order order' : HashOrder), texts.Perm texts' →
      (trainNew mode normalization order texts vocabSize threshold).map (·.bpeMerges) =
        (trainNew mode normalization order' texts' vocabSize threshold).map (·.bpeMerges)) ∧
    ((∀ (texts' : List Bytes) (order order' : HashOrder), texts.Perm texts' →
      (trainNew mode normalization order texts vocabSize threshold).map (·.bpeMerges) =
          (trainNew mode normalization order' texts' vocabSize threshold).map (·.bpeMerges) ∧
        ∀ token, (trainNew mode normalization order texts vocabSize threshold).map
            (·.vocab.lookup token) =
          (trainNew mode normalization order' texts' vocabSize threshold).map
            (·.vocab.lookup token)) ↔
      (∃ text ∈ texts, isValidUtf8 text = false) ∨ vocabSize ≤ 4 ∨
        ∀ u v, IsFrequent mode normalization texts threshold u →
          IsFrequent mode normalization texts threshold v → u = v) := by
  refine ⟨fun texts' order order' perm =>
    BPETokenizer.bpeMerges_buildVocab perm order order' vocabSize threshold, ?_, ?_⟩
  · intro same
    by_contra differs
    obtain ⟨noneRefused, differs⟩ := not_or.mp differs
    obtain ⟨room, differs⟩ := not_or.mp differs
    have valid : ∀ text ∈ texts, isValidUtf8 text = true := fun text member =>
      Bool.not_eq_false _ ▸ fun refused => noneRefused ⟨text, member, refused⟩
    exact differs (isFrequent_single valid (Int.not_le.mp room)
      (same texts HashOrder.listed HashOrder.inserted (.refl _)).2)
  · intro condition texts' order order' perm
    refine ⟨BPETokenizer.bpeMerges_buildVocab perm order order' vocabSize threshold, ?_⟩
    rcases condition with ⟨text, member, refused⟩ | full | single
    · have some_ : ¬∀ text ∈ texts, isValidUtf8 text = true := fun all =>
        absurd (all text member) (Bool.eq_false_iff.mp refused)
      have some' : ¬∀ text ∈ texts', isValidUtf8 text = true := fun all =>
        absurd (all text (perm.mem_iff.mp member)) (Bool.eq_false_iff.mp refused)
      intro token
      rw [trainNew, trainNew, BPETokenizer.buildVocab_eq, BPETokenizer.buildVocab_eq, if_neg some_,
        if_neg some']
    · apply BPETokenizer.lookup_buildVocab perm
      have none_ : (vocabSize - 4).toNat = 0 := by omega
      unfold BPETokenizer.baseEntries
      rw [none_, List.take_zero, List.take_zero]
    · apply BPETokenizer.lookup_buildVocab perm
      exact congrArg (List.take (vocabSize - 4).toNat) (frequentEntries_eq single perm)

/-- Two letters are numbered as the table lists them. -/
theorem build_vocab_order_fails :
    ¬∀ (mode : TokenizerMode) (normalization : TextNormalization) (texts texts' : List Bytes)
      (vocabSize threshold : Int) (order order' : HashOrder), texts.Perm texts' →
      (trainNew mode normalization order texts vocabSize threshold).map (·.bpeMerges) =
          (trainNew mode normalization order' texts' vocabSize threshold).map (·.bpeMerges) ∧
        ∀ token, (trainNew mode normalization order texts vocabSize threshold).map
            (·.vocab.lookup token) =
          (trainNew mode normalization order' texts' vocabSize threshold).map
            (·.vocab.lookup token) := by
  intro claim
  have same := (claim .ascii .cased [ascii "ab"] [ascii "ab"] 6 1 HashOrder.listed
    HashOrder.inserted (.refl _)).2 (ascii "a")
  have differs : (trainNew .ascii .cased HashOrder.listed [ascii "ab"] 6 1).map
      (·.vocab.lookup (ascii "a")) ≠ (trainNew .ascii .cased HashOrder.inserted [ascii "ab"] 6 1).map
      (·.vocab.lookup (ascii "a")) := by
    decide
  exact differs same

end Adai.Tokenizer
