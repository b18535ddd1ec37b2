import Mathlib.Data.Finset.Insert
import Adai.Math.Tables
import Adai.Tokenizer.PreTokenize

/-! # Learning a vocabulary

`BPETokenizer.buildVocab` gives ids to the frequent units of the corpus, from 4 on,
and then learns merges: each round takes the most frequent pair of adjacent
tokens, gives the merged string the vocabulary's size as its id, and merges the
pair in every word. `Trained` is what holds after each round; one merge keeps it
(`Trained.merge`) because the merged string is new: no unit, as it has at least two
of them, no special token, as letters never stand beside angle brackets in a
pre-token, and no earlier product.

`build_vocab_numbered` states it of a whole run.
-/

namespace Adai.Tokenizer

open PairMerge Tables

/-! ## The tokenizer -/

structure BPETokenizer where
  mode : TokenizerMode
  normalization : TextNormalization
  vocab : Table Bytes Int
  inverseVocab : Table Int Bytes
  bpeMerges : List (Bytes × Bytes)
  specialTokens : Finset Bytes
  padTokenId : Int
  unkTokenId : Int
  bosTokenId : Int
  eosTokenId : Int

def padToken : Bytes := ascii "<pad>"
def unkToken : Bytes := ascii "<unk>"
def bosToken : Bytes := ascii "<bos>"
def eosToken : Bytes := ascii "<eos>"

/-- The special tokens with their standard ids. -/
def standardSpecials : List (Bytes × Int) :=
  [(padToken, 0), (unkToken, 1), (bosToken, 2), (eosToken, 3)]

namespace BPETokenizer

/-- The constructor; a new tokenizer is cased. -/
def new (mode : TokenizerMode) : BPETokenizer where
  mode := mode
  normalization := .cased
  vocab := (((((∅ : Table Bytes Int).insert padToken 0).insert unkToken 1).insert bosToken 2).insert
    eosToken 3)
  inverseVocab := (((((∅ : Table Int Bytes).insert 0 padToken).insert 1 unkToken).insert 2
    bosToken).insert 3 eosToken)
  bpeMerges := []
  specialTokens := {padToken, unkToken, bosToken, eosToken}
  padTokenId := 0
  unkTokenId := 1
  bosTokenId := 2
  eosTokenId := 3

def setNormalization (t : BPETokenizer) (normalization : TextNormalization) : BPETokenizer :=
  { t with normalization := normalization }

/-- The token gets the id, in both tables. -/
def assign (t : BPETokenizer) (token : Bytes) (id : Int) : BPETokenizer :=
  { t with
    vocab := t.vocab.insert token id
    inverseVocab := t.inverseVocab.insert id token }

@[simp] theorem assign_vocab (t : BPETokenizer) (token : Bytes) (id : Int) :
    (t.assign token id).vocab = t.vocab.insert token id := rfl

@[simp] theorem assign_bpeMerges (t : BPETokenizer) (token : Bytes) (id : Int) :
    (t.assign token id).bpeMerges = t.bpeMerges := rfl

def preTokenize (t : BPETokenizer) (text : Bytes) : Except TokenizerError (List Bytes) :=
  Tokenizer.preTokenize t.mode t.normalization text

/-- The pre-tokens of all texts; the first invalid text ends it. -/
def preTokenizeAll (mode : TokenizerMode) (normalization : TextNormalization) :
    List Bytes → Except TokenizerError (List Bytes)
  | [] => .ok []
  | text :: rest =>
      match Tokenizer.preTokenize mode normalization text with
      | .error e => .error e
      | .ok tokens =>
          match preTokenizeAll mode normalization rest with
          | .error e => .error e
          | .ok others => .ok (tokens ++ others)

end BPETokenizer

/-! ## The most frequent pair -/

def adjacentPairs (tokens : List Bytes) : List (Bytes × Bytes) := tokens.zip tokens.tail

/-- Pairs in the order of their first and then their second token, bytes as unsigned. -/
def pairLess (p q : Bytes × Bytes) : Bool := p.1 < q.1 || (!(q.1 < p.1) && p.2 < q.2)

/-- The higher count, and between equal counts the smaller pair. -/
def preferred (best it : Σ _ : Bytes × Bytes, Nat) : Σ _ : Bytes × Bytes, Nat :=
  if it.2 > best.2 ∨ (it.2 = best.2 ∧ pairLess it.1 best.1) then it else best

/-- Two empty strings stand for no pair. -/
def getMostFrequentPair (order : HashOrder) (words : List (List Bytes)) : Bytes × Bytes :=
  match order.walk (tally (words.flatMap adjacentPairs)).entries with
  | [] => ([], [])
  | best :: rest => (rest.foldl preferred best).1

def mergeTokens (words : List (List Bytes)) (first second : Bytes) : List (List Bytes) :=
  words.map (mergePair first second)

/-! ## Building -/

namespace BPETokenizer

/-- At most this many rounds; the new id is the vocabulary's size. -/
def learnMerges (order : HashOrder) : Nat → List (List Bytes) → BPETokenizer → BPETokenizer
  | 0, _, t => t
  | rounds + 1, words, t =>
      let best := getMostFrequentPair order words
      if best.1 = [] then t
      else
        learnMerges order rounds (mergeTokens words best.1 best.2)
          (({ t with bpeMerges := t.bpeMerges ++ [best] } : BPETokenizer).assign
            (best.1 ++ best.2) (size t.vocab))

/-- The units of the pre-tokens, as far as there are any. -/
def wordTokens (mode : TokenizerMode) (tokens : List Bytes) : List (List Bytes) :=
  (tokens.map (unitsOf mode)).filter fun units => units ≠ []

def buildBpeMerges (t : BPETokenizer) (order : HashOrder) (texts : List Bytes) (numMerges : Nat) :
    Except TokenizerError BPETokenizer :=
  match preTokenizeAll t.mode t.normalization texts with
  | .error e => .error e
  | .ok tokens => .ok (learnMerges order numMerges (wordTokens t.mode tokens) t)

/-- One entry of the counts, with the id that comes next. -/
def addBase (vocabSize threshold : Int) (state : BPETokenizer × Int) (entry : Σ _ : Bytes, Nat) :
    BPETokenizer × Int :=
  if (entry.2 : Int) ≥ threshold ∧ state.2 < vocabSize then
    (state.1.assign entry.1 state.2, state.2 + 1)
  else state

/-- The text as the counts see it. -/
def asSeen (t : BPETokenizer) (text : Bytes) : Bytes :=
  match t.normalization with
  | .cased => text
  | .lowercase => lowerAscii text

/-- The base vocabulary, and the id that comes after it. -/
def addBaseVocab (t : BPETokenizer) (order : HashOrder) (texts : List Bytes)
    (vocabSize threshold : Int) : BPETokenizer × Int :=
  let counts := tally (texts.flatMap fun text => unitsOf t.mode (t.asSeen text))
  (order.walk counts.entries).foldl (addBase vocabSize threshold) (t, 4)

def buildVocab (t : BPETokenizer) (order : HashOrder) (texts : List Bytes)
    (vocabSize threshold : Int) : Except TokenizerError BPETokenizer :=
  let base := t.addBaseVocab order texts vocabSize threshold
  base.1.buildBpeMerges order texts (vocabSize - base.2).toNat

end BPETokenizer

/-! ## The pair that is merged occurs -/

theorem isFactor_of_mem_adjacentPairs {words : List (List Bytes)} {a b : Bytes}
    (member : (a, b) ∈ words.flatMap adjacentPairs) : IsFactor words [a, b] := by
  obtain ⟨w, listed, pair⟩ := List.mem_flatMap.mp member
  refine ⟨w, listed, ?_⟩
  clear listed member
  induction w with
  | nil => cases pair
  | cons t rest ih =>
      cases rest with
      | nil => cases pair
      | cons u rest =>
          rcases List.mem_cons.mp pair with here | later
          · obtain ⟨rfl, rfl⟩ := Prod.mk.inj here
            exact ⟨[], rest, rfl⟩
          · exact (ih later).trans (List.suffix_cons t _).isInfix

theorem foldl_preferred_mem (best : Σ _ : Bytes × Bytes, Nat)
    (rest : List (Σ _ : Bytes × Bytes, Nat)) : rest.foldl preferred best ∈ best :: rest := by
  induction rest generalizing best with
  | nil => exact List.mem_singleton_self _
  | cons it rest ih =>
      rw [List.foldl_cons]
      rcases List.mem_cons.mp (ih (preferred best it)) with chosen | later
      · rw [chosen, preferred]
        split <;> simp
      · exact List.mem_cons_of_mem _ (List.mem_cons_of_mem _ later)

theorem isFactor_getMostFrequentPair {order : HashOrder} {words : List (List Bytes)}
    (some_ : (getMostFrequentPair order words).1 ≠ []) :
    IsFactor words [(getMostFrequentPair order words).1, (getMostFrequentPair order words).2] := by
  apply isFactor_of_mem_adjacentPairs
  revert some_
  rw [getMostFrequentPair]
  split
  · exact fun some_ => (some_ rfl).elim
  · rename_i best rest walked
    intro _
    have chosen : rest.foldl preferred best ∈ order.walk
        (tally (words.flatMap adjacentPairs)).entries := walked ▸ foldl_preferred_mem best rest
    exact mem_of_mem_tally (mem_of_mem_entries (order.mem_walk.mp chosen))

/-! ## Words of the corpus -/

/-- Each word is the units of a pre-token. -/
def FromCorpus (mode : TokenizerMode) (start : List (List Bytes)) : Prop :=
  ∀ w ∈ start, ∃ token, IsPreToken mode token ∧ w = unitsOf mode token

namespace FromCorpus

variable {mode : TokenizerMode} {start : List (List Bytes)}

theorem units (corpus : FromCorpus mode start) : ∀ w ∈ start, ∀ u ∈ w, IsUnit mode u := by
  intro w member u inside
  obtain ⟨token, pre, rfl⟩ := corpus w member
  exact isUnit_of_mem_unitsOf pre.valid inside

theorem coherent (corpus : FromCorpus mode start) : Coherent start :=
  (unitCode mode).coherent corpus.units

theorem unmixed (corpus : FromCorpus mode start) {g : List Bytes} (factor : IsFactor start g) :
    Unmixed g.flatten := by
  obtain ⟨w, member, inside⟩ := factor
  obtain ⟨token, pre, rfl⟩ := corpus w member
  have within : g.flatten <:+: token := flatten_unitsOf mode token ▸ inside.flatten
  exact pre.unmixed.imp (fun none c listed => none c (within.subset listed))
    fun all c listed => all c (within.subset listed)

/-- Two units or more never spell a single one. -/
theorem not_isUnit (corpus : FromCorpus mode start) {g : List Bytes} (factor : IsFactor start g)
    (several : 2 ≤ g.length) : ¬ IsUnit mode g.flatten := by
  intro unit
  obtain ⟨w, member, inside⟩ := factor
  have parts : ∀ u ∈ g, IsUnit mode u := fun u listed =>
    corpus.units w member u (inside.subset listed)
  have single := (unitCode mode).flatten_injective parts
    (fun u listed => List.mem_singleton.mp listed ▸ unit) (g := [g.flatten]) (by simp)
  rw [single] at several
  simp at several

end FromCorpus

theorem not_unmixed_special : ∀ s ∈ standardSpecials, ¬ Unmixed s.1 := by
  unfold Unmixed
  decide

namespace BPETokenizer

theorem fromCorpus_wordTokens {mode : TokenizerMode} {normalization : TextNormalization}
    {texts tokens : List Bytes} (done : preTokenizeAll mode normalization texts = .ok tokens) :
    FromCorpus mode (wordTokens mode tokens) := by
  intro w member
  obtain ⟨token, listed, rfl⟩ := List.mem_map.mp (List.mem_filter.mp member).1
  refine ⟨token, ?_, rfl⟩
  clear member
  induction texts generalizing tokens with
  | nil =>
      obtain rfl := Except.ok.inj done
      cases listed
  | cons text rest ih =>
      rw [preTokenizeAll] at done
      split at done
      · cases done
      · rename_i here first
        split at done
        · cases done
        · rename_i others later
          obtain rfl := Except.ok.inj done
          rcases List.mem_append.mp listed with now | after
          · exact isPreToken_of_mem first token now
          · exact ih later after

theorem preTokenizeAll_ok {mode : TokenizerMode} {normalization : TextNormalization}
    {texts : List Bytes} (valid : ∀ text ∈ texts, isValidUtf8 text = true) :
    ∃ tokens, preTokenizeAll mode normalization texts = .ok tokens := by
  induction texts with
  | nil => exact ⟨[], rfl⟩
  | cons text rest ih =>
      have first := @preTokenize_eq_ok mode normalization text (valid text List.mem_cons_self)
      obtain ⟨others, later⟩ := ih fun other member => valid other (List.mem_cons_of_mem _ member)
      exact ⟨_, by rw [preTokenizeAll, first, later]⟩

theorem valid_of_preTokenizeAll {mode : TokenizerMode} {normalization : TextNormalization}
    {texts tokens : List Bytes} (done : preTokenizeAll mode normalization texts = .ok tokens) :
    ∀ text ∈ texts, isValidUtf8 text = true := by
  induction texts generalizing tokens with
  | nil => simp
  | cons text rest ih =>
      rw [preTokenizeAll] at done
      split at done
      · cases done
      · rename_i here first
        split at done
        · cases done
        · rename_i others later
          intro other member
          rcases List.mem_cons.mp member with rfl | listed
          · exact isValidUtf8_of_preTokenize first
          · exact ih later other listed

end BPETokenizer

/-! ## What training keeps -/

/-- After some merges: the tables number each other, every token of the vocabulary
is special or a unit or a merge's product, and the products have the last ids in
the order of their merges. -/
structure Trained (mode : TokenizerMode) (normalization : TextNormalization)
    (start words : List (List Bytes)) (t : BPETokenizer) : Prop where
  mode_eq : t.mode = mode
  normalization_eq : t.normalization = normalization
  specialTokens_eq : t.specialTokens = (BPETokenizer.new mode).specialTokens
  ids_eq : t.padTokenId = 0 ∧ t.unkTokenId = 1 ∧ t.bosTokenId = 2 ∧ t.eosTokenId = 3
  numbered : Numbered t.vocab t.inverseVocab
  special : ∀ s ∈ standardSpecials, t.vocab.lookup s.1 = some s.2
  learned : Learning start t.bpeMerges words
  origin : ∀ token ∈ t.vocab, token ∈ standardSpecials.map Prod.fst ∨ IsUnit mode token ∨
    token ∈ t.bpeMerges.map product
  ranked : ∃ base, size t.vocab = base + t.bpeMerges.length ∧
    ∀ i m, t.bpeMerges[i]? = some m → t.vocab.lookup (product m) = some ((base + i : Nat) : Int)

theorem special_of_mem_new (mode : TokenizerMode) {token : Bytes}
    (member : token ∈ (BPETokenizer.new mode).vocab) : token ∈ standardSpecials.map Prod.fst := by
  have listed : ∀ token ∈ (BPETokenizer.new .ascii).vocab.keys,
      token ∈ standardSpecials.map Prod.fst := by decide
  exact listed token (AList.mem_keys.mp member)

namespace Trained

variable {mode : TokenizerMode} {normalization : TextNormalization}
  {start words : List (List Bytes)} {t : BPETokenizer}

theorem new (mode : TokenizerMode) (normalization : TextNormalization)
    (start : List (List Bytes)) :
    Trained mode normalization start start
      ((BPETokenizer.new mode).setNormalization normalization) where
  mode_eq := rfl
  normalization_eq := rfl
  specialTokens_eq := rfl
  ids_eq := ⟨rfl, rfl, rfl, rfl⟩
  numbered :=
    (((Numbered.empty.insert (k := padToken) (by decide)).insert (k := unkToken)
      (by decide)).insert (k := bosToken) (by decide)).insert (k := eosToken) (by decide)
  special := by
    change ∀ s ∈ standardSpecials, (BPETokenizer.new .ascii).vocab.lookup s.1 = some s.2
    decide
  learned := .nil
  origin token member := .inl (special_of_mem_new mode member)
  ranked := ⟨4, rfl, fun i m found => by cases found⟩

theorem product_mem (trained : Trained mode normalization start words t)
    {m : Bytes × Bytes} (member : m ∈ t.bpeMerges) : product m ∈ t.vocab := by
  obtain ⟨base, _, ids⟩ := trained.ranked
  obtain ⟨i, found⟩ := List.mem_iff_getElem?.mp member
  exact mem_of_lookup (ids i m found)

theorem special_mem (trained : Trained mode normalization start words t) {s : Bytes × Int}
    (member : s ∈ standardSpecials) : s.1 ∈ t.vocab :=
  mem_of_lookup (trained.special s member)

/-- What a pair that occurs spells is not in the vocabulary yet. -/
theorem fresh (trained : Trained mode normalization start words t)
    (corpus : FromCorpus mode start) {a b : Bytes} (occurs : IsFactor words [a, b]) :
    a ++ b ∉ t.vocab := by
  intro member
  obtain ⟨g, factor, spells, several⟩ := trained.learned.lift occurs
  obtain spells : g.flatten = a ++ b := by simpa using spells
  rcases trained.origin _ member with special | unit | merged
  · obtain ⟨s, listed, same⟩ := List.mem_map.mp special
    apply not_unmixed_special s listed
    rw [same, ← spells]
    exact corpus.unmixed factor
  · rw [← spells] at unit
    exact corpus.not_isUnit factor several unit
  · obtain ⟨m, listed, same⟩ := List.mem_map.mp merged
    exact trained.learned.fresh corpus.coherent occurs m listed same

/-- A new token that is a unit or the next product keeps what the tables say of
those before it. -/
theorem special_assign (trained : Trained mode normalization start words t) {token : Bytes}
    (new : token ∉ t.vocab) (id : Int) :
    ∀ s ∈ standardSpecials, (t.assign token id).vocab.lookup s.1 = some s.2 := by
  intro s member
  have other : s.1 ≠ token := by
    rintro rfl
    exact new (trained.special_mem member)
  rw [BPETokenizer.assign_vocab, AList.lookup_insert_ne other]
  exact trained.special s member

/-- A unit gets the next id before any merge is made. -/
theorem assign_unit (trained : Trained mode normalization start start t)
    (none : t.bpeMerges = []) {u : Bytes} (unit : IsUnit mode u) (new : u ∉ t.vocab) :
    Trained mode normalization start start (t.assign u (size t.vocab)) where
  mode_eq := trained.mode_eq
  normalization_eq := trained.normalization_eq
  specialTokens_eq := trained.specialTokens_eq
  ids_eq := trained.ids_eq
  numbered := trained.numbered.insert new
  special := trained.special_assign new _
  learned := trained.learned
  origin token member := by
    rcases (AList.mem_insert t.vocab).mp member with rfl | before
    · exact .inr (.inl unit)
    · exact trained.origin token before
  ranked := by
    refine ⟨size t.vocab + 1, ?_, fun i m found => ?_⟩
    · simp [size_insert new, none]
    · simp [none] at found

/-- One merge. -/
theorem merge (trained : Trained mode normalization start words t)
    (corpus : FromCorpus mode start) {a b : Bytes} (occurs : IsFactor words [a, b]) :
    Trained mode normalization start (mergeTokens words a b)
      (({ t with bpeMerges := t.bpeMerges ++ [(a, b)] } : BPETokenizer).assign (a ++ b)
        (size t.vocab)) where
  mode_eq := trained.mode_eq
  normalization_eq := trained.normalization_eq
  specialTokens_eq := trained.specialTokens_eq
  ids_eq := trained.ids_eq
  numbered := trained.numbered.insert (trained.fresh corpus occurs)
  special := trained.special_assign (trained.fresh corpus occurs) _
  learned := trained.learned.snoc occurs
  origin token member := by
    rcases (AList.mem_insert t.vocab).mp member with rfl | before
    · exact .inr (.inr (by simp [product]))
    · refine (trained.origin token before).imp_right (Or.imp_right fun earlier => ?_)
      rw [BPETokenizer.assign_bpeMerges, List.map_append]
      exact List.mem_append_left _ earlier
  ranked := by
    have new := trained.fresh corpus occurs
    obtain ⟨base, total, ids⟩ := trained.ranked
    refine ⟨base, ?_, fun i m found => ?_⟩
    · simp only [BPETokenizer.assign_vocab, BPETokenizer.assign_bpeMerges, size_insert new, total,
        List.length_append, List.length_singleton, Nat.add_assoc]
    · simp only [BPETokenizer.assign_vocab, BPETokenizer.assign_bpeMerges] at found ⊢
      by_cases earlier : i < t.bpeMerges.length
      · rw [List.getElem?_append_left earlier] at found
        have kept := ids i m found
        rw [AList.lookup_insert_ne, kept]
        intro same
        exact new (same ▸ mem_of_lookup kept)
      · obtain ⟨rfl, rfl⟩ : i = t.bpeMerges.length ∧ (a, b) = m := by
          rw [List.getElem?_append_right (Nat.le_of_not_lt earlier)] at found
          have last := List.getElem?_eq_some_iff.mp found
          grind
        rw [product, AList.lookup_insert, total]

/-- All merges of a run. -/
theorem learnMerges (trained : Trained mode normalization start words t)
    (corpus : FromCorpus mode start) (order : HashOrder) (rounds : Nat) :
    ∃ words', Trained mode normalization start words'
      (BPETokenizer.learnMerges order rounds words t) := by
  induction rounds generalizing words t with
  | zero => exact ⟨words, trained⟩
  | succ rounds ih =>
      rw [BPETokenizer.learnMerges]
      split
      · exact ⟨words, trained⟩
      · rename_i some_
        exact ih (trained.merge corpus (isFactor_getMostFrequentPair some_))

/-- The parts of a merge are not empty. -/
theorem parts_ne_nil (trained : Trained mode normalization start words t)
    (corpus : FromCorpus mode start) : ∀ m ∈ t.bpeMerges, m.1 ≠ [] ∧ m.2 ≠ [] :=
  (trained.learned.ne_nil fun w member u inside =>
    (unitCode mode).ne_nil u (corpus.units w member u inside)).2

end Trained

/-- A round adds one token at most. -/
theorem size_learnMerges_le (order : HashOrder) (rounds : Nat) (words : List (List Bytes))
    (t : BPETokenizer) :
    size (BPETokenizer.learnMerges order rounds words t).vocab ≤ size t.vocab + rounds := by
  induction rounds generalizing words t with
  | zero => exact Nat.le_refl _
  | succ rounds ih =>
      rw [BPETokenizer.learnMerges]
      split
      · exact Nat.le_add_right _ _
      · refine (ih _ _).trans ?_
        have one_more := size_insert_le t.vocab ((getMostFrequentPair order words).1 ++
          (getMostFrequentPair order words).2) (size t.vocab : Int)
        simp only [BPETokenizer.assign_vocab]
        omega

/-! ## The base vocabulary -/

theorem isUnit_of_mem_asSeen {t : BPETokenizer} {text u : Bytes} (valid : isValidUtf8 text = true)
    (member : u ∈ unitsOf t.mode (t.asSeen text)) : IsUnit t.mode u := by
  refine isUnit_of_mem_unitsOf (fun _ => ?_) member
  rw [BPETokenizer.asSeen]
  split
  · exact valid
  · rw [lowerAscii_eq]
    exact isValidUtf8_map_toLower valid

/-- The units that are frequent enough get ids, in the order they are walked. -/
theorem Trained.foldl_addBase {mode : TokenizerMode} {normalization : TextNormalization}
    {start : List (List Bytes)} {t : BPETokenizer}
    (trained : Trained mode normalization start start t) (none : t.bpeMerges = [])
    (vocabSize threshold : Int) {entries : List (Σ _ : Bytes, Nat)} {currentId : Int}
    (next : currentId = size t.vocab) (distinct : (entries.map Sigma.fst).Nodup)
    (units : ∀ e ∈ entries, IsUnit mode e.1 ∧ e.1 ∉ t.vocab) :
    ∃ t' id, entries.foldl (BPETokenizer.addBase vocabSize threshold) (t, currentId) = (t', id) ∧
      Trained mode normalization start start t' ∧ id = size t'.vocab ∧
      id ≤ max currentId vocabSize := by
  induction entries generalizing t currentId with
  | nil => exact ⟨t, currentId, rfl, trained, next, le_max_left _ _⟩
  | cons e rest ih =>
      obtain ⟨apart, distinct⟩ := List.nodup_cons.mp distinct
      have others : ∀ e' ∈ rest, IsUnit mode e'.1 ∧ e'.1 ∉ t.vocab := fun e' later =>
        units e' (List.mem_cons_of_mem _ later)
      obtain ⟨unit, new⟩ := units e List.mem_cons_self
      rw [List.foldl_cons, BPETokenizer.addBase]
      split
      · rename_i added
        have kept : ∀ e' ∈ rest, IsUnit mode e'.1 ∧ e'.1 ∉ (t.assign e.1 currentId).vocab := by
          intro e' later
          refine ⟨(others e' later).1, fun member => ?_⟩
          rcases (AList.mem_insert t.vocab).mp member with same | before
          · exact apart (List.mem_map.mpr ⟨e', later, same⟩)
          · exact (others e' later).2 before
        have next' : currentId + 1 = size (t.assign e.1 currentId).vocab := by
          rw [next]
          exact (congrArg Nat.cast (size_insert new _)).symm
        have assigned : Trained mode normalization start start (t.assign e.1 currentId) :=
          next ▸ trained.assign_unit none unit new
        obtain ⟨t', id, walked, trained', last, bound⟩ := ih assigned none next' distinct kept
        exact ⟨t', id, walked, trained', last, by omega⟩
      · exact ih trained none next distinct others

theorem special_length : ∀ s ∈ standardSpecials, s.1.length = 5 := by decide

/-- A unit has at most four bytes. -/
theorem not_special_of_isUnit {mode : TokenizerMode} {u : Bytes} (unit : IsUnit mode u) :
    u ∉ standardSpecials.map Prod.fst := by
  intro listed
  obtain ⟨s, member, rfl⟩ := List.mem_map.mp listed
  have long := special_length s member
  have short := unit.length_le
  omega

/-! ## One build -/

/-- The tokenizers that one build makes of a new one. -/
def Built (mode : TokenizerMode) (normalization : TextNormalization) (t : BPETokenizer) : Prop :=
  ∃ order texts vocabSize threshold,
    ((BPETokenizer.new mode).setNormalization normalization).buildVocab order texts vocabSize
      threshold = .ok t

/-- The tokenizer that a build of a new one makes; a new one if the build fails. -/
def builtFrom (mode : TokenizerMode) (normalization : TextNormalization) (order : HashOrder)
    (texts : List Bytes) (vocabSize threshold : Int) : BPETokenizer :=
  match ((BPETokenizer.new mode).setNormalization normalization).buildVocab order texts vocabSize
      threshold with
  | .ok t => t
  | .error _ => .new mode

/-- What a build comes to: the base vocabulary, then the merges. -/
theorem buildVocab_trained (order : HashOrder) {texts : List Bytes} (vocabSize threshold : Int)
    (mode : TokenizerMode) (normalization : TextNormalization)
    (valid : ∀ text ∈ texts, isValidUtf8 text = true) :
    ∃ t start words, ((BPETokenizer.new mode).setNormalization normalization).buildVocab order texts
        vocabSize threshold = .ok t ∧ FromCorpus mode start ∧
      Trained mode normalization start words t ∧ (size t.vocab : Int) ≤ max 4 vocabSize := by
  obtain ⟨tokens, done⟩ := @BPETokenizer.preTokenizeAll_ok mode normalization texts valid
  have corpus := BPETokenizer.fromCorpus_wordTokens done
  let fresh := (BPETokenizer.new mode).setNormalization normalization
  let counts := tally (texts.flatMap fun text => unitsOf mode (fresh.asSeen text))
  have distinct : ((order.walk counts.entries).map Sigma.fst).Nodup :=
    (((order.perm counts.entries).map Sigma.fst).nodup_iff).mpr counts.keys_nodup
  have units : ∀ e ∈ order.walk counts.entries, IsUnit mode e.1 ∧ e.1 ∉ fresh.vocab := by
    intro e member
    obtain ⟨text, listed, inside⟩ := List.mem_flatMap.mp
      (mem_of_mem_tally (mem_of_mem_entries (order.mem_walk.mp member)))
    have unit : IsUnit mode e.1 := isUnit_of_mem_asSeen (t := fresh) (valid text listed) inside
    exact ⟨unit, fun known => not_special_of_isUnit unit (special_of_mem_new mode known)⟩
  have four : (4 : Int) = size fresh.vocab := rfl
  obtain ⟨based, currentId, walked, trained, next, bound⟩ :=
    (Trained.new mode normalization (BPETokenizer.wordTokens mode tokens)).foldl_addBase rfl
      vocabSize threshold four distinct units
  obtain ⟨words, learned⟩ := trained.learnMerges corpus order (vocabSize - currentId).toNat
  have grown := size_learnMerges_le order (vocabSize - currentId).toNat
    (BPETokenizer.wordTokens mode tokens) based
  refine ⟨_, _, words, ?_, corpus, learned, by omega⟩
  have base : fresh.addBaseVocab order texts vocabSize threshold = (based, currentId) := walked
  rw [BPETokenizer.buildVocab, base, BPETokenizer.buildBpeMerges, trained.mode_eq, trained.normalization_eq, done]

theorem BPETokenizer.valid_of_buildVocab {t t' : BPETokenizer} {order : HashOrder}
    {texts : List Bytes} {vocabSize threshold : Int}
    (done : t.buildVocab order texts vocabSize threshold = .ok t') :
    ∀ text ∈ texts, isValidUtf8 text = true := by
  rw [buildVocab, buildBpeMerges] at done
  split at done
  · cases done
  · rename_i tokens cut
    exact valid_of_preTokenizeAll cut

theorem Built.trained {mode : TokenizerMode} {normalization : TextNormalization}
    {t : BPETokenizer} (built : Built mode normalization t) :
    ∃ start words, FromCorpus mode start ∧ Trained mode normalization start words t := by
  obtain ⟨order, texts, vocabSize, threshold, done⟩ := built
  obtain ⟨t', start, words, done', corpus, trained, _⟩ := buildVocab_trained order vocabSize threshold
    mode normalization (BPETokenizer.valid_of_buildVocab done)
  obtain rfl := Except.ok.inj (done.symm.trans done')
  exact ⟨start, words, corpus, trained⟩

/-- The numbering of a vocabulary: ids from 0 on without a gap, tables that are
inverse to each other, merges and their products all different, and each product's
id the vocabulary's size at its merge. -/
structure ConsistentVocabulary (t : BPETokenizer) : Prop where
  ids : ∀ id, (∃ token, t.vocab.lookup token = some id) ↔ 0 ≤ id ∧ id < size t.vocab
  inverse : ∀ token id, t.vocab.lookup token = some id ↔ t.inverseVocab.lookup id = some token
  merges_nodup : t.bpeMerges.Nodup
  products_nodup : (t.bpeMerges.map product).Nodup
  ranked : ∃ base, size t.vocab = base + t.bpeMerges.length ∧
    ∀ i m, t.bpeMerges[i]? = some m → t.vocab.lookup (product m) = some ((base + i : Nat) : Int)

theorem Trained.consistent {mode : TokenizerMode} {normalization : TextNormalization}
    {start words : List (List Bytes)} {t : BPETokenizer} (corpus : FromCorpus mode start)
    (trained : Trained mode normalization start words t) : ConsistentVocabulary t where
  ids := trained.numbered.range
  inverse := trained.numbered.inverse
  merges_nodup := (trained.learned.nodup corpus.coherent).of_map product
  products_nodup := trained.learned.nodup corpus.coherent
  ranked := trained.ranked

/-- **One build numbers its vocabulary.** Whatever valid texts it is given, and
however the hash tables are walked, a build of a new tokenizer succeeds and never
reuses an id or produces a string twice. -/
theorem build_vocab_numbered (order : HashOrder) (texts : List Bytes) (vocabSize threshold : Int)
    (mode : TokenizerMode) (normalization : TextNormalization)
    (valid : ∀ text ∈ texts, isValidUtf8 text = true) :
    ∃ t, ((BPETokenizer.new mode).setNormalization normalization).buildVocab order texts vocabSize
      threshold = .ok t ∧ ConsistentVocabulary t := by
  obtain ⟨t, start, words, done, corpus, trained, _⟩ := buildVocab_trained order vocabSize threshold
    mode normalization valid
  exact ⟨t, done, trained.consistent corpus⟩

/-- A corpus with a run of one letter. -/
theorem build_vocab_numbered_run :
    ∃ t, ((BPETokenizer.new .unicode).setNormalization .cased).buildVocab HashOrder.listed
      [ascii "aaaaa aaaa"] 12 1 = .ok t ∧ ConsistentVocabulary t :=
  build_vocab_numbered HashOrder.listed [ascii "aaaaa aaaa"] 12 1 .unicode .cased (by decide)

end Adai.Tokenizer
