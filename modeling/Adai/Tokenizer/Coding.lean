import Adai.Tokenizer.Training

/-! # Encoding and decoding

`BPETokenizer.encode` cuts a text into pre-tokens, applies the merges in the order
they were learned, and looks the tokens up; `BPETokenizer.decode` strings the
tokens of the ids together, without the special ones if asked to. What a merge
produces has an id, so a text whose units are known is never encoded with the id
for unknown tokens, and decoding gives its pre-tokens back (`decode_encode`).
-/

namespace Adai.Tokenizer

open PairMerge Tables

namespace BPETokenizer

def validateInput (text : Bytes) (context : String) : Except TokenizerError Unit :=
  if text = [] then .error (.input (context ++ ": Input text is empty"))
  else if isValidUtf8 text = false then
    .error (.encoding (context ++ ": Input text contains invalid UTF-8 sequences"))
  else .ok ()

/-- Every merge in turn, over the whole word. -/
def applyBpe (t : BPETokenizer) (word : Bytes) : List Bytes :=
  if word = [] then [] else mergeAll t.bpeMerges (unitsOf t.mode word)

def tokenize (t : BPETokenizer) (text : Bytes) : Except TokenizerError (List Bytes) :=
  match t.preTokenize text with
  | .error e => .error e
  | .ok tokens => .ok (tokens.flatMap t.applyBpe)

/-- The id of a token; the one for unknown tokens if it has none. -/
def tokenId (t : BPETokenizer) (token : Bytes) : Int := (t.vocab.lookup token).getD t.unkTokenId

def encode (t : BPETokenizer) (text : Bytes) (addSpecialTokens : Bool) :
    Except TokenizerError (List Int) :=
  match validateInput text "encode()" with
  | .error e => .error e
  | .ok () =>
      match t.tokenize text with
      | .error e => .error e
      | .ok tokens =>
          .ok (if addSpecialTokens then t.bosTokenId :: (tokens.map t.tokenId ++ [t.eosTokenId])
            else tokens.map t.tokenId)

/-- What an id adds to the text; an id that is not known adds nothing. -/
def spelled (t : BPETokenizer) (skipSpecialTokens : Bool) (id : Int) : Bytes :=
  match t.inverseVocab.lookup id with
  | some token => if skipSpecialTokens && token ∈ t.specialTokens then [] else token
  | none => []

def decodeFrom (t : BPETokenizer) (skipSpecialTokens : Bool) :
    List Int → Except TokenizerError Bytes
  | [] => .ok []
  | id :: rest =>
      if id < 0 then
        .error (.tokenId ("decode(): Token ID " ++ toString id ++ " is negative"))
      else
        match t.decodeFrom skipSpecialTokens rest with
        | .error e => .error e
        | .ok later => .ok (t.spelled skipSpecialTokens id ++ later)

def decode (t : BPETokenizer) (ids : List Int) (skipSpecialTokens : Bool) :
    Except TokenizerError Bytes :=
  if ids = [] then .error (.input "decode(): Input token ID vector is empty")
  else t.decodeFrom skipSpecialTokens ids

/-! ## Each function on its own -/

theorem validateInput_ok {text : Bytes} (nonempty : text ≠ []) (valid : isValidUtf8 text = true)
    (context : String) : validateInput text context = .ok () := by
  rw [validateInput, if_neg nonempty, if_neg (by simp [valid])]

@[simp] theorem flatten_applyBpe (t : BPETokenizer) (word : Bytes) :
    (t.applyBpe word).flatten = word := by
  rw [applyBpe]
  split
  · rename_i empty
    exact empty.symm
  · rw [flatten_mergeAll, flatten_unitsOf]

/-- A token is a unit of the word or the product of a merge. -/
theorem mem_applyBpe {t : BPETokenizer} {word token : Bytes} (member : token ∈ t.applyBpe word) :
    token ∈ unitsOf t.mode word ∨ token ∈ t.bpeMerges.map product := by
  rw [applyBpe] at member
  split at member
  · cases member
  · exact mem_mergeAll member

theorem applyBpe_ne_nil (t : BPETokenizer) {word : Bytes} (nonempty : word ≠ []) :
    t.applyBpe word ≠ [] := by
  intro none
  apply nonempty
  rw [← t.flatten_applyBpe word, none]
  rfl

theorem flatten_flatMap_applyBpe (t : BPETokenizer) (tokens : List Bytes) :
    (tokens.flatMap t.applyBpe).flatten = tokens.flatten := by
  induction tokens with
  | nil => rfl
  | cons token rest ih =>
      rw [List.flatMap_cons, List.flatten_append, flatten_applyBpe, ih, List.flatten_cons]

theorem decodeFrom_ok (t : BPETokenizer) (skipSpecialTokens : Bool) {ids : List Int}
    (nonnegative : ∀ id ∈ ids, 0 ≤ id) :
    t.decodeFrom skipSpecialTokens ids = .ok (ids.flatMap (t.spelled skipSpecialTokens)) := by
  induction ids with
  | nil => rfl
  | cons id rest ih =>
      have front := nonnegative id List.mem_cons_self
      rw [decodeFrom, if_neg (Int.not_lt.mpr front),
        ih fun other member => nonnegative other (List.mem_cons_of_mem _ member),
        List.flatMap_cons]

theorem decode_ok (t : BPETokenizer) (skipSpecialTokens : Bool) {ids : List Int}
    (nonempty : ids ≠ []) (nonnegative : ∀ id ∈ ids, 0 ≤ id) :
    t.decode ids skipSpecialTokens = .ok (ids.flatMap (t.spelled skipSpecialTokens)) := by
  rw [decode, if_neg nonempty, t.decodeFrom_ok skipSpecialTokens nonnegative]

theorem encode_ok {t : BPETokenizer} {text : Bytes} {tokens : List Bytes} (nonempty : text ≠ [])
    (cut : t.preTokenize text = .ok tokens) (addSpecialTokens : Bool) :
    t.encode text addSpecialTokens =
      .ok (if addSpecialTokens then
          t.bosTokenId :: ((tokens.flatMap t.applyBpe).map t.tokenId ++ [t.eosTokenId])
        else (tokens.flatMap t.applyBpe).map t.tokenId) := by
  rw [encode, validateInput_ok nonempty (isValidUtf8_of_preTokenize cut), tokenize, cut]

end BPETokenizer

/-! ## Round trip -/

namespace Trained

variable {mode : TokenizerMode} {normalization : TextNormalization}
  {start words : List (List Bytes)} {t : BPETokenizer}

/-- No merge produces a special token. -/
theorem product_not_special (trained : Trained mode normalization start words t)
    (corpus : FromCorpus mode start) {token : Bytes} (member : token ∈ t.bpeMerges.map product) :
    token ∉ standardSpecials.map Prod.fst := by
  intro special
  obtain ⟨m, listed, rfl⟩ := List.mem_map.mp member
  obtain ⟨s, standard, same⟩ := List.mem_map.mp special
  obtain ⟨g, factor, spells, _⟩ := trained.learned.product_lift listed
  apply not_unmixed_special s standard
  rw [same, ← spells]
  exact corpus.unmixed factor

theorem mem_specialTokens (trained : Trained mode normalization start words t) {token : Bytes} :
    token ∈ t.specialTokens ↔ token ∈ standardSpecials.map Prod.fst := by
  rw [trained.specialTokens_eq]
  simp [BPETokenizer.new, standardSpecials]

/-- A known token that is not special decodes to itself. -/
theorem spelled_of_mem (trained : Trained mode normalization start words t) {token : Bytes}
    (known : token ∈ t.vocab) (ordinary : token ∉ standardSpecials.map Prod.fst) :
    0 ≤ t.tokenId token ∧ t.spelled true (t.tokenId token) = token := by
  obtain ⟨id, found⟩ := Option.isSome_iff_exists.mp (AList.lookup_isSome.mpr known)
  have bounds := (trained.numbered.range id).mp ⟨token, found⟩
  have back := (trained.numbered.inverse token id).mp found
  rw [← trained.mem_specialTokens] at ordinary
  have same : t.tokenId token = id := by rw [BPETokenizer.tokenId, found, Option.getD_some]
  rw [same]
  simp [BPETokenizer.spelled, back, ordinary, bounds.1]

/-- A special token's id is skipped. -/
theorem spelled_special (trained : Trained mode normalization start words t) {s : Bytes × Int}
    (standard : s ∈ standardSpecials) : t.spelled true s.2 = [] := by
  have back := (trained.numbered.inverse s.1 s.2).mp (trained.special s standard)
  have special := trained.mem_specialTokens.mpr (List.mem_map_of_mem standard)
  simp [BPETokenizer.spelled, back, special]

/-- The tokens of a text with known units are in the vocabulary, and not special. -/
theorem known_applyBpe (trained : Trained mode normalization start words t)
    (corpus : FromCorpus mode start) {word : Bytes} (pre : IsPreToken mode word)
    (known : ∀ u ∈ unitsOf t.mode word, u ∈ t.vocab) {token : Bytes}
    (member : token ∈ t.applyBpe word) :
    token ∈ t.vocab ∧ token ∉ standardSpecials.map Prod.fst := by
  rcases BPETokenizer.mem_applyBpe member with unit | merged
  · refine ⟨known token unit, ?_⟩
    rw [trained.mode_eq] at unit
    exact not_special_of_isUnit (isUnit_of_mem_unitsOf pre.valid unit)
  · refine ⟨?_, trained.product_not_special corpus merged⟩
    obtain ⟨m, listed, rfl⟩ := List.mem_map.mp merged
    exact trained.product_mem listed

/-- Ids of known tokens decode to the tokens. -/
theorem flatMap_spelled (trained : Trained mode normalization start words t)
    {tokens : List Bytes}
    (known : ∀ token ∈ tokens, token ∈ t.vocab ∧ token ∉ standardSpecials.map Prod.fst) :
    (∀ id ∈ tokens.map t.tokenId, 0 ≤ id) ∧
      (tokens.map t.tokenId).flatMap (t.spelled true) = tokens.flatten := by
  induction tokens with
  | nil => simp
  | cons token rest ih =>
      obtain ⟨member, ordinary⟩ := known token List.mem_cons_self
      obtain ⟨nonnegative, same⟩ := trained.spelled_of_mem member ordinary
      obtain ⟨others, later⟩ := ih fun other listed => known other (List.mem_cons_of_mem _ listed)
      constructor
      · intro id listed
        rcases List.mem_cons.mp listed with rfl | after
        · exact nonnegative
        · exact others id after
      · rw [List.map_cons, List.flatMap_cons, same, later, List.flatten_cons]

end Trained

/-- **Nothing is lost.** Whatever a build has learned, a text that is not empty and
whose pre-tokens are made of units in the vocabulary decodes to its pre-tokens,
with or without the special tokens around it. -/
theorem decode_encode {mode : TokenizerMode} {normalization : TextNormalization}
    {t : BPETokenizer} (built : Built mode normalization t) {text : Bytes} {tokens : List Bytes}
    (nonempty : text ≠ []) (cut : t.preTokenize text = .ok tokens)
    (known : ∀ token ∈ tokens, ∀ u ∈ unitsOf t.mode token, u ∈ t.vocab)
    (addSpecialTokens : Bool) :
    ∃ ids, t.encode text addSpecialTokens = .ok ids ∧ t.decode ids true = .ok tokens.flatten := by
  obtain ⟨start, words, corpus, trained⟩ := built.trained
  have pre : ∀ token ∈ tokens, IsPreToken mode token :=
    trained.mode_eq ▸ isPreToken_of_mem cut
  have some_ : tokens ≠ [] := preTokenize_ne_nil nonempty cut
  have listed : ∀ token ∈ tokens.flatMap t.applyBpe,
      token ∈ t.vocab ∧ token ∉ standardSpecials.map Prod.fst := by
    intro token member
    obtain ⟨word, inside, piece⟩ := List.mem_flatMap.mp member
    exact trained.known_applyBpe corpus (pre word inside) (known word inside) piece
  obtain ⟨nonnegative, spells⟩ := trained.flatMap_spelled listed
  have pieces : (tokens.flatMap t.applyBpe).map t.tokenId ≠ [] := by
    obtain ⟨token, member⟩ := List.exists_mem_of_ne_nil tokens some_
    obtain ⟨piece, inside⟩ :=
      List.exists_mem_of_ne_nil _ (t.applyBpe_ne_nil (pre token member).ne_nil)
    exact List.ne_nil_of_mem (List.mem_map_of_mem (List.mem_flatMap.mpr ⟨token, member, inside⟩))
  obtain ⟨_, _, bos, eos⟩ := trained.ids_eq
  rw [← BPETokenizer.flatten_flatMap_applyBpe t tokens, ← spells]
  refine ⟨_, BPETokenizer.encode_ok nonempty cut addSpecialTokens, ?_⟩
  cases addSpecialTokens with
  | false => exact t.decode_ok true pieces nonnegative
  | true =>
      rw [if_pos rfl, bos, eos, t.decode_ok true (List.cons_ne_nil _ _)]
      · rw [List.flatMap_cons, List.flatMap_append, List.flatMap_singleton,
          trained.spelled_special (s := (bosToken, 2)) (by decide),
          trained.spelled_special (s := (eosToken, 3)) (by decide), List.nil_append,
          List.append_nil]
      · intro id member
        rcases List.mem_cons.mp member with rfl | later
        · decide
        · rcases List.mem_append.mp later with inside | last
          · exact nonnegative id inside
          · rw [List.mem_singleton.mp last]
            decide

/-- Greetings, with the special tokens around them. -/
theorem decode_encode_greeting :
    let t := builtFrom .unicode .cased .listed [ascii "hi hi"] 20 1
    ∃ ids, t.encode (ascii " hi") true = .ok ids ∧ t.decode ids true = .ok [ascii " hi"].flatten := by
  intro t
  have built : Built .unicode .cased t := ⟨.listed, [ascii "hi hi"], 20, 1, rfl⟩
  exact decode_encode built (by decide) rfl (by decide) true

/-- The empty text is refused. A newline is a unit of its own vocabulary, but as a
pre-token it is a space, which is not. -/
theorem decode_encode_fails :
    (let t := builtFrom .unicode .cased .listed [ascii "hi hi"] 20 1
     Built .unicode .cased t ∧ t.preTokenize [] = .ok [] ∧ ∀ ids, t.encode [] true ≠ .ok ids) ∧
    (let t := builtFrom .unicode .cased .listed [ascii "\n"] 20 1
     Built .unicode .cased t ∧ (∀ u ∈ unitsOf t.mode (lowerText t.mode t.normalization (ascii "\n")), u ∈ t.vocab) ∧
       t.preTokenize (ascii "\n") = .ok [ascii " "] ∧
       ∃ ids, t.encode (ascii "\n") true = .ok ids ∧ t.decode ids true = .ok []) := by
  refine ⟨⟨⟨.listed, [ascii "hi hi"], 20, 1, rfl⟩, rfl, fun ids => nofun⟩,
    ⟨.listed, [ascii "\n"], 20, 1, rfl⟩, by decide, rfl, ?_⟩
  exact ⟨_, rfl, rfl⟩

end Adai.Tokenizer
