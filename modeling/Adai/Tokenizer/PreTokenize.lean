import Adai.Math.Backtracking
import Adai.Tokenizer.Units

/-! # Pre-tokenization

`preTokenize` cuts a text by the mode's pattern, after lowercasing it unless the
vocabulary is cased, and collapses every run of whitespace in a match to one
space. The pattern matches at every position it is tried
(`exists_first_tokenPattern`), so no byte is passed over, and what it cuts off is
again a pre-token: not empty, valid where the text was, and never a mixture of
letters with digits or punctuation (`IsPreToken`).

Character classes are those of the "C" locale.
-/

namespace Adai.Tokenizer

open Backtracking Backtracking.Pattern

inductive TextNormalization
  | lowercase
  | cased
  deriving DecidableEq, Repr

inductive TokenizerError
  | input (message : String)
  | encoding (message : String)
  | vocabularyFile (message : String)
  | tokenId (message : String)
  | outOfRange (message : String)
  deriving DecidableEq, Repr

/-- The text of the exception; `outOfRange` is the library's own. -/
def TokenizerError.what : TokenizerError → String
  | input message => "Tokenizer Input Error: " ++ message
  | encoding message => "Tokenizer Encoding Error: " ++ message
  | vocabularyFile message => "Vocabulary File Error: " ++ message
  | tokenId message => "Token ID Error: " ++ message
  | outOfRange message => message

/-! ## Classes and patterns -/

def isSpace (c : UInt8) : Bool := c = 0x20 || (0x09 ≤ c && c ≤ 0x0D)

def toLower (c : UInt8) : UInt8 := if 0x41 ≤ c && c ≤ 0x5A then c + 0x20 else c

def isLetter (c : UInt8) : Bool := (0x41 ≤ c && c ≤ 0x5A) || (0x61 ≤ c && c ≤ 0x7A)

def isDigit (c : UInt8) : Bool := 0x30 ≤ c && c ≤ 0x39

/-- The class of words; in Unicode mode it takes in every byte of a longer code point. -/
def isWordByte (mode : TokenizerMode) (c : UInt8) : Bool :=
  match mode with
  | .ascii => isLetter c
  | .unicode => isLetter c || !isAscii c

/-- Neither word nor digit nor one of the four blanks the class excludes; vertical
tab and form feed belong to it. -/
def isSymbolByte (mode : TokenizerMode) (c : UInt8) : Bool :=
  !(c = 0x20 || c = 0x09 || c = 0x0D || c = 0x0A || isDigit c || isWordByte mode c)

def contractions : List Bytes := ["s", "t", "re", "ve", "m", "ll", "d"].map ascii

/-- An optional space before a run of the class. -/
def spaced (class_ : UInt8 → Bool) : Pattern UInt8 :=
  seq (opt (one fun c => c = 0x20)) (plus (one class_))

def whitespaceRun : Pattern UInt8 := plus (one isSpace)

def tokenPattern (mode : TokenizerMode) : Pattern UInt8 :=
  anyOf (contractions.map (literal 0x27) ++
    [spaced (isWordByte mode), spaced isDigit, spaced (isSymbolByte mode),
      seq whitespaceRun (notAhead (one fun c => !isSpace c))]) whitespaceRun

/-- Only ASCII bytes are lowercased. -/
def lowerAscii (text : Bytes) : Bytes := text.map fun c => if isAscii c then toLower c else c

/-- The text as the pattern sees it. -/
def lowerText (mode : TokenizerMode) (normalization : TextNormalization) (text : Bytes) : Bytes :=
  match normalization, mode with
  | .cased, _ => text
  | .lowercase, .unicode => lowerAscii text
  | .lowercase, .ascii => text.map toLower

def collapse (token : Bytes) : Bytes := whitespaceRun.replaceAll [0x20] token

def preTokenize (mode : TokenizerMode) (normalization : TextNormalization) (text : Bytes) :
    Except TokenizerError (List Bytes) :=
  if text ≠ [] ∧ isValidUtf8 text = false then
    .error (.encoding "pre_tokenize(): Input text contains invalid UTF-8 sequences")
  else
    .ok ((((tokenPattern mode).findAll (lowerText mode normalization text)).map collapse).filter
      fun token => token ≠ [])

/-! ## Facts about single bytes -/

theorem toLower_class (c : UInt8) :
    isAscii (toLower c) = isAscii c ∧ leadLength (toLower c) = leadLength c ∧
      isContinuation (toLower c) = isContinuation c ∧ (isAscii c = false → toLower c = c) := by
  have bytes : ∀ b : BitVec 8, isAscii (toLower ⟨b⟩) = isAscii ⟨b⟩ ∧
      leadLength (toLower ⟨b⟩) = leadLength ⟨b⟩ ∧
      isContinuation (toLower ⟨b⟩) = isContinuation ⟨b⟩ ∧
      (isAscii ⟨b⟩ = false → toLower ⟨b⟩ = ⟨b⟩) := by decide +kernel
  exact bytes c.toBitVec

/-- Letters, bytes of longer code points, space and apostrophe. -/
def isWordly (c : UInt8) : Bool := isLetter c || !isAscii c || c = 0x20 || c = 0x27

/-- Spaces and digits are no letters, and the bytes of a word are no spaces. -/
theorem byte_classes (c : UInt8) :
    (isSpace c = true → isLetter c = false ∧ isAscii c = true) ∧
      (isDigit c = true → isLetter c = false ∧ isAscii c = true) ∧
      ((isLetter c || !isAscii c) = true → isWordly c = true ∧ isSpace c = false) := by
  have bytes : ∀ b : BitVec 8,
      (isSpace ⟨b⟩ = true → isLetter ⟨b⟩ = false ∧ isAscii ⟨b⟩ = true) ∧
      (isDigit ⟨b⟩ = true → isLetter ⟨b⟩ = false ∧ isAscii ⟨b⟩ = true) ∧
      ((isLetter ⟨b⟩ || !isAscii ⟨b⟩) = true → isWordly ⟨b⟩ = true ∧ isSpace ⟨b⟩ = false) := by
    decide +kernel
  exact bytes c.toBitVec

theorem isAscii_of_isSpace {c : UInt8} (space : isSpace c = true) : isAscii c = true :=
  ((byte_classes c).1 space).2

theorem isLetter_of_isSpace {c : UInt8} (space : isSpace c = true) : isLetter c = false :=
  ((byte_classes c).1 space).1

theorem not_blank_of_not_isSpace {c : UInt8} (other : ¬ isSpace c = true) :
    c ≠ 0x20 ∧ c ≠ 0x09 ∧ c ≠ 0x0D ∧ c ≠ 0x0A := by
  refine ⟨?_, ?_, ?_, ?_⟩ <;>
  · rintro rfl
    exact other rfl

theorem isDigit_class {c : UInt8} (digit : isDigit c = true) :
    isLetter c = false ∧ isAscii c = true :=
  (byte_classes c).2.1 digit

theorem isWordByte_class {mode : TokenizerMode} {c : UInt8} (word : isWordByte mode c = true) :
    isWordly c = true ∧ isSpace c = false := by
  refine (byte_classes c).2.2 ?_
  cases mode with
  | ascii => exact Bool.or_eq_true_iff.mpr (.inl word)
  | unicode => exact word

theorem isSymbolByte_class {mode : TokenizerMode} {c : UInt8}
    (symbol : isSymbolByte mode c = true) :
    isLetter c = false ∧ (mode = .unicode → isAscii c = true) := by
  simp only [isSymbolByte, isWordByte] at symbol
  cases mode <;> grind

theorem isAscii_of_not_isWordByte {c : UInt8} (other : isWordByte .unicode c = false) :
    isAscii c = true := by
  simp only [isWordByte] at other
  grind

/-! ## The pattern -/

/-- No mixture of letters with digits or punctuation. -/
def Unmixed (token : Bytes) : Prop :=
  (∀ c ∈ token, isLetter c = false) ∨ ∀ c ∈ token, isWordly c = true

/-- What a match looks like: bytes of one kind, ASCII throughout unless it is a
word, before which only a space may stand. -/
structure IsMatch (mode : TokenizerMode) (token : Bytes) : Prop where
  ne_nil : token ≠ []
  unmixed : Unmixed token
  kind : (mode = .unicode → ∀ c ∈ token, isAscii c = true) ∨
    ∃ front run, token = front ++ run ∧ (front = [] ∨ front = [0x20]) ∧
      ∀ c ∈ run, isWordByte mode c = true

theorem contraction_class {letters : Bytes} (listed : letters ∈ contractions) :
    ∀ c ∈ 0x27 :: letters, isWordly c = true ∧ isAscii c = true := by
  have checked : ∀ letters ∈ contractions,
      (0x27 :: letters).all (fun c => isWordly c && isAscii c) = true := by decide
  intro c member
  exact Bool.and_eq_true_iff.mp (List.all_eq_true.mp (checked letters listed) c member)

theorem isMatch_contraction {mode : TokenizerMode} {letters : Bytes}
    (listed : letters ∈ contractions) : IsMatch mode (0x27 :: letters) :=
  ⟨List.cons_ne_nil _ _, .inr fun c member => (contraction_class listed c member).1,
    .inl fun _ c member => (contraction_class listed c member).2⟩

/-- What holds of a space holds of what may stand before a run. -/
theorem forall_mem_blank {front : Bytes} (blank : front = [] ∨ front = [0x20]) {p : UInt8 → Prop}
    (space : p 0x20) : ∀ c ∈ front, p c := by
  rcases blank with rfl | rfl
  · exact List.forall_mem_nil _
  · exact List.forall_mem_singleton.mpr space

theorem isMatch_whitespace {mode : TokenizerMode} {run : Bytes} (nonempty : run ≠ [])
    (spaces : ∀ c ∈ run, isSpace c = true) : IsMatch mode run :=
  ⟨nonempty, .inl fun c member => isLetter_of_isSpace (spaces c member),
    .inl fun _ c member => isAscii_of_isSpace (spaces c member)⟩

/-- A run of digits or symbols, with or without a space before it. -/
theorem isMatch_plain {mode : TokenizerMode} {front run : Bytes} {class_ : UInt8 → Bool}
    (blank : front = [] ∨ front = [0x20]) (nonempty : run ≠ [])
    (all : ∀ c ∈ run, class_ c = true)
    (plain : ∀ c, class_ c = true → isLetter c = false ∧ (mode = .unicode → isAscii c = true)) :
    IsMatch mode (front ++ run) := by
  have space : ∀ c ∈ front, isLetter c = false ∧ isAscii c = true :=
    forall_mem_blank blank (by decide)
  refine ⟨by simp [nonempty], .inl fun c member => ?_, .inl fun unicode c member => ?_⟩
  · rcases List.mem_append.mp member with ahead | inside
    · exact (space c ahead).1
    · exact (plain c (all c inside)).1
  · rcases List.mem_append.mp member with ahead | inside
    · exact (space c ahead).2
    · exact (plain c (all c inside)).2 unicode

theorem isMatch_word {mode : TokenizerMode} {front run : Bytes}
    (blank : front = [] ∨ front = [0x20]) (nonempty : run ≠ [])
    (all : ∀ c ∈ run, isWordByte mode c = true) : IsMatch mode (front ++ run) := by
  refine ⟨by simp [nonempty], .inr fun c member => ?_, .inr ⟨front, run, rfl, blank, all⟩⟩
  rcases List.mem_append.mp member with ahead | inside
  · have space : ∀ c ∈ front, isWordly c = true := forall_mem_blank blank rfl
    exact space c ahead
  · exact (isWordByte_class (all c inside)).1

theorem first_spaced {class_ : UInt8 → Bool} {s r : Bytes}
    (found : (spaced class_).first s = some r) :
    ∃ front run, s = front ++ run ++ r ∧ (front = [] ∨ front = [0x20]) ∧ run ≠ [] ∧
      (∀ c ∈ run, class_ c = true) ∧ ∀ c ∈ r.head?, class_ c = false := by
  obtain ⟨front, run, split, ahead, rest⟩ := first_opt_plus found
  refine ⟨front, run, split, ahead.imp_right ?_, rest⟩
  rintro ⟨c, blank, rfl⟩
  rw [of_decide_eq_true blank]

theorem first_whitespaceRun {s r : Bytes} (found : whitespaceRun.first s = some r) :
    ∃ run, s = run ++ r ∧ run ≠ [] ∧ ∀ c ∈ run, isSpace c = true := by
  obtain ⟨run, split, admits⟩ := first_admits found
  exact ⟨run, split, all_of_admits_plus admits⟩

/-- What the pattern matches, and where it stops: a match that is not all ASCII is
cut where the text goes on with an ASCII byte. -/
theorem first_tokenPattern {mode : TokenizerMode} {s r : Bytes}
    (found : (tokenPattern mode).first s = some r) :
    ∃ token, s = token ++ r ∧ IsMatch mode token ∧
      (mode = .unicode → (∀ c ∈ token, isAscii c = true) ∨ ∀ c ∈ r.head?, isAscii c = true) := by
  suffices matched : ∃ token, s = token ++ r ∧ IsMatch mode token ∧
      ((mode = .unicode → ∀ c ∈ token, isAscii c = true) ∨
        ∀ c ∈ r.head?, isWordByte mode c = false) by
    obtain ⟨token, split, isMatch, stops⟩ := matched
    refine ⟨token, split, isMatch, fun unicode => ?_⟩
    subst unicode
    refine stops.imp (fun plain => plain rfl) fun other c member => ?_
    exact isAscii_of_not_isWordByte (other c member)
  obtain ⟨a, listed, here⟩ := first_anyOf found
  simp only [List.mem_append, List.mem_map, List.mem_cons, List.not_mem_nil, or_false] at listed
  rcases listed with (⟨letters, member, rfl⟩ | rfl | rfl | rfl | rfl) | rfl
  · obtain ⟨token, split, admits⟩ := first_admits here
    obtain rfl := eq_of_admits_literal admits
    exact ⟨_, split, isMatch_contraction member,
      .inl fun _ c inside => (contraction_class member c inside).2⟩
  · obtain ⟨front, run, split, blank, nonempty, all, stops⟩ := first_spaced here
    exact ⟨front ++ run, split, isMatch_word blank nonempty all, .inr stops⟩
  · obtain ⟨front, run, split, blank, nonempty, all, _⟩ := first_spaced here
    have isMatch : IsMatch mode (front ++ run) := isMatch_plain blank nonempty all
      fun c digit => (isDigit_class digit).imp_right fun plain _ => plain
    have space : ∀ c ∈ front, isAscii c = true := forall_mem_blank blank rfl
    refine ⟨front ++ run, split, isMatch, .inl fun _ c member => ?_⟩
    rcases List.mem_append.mp member with ahead | inside
    · exact space c ahead
    · exact (isDigit_class (all c inside)).2
  · obtain ⟨front, run, split, blank, nonempty, all, _⟩ := first_spaced here
    have isMatch : IsMatch mode (front ++ run) :=
      isMatch_plain blank nonempty all fun c symbol => isSymbolByte_class symbol
    have space : ∀ c ∈ front, isAscii c = true := forall_mem_blank blank rfl
    refine ⟨front ++ run, split, isMatch, .inl fun unicode c member => ?_⟩
    rcases List.mem_append.mp member with ahead | inside
    · exact space c ahead
    · exact (isSymbolByte_class (all c inside)).2 unicode
  · obtain ⟨middle, member, rest⟩ := first_seq here
    obtain ⟨run, rfl, admits⟩ := whitespaceRun.admits_of_mem_remainders member
    obtain ⟨nonempty, spaces⟩ := all_of_admits_plus admits
    obtain ⟨nothing, rfl, empty⟩ := first_admits rest
    obtain rfl : nothing = [] := by cases empty; rfl
    exact ⟨run, by simp, isMatch_whitespace nonempty spaces,
      .inl fun _ c member => isAscii_of_isSpace (spaces c member)⟩
  · obtain ⟨run, split, nonempty, spaces⟩ := first_whitespaceRun here
    exact ⟨run, split, isMatch_whitespace nonempty spaces,
      .inl fun _ c member => isAscii_of_isSpace (spaces c member)⟩

/-- The pattern matches wherever there is a byte left. -/
theorem first_tokenPattern_isSome (mode : TokenizerMode) {s : Bytes} (nonempty : s ≠ []) :
    ((tokenPattern mode).first s).isSome = true := by
  cases s with
  | nil => exact (nonempty rfl).elim
  | cons c rest =>
      have run {class_ : UInt8 → Bool} (holds : class_ c = true) :
          ((plus (one class_)).first (c :: rest)).isSome = true := by
        rw [first_plus_one, if_pos holds]
        rfl
      have spaced_run {class_ : UInt8 → Bool} (holds : class_ c = true) :
          ((spaced class_).first (c :: rest)).isSome = true :=
        first_seq_isSome (List.mem_append_right _ (List.mem_singleton_self _)) (run holds)
      by_cases space : isSpace c = true
      · exact first_anyOf_isSome (List.mem_append_right _ (List.mem_singleton_self _)) (run space)
      · by_cases word : isWordByte mode c = true
        · exact first_anyOf_isSome (by simp) (spaced_run word)
        · by_cases digit : isDigit c = true
          · exact first_anyOf_isSome (by simp) (spaced_run digit)
          · have symbol : isSymbolByte mode c = true := by
              have blanks := not_blank_of_not_isSpace space
              simp [isSymbolByte, blanks, word, digit]
            exact first_anyOf_isSome (by simp) (spaced_run symbol)

/-! ## Validity -/

/-- Lowercasing changes bytes within their classes, so code points stay code points. -/
theorem isValidUtf8_map_toLower {text : Bytes} (valid : isValidUtf8 text = true) :
    isValidUtf8 (text.map toLower) = true := by
  obtain ⟨us, units, rfl⟩ := isValidUtf8_iff.mp valid
  refine isValidUtf8_iff.mpr ⟨us.map (List.map toLower), ?_, by rw [List.map_flatten]⟩
  intro u member
  obtain ⟨v, listed, rfl⟩ := List.mem_map.mp member
  obtain ⟨c, rest, announced, continuations⟩ := units v listed
  refine .mk (toLower c) (rest.map toLower) ?_ ?_
  · rw [(toLower_class c).2.1, announced, List.length_map]
  · intro d member'
    obtain ⟨e, inside, rfl⟩ := List.mem_map.mp member'
    rw [(toLower_class e).2.2.1]
    exact continuations e inside

theorem lowerAscii_eq (text : Bytes) : lowerAscii text = text.map toLower := by
  refine List.map_congr_left fun c _ => ?_
  by_cases plain : isAscii c = true
  · rw [if_pos plain]
  · rw [if_neg plain, (toLower_class c).2.2.2 (by simpa using plain)]

theorem lowerText_ne_nil {mode : TokenizerMode} {normalization : TextNormalization} {text : Bytes}
    (nonempty : text ≠ []) : lowerText mode normalization text ≠ [] := by
  cases normalization <;> cases mode <;> simpa [lowerText, lowerAscii] using nonempty

theorem isValidUtf8_lowerText {mode : TokenizerMode} {normalization : TextNormalization}
    {text : Bytes} (valid : isValidUtf8 text = true) :
    isValidUtf8 (lowerText mode normalization text) = true := by
  cases normalization with
  | cased => exact valid
  | lowercase =>
      cases mode with
      | unicode =>
          rw [lowerText, lowerAscii_eq]
          exact isValidUtf8_map_toLower valid
      | ascii => exact isValidUtf8_map_toLower valid

/-! ## Collapsing whitespace -/

theorem mem_collapse {token : Bytes} {c : UInt8} (member : c ∈ collapse token) :
    c = 0x20 ∨ c ∈ token :=
  (mem_replaceAll_plus member).imp_left List.mem_singleton.mp

theorem collapse_ne_nil {token : Bytes} (nonempty : token ≠ []) : collapse token ≠ [] :=
  replaceAll_plus_ne_nil nonempty (List.cons_ne_nil _ _)

theorem Unmixed.collapse {token : Bytes} (unmixed : Unmixed token) :
    Unmixed (collapse token) := by
  refine unmixed.imp (fun none c member => ?_) fun all c member => ?_
  · rcases mem_collapse member with rfl | inside
    · rfl
    · exact none c inside
  · rcases mem_collapse member with rfl | inside
    · rfl
    · exact all c inside

/-- A word has no whitespace but the space before it, which stays. -/
theorem collapse_word {mode : TokenizerMode} {front run : Bytes}
    (blank : front = [] ∨ front = [0x20]) (all : ∀ c ∈ run, isWordByte mode c = true) :
    collapse (front ++ run) = front ++ run := by
  have none : ∀ c ∈ run, isSpace c = false := fun c member => (isWordByte_class (all c member)).2
  rcases blank with rfl | rfl
  · exact replaceFrom_plus_of_none none _
  · have kept : run.dropWhile isSpace = run := by
      cases run with
      | nil => rfl
      | cons c rest => rw [List.dropWhile_cons_of_neg (by simp [none c List.mem_cons_self])]
    unfold collapse whitespaceRun replaceAll
    rw [List.singleton_append, List.length_cons, replaceFrom_plus_one, kept,
      replaceFrom_plus_of_none none, if_pos (by decide)]
    rfl

theorem IsMatch.isValidUtf8_collapse {token : Bytes} (isMatch : IsMatch .unicode token)
    (valid : isValidUtf8 token = true) : isValidUtf8 (collapse token) = true := by
  rcases isMatch.kind with plain | ⟨front, run, rfl, blank, all⟩
  · apply isValidUtf8_of_isAscii
    intro c member
    rcases mem_collapse member with rfl | inside
    · rfl
    · exact plain rfl c inside
  · rwa [collapse_word blank all]

/-! ## Pre-tokens -/

/-- What `preTokenize` returns. -/
structure IsPreToken (mode : TokenizerMode) (token : Bytes) : Prop where
  ne_nil : token ≠ []
  unmixed : Unmixed token
  valid : mode = .unicode → isValidUtf8 token = true

theorem exists_first_tokenPattern {mode : TokenizerMode} {s : Bytes}
    (valid : isValidUtf8 s = true ∨ mode = .ascii) (nonempty : s ≠ []) :
    ∃ token r, s = token ++ r ∧ (tokenPattern mode).first s = some r ∧
      IsPreToken mode (collapse token) ∧ (isValidUtf8 r = true ∨ mode = .ascii) := by
  obtain ⟨r, found⟩ := Option.isSome_iff_exists.mp (first_tokenPattern_isSome mode nonempty)
  obtain ⟨token, rfl, isMatch, stops⟩ := first_tokenPattern found
  refine ⟨token, r, rfl, found, ?_⟩
  have kept : mode = .unicode → isValidUtf8 token = true ∧ isValidUtf8 r = true := by
    rintro rfl
    have valid' := valid.resolve_right nofun
    rcases stops rfl with plain | plain
    · exact ⟨isValidUtf8_of_isAscii plain, isValidUtf8_of_append plain valid'⟩
    · exact isValidUtf8_cut plain valid'
  refine ⟨⟨collapse_ne_nil isMatch.ne_nil, isMatch.unmixed.collapse, ?_⟩, ?_⟩
  · rintro rfl
    exact isMatch.isValidUtf8_collapse (kept rfl).1
  · cases mode with
    | ascii => exact .inr rfl
    | unicode => exact .inl (kept rfl).2

/-- Only valid texts are pre-tokenized. -/
theorem isValidUtf8_of_preTokenize {mode : TokenizerMode} {normalization : TextNormalization}
    {text : Bytes} {tokens : List Bytes} (done : preTokenize mode normalization text = .ok tokens) :
    isValidUtf8 text = true := by
  by_contra invalid
  have guarded : text ≠ [] ∧ isValidUtf8 text = false := by
    refine ⟨?_, by simpa using invalid⟩
    rintro rfl
    exact invalid rfl
  rw [preTokenize, if_pos guarded] at done
  cases done

theorem preTokenize_eq_ok {mode : TokenizerMode} {normalization : TextNormalization} {text : Bytes}
    (valid : isValidUtf8 text = true) : preTokenize mode normalization text =
      .ok ((((tokenPattern mode).findAll (lowerText mode normalization text)).map collapse).filter
        fun token => token ≠ []) := by
  rw [preTokenize, if_neg]
  simp [valid]

theorem isPreToken_of_mem {mode : TokenizerMode} {normalization : TextNormalization} {text : Bytes}
    {tokens : List Bytes} (done : preTokenize mode normalization text = .ok tokens) :
    ∀ token ∈ tokens, IsPreToken mode token := by
  intro token member
  have valid := isValidUtf8_of_preTokenize done
  obtain rfl := Except.ok.inj ((preTokenize_eq_ok valid).symm.trans done)
  obtain ⟨found, listed, rfl⟩ := List.mem_map.mp (List.mem_filter.mp member).1
  exact of_mem_findAll (fun s kept nonempty => exists_first_tokenPattern kept nonempty)
    (.inl (isValidUtf8_lowerText valid)) listed

/-- A text that is not empty has a pre-token. -/
theorem preTokenize_ne_nil {mode : TokenizerMode} {normalization : TextNormalization} {text : Bytes}
    {tokens : List Bytes} (nonempty : text ≠ [])
    (done : preTokenize mode normalization text = .ok tokens) : tokens ≠ [] := by
  have valid := isValidUtf8_of_preTokenize done
  obtain rfl := Except.ok.inj ((preTokenize_eq_ok valid).symm.trans done)
  have lowered : lowerText mode normalization text ≠ [] := lowerText_ne_nil nonempty
  have found := findAll_ne_nil lowered (first_tokenPattern_isSome mode lowered)
  obtain ⟨token, member⟩ := List.exists_mem_of_ne_nil _ found
  have pre := of_mem_findAll (fun s kept nonempty => exists_first_tokenPattern kept nonempty)
    (.inl (isValidUtf8_lowerText valid)) member
  apply List.ne_nil_of_mem
  exact List.mem_filter.mpr ⟨List.mem_map_of_mem member, decide_eq_true pre.ne_nil⟩

end Adai.Tokenizer
