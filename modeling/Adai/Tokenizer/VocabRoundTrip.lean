import Adai.Tokenizer.VocabFile

/-! # A saved vocabulary is read back, unless a token looks like a header

The lines of the vocabulary and of the merges are told from comments and headers by
how they begin, and nothing is escaped there. A token that begins with `#` is passed
over when its file is loaded, one that begins with `NORMALIZATION` ends the load with
an error. The other header words hold an underscore beside letters, which no token of
a build does (`Trained.keywordFree`). So what one build has learned survives saving
and loading exactly when no token of its vocabulary begins in one of these two ways
(`vocab_restored_iff`).
-/

namespace Adai.Tokenizer

open PairMerge Tables

namespace BPETokenizer

/-! ## Runs of lines -/

theorem loadLines_cons {filename : String} {s s' : LoadState} {line : Bytes}
    (here : loadLine filename s line = .ok s') (rest : List Bytes) :
    loadLines filename s (line :: rest) = loadLines filename s' rest := by
  rw [loadLines, here]

theorem loadLines_append {filename : String} {s s' : LoadState} {front : List Bytes}
    (done : loadLines filename s front = (none, s')) (rest : List Bytes) :
    loadLines filename s (front ++ rest) = loadLines filename s' rest := by
  induction front generalizing s with
  | nil =>
      obtain rfl := (Prod.mk.inj done).2
      rfl
  | cons line front ih =>
      rw [loadLines] at done
      split at done
      · cases done
      · rename_i next here
        exact (loadLines_cons here _).trans (ih done)

/-- An error ends the load, whatever lines follow. -/
theorem loadLines_append_error {filename : String} {s : LoadState} {front : List Bytes}
    (failed : (loadLines filename s front).1 ≠ none) (rest : List Bytes) :
    (loadLines filename s (front ++ rest)).1 ≠ none := by
  induction front generalizing s with
  | nil => exact (failed rfl).elim
  | cons line front ih =>
      rw [List.cons_append, loadLines]
      rw [loadLines] at failed
      split
      · exact Option.some_ne_none _
      · rename_i next here
        rw [here] at failed
        exact ih failed

/-! ## Lines of a section -/

/-- The header words that are looked for at the front of a line, besides
`NORMALIZATION`. -/
def keywords : List Bytes := [ascii "TOKENIZER_MODE", ascii "VOCAB_SIZE", ascii "BPE_MERGES"]

/-- A line with a tab and no space that begins with no header word. -/
structure BodyLine (line : Bytes) : Prop where
  tab : 0x09 ∈ line
  noSpace : 0x20 ∉ line
  free : ∀ word ∈ keywords, ¬ word <+: line

theorem head_eq_iff {c : UInt8} {line : Bytes} : line.head? = some c ↔ [c] <+: line := by
  cases line with
  | nil => simp
  | cons d rest => simp [List.cons_prefix_cons, eq_comm]

theorem not_formatComment {line : Bytes} (noSpace : 0x20 ∉ line) : ¬ formatComment <+: line :=
  fun starts => noSpace (starts.subset (by decide))

variable {filename : String} {line : Bytes}

/-- A line that begins with `#` is passed over. -/
theorem loadLine_comment (s : LoadState) (noSpace : 0x20 ∉ line) (comment : ascii "#" <+: line) :
    loadLine filename s line = .ok s := by
  rw [loadLine, if_neg (not_formatComment noSpace), if_pos (.inr (head_eq_iff.mpr comment))]

/-- A line that begins with `NORMALIZATION` is taken for the header of that name. -/
theorem loadLine_normalization (s : LoadState) (noSpace : 0x20 ∉ line)
    (header : ascii "NORMALIZATION" <+: line) :
    loadLine filename s line = (loadNormalization filename s.tokenizer (line.drop 14)).map
      fun t => { s with tokenizer := t } := by
  have visible : ¬ (line = [] ∨ line.head? = some 0x23) := by
    obtain ⟨rest, rfl⟩ := header
    simp [ascii]
  rw [loadLine, if_neg (not_formatComment noSpace), if_neg visible, if_pos header]

/-- Any other line of a section goes to the section. -/
theorem loadLine_body (s : LoadState) (body : BodyLine line) (visible : ¬ ascii "#" <+: line)
    (plain : ¬ ascii "NORMALIZATION" <+: line) :
    loadLine filename s line =
      (loadInSection filename s line).map fun t => { s with tokenizer := t } := by
  have comment : ¬ (line = [] ∨ line.head? = some 0x23) := by
    rintro (rfl | first)
    · exact List.not_mem_nil body.tab
    · exact visible (head_eq_iff.mp first)
  have named {word : Bytes} (absent : 0x09 ∉ word) : line ≠ word := by
    rintro rfl
    exact absent body.tab
  rw [loadLine, if_neg (not_formatComment body.noSpace), if_neg comment, if_neg plain,
    if_neg (body.free _ (by decide)), if_neg (body.free _ (by decide)),
    if_neg (named (by decide)), if_neg (named (by decide)), if_neg (body.free _ (by decide))]

/-- Reading a line of the merges leaves the vocabulary as it is. -/
theorem vocab_of_loadLine_merge {t : BPETokenizer} {s' : LoadState} (body : BodyLine line)
    (done : loadLine filename ⟨t, .bpeMerges⟩ line = .ok s') :
    s'.part = .bpeMerges ∧ s'.tokenizer.vocab = t.vocab := by
  by_cases comment : ascii "#" <+: line
  · rw [loadLine_comment _ body.noSpace comment] at done
    obtain rfl := Except.ok.inj done
    exact ⟨rfl, rfl⟩
  · by_cases header : ascii "NORMALIZATION" <+: line
    · rw [loadLine_normalization _ body.noSpace header, loadNormalization] at done
      split at done
      · obtain rfl := Except.ok.inj done
        exact ⟨rfl, rfl⟩
      · split at done
        · obtain rfl := Except.ok.inj done
          exact ⟨rfl, rfl⟩
        · cases done
    · rw [loadLine_body _ body comment header] at done
      simp only [loadInSection, loadMerge] at done
      split at done
      · cases done
      · split at done
        · cases done
        · obtain rfl := Except.ok.inj done
          exact ⟨rfl, rfl⟩

theorem vocab_of_loadLines_merges {t : BPETokenizer} {s' : LoadState} {lines : List Bytes}
    (body : ∀ line ∈ lines, BodyLine line)
    (done : loadLines filename ⟨t, .bpeMerges⟩ lines = (none, s')) :
    s'.tokenizer.vocab = t.vocab := by
  induction lines generalizing t with
  | nil =>
      obtain rfl := (Prod.mk.inj done).2
      rfl
  | cons line rest ih =>
      rw [loadLines] at done
      split at done
      · cases done
      · rename_i next here
        obtain ⟨part, same⟩ := vocab_of_loadLine_merge (body line List.mem_cons_self) here
        obtain ⟨t', _⟩ := next
        obtain rfl : _ = FileSection.bpeMerges := part
        rw [ih (fun other member => body other (List.mem_cons_of_mem _ member)) done]
        exact same

/-! ## Lines of tokens -/

/-- No header word stands at the front of the token. -/
def KeywordFree (token : Bytes) : Prop := ∀ word ∈ keywords, ¬ word <+: token

theorem noSpace_decimal {id : Int} (nonnegative : 0 ≤ id) : 0x20 ∉ decimal id := by
  obtain ⟨n, rfl⟩ := Int.eq_ofNat_of_zero_le nonnegative
  intro member
  exact absurd (isDigit_of_mem_digits member) (by decide)

theorem exists_digit_of_decimal {id : Int} (nonnegative : 0 ≤ id) :
    ∃ c, isDigit c = true ∧ c ∈ decimal id := by
  obtain ⟨n, rfl⟩ := Int.eq_ofNat_of_zero_le nonnegative
  obtain ⟨c, member⟩ := List.exists_mem_of_ne_nil _ (digits_ne_nil n)
  exact ⟨c, isDigit_of_mem_digits member, member⟩

theorem unescaped_of_all {word : Bytes} (all : word.all (fun c => escapeByte c == [c]) = true) :
    ∀ c ∈ word, Unescaped c :=
  fun c member => eq_of_beq (List.all_eq_true.mp all c member)

theorem unescaped_keywords {word : Bytes} (listed : word ∈ keywords) : ∀ c ∈ word, Unescaped c := by
  have checked : ∀ word ∈ keywords, word.all (fun c => escapeByte c == [c]) = true := by decide
  exact unescaped_of_all (checked word listed)

theorem bodyLine_of_escape {token rest : Bytes} (free : KeywordFree token)
    (noSpace : 0x20 ∉ rest) : BodyLine (escape token ++ 0x09 :: rest) where
  tab := List.mem_append_right _ List.mem_cons_self
  noSpace member := by
    rcases List.mem_append.mp member with front | back
    · exact (mem_escape front).2.2 rfl
    · rcases List.mem_cons.mp back with tab | later
      · exact absurd tab (by decide)
      · exact noSpace later
  free word listed := by
    rw [isPrefix_escape_iff (unescaped_keywords listed)]
    exact free word listed

theorem comment_escape_iff (token rest : Bytes) :
    ascii "#" <+: escape token ++ 0x09 :: rest ↔ ascii "#" <+: token :=
  isPrefix_escape_iff (unescaped_of_all (by decide)) token rest

theorem normalization_escape_iff (token rest : Bytes) :
    ascii "NORMALIZATION" <+: escape token ++ 0x09 :: rest ↔ ascii "NORMALIZATION" <+: token :=
  isPrefix_escape_iff (unescaped_of_all (by decide)) token rest

/-- A token that begins neither as a comment nor as a header. -/
def Loadable (token : Bytes) : Prop :=
  ¬ ascii "#" <+: token ∧ ¬ ascii "NORMALIZATION" <+: token

/-- An id that fits in an `int`. -/
def IdRange (id : Int) : Prop := 0 ≤ id ∧ id ≤ 2147483647

variable {t : BPETokenizer} {token : Bytes} {id : Int}

/-- An entry whose token begins with neither is read back. -/
theorem loadLine_entry (free : KeywordFree token) (range : IdRange id) (loadable : Loadable token) :
    loadLine filename ⟨t, .vocab⟩ (vocabLine ⟨token, id⟩) = .ok ⟨t.addEntry token id, .vocab⟩ := by
  have absent : (0x09 : UInt8) ∉ escape token := fun member => (mem_escape member).2.1 rfl
  rw [vocabLine, loadLine_body _ (bodyLine_of_escape free (noSpace_decimal range.1))
    ((comment_escape_iff ..).not.mpr loadable.1) ((normalization_escape_iff ..).not.mpr loadable.2),
    loadInSection, loadEntry, breakAt_append absent]
  simp only [stoi_decimal range.1 range.2, unescape_escape]
  rw [if_neg (Int.not_lt.mpr range.1)]
  rfl

/-- An entry whose token begins with `#` is lost. -/
theorem loadLine_entry_comment (range : IdRange id) (free : KeywordFree token)
    (comment : ascii "#" <+: token) :
    loadLine filename ⟨t, .vocab⟩ (vocabLine ⟨token, id⟩) = .ok ⟨t, .vocab⟩ :=
  loadLine_comment _ (bodyLine_of_escape free (noSpace_decimal range.1)).noSpace
    ((comment_escape_iff ..).mpr comment)

/-- An entry whose token begins with `NORMALIZATION` ends the load: what follows ends
in digits, so it names no normalization. -/
theorem loadLine_entry_normalization (range : IdRange id) (free : KeywordFree token)
    (header : ascii "NORMALIZATION" <+: token) :
    ∃ e, loadLine filename ⟨t, .vocab⟩ (vocabLine ⟨token, id⟩) = .error e := by
  have starts := (normalization_escape_iff token (decimal id)).mpr header
  have value : ∀ named : Bytes, named.any isDigit = false →
      ¬ (escape token ++ 0x09 :: decimal id).drop 14 = named := by
    rintro _ letters rfl
    obtain ⟨c, digit, inside⟩ := exists_digit_of_decimal range.1
    have long : 14 ≤ (escape token ++ [0x09]).length := by
      have shorter : 13 ≤ (escape token).length :=
        header.length_le.trans (length_le_length_escape token)
      rw [List.length_append]
      exact Nat.succ_le_succ shorter
    have late : c ∈ (escape token ++ 0x09 :: decimal id).drop 14 := by
      rw [← List.singleton_append, ← List.append_assoc, List.drop_append_of_le_length long]
      exact List.mem_append_right _ inside
    exact List.any_eq_false.mp letters c late digit
  rw [vocabLine, loadLine_normalization _ (bodyLine_of_escape free (noSpace_decimal range.1)).noSpace starts,
    loadNormalization, if_neg (value (ascii "CASED") (by decide)),
    if_neg (value (ascii "LOWERCASE") (by decide))]
  exact ⟨_, rfl⟩

/-- A merge whose parts are not empty is read back. -/
theorem loadLine_merge {first second : Bytes} (free : KeywordFree first)
    (loadable : Loadable first) (nonempty : first ≠ [] ∧ second ≠ []) :
    loadLine filename ⟨t, .bpeMerges⟩ (mergeLine (first, second)) =
      .ok ⟨{ t with bpeMerges := t.bpeMerges ++ [(first, second)] }, .bpeMerges⟩ := by
  have absent : (0x09 : UInt8) ∉ escape first := fun member => (mem_escape member).2.1 rfl
  have noSpace : 0x20 ∉ escape second := fun member => (mem_escape member).2.2 rfl
  rw [mergeLine, loadLine_body _ (bodyLine_of_escape free noSpace)
    ((comment_escape_iff ..).not.mpr loadable.1) ((normalization_escape_iff ..).not.mpr loadable.2)]
  simp only [loadInSection, loadMerge, breakAt_append absent, unescape_escape]
  rw [if_neg (by simp [nonempty])]
  rfl

/-! ## Whole sections -/

/-- The entries one after the other. -/
def addEntries (t : BPETokenizer) (entries : List (Σ _ : Bytes, Int)) : BPETokenizer :=
  entries.foldl (fun t entry => t.addEntry entry.1 entry.2) t

/-- What is seen of the entries when they are read. -/
def seen (entries : List (Σ _ : Bytes, Int)) : List (Σ _ : Bytes, Int) :=
  entries.filter fun entry => ¬ ascii "#" <+: entry.1

/-- A vocabulary in which no token begins with `NORMALIZATION` is read without an
error, except for the tokens that begin with `#`. -/
theorem loadLines_entries {entries : List (Σ _ : Bytes, Int)}
    (free : ∀ entry ∈ entries, KeywordFree entry.1 ∧ IdRange entry.2)
    (plain : ∀ entry ∈ entries, ¬ ascii "NORMALIZATION" <+: entry.1) (t : BPETokenizer) :
    loadLines filename ⟨t, .vocab⟩ (entries.map vocabLine) =
      (none, ⟨t.addEntries (seen entries), .vocab⟩) := by
  induction entries generalizing t with
  | nil => rfl
  | cons entry rest ih =>
      obtain ⟨keyword, range⟩ := free entry List.mem_cons_self
      have later := ih (fun other member => free other (List.mem_cons_of_mem _ member))
        fun other member => plain other (List.mem_cons_of_mem _ member)
      rw [List.map_cons]
      by_cases comment : ascii "#" <+: entry.1
      · rw [loadLines_cons (loadLine_entry_comment range keyword comment), later, seen, seen,
          List.filter_cons_of_neg (by simp [comment])]
      · rw [loadLines_cons (loadLine_entry keyword range ⟨comment, plain entry List.mem_cons_self⟩),
          later, seen, seen, List.filter_cons_of_pos (by simp [comment])]
        rfl

/-- One token that begins with `NORMALIZATION` is enough to end the load. -/
theorem loadLines_entries_error {entries : List (Σ _ : Bytes, Int)}
    (free : ∀ entry ∈ entries, KeywordFree entry.1 ∧ IdRange entry.2)
    {bad : Σ _ : Bytes, Int} (member : bad ∈ entries)
    (header : ascii "NORMALIZATION" <+: bad.1) (t : BPETokenizer) :
    (loadLines filename ⟨t, .vocab⟩ (entries.map vocabLine)).1 ≠ none := by
  induction entries generalizing t with
  | nil => cases member
  | cons entry rest ih =>
      obtain ⟨keyword, range⟩ := free entry List.mem_cons_self
      rw [List.map_cons]
      by_cases here : ascii "NORMALIZATION" <+: entry.1
      · obtain ⟨e, failed⟩ : ∃ e, loadLine filename ⟨t, .vocab⟩ (vocabLine entry) = .error e :=
          loadLine_entry_normalization range keyword here
        rw [loadLines, failed]
        exact Option.some_ne_none e
      · have after : bad ∈ rest := by
          rcases List.mem_cons.mp member with rfl | later
          · exact (here header).elim
          · exact later
        have later := ih (fun other listed => free other (List.mem_cons_of_mem _ listed)) after
        by_cases comment : ascii "#" <+: entry.1
        · rw [loadLines_cons (loadLine_entry_comment range keyword comment)]
          exact later t
        · rw [loadLines_cons (loadLine_entry keyword range ⟨comment, here⟩)]
          exact later _

theorem loadLines_merges {merges : List (Bytes × Bytes)}
    (free : ∀ m ∈ merges, KeywordFree m.1 ∧ Loadable m.1 ∧ m.1 ≠ [] ∧ m.2 ≠ [])
    (t : BPETokenizer) :
    loadLines filename ⟨t, .bpeMerges⟩ (merges.map mergeLine) =
      (none, ⟨{ t with bpeMerges := t.bpeMerges ++ merges }, .bpeMerges⟩) := by
  induction merges generalizing t with
  | nil => rw [List.map_nil, loadLines, List.append_nil]
  | cons m rest ih =>
      obtain ⟨keyword, loadable, nonempty⟩ := free m List.mem_cons_self
      rw [List.map_cons, loadLines_cons (loadLine_merge keyword loadable nonempty)]
      refine (ih (fun other member => free other (List.mem_cons_of_mem _ member)) _).trans ?_
      simp only [List.append_assoc, List.singleton_append]

/-! ## The tables that are read -/

section Entries

variable (t : BPETokenizer) (entries : List (Σ _ : Bytes, Int))

@[simp] theorem addEntry_vocab (token : Bytes) (id : Int) :
    (t.addEntry token id).vocab = t.vocab.insert token id := by
  rw [addEntry]
  split <;> rfl

@[simp] theorem addEntry_inverseVocab (token : Bytes) (id : Int) :
    (t.addEntry token id).inverseVocab = t.inverseVocab.insert id token := by
  rw [addEntry]
  split <;> rfl

theorem addEntries_vocab :
    (t.addEntries entries).vocab = insertAll (entries.map fun e => (e.1, e.2)) t.vocab := by
  rw [addEntries, insertAll, List.foldl_map]
  induction entries generalizing t with
  | nil => rfl
  | cons entry rest ih => exact (ih _).trans (by rw [addEntry_vocab]; rfl)

theorem addEntries_inverseVocab : (t.addEntries entries).inverseVocab =
    insertAll (entries.map fun e => (e.2, e.1)) t.inverseVocab := by
  rw [addEntries, insertAll, List.foldl_map]
  induction entries generalizing t with
  | nil => rfl
  | cons entry rest ih => exact (ih _).trans (by rw [addEntry_inverseVocab]; rfl)

/-- Everything but the tables. -/
structure SameSettings (t t' : BPETokenizer) : Prop where
  mode : t'.mode = t.mode
  normalization : t'.normalization = t.normalization
  bpeMerges : t'.bpeMerges = t.bpeMerges
  ids : t'.padTokenId = t.padTokenId ∧ t'.unkTokenId = t.unkTokenId ∧
    t'.bosTokenId = t.bosTokenId ∧ t'.eosTokenId = t.eosTokenId

theorem addEntry_settings (token : Bytes) (id : Int) : SameSettings t (t.addEntry token id) := by
  rw [addEntry]
  split <;> exact ⟨rfl, rfl, rfl, rfl, rfl, rfl, rfl⟩

theorem addEntries_settings : SameSettings t (t.addEntries entries) := by
  induction entries generalizing t with
  | nil => exact ⟨rfl, rfl, rfl, rfl, rfl, rfl, rfl⟩
  | cons entry rest ih =>
      have first := t.addEntry_settings entry.1 entry.2
      have later := ih (t.addEntry entry.1 entry.2)
      obtain ⟨pad, unk, bos, eos⟩ := first.ids
      obtain ⟨pad', unk', bos', eos'⟩ := later.ids
      exact ⟨later.mode.trans first.mode, later.normalization.trans first.normalization,
        later.bpeMerges.trans first.bpeMerges, pad'.trans pad, unk'.trans unk, bos'.trans bos,
        eos'.trans eos⟩

end Entries

/-! ## The whole file -/

/-- The tokenizer after the header lines. -/
def headed (t₀ t : BPETokenizer) : BPETokenizer :=
  { t₀.cleared with
    mode := t.mode
    normalization := t.normalization
    padTokenId := t.padTokenId
    unkTokenId := t.unkTokenId
    bosTokenId := t.bosTokenId
    eosTokenId := t.eosTokenId }

/-- The ids every new tokenizer has. -/
def StandardIds (t : BPETokenizer) : Prop :=
  t.padTokenId = 0 ∧ t.unkTokenId = 1 ∧ t.bosTokenId = 2 ∧ t.eosTokenId = 3

theorem loadLines_header (filename : String) (t₀ : BPETokenizer) (ids : StandardIds t) :
    loadLines filename ⟨t₀.cleared, .none_⟩ t.headerLines = (none, ⟨headed t₀ t, .vocab⟩) := by
  obtain ⟨mode, normalization, vocab, inverseVocab, bpeMerges, specialTokens, pad, unk, bos, eos⟩ := t
  obtain ⟨rfl, rfl, rfl, rfl⟩ := ids
  cases mode <;> cases normalization <;> rfl

theorem newline_notMem_digits (n : Nat) : 0x0A ∉ digits n :=
  fun member => absurd (isDigit_of_mem_digits member) (by decide)

theorem newline_notMem_decimal {id : Int} (nonnegative : 0 ≤ id) : 0x0A ∉ decimal id := by
  obtain ⟨n, rfl⟩ := Int.eq_ofNat_of_zero_le nonnegative
  exact newline_notMem_digits n

/-- No line holds a newline, so the file's lines are the lines written. -/
theorem getlines_vocabLines (order : HashOrder) (ids : StandardIds t)
    (range : ∀ entry ∈ t.vocab.entries, IdRange entry.2) :
    getlines (fileText (t.vocabLines order)) = t.vocabLines order := by
  apply getlines_fileText
  obtain ⟨pad, unk, bos, eos⟩ := ids
  have escaped {s rest : Bytes} (absent : 0x0A ∉ rest) : 0x0A ∉ escape s ++ 0x09 :: rest := by
    intro member
    rcases List.mem_append.mp member with front | back
    · exact (mem_escape front).1 rfl
    · rcases List.mem_cons.mp back with tab | later
      · exact absurd tab (by decide)
      · exact absent later
  intro line member
  rcases List.mem_append.mp member with front | back
  · rcases List.mem_append.mp front with header | entry
    · have prefixed {word rest : Bytes} (plain : 0x0A ∉ word) (absent : 0x0A ∉ rest) :
          0x0A ∉ word ++ rest := fun inside =>
        (List.mem_append.mp inside).elim plain absent
      simp only [headerLines, List.mem_cons, List.not_mem_nil, or_false, pad, unk, bos, eos] at header
      rcases header with rfl | rfl | rfl | rfl | rfl | rfl | rfl | rfl | rfl | rfl
      · decide
      · cases t.mode <;> decide
      · cases t.normalization <;> decide
      · exact prefixed (by decide) (newline_notMem_digits _)
      all_goals decide
    · obtain ⟨e, listed, rfl⟩ := List.mem_map.mp entry
      exact escaped (newline_notMem_decimal (range e (order.mem_walk.mp listed)).1)
  · rcases List.mem_cons.mp back with rfl | merge
    · intro inside
      rcases List.mem_append.mp inside with word | number
      · exact absurd word (by decide)
      · exact newline_notMem_digits _ number
    · obtain ⟨m, _, rfl⟩ := List.mem_map.mp merge
      exact escaped fun inside => (mem_escape inside).1 rfl

theorem finishLoad_ok (known : ∀ s ∈ standardSpecials, s.1 ∈ t.vocab) :
    finishLoad filename t = (none, t.withSpecials) := by
  have some_ : t.vocab.entries ≠ [] := by
    intro none
    have listed := AList.mem_keys.mp (known (padToken, 0) (by decide))
    rw [AList.keys, none] at listed
    cases listed
  have all : ¬ (padToken ∉ t.vocab ∨ unkToken ∉ t.vocab ∨ bosToken ∉ t.vocab ∨
      eosToken ∉ t.vocab) := by
    simp only [not_or, not_not]
    exact ⟨known (padToken, 0) (by decide), known (unkToken, 1) (by decide),
      known (bosToken, 2) (by decide), known (eosToken, 3) (by decide)⟩
  rw [finishLoad, if_neg some_, if_neg all]

/-- Names that are there already stay the only ones. -/
theorem withSpecials_inverseVocab (ids : StandardIds t)
    (named : ∀ s ∈ standardSpecials, t.inverseVocab.lookup s.2 = some s.1) (id : Int) :
    t.withSpecials.inverseVocab.lookup id = t.inverseVocab.lookup id := by
  obtain ⟨pad, unk, bos, eos⟩ := ids
  have zero := named (padToken, 0) (by decide)
  have one := (lookup_insert_same zero 1).trans (named (unkToken, 1) (by decide))
  have two := (lookup_insert_same one 2).trans
    ((lookup_insert_same zero 2).trans (named (bosToken, 2) (by decide)))
  have three := (lookup_insert_same two 3).trans ((lookup_insert_same one 3).trans
    ((lookup_insert_same zero 3).trans (named (eosToken, 3) (by decide))))
  rw [withSpecials, pad, unk, bos, eos]
  exact (lookup_insert_same three id).trans ((lookup_insert_same two id).trans
    ((lookup_insert_same one id).trans (lookup_insert_same zero id)))

end BPETokenizer

/-! ## What a build learned -/

theorem keywords_long : ∀ word ∈ BPETokenizer.keywords, 6 ≤ word.length ∧ ¬ Unmixed word := by
  unfold Unmixed
  decide

namespace Trained

variable {mode : TokenizerMode} {normalization : TextNormalization}
  {start words : List (List Bytes)} {t : BPETokenizer}

/-- No token begins with a header word: short ones are too short, and a merge's
product never mixes letters with an underscore. -/
theorem keywordFree (trained : Trained mode normalization start words t)
    (corpus : FromCorpus mode start) {token : Bytes} (member : token ∈ t.vocab) :
    BPETokenizer.KeywordFree token := by
  intro word listed begins
  obtain ⟨long, mixed⟩ := keywords_long word listed
  have longer := begins.length_le
  rcases trained.origin token member with special | unit | merged
  · obtain ⟨s, standard, rfl⟩ := List.mem_map.mp special
    have short := special_length s standard
    omega
  · have short := unit.length_le
    omega
  · obtain ⟨m, inside, rfl⟩ := List.mem_map.mp merged
    obtain ⟨g, factor, spells, _⟩ := trained.learned.product_lift inside
    have unmixed := corpus.unmixed factor
    rw [spells] at unmixed
    exact mixed (unmixed.imp (fun none c within => none c (begins.subset within))
      fun all c within => all c (begins.subset within))

theorem idRange (trained : Trained mode normalization start words t)
    (fits : (size t.vocab : Int) ≤ 2147483648) : ∀ entry ∈ t.vocab.entries,
      BPETokenizer.IdRange entry.2 := by
  intro entry member
  have found : t.vocab.lookup entry.1 = some entry.2 := AList.mem_lookup_iff.mpr member
  have bounds := (trained.numbered.range entry.2).mp ⟨entry.1, found⟩
  exact ⟨bounds.1, by omega⟩

/-- The first part of a merge begins its product. -/
theorem merge_readable (trained : Trained mode normalization start words t)
    (corpus : FromCorpus mode start)
    (loadable : ∀ token ∈ t.vocab, BPETokenizer.Loadable token) :
    ∀ m ∈ t.bpeMerges, BPETokenizer.KeywordFree m.1 ∧ BPETokenizer.Loadable m.1 ∧
      m.1 ≠ [] ∧ m.2 ≠ [] := by
  intro m member
  have begins {word : Bytes} (front : word <+: m.1) : word <+: product m :=
    front.trans (List.prefix_append m.1 m.2)
  have known := trained.product_mem member
  refine ⟨fun word listed front => trained.keywordFree corpus known word listed (begins front),
    ⟨fun front => (loadable _ known).1 (begins front),
      fun front => (loadable _ known).2 (begins front)⟩, trained.parts_ne_nil corpus m member⟩

end Trained

/-! ## Round trip -/

/-- The loaded tokenizer has the tables, merges, settings and special ids of the
saved one. -/
structure Restored (t t' : BPETokenizer) : Prop where
  vocab : ∀ token, t'.vocab.lookup token = t.vocab.lookup token
  inverseVocab : ∀ id, t'.inverseVocab.lookup id = t.inverseVocab.lookup id
  bpeMerges : t'.bpeMerges = t.bpeMerges
  mode : t'.mode = t.mode
  normalization : t'.normalization = t.normalization
  padTokenId : t'.padTokenId = t.padTokenId
  unkTokenId : t'.unkTokenId = t.unkTokenId
  bosTokenId : t'.bosTokenId = t.bosTokenId
  eosTokenId : t'.eosTokenId = t.eosTokenId

namespace Trained

variable {mode : TokenizerMode} {normalization : TextNormalization}
  {start words : List (List Bytes)} {t : BPETokenizer}

theorem mem_walk_iff (order : HashOrder) {table : Table Bytes Int} {k : Bytes} {v : Int} :
    (⟨k, v⟩ : Σ _ : Bytes, Int) ∈ order.walk table.entries ↔ table.lookup k = some v :=
  order.mem_walk.trans AList.mem_lookup_iff.symm

/-- The entries walked in any order give both tables back. -/
theorem lookup_walk (trained : Trained mode normalization start words t) (order : HashOrder) :
    (∀ token, (insertAll ((order.walk t.vocab.entries).map fun e => (e.1, e.2)) ∅).lookup token =
      t.vocab.lookup token) ∧
    ∀ id, (insertAll ((order.walk t.vocab.entries).map fun e => (e.2, e.1)) ∅).lookup id =
      t.inverseVocab.lookup id := by
  have entries : (order.walk t.vocab.entries).Nodup :=
    (order.perm t.vocab.entries).nodup_iff.mpr t.vocab.nodupKeys.nodup
  constructor
  · apply lookup_insertAll_eq
    · rw [List.map_map]
      exact ((order.perm t.vocab.entries).map Sigma.fst).nodup_iff.mpr t.vocab.keys_nodup
    · intro token id
      rw [← mem_walk_iff order, List.mem_map]
      exact ⟨fun ⟨e, member, same⟩ => by cases same; exact member, fun member => ⟨_, member, rfl⟩⟩
  · apply lookup_insertAll_eq
    · rw [List.map_map]
      refine (List.nodup_map_iff_inj_on entries).mpr ?_
      intro e member e' member' same
      have name := (trained.numbered.inverse e.1 e.2).mp ((mem_walk_iff order).mp member)
      have name' := (trained.numbered.inverse e'.1 e'.2).mp ((mem_walk_iff order).mp member')
      obtain same : e.2 = e'.2 := same
      rw [same, name'] at name
      exact Sigma.ext (Option.some.inj name).symm (heq_of_eq same)
    · intro id token
      rw [← trained.numbered.inverse, ← mem_walk_iff order, List.mem_map]
      exact ⟨fun ⟨e, member, same⟩ => by cases same; exact member, fun member => ⟨_, member, rfl⟩⟩

/-- The load up to the merges, when no token begins with `NORMALIZATION`. -/
theorem loadLines_to_merges (trained : Trained mode normalization start words t)
    (corpus : FromCorpus mode start) (fits : (size t.vocab : Int) ≤ 2147483648)
    (plain : ∀ token ∈ t.vocab, ¬ ascii "NORMALIZATION" <+: token) (filename : String)
    (order : HashOrder) (t₀ : BPETokenizer) :
    BPETokenizer.loadLines filename ⟨t₀.cleared, .none_⟩ (t.vocabLines order) =
      BPETokenizer.loadLines filename
        ⟨(BPETokenizer.headed t₀ t).addEntries (BPETokenizer.seen (order.walk t.vocab.entries)),
          .bpeMerges⟩ (t.bpeMerges.map BPETokenizer.mergeLine) := by
  have free : ∀ entry ∈ order.walk t.vocab.entries,
      BPETokenizer.KeywordFree entry.1 ∧ BPETokenizer.IdRange entry.2 := fun entry member =>
    ⟨trained.keywordFree corpus (mem_of_mem_entries (order.mem_walk.mp member)),
      trained.idRange fits entry (order.mem_walk.mp member)⟩
  have header := BPETokenizer.loadLines_header filename t₀ trained.ids_eq
  have visible : ∀ entry ∈ order.walk t.vocab.entries, ¬ ascii "NORMALIZATION" <+: entry.1 :=
    fun entry member => plain entry.1 (mem_of_mem_entries (order.mem_walk.mp member))
  have body := @BPETokenizer.loadLines_entries filename _ free visible (BPETokenizer.headed t₀ t)
  have both := (BPETokenizer.loadLines_append header _).trans body
  rw [BPETokenizer.vocabLines, BPETokenizer.loadLines_append both]
  exact BPETokenizer.loadLines_cons rfl _

/-- A token that begins with `NORMALIZATION` ends the load. -/
theorem loadLines_error (trained : Trained mode normalization start words t)
    (corpus : FromCorpus mode start) (fits : (size t.vocab : Int) ≤ 2147483648) {token : Bytes}
    (member : token ∈ t.vocab) (header : ascii "NORMALIZATION" <+: token) (filename : String)
    (order : HashOrder) (t₀ : BPETokenizer) :
    (BPETokenizer.loadLines filename ⟨t₀.cleared, .none_⟩ (t.vocabLines order)).1 ≠ none := by
  have free : ∀ entry ∈ order.walk t.vocab.entries,
      BPETokenizer.KeywordFree entry.1 ∧ BPETokenizer.IdRange entry.2 := fun entry member =>
    ⟨trained.keywordFree corpus (mem_of_mem_entries (order.mem_walk.mp member)),
      trained.idRange fits entry (order.mem_walk.mp member)⟩
  obtain ⟨id, found⟩ := Option.isSome_iff_exists.mp (AList.lookup_isSome.mpr member)
  have bad : (⟨token, id⟩ : Σ _ : Bytes, Int) ∈ order.walk t.vocab.entries :=
    (mem_walk_iff order).mpr found
  rw [BPETokenizer.vocabLines]
  apply BPETokenizer.loadLines_append_error
  rw [BPETokenizer.loadLines_append (BPETokenizer.loadLines_header filename t₀ trained.ids_eq)]
  exact BPETokenizer.loadLines_entries_error free bad header _

/-- With every token loadable, what is read is what was written. -/
theorem restored (trained : Trained mode normalization start words t)
    (corpus : FromCorpus mode start) (fits : (size t.vocab : Int) ≤ 2147483648)
    (loadable : ∀ token ∈ t.vocab, BPETokenizer.Loadable token) (filename : String)
    (order : HashOrder) (t₀ : BPETokenizer) :
    ∃ s t', BPETokenizer.loadLines filename ⟨t₀.cleared, .none_⟩ (t.vocabLines order) = (none, s) ∧
      BPETokenizer.finishLoad filename s.tokenizer = (none, t') ∧ Restored t t' := by
  have visible : BPETokenizer.seen (order.walk t.vocab.entries) = order.walk t.vocab.entries := by
    refine List.filter_eq_self.mpr fun entry member => decide_eq_true ?_
    exact (loadable entry.1 (mem_of_mem_entries (order.mem_walk.mp member))).1
  let read := (BPETokenizer.headed t₀ t).addEntries (order.walk t.vocab.entries)
  obtain ⟨names, ids⟩ := trained.lookup_walk order
  have vocab : ∀ token, read.vocab.lookup token = t.vocab.lookup token := fun token => by
    rw [← names token]
    exact congrArg (AList.lookup token) (BPETokenizer.addEntries_vocab _ _)
  have inverse : ∀ id, read.inverseVocab.lookup id = t.inverseVocab.lookup id := fun id => by
    rw [← ids id]
    exact congrArg (AList.lookup id) (BPETokenizer.addEntries_inverseVocab _ _)
  have settings := (BPETokenizer.headed t₀ t).addEntries_settings (order.walk t.vocab.entries)
  obtain ⟨pad, unk, bos, eos⟩ := settings.ids
  obtain ⟨pad', unk', bos', eos'⟩ := trained.ids_eq
  let merged : BPETokenizer := { read with bpeMerges := read.bpeMerges ++ t.bpeMerges }
  have known : ∀ s ∈ standardSpecials, s.1 ∈ merged.vocab := fun s standard =>
    mem_of_lookup ((vocab s.1).trans (trained.special s standard))
  have named : ∀ s ∈ standardSpecials, merged.inverseVocab.lookup s.2 = some s.1 :=
    fun s standard => (inverse s.2).trans
      ((trained.numbered.inverse s.1 s.2).mp (trained.special s standard))
  refine ⟨⟨merged, .bpeMerges⟩, merged.withSpecials, ?_, BPETokenizer.finishLoad_ok known, ?_⟩
  · rw [trained.loadLines_to_merges corpus fits fun token member => (loadable token member).2,
      visible]
    exact BPETokenizer.loadLines_merges (trained.merge_readable corpus loadable) _
  · have standard : BPETokenizer.StandardIds merged :=
      ⟨pad.trans pad', unk.trans unk', bos.trans bos', eos.trans eos'⟩
    exact {
      vocab := vocab
      inverseVocab := fun id =>
        (BPETokenizer.withSpecials_inverseVocab standard named id).trans (inverse id)
      bpeMerges := congrArg (· ++ t.bpeMerges) settings.bpeMerges
      mode := settings.mode
      normalization := settings.normalization
      padTokenId := pad
      unkTokenId := unk
      bosTokenId := bos
      eosTokenId := eos }

/-- A token that begins with `#` is not in the vocabulary that is read. -/
theorem lost (trained : Trained mode normalization start words t)
    (corpus : FromCorpus mode start) (fits : (size t.vocab : Int) ≤ 2147483648)
    (plain : ∀ token ∈ t.vocab, ¬ ascii "NORMALIZATION" <+: token) {token : Bytes}
    (comment : ascii "#" <+: token) {filename : String} {order : HashOrder} {t₀ : BPETokenizer}
    {s : BPETokenizer.LoadState}
    (done : BPETokenizer.loadLines filename ⟨t₀.cleared, .none_⟩ (t.vocabLines order) = (none, s)) :
    s.tokenizer.vocab.lookup token = none := by
  rw [trained.loadLines_to_merges corpus fits plain] at done
  have body : ∀ line ∈ t.bpeMerges.map BPETokenizer.mergeLine, BPETokenizer.BodyLine line := by
    intro line member
    obtain ⟨m, listed, rfl⟩ := List.mem_map.mp member
    refine BPETokenizer.bodyLine_of_escape (fun word keyword front => ?_) fun inside =>
      (mem_escape inside).2.2 rfl
    exact trained.keywordFree corpus (trained.product_mem listed) word keyword
      (front.trans (List.prefix_append m.1 m.2))
  rw [BPETokenizer.vocab_of_loadLines_merges body done, BPETokenizer.addEntries_vocab]
  refine (lookup_insertAll_of_notMem (fun member => ?_) _).trans (AList.lookup_empty token)
  obtain ⟨pair, listed, rfl⟩ := List.mem_map.mp member
  obtain ⟨entry, kept, rfl⟩ := List.mem_map.mp listed
  exact of_decide_eq_true (List.mem_filter.mp kept).2 comment

end Trained

theorem BPETokenizer.vocab_of_finishLoad {filename : String} {t t' : BPETokenizer}
    (done : BPETokenizer.finishLoad filename t = (none, t')) : t'.vocab = t.vocab := by
  rw [finishLoad] at done
  split at done
  · cases done
  · split at done
    · cases done
    · rw [← (Prod.mk.inj done).2]
      rfl

/-- What a load of the saved file comes to. -/
theorem BPETokenizer.loadVocab_eq {t t₀ : BPETokenizer} {order : HashOrder} {filename : String}
    {disk disk' : Disk} (saved : t.saveVocab order filename disk = (none, disk'))
    (ids : StandardIds t) (range : ∀ entry ∈ t.vocab.entries, IdRange entry.2) :
    t₀.loadVocab filename disk' = t₀.loadText filename (t.vocabLines order) := by
  obtain ⟨named, content⟩ := saveVocab_saved saved
  rw [loadVocab, if_neg named, content]
  simp only
  rw [getlines_vocabLines order ids range]

/-- **When a vocabulary survives its file.** What one build has learned, saved under
any name and loaded into a new tokenizer, is restored if and only if no token of the
vocabulary begins with `#` or with `NORMALIZATION`. -/
theorem vocab_restored_iff (order order' : HashOrder) {texts : List Bytes}
    {vocabSize threshold : Int} (inInt : vocabSize ≤ 2147483647) {mode : TokenizerMode}
    {normalization : TextNormalization} {t : BPETokenizer}
    (built : ((BPETokenizer.new mode).setNormalization normalization).buildVocab order texts
      vocabSize threshold = .ok t)
    {filename : String} {disk disk' : Disk}
    (saved : t.saveVocab order' filename disk = (none, disk')) (mode' : TokenizerMode) :
    (∃ t', (BPETokenizer.new mode').loadVocab filename disk' = (none, t') ∧ Restored t t') ↔
      ∀ token ∈ t.vocab, ¬ ascii "#" <+: token ∧ ¬ ascii "NORMALIZATION" <+: token := by
  obtain ⟨t', start, words, built', corpus, trained, bound⟩ := buildVocab_trained order vocabSize
    threshold mode normalization (BPETokenizer.valid_of_buildVocab built)
  obtain rfl := Except.ok.inj (built.symm.trans built')
  have fits : (size t.vocab : Int) ≤ 2147483648 := by omega
  rw [BPETokenizer.loadVocab_eq saved trained.ids_eq (trained.idRange fits), BPETokenizer.loadText]
  constructor
  · rintro ⟨t', loaded, same⟩
    have plain : ∀ token ∈ t.vocab, ¬ ascii "NORMALIZATION" <+: token := by
      intro token member header
      have failed := trained.loadLines_error corpus fits member header filename order'
        (BPETokenizer.new mode')
      split at loaded
      · cases loaded
      · rename_i s done
        exact failed (congrArg Prod.fst done)
    refine fun token member => ⟨fun comment => ?_, plain token member⟩
    split at loaded
    · cases loaded
    · rename_i s done
      have absent := trained.lost corpus fits plain comment done
      rw [← BPETokenizer.vocab_of_finishLoad loaded, same.vocab] at absent
      exact AList.lookup_eq_none.mp absent member
  · intro loadable
    obtain ⟨s, t', done, finished, same⟩ := trained.restored corpus fits loadable filename order'
      (BPETokenizer.new mode')
    refine ⟨t', ?_, same⟩
    rw [done]
    exact finished

/-- A vocabulary without such tokens is restored. -/
theorem vocab_restored_greeting :
    let t := builtFrom .unicode .cased .listed [ascii "hi hi"] 20 1
    ∃ t', (BPETokenizer.new .ascii).loadVocab "vocab" (t.saveVocab .listed "vocab" .empty).2 =
      (none, t') ∧ Restored t t' := by
  intro t
  have built : ((BPETokenizer.new .unicode).setNormalization .cased).buildVocab .listed
      [ascii "hi hi"] 20 1 = .ok t := rfl
  have saved : t.saveVocab .listed "vocab" .empty = (none, (t.saveVocab .listed "vocab" .empty).2) :=
    rfl
  exact (vocab_restored_iff .listed .listed (by decide) built saved .ascii).mpr (by decide)

/-- The text `#` gives a vocabulary whose only unit is passed over as a comment. -/
theorem vocab_restored_fails :
    let t := builtFrom .unicode .cased .listed [ascii "#"] 20 1
    let loaded := (BPETokenizer.new .unicode).loadVocab "vocab"
      (t.saveVocab .listed "vocab" .empty).2
    Built .unicode .cased t ∧ loaded.1 = none ∧ t.vocab.lookup (ascii "#") = some 4 ∧
      loaded.2.vocab.lookup (ascii "#") = none ∧ ¬ Restored t loaded.2 := by
  refine ⟨⟨.listed, [ascii "#"], 20, 1, rfl⟩, rfl, rfl, rfl, fun same => ?_⟩
  have lookups := same.vocab (ascii "#")
  cases lookups

end Adai.Tokenizer
