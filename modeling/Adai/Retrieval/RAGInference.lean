import Adai.Math.JsonStrings
import Adai.Math.Synchronized
import Adai.Tokenizer.Units

/-! # The budgeted prompt

`RAGInference` puts retrieved context and the earlier conversation in front of a question,
and searches for how much of each fits. A search halves an interval and ends with a test of
exactly the text that is used, so the prompt fits whatever the counter; positions are moved
out of UTF-8 sequences, so no character is cut (`budgeted_prompt_fits`). What does not fit
at all is left out, and a separator stands between context and conversation
(`budgeted_prompt_leaves_out`).
-/

namespace Adai.Retrieval

open Synchronized JsonStrings Adai.Tokenizer

structure RAGConfig where
  contextSeparator : Bytes
  contextPrefix : Bytes
  queryPrefix : Bytes
  maxContextLength : Int

structure RAGInference where
  config : RAGConfig
  /-- `EncoderDecoderModel::get_max_seq_length`. -/
  maxSeqLength : Int
  /-- How many tokens a text is encoded to. -/
  encodedSize : Bytes → ℕ
  /-- `validateConfig` refuses a smaller one. -/
  contextRoom : 1 ≤ config.maxContextLength

namespace RAGInference

variable (rag : RAGInference)

def buildAugmentedPrompt (query context history : Bytes) : Bytes :=
  (if context ≠ [] then rag.config.contextPrefix ++ context else []) ++
    (if history ≠ [] then
      (if context ≠ [] then rag.config.contextSeparator else []) ++ history
    else []) ++
      (rag.config.queryPrefix ++ query)

def countTokens (text : Bytes) : ℕ :=
  if text = [] then 0 else rag.encodedSize text

def utf8Boundary (text : Bytes) (pos : ℕ) : ℕ :=
  boundary isContinuation text (min pos text.length)

/-- The halving loop of `longest`. -/
def halve (fits : ℕ → Bool) (lo hi : ℕ) : ℕ :=
  if lo < hi then
    if fits (lo + (hi - lo + 1) / 2) then halve fits (lo + (hi - lo + 1) / 2) hi
    else halve fits lo (lo + (hi - lo + 1) / 2 - 1)
  else lo
termination_by hi - lo

/-- The length that the search settles on; 0 if nothing fits. -/
def longest (text : Bytes) (fitsAt : ℕ → Bool) : ℕ :=
  if text = [] then 0
  else if fitsAt text.length then text.length
  else
    let lo := halve (fun mid => fitsAt (utf8Boundary text mid)) 0 (text.length - 1)
    let n := utf8Boundary text lo
    if 0 < n ∧ fitsAt n then n else 0

/-- "...". -/
def ellipsis : Bytes := [0x2E, 0x2E, 0x2E]

def clipped (context : Bytes) (n : ℕ) : Bytes :=
  if n ≥ context.length then context else context.take n ++ ellipsis

/-- The last `n` bytes, starting on a UTF-8 boundary. -/
def tail (history : Bytes) (n : ℕ) : Bytes :=
  if n ≥ history.length then history
  else ellipsis ++ (history.drop (history.length - n)).dropWhile isContinuation

def maxSeq : ℕ := (max rag.maxSeqLength 1).toNat

def contextFits (query context : Bytes) (k : ℕ) : Bool :=
  rag.countTokens (clipped context k) ≤ rag.config.maxContextLength.toNat &&
    rag.countTokens (rag.buildAugmentedPrompt query (clipped context k) []) ≤ rag.maxSeq

/-- The part of the context that fits. -/
def fittingContext (query context : Bytes) : Bytes :=
  if context ≠ [] ∧ rag.config.maxContextLength > 0 then
    let n := longest context (rag.contextFits query context)
    if 0 < n then clipped context n else []
  else []

def historyFits (query ctx history : Bytes) (k : ℕ) : Bool :=
  rag.countTokens (rag.buildAugmentedPrompt query ctx (tail history k)) ≤ rag.maxSeq

/-- The part of the conversation that fits behind the context. -/
def fittingHistory (query ctx history : Bytes) : Bytes :=
  if history ≠ [] then
    let n := longest history (rag.historyFits query ctx history)
    if 0 < n then tail history n else []
  else []

def buildBudgetedPrompt (query context history : Bytes) : Bytes :=
  let questionOnly := rag.buildAugmentedPrompt query [] []
  if rag.countTokens questionOnly ≥ rag.maxSeq then questionOnly
  else
    let ctx := rag.fittingContext query context
    rag.buildAugmentedPrompt query ctx (rag.fittingHistory query ctx history)

variable {rag}

/-! ## The search -/

theorem utf8Boundary_le (text : Bytes) (pos : ℕ) : utf8Boundary text pos ≤ text.length :=
  (boundary_le text _).trans (min_le_right ..)

/-- The search settles on a length that was tested, at the end of the text or out of any
UTF-8 sequence, unless it settles on nothing. -/
theorem longest_spec {text : Bytes} {fitsAt : ℕ → Bool} (some_ : 0 < longest text fitsAt) :
    fitsAt (longest text fitsAt) = true ∧
      (longest text fitsAt = text.length ∨
        Starts isContinuation (text.drop (longest text fitsAt))) := by
  unfold longest at some_ ⊢
  split at some_
  · cases some_
  · rename_i nonempty
    rw [if_neg nonempty]
    split at some_
    · rename_i all
      rw [if_pos all]
      exact ⟨all, .inl rfl⟩
    · rename_i notAll
      rw [if_neg notAll]
      dsimp only at some_ ⊢
      split at some_
      · rename_i found
        rw [if_pos found]
        refine ⟨found.2, .inr ?_⟩
        exact (boundary_starts text _).resolve_left found.1.ne'
      · cases some_

theorem longest_of_never {text : Bytes} {fitsAt : ℕ → Bool}
    (never : ∀ n ≤ text.length, fitsAt n = false) : longest text fitsAt = 0 := by
  unfold longest
  split
  · rfl
  · rw [never _ le_rfl, if_neg Bool.false_ne_true]
    dsimp only
    rw [never _ (utf8Boundary_le ..)]
    simp

/-! ## The parts of the prompt -/

/-- A text in two pieces, and no UTF-8 sequence goes on in the second. -/
def Cut (text front back : Bytes) : Prop :=
  text = front ++ back ∧ Starts isContinuation back

theorem clipped_cut {context : Bytes} {n : ℕ}
    (cut : n = context.length ∨ Starts isContinuation (context.drop n)) :
    clipped context n = context ∨
      ∃ front back, Cut context front back ∧ clipped context n = front ++ ellipsis := by
  unfold clipped
  split
  · exact .inl rfl
  · rename_i shorter
    have starts := cut.resolve_left fun whole => shorter whole.ge
    exact .inr ⟨_, _, ⟨(List.take_append_drop n context).symm, starts⟩, rfl⟩

theorem tail_cut (history : Bytes) (n : ℕ) :
    tail history n = history ∨
      ∃ front back, Cut history front back ∧ tail history n = ellipsis ++ back := by
  unfold tail
  split
  · exact .inl rfl
  · have suffix := (List.dropWhile_suffix (l := history.drop (history.length - n))
      isContinuation).trans (List.drop_suffix _ history)
    obtain ⟨front, same⟩ := suffix
    exact .inr ⟨front, _, ⟨same.symm, starts_dropWhile _⟩, rfl⟩

theorem fittingContext_cut (query context : Bytes) :
    rag.fittingContext query context = [] ∨ rag.fittingContext query context = context ∨
      ∃ front back, Cut context front back ∧
        rag.fittingContext query context = front ++ ellipsis := by
  unfold fittingContext
  split
  · dsimp only
    split
    · rename_i some_
      exact .inr (clipped_cut (longest_spec some_).2)
    · exact .inl rfl
  · exact .inl rfl

theorem fittingHistory_cut (query ctx history : Bytes) :
    rag.fittingHistory query ctx history = [] ∨ rag.fittingHistory query ctx history = history ∨
      ∃ front back, Cut history front back ∧
        rag.fittingHistory query ctx history = ellipsis ++ back := by
  unfold fittingHistory
  split
  · dsimp only
    split
    · exact .inr (tail_cut history _)
    · exact .inl rfl
  · exact .inl rfl

theorem countTokens_nil : rag.countTokens [] = 0 := if_pos rfl

/-- The context part was tested as it is used. -/
theorem fittingContext_fits {query : Bytes}
    (question : rag.countTokens (rag.buildAugmentedPrompt query [] []) < rag.maxSeq)
    (context : Bytes) :
    rag.countTokens (rag.fittingContext query context) ≤ rag.config.maxContextLength.toNat ∧
      rag.countTokens (rag.buildAugmentedPrompt query (rag.fittingContext query context) []) ≤
        rag.maxSeq := by
  have nothing : rag.countTokens [] ≤ rag.config.maxContextLength.toNat ∧
      rag.countTokens (rag.buildAugmentedPrompt query [] []) ≤ rag.maxSeq :=
    ⟨countTokens_nil.trans_le (Nat.zero_le _), question.le⟩
  unfold fittingContext
  split
  · dsimp only
    split
    · rename_i some_
      obtain ⟨small, fits⟩ := Bool.and_eq_true_iff.mp (longest_spec some_).1
      exact ⟨of_decide_eq_true small, of_decide_eq_true fits⟩
    · exact nothing
  · exact nothing

theorem fittingHistory_fits {query ctx : Bytes}
    (room : rag.countTokens (rag.buildAugmentedPrompt query ctx []) ≤ rag.maxSeq)
    (history : Bytes) :
    rag.countTokens (rag.buildAugmentedPrompt query ctx (rag.fittingHistory query ctx history)) ≤
      rag.maxSeq := by
  unfold fittingHistory
  split
  · dsimp only
    split
    · rename_i some_
      exact of_decide_eq_true (longest_spec some_).1
    · exact room
  · exact room

/-! ## UTF-8 -/

/-- Well-formed UTF-8. -/
def ValidUtf8 (text : Bytes) : Prop := ∃ characters, text = utf8 characters

theorem ValidUtf8.append {front back : Bytes} (valid : ValidUtf8 front) (valid' : ValidUtf8 back) :
    ValidUtf8 (front ++ back) := by
  obtain ⟨characters, rfl⟩ := valid
  obtain ⟨characters', rfl⟩ := valid'
  exact ⟨characters ++ characters', (utf8_append ..).symm⟩

theorem validUtf8_nil : ValidUtf8 [] := ⟨[], rfl⟩

theorem validUtf8_ellipsis : ValidUtf8 ellipsis := ⟨['.', '.', '.'], rfl⟩

theorem isContinuation_iff (b : UInt8) : isContinuation b = true ↔ 0x80 ≤ b.toNat ∧ b.toNat < 0xC0 := by
  have bytes : ∀ b : BitVec 8, isContinuation ⟨b⟩ = true ↔ 0x80 ≤ b.toNat ∧ b.toNat < 0xC0 := by
    decide +kernel
  exact bytes b.toBitVec

/-- A character is written with a lead byte and continuation bytes. -/
theorem utf8EncodeChar_isUnit (c : Char) : IsUnit isContinuation (String.utf8EncodeChar c) := by
  have lead {b : UInt8} (out : b.toNat < 0x80 ∨ 0xC0 ≤ b.toNat) : isContinuation b = false := by
    rw [← Bool.not_eq_true, isContinuation_iff]
    omega
  unfold String.utf8EncodeChar
  dsimp only
  split
  · refine ⟨lead ?_, by simp⟩
    simp only [UInt8.toNat_ofNat']
    omega
  · split
    · refine ⟨lead ?_, fun b member => (isContinuation_iff b).mpr ?_⟩
      · simp only [UInt8.toNat_ofNat']
        omega
      · simp only [List.mem_singleton] at member
        rw [member, UInt8.toNat_ofNat']
        omega
    · split
      · refine ⟨lead ?_, fun b member => (isContinuation_iff b).mpr ?_⟩
        · simp only [UInt8.toNat_ofNat']
          omega
        · simp only [List.mem_cons, List.not_mem_nil, or_false] at member
          rcases member with rfl | rfl <;> rw [UInt8.toNat_ofNat'] <;> omega
      · refine ⟨lead ?_, fun b member => (isContinuation_iff b).mpr ?_⟩
        · simp only [UInt8.toNat_ofNat']
          omega
        · simp only [List.mem_cons, List.not_mem_nil, or_false] at member
          rcases member with rfl | rfl | rfl <;> rw [UInt8.toNat_ofNat'] <;> omega

theorem ValidUtf8.starts {text : Bytes} (valid : ValidUtf8 text) : Starts isContinuation text := by
  obtain ⟨_ | ⟨c, rest⟩, rfl⟩ := valid
  · exact starts_nil
  · exact (utf8EncodeChar_isUnit c).starts (utf8 rest)

/-- A text may be cut where no sequence goes on. -/
theorem ValidUtf8.cut {text front back : Bytes} (valid : ValidUtf8 text)
    (isCut : Cut text front back) : ValidUtf8 front ∧ ValidUtf8 back := by
  obtain ⟨characters, rfl⟩ := valid
  obtain ⟨spells, starts⟩ := isCut
  have areUnits : ∀ unit ∈ characters.map String.utf8EncodeChar, IsUnit isContinuation unit := by
    intro unit member
    obtain ⟨c, -, rfl⟩ := List.mem_map.mp member
    exact utf8EncodeChar_isUnit c
  rw [utf8, List.flatMap_def] at spells
  obtain ⟨before, after, units, rfl, rfl⟩ := split areUnits spells starts
  obtain ⟨first, second, -, rfl, rfl⟩ := List.map_eq_append_iff.mp units
  exact ⟨⟨first, List.flatMap_def.symm⟩, ⟨second, List.flatMap_def.symm⟩⟩

theorem validUtf8_augmented {query context history : Bytes} (validQuery : ValidUtf8 query)
    (validContext : ValidUtf8 context) (validHistory : ValidUtf8 history)
    (validPrefix : ValidUtf8 rag.config.contextPrefix)
    (validQueryPrefix : ValidUtf8 rag.config.queryPrefix)
    (validSeparator : ValidUtf8 rag.config.contextSeparator) :
    ValidUtf8 (rag.buildAugmentedPrompt query context history) := by
  unfold buildAugmentedPrompt
  refine (ValidUtf8.append ?_ ?_).append (validQueryPrefix.append validQuery)
  · split
    · exact validPrefix.append validContext
    · exact validUtf8_nil
  · split
    · refine ValidUtf8.append ?_ validHistory
      split
      · exact validSeparator
      · exact validUtf8_nil
    · exact validUtf8_nil

end RAGInference

open RAGInference

/-- For every counter: the prompt ends with the whole question and its prefix. Its context
part is nothing, the context, or a prefix of it with an ellipsis, and its history part
nothing, the history, or an ellipsis with a suffix of it. If the question alone counts fewer
tokens than the model takes, the prompt counts at most as many, and its context part at most
as many as are set for it. If the texts and the configured strings are valid UTF-8, so are
the prompt and both parts. -/
theorem budgeted_prompt_fits (rag : RAGInference) (query context history : Bytes) :
    let prompt := rag.buildBudgetedPrompt query context history
    let question := rag.config.queryPrefix ++ query
    question <:+ prompt ∧
      ∃ ctx hist, prompt = rag.buildAugmentedPrompt query ctx hist ∧
        (ctx = [] ∨ ctx = context ∨
          ∃ front back, context = front ++ back ∧ ctx = front ++ ellipsis) ∧
        (hist = [] ∨ hist = history ∨
          ∃ front back, history = front ++ back ∧ hist = ellipsis ++ back) ∧
        (rag.countTokens question < rag.maxSeq → rag.countTokens prompt ≤ rag.maxSeq ∧
          (rag.countTokens ctx : Int) ≤ rag.config.maxContextLength) ∧
        (ValidUtf8 query → ValidUtf8 context → ValidUtf8 history →
          ValidUtf8 rag.config.contextPrefix → ValidUtf8 rag.config.queryPrefix →
            ValidUtf8 rag.config.contextSeparator →
              ValidUtf8 prompt ∧ ValidUtf8 ctx ∧ ValidUtf8 hist) := by
  intro prompt question
  have alone : rag.buildAugmentedPrompt query [] [] = question := rfl
  have contextRoom := rag.contextRoom
  by_cases long : rag.countTokens question ≥ rag.maxSeq
  · have same : prompt = question := if_pos long
    refine ⟨same ▸ List.suffix_refl _, [], [], same, .inl rfl, .inl rfl, fun short => ?_, ?_⟩
    · exact absurd long (Nat.not_le_of_lt short)
    · intro validQuery _ _ _ validQueryPrefix _
      exact ⟨same ▸ validQueryPrefix.append validQuery, validUtf8_nil, validUtf8_nil⟩
  · let ctx := rag.fittingContext query context
    let hist := rag.fittingHistory query ctx history
    have same : prompt = rag.buildAugmentedPrompt query ctx hist := if_neg long
    have contextCut : ctx = [] ∨ ctx = context ∨
        ∃ front back, Cut context front back ∧ ctx = front ++ ellipsis :=
      fittingContext_cut query context
    have historyCut : hist = [] ∨ hist = history ∨
        ∃ front back, Cut history front back ∧ hist = ellipsis ++ back :=
      fittingHistory_cut query ctx history
    refine ⟨same ▸ List.suffix_append .., ctx, hist, same, ?_, ?_, fun short => ?_, ?_⟩
    · exact contextCut.imp_right (.imp_right fun ⟨front, back, cut, is⟩ => ⟨front, back, cut.1, is⟩)
    · exact historyCut.imp_right (.imp_right fun ⟨front, back, cut, is⟩ => ⟨front, back, cut.1, is⟩)
    · obtain ⟨small, room⟩ := fittingContext_fits (alone.symm ▸ short) context
      have fits := fittingHistory_fits room history
      change rag.countTokens ctx ≤ _ at small
      exact ⟨same ▸ fits, by omega⟩
    · intro validQuery validContext validHistory validPrefix validQueryPrefix validSeparator
      have validCtx : ValidUtf8 ctx := by
        rcases contextCut with none | whole | ⟨front, back, cut, is⟩
        · exact none ▸ validUtf8_nil
        · exact whole ▸ validContext
        · exact is ▸ (validContext.cut cut).1.append validUtf8_ellipsis
      have validHist : ValidUtf8 hist := by
        rcases historyCut with none | whole | ⟨front, back, cut, is⟩
        · exact none ▸ validUtf8_nil
        · exact whole ▸ validHistory
        · exact is ▸ validUtf8_ellipsis.append (validHistory.cut cut).2
      exact ⟨same ▸ validUtf8_augmented validQuery validCtx validHist validPrefix
        validQueryPrefix validSeparator, validCtx, validHist⟩

/-- A model that reads bytes, with empty prefixes. -/
def bytewise (contextSeparator : Bytes) (maxSeqLength : Int) : RAGInference where
  config := ⟨contextSeparator, [], [], 512⟩
  maxSeqLength := maxSeqLength
  encodedSize := List.length
  contextRoom := (by decide : (1 : Int) ≤ 512)

theorem bytewise_prompt :
    (bytewise [] 2).buildBudgetedPrompt [0x71] [0x61, 0x62, 0x63] [] = [0x71] := by
  have never : ∀ n ≤ List.length [0x61, 0x62, 0x63],
      (bytewise [] 2).contextFits [0x71] [0x61, 0x62, 0x63] n = false := by
    decide
  have none : (bytewise [] 2).fittingContext [0x71] [0x61, 0x62, 0x63] = [] := by
    unfold fittingContext
    rw [longest_of_never never]
    rfl
  unfold buildBudgetedPrompt
  rw [none]
  rfl

theorem not_validUtf8_separated : ¬ ValidUtf8 [0x61, 0x80, 0x62, 0x71] := by
  rintro ⟨_ | ⟨c, rest⟩, spells⟩
  · cases spells
  · have first : String.utf8EncodeChar 'a' ++ [0x80, 0x62, 0x71] =
        String.utf8EncodeChar c ++ utf8 rest := spells
    obtain rfl := utf8EncodeChar_unique first
    have others : ValidUtf8 [0x80, 0x62, 0x71] := ⟨rest, List.append_cancel_left first⟩
    exact absurd (others.starts 0x80 rfl) (by decide)

/-- The context part may be left out, and a separator that is not valid UTF-8 makes a prompt
that is not, though all texts and prefixes are. -/
theorem budgeted_prompt_leaves_out :
    (¬ ∃ ctx hist, (bytewise [] 2).buildBudgetedPrompt [0x71] [0x61, 0x62, 0x63] [] =
        (bytewise [] 2).buildAugmentedPrompt [0x71] ctx hist ∧
      (ctx = [0x61, 0x62, 0x63] ∨
        ∃ front back, [0x61, 0x62, 0x63] = front ++ back ∧ ctx = front ++ ellipsis)) ∧
      (bytewise [0x80] 100).buildBudgetedPrompt [0x71] [0x61] [0x62] = [0x61, 0x80, 0x62, 0x71] ∧
        ¬ ValidUtf8 [0x61, 0x80, 0x62, 0x71] := by
  refine ⟨?_, rfl, not_validUtf8_separated⟩
  rintro ⟨ctx, hist, same, whole | ⟨front, back, -, cut⟩⟩
  · rw [bytewise_prompt, whole] at same
    have := congrArg List.length same
    simp [buildAugmentedPrompt, bytewise] at this
  · rw [bytewise_prompt, cut] at same
    have := congrArg List.length same
    simp [buildAugmentedPrompt, bytewise, ellipsis] at this
    omega

end Adai.Retrieval
