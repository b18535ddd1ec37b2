import Adai.Retrieval.RAGInference

/-! # How much of the budget is used

One search serves the context, cut at its end, and the conversation, cut at its front. It
tries lengths that end on a character boundary counted from the front. For the context these
are all there are, and the longest that fits is found. The lengths of the suffixes that start
on a boundary are counted from the end, so a fitting suffix is found only if a boundary from the
front leads to it (`budget_used_iff`).
-/

namespace Adai.Retrieval

open Synchronized Tokenizer

/-! ## The search -/

namespace RAGInference

/-- If what fits fits shorter, the halving finds the longest that does. -/
theorem halve_greatest {fits : ℕ → Bool} {lo hi : ℕ} (ordered : lo ≤ hi)
    (shorter : ∀ k k', 0 < k → k ≤ k' → k' ≤ hi → fits k' = true → fits k = true)
    (fitsLo : lo = 0 ∨ fits lo = true) :
    (halve fits lo hi = 0 ∨ fits (halve fits lo hi) = true) ∧ halve fits lo hi ≤ hi ∧
      ∀ k ≤ hi, fits k = true → k ≤ halve fits lo hi := by
  induction lo, hi using halve.induct fits with
  | case1 lo hi open_ fit ih =>
      rw [halve, if_pos open_, if_pos fit]
      exact ih (by omega) shorter (.inr fit)
  | case2 lo hi open_ unfit ih =>
      rw [halve, if_pos open_, if_neg unfit]
      obtain ⟨fits_, inside, greatest⟩ := ih (by omega)
        (fun k k' positive le within => shorter k k' positive le (by omega)) fitsLo
      refine ⟨fits_, by omega, fun k within fit => ?_⟩
      refine greatest k ?_ fit
      by_contra beyond
      exact unfit (shorter _ k (by omega) (by omega) within fit)
  | case3 lo hi closed =>
      rw [halve, if_neg closed]
      exact ⟨fitsLo, by omega, fun k within _ => by omega⟩

/-- What the search settles on where what fits fits shorter: the whole text if it fits, and
otherwise the longest part up to a boundary. -/
structure Longest (text : Bytes) (fitsAt : ℕ → Bool) (n : ℕ) : Prop where
  le : n ≤ text.length
  boundary : IsBoundary isContinuation text n
  fits : n = 0 ∨ fitsAt n = true
  greatest : ∀ k ≤ text.length, IsBoundary isContinuation text k → fitsAt k = true → k ≤ n

theorem longest_isLongest {text : Bytes} {fitsAt : ℕ → Bool}
    (shorter : ∀ k k', k ≤ k' → k' < text.length → IsBoundary isContinuation text k →
      IsBoundary isContinuation text k' → fitsAt k' = true → fitsAt k = true) :
    Longest text fitsAt (longest text fitsAt) := by
  unfold longest
  split
  · rename_i none
    subst none
    exact ⟨le_rfl, .inl rfl, .inl rfl, fun k within _ _ => within⟩
  · rename_i some_
    have positive := List.length_pos_iff.mpr some_
    split
    · rename_i all
      exact ⟨le_rfl, length_isBoundary text, .inr all, fun k within _ _ => within⟩
    · rename_i notAll
      have settled (pos : ℕ) : IsBoundary isContinuation text (utf8Boundary text pos) :=
        boundary_isBoundary text _
      let fits : ℕ → Bool := fun mid => fitsAt (utf8Boundary text mid)
      have shorter' : ∀ k k', 0 < k → k ≤ k' → k' ≤ text.length - 1 → fits k' = true →
          fits k = true := by
        intro k k' _ le within
        refine shorter _ _ (boundary_mono text (by omega)) ?_ (settled k) (settled k')
        exact (boundary_le text _).trans_lt (by omega)
      obtain ⟨fitLo, inside, greatest⟩ := halve_greatest (Nat.zero_le _) shorter' (.inl rfl)
      change Longest text fitsAt (let n := utf8Boundary text (halve fits 0 (text.length - 1))
        if 0 < n ∧ fitsAt n = true then n else 0)
      generalize halve fits 0 (text.length - 1) = lo at fitLo inside greatest
      dsimp only
      have most : ∀ k ≤ text.length, IsBoundary isContinuation text k → fitsAt k = true →
          k ≤ utf8Boundary text lo := by
        intro k within isBoundary fit
        have cut : k < text.length := lt_of_le_of_ne within fun whole => notAll (whole ▸ fit)
        have same : utf8Boundary text k = k :=
          ((boundary_le text _).trans (min_le_left ..)).antisymm
            (le_boundary isBoundary (le_min le_rfl within))
        have found := greatest k (by omega) ((congrArg fitsAt same).trans fit)
        exact le_boundary isBoundary (le_min found within)
      split
      · rename_i found
        exact ⟨utf8Boundary_le text lo, settled lo, .inr found.2, most⟩
      · rename_i nothing
        refine ⟨Nat.zero_le _, .inl rfl, .inl rfl, fun k within isBoundary fit => ?_⟩
        by_contra some_
        have reach := most k within isBoundary fit
        refine nothing ⟨by omega, fitLo.resolve_left ?_⟩
        rintro rfl
        exact absurd reach some_

theorem Longest.le_of {text : Bytes} {fitsAt : ℕ → Bool} {n n' : ℕ}
    (longest : Longest text fitsAt n) (longest' : Longest text fitsAt n') : n ≤ n' := by
  rcases longest.fits with rfl | fit
  · exact Nat.zero_le _
  · exact longest'.greatest n longest.le longest.boundary fit

theorem Longest.unique {text : Bytes} {fitsAt : ℕ → Bool} {n n' : ℕ}
    (longest : Longest text fitsAt n) (longest' : Longest text fitsAt n') : n = n' :=
  Nat.le_antisymm (longest.le_of longest') (longest'.le_of longest)

/-! ## Parts of the texts -/

/-- The context up to a position, with its ellipsis when cut. -/
def contextPart (context : Bytes) (k : ℕ) : Bytes := if k = 0 then [] else clipped context k

/-- The conversation from a position on, with its ellipsis when cut. -/
def historyPart (history : Bytes) (start : ℕ) : Bytes :=
  if start = 0 then history else ellipsis ++ history.drop start

variable (rag : RAGInference)

/-- The conversation from a position on fits behind the context. -/
def suffixFits (query ctx history : Bytes) (start : ℕ) : Prop :=
  rag.countTokens (rag.buildAugmentedPrompt query ctx (historyPart history start)) ≤ rag.maxSeq

/-- A longer context prefix or a longer history suffix, cut on a boundary, never counts fewer
tokens, and no part counts more than any. -/
structure NeverFewer (query context history : Bytes) : Prop where
  alone : ∀ k k', k ≤ k' → k' < context.length → IsBoundary isContinuation context k →
    IsBoundary isContinuation context k' →
      rag.countTokens (clipped context k) ≤ rag.countTokens (clipped context k')
  inPrompt : ∀ k k', k ≤ k' → k' < context.length → IsBoundary isContinuation context k →
    IsBoundary isContinuation context k' →
      rag.countTokens (rag.buildAugmentedPrompt query (clipped context k) []) ≤
        rag.countTokens (rag.buildAugmentedPrompt query (clipped context k') [])
  someContext : ∀ k ≤ context.length, IsBoundary isContinuation context k →
    rag.countTokens (rag.buildAugmentedPrompt query [] []) ≤
      rag.countTokens (rag.buildAugmentedPrompt query (clipped context k) [])
  suffix : ∀ k start start', 0 < start → start ≤ start' → start' ≤ history.length →
    IsBoundary isContinuation history start → IsBoundary isContinuation history start' →
      rag.countTokens (rag.buildAugmentedPrompt query (contextPart context k)
        (historyPart history start')) ≤
          rag.countTokens (rag.buildAugmentedPrompt query (contextPart context k)
            (historyPart history start))
  someHistory : ∀ k, ∀ start < history.length, IsBoundary isContinuation history start →
    rag.countTokens (rag.buildAugmentedPrompt query (contextPart context k) []) ≤
      rag.countTokens (rag.buildAugmentedPrompt query (contextPart context k)
        (historyPart history start))

/-- The longest suffix of the conversation that fits. -/
structure LongestSuffix (query ctx history : Bytes) (start : ℕ) : Prop where
  le : start ≤ history.length
  boundary : IsBoundary isContinuation history start
  fits : start = history.length ∨ rag.suffixFits query ctx history start
  least : ∀ start' < history.length, IsBoundary isContinuation history start' →
    rag.suffixFits query ctx history start' → start ≤ start'

/-! ## What is kept -/

def keptContext (query context : Bytes) : Bytes :=
  if rag.countTokens (rag.buildAugmentedPrompt query [] []) ≥ rag.maxSeq then []
  else rag.fittingContext query context

def keptHistory (query context history : Bytes) : Bytes :=
  if rag.countTokens (rag.buildAugmentedPrompt query [] []) ≥ rag.maxSeq then []
  else rag.fittingHistory query (rag.fittingContext query context) history

theorem buildBudgetedPrompt_eq (query context history : Bytes) :
    rag.buildBudgetedPrompt query context history = rag.buildAugmentedPrompt query
      (rag.keptContext query context) (rag.keptHistory query context history) := by
  unfold buildBudgetedPrompt keptContext keptHistory
  dsimp only
  split
  · rfl
  · rfl

/-- The context kept is the longest prefix that fits both budgets, and the history kept the
longest suffix that fits behind it; of a suffix without a byte the ellipsis may be kept. -/
def BudgetUsed (query context history : Bytes) : Prop :=
  (∃ k, Longest context (rag.contextFits query context) k ∧
      rag.keptContext query context = contextPart context k) ∧
    ∃ start, rag.LongestSuffix query (rag.keptContext query context) history start ∧
      (rag.keptHistory query context history = historyPart history start ∨
        start = history.length ∧ rag.keptHistory query context history = [])

/-- A boundary from the front leads to the position: counted from the end, it is the position
or inside the character in front of it. -/
def Reached (history : Bytes) (start : ℕ) : Prop :=
  ∃ n, 0 < n ∧ n < history.length ∧ IsBoundary isContinuation history n ∧
    nextBoundary isContinuation history (history.length - n) = start

/-- If the question fills the budget, no part fits; and if there is room, the longest suffix
that fits is reached, if it is some of the conversation and not all. -/
structure FindsAll (query context history : Bytes) : Prop where
  full : rag.countTokens (rag.buildAugmentedPrompt query [] []) = rag.maxSeq →
    (∀ k, 0 < k → k ≤ context.length → IsBoundary isContinuation context k →
      rag.contextFits query context k = false) ∧
    ∀ start < history.length, IsBoundary isContinuation history start →
      ¬ rag.suffixFits query [] history start
  room : rag.countTokens (rag.buildAugmentedPrompt query [] []) < rag.maxSeq →
    ∀ k, Longest context (rag.contextFits query context) k →
      ∀ start, rag.LongestSuffix query (contextPart context k) history start →
        0 < start → start < history.length → Reached history start

variable {rag} {query context history : Bytes}

/-! ## The context -/

theorem contextFits_shorter (never : rag.NeverFewer query context history) :
    ∀ k k', k ≤ k' → k' < context.length → IsBoundary isContinuation context k →
      IsBoundary isContinuation context k' → rag.contextFits query context k' = true →
        rag.contextFits query context k = true := by
  intro k k' le inside boundary boundary' fits
  obtain ⟨small, room⟩ := Bool.and_eq_true_iff.mp fits
  have alone := never.alone k k' le inside boundary boundary'
  have inPrompt := never.inPrompt k k' le inside boundary boundary'
  exact Bool.and_eq_true_iff.mpr ⟨decide_eq_true (alone.trans (of_decide_eq_true small)),
    decide_eq_true (inPrompt.trans (of_decide_eq_true room))⟩

theorem fittingContext_eq (never : rag.NeverFewer query context history) :
    ∃ k, Longest context (rag.contextFits query context) k ∧
      rag.fittingContext query context = contextPart context k := by
  refine ⟨_, longest_isLongest (contextFits_shorter never), ?_⟩
  have contextRoom := rag.contextRoom
  unfold fittingContext contextPart
  by_cases none : context = []
  · subst none
    rfl
  · rw [if_pos ⟨none, by omega⟩]
    dsimp only
    by_cases zero : longest context (rag.contextFits query context) = 0
    · rw [zero]
      rfl
    · rw [if_pos (Nat.pos_of_ne_zero zero), if_neg zero]

/-! ## The conversation -/

/-- Where the last `n` bytes start, moved to a boundary. -/
def tailStart (history : Bytes) (n : ℕ) : ℕ :=
  if n ≥ history.length then 0 else nextBoundary isContinuation history (history.length - n)

theorem tail_eq (history : Bytes) (n : ℕ) :
    tail history n = historyPart history (tailStart history n) := by
  unfold tail historyPart tailStart
  by_cases whole : n ≥ history.length
  · rw [if_pos whole, if_pos whole, if_pos rfl]
  · have moved : history.length - n ≤ nextBoundary isContinuation history (history.length - n) :=
      le_nextBoundary ..
    rw [if_neg whole, if_neg whole, if_neg (by omega), drop_nextBoundary]

theorem historyFits_iff {ctx : Bytes} {n : ℕ} :
    rag.historyFits query ctx history n = true ↔
      rag.suffixFits query ctx history (tailStart history n) := by
  unfold historyFits suffixFits
  rw [decide_eq_true_iff, tail_eq]

theorem tailStart_of_lt {n : ℕ} (cut : n < history.length) :
    0 < tailStart history n ∧ tailStart history n ≤ history.length ∧
      IsBoundary isContinuation history (tailStart history n) := by
  unfold tailStart
  rw [if_neg (by omega)]
  have moved : history.length - n ≤ nextBoundary isContinuation history (history.length - n) :=
    le_nextBoundary ..
  exact ⟨by omega, nextBoundary_le_length (by omega), nextBoundary_isBoundary ..⟩

theorem historyFits_shorter (never : rag.NeverFewer query context history) (j : ℕ) :
    ∀ n n', n ≤ n' → n' < history.length → IsBoundary isContinuation history n →
      IsBoundary isContinuation history n' →
        rag.historyFits query (contextPart context j) history n' = true →
          rag.historyFits query (contextPart context j) history n = true := by
  intro n n' le inside _ _ fits
  rw [historyFits_iff] at fits ⊢
  obtain ⟨positive', within', boundary'⟩ := tailStart_of_lt inside
  obtain ⟨positive, within, boundary⟩ := tailStart_of_lt (le.trans_lt inside)
  have ordered : tailStart history n' ≤ tailStart history n := by
    unfold tailStart
    rw [if_neg (by omega), if_neg (by omega)]
    exact nextBoundary_mono (by omega) (by omega)
  exact (never.suffix j _ _ positive' ordered within boundary' boundary).trans fits

/-- The search over the conversation settles on the longest suffix that a boundary from the
front leads to. -/
theorem fittingHistory_eq (never : rag.NeverFewer query context history) (j : ℕ) :
    ∃ n, Longest history (rag.historyFits query (contextPart context j) history) n ∧
      rag.fittingHistory query (contextPart context j) history =
        if n = 0 then [] else historyPart history (tailStart history n) := by
  refine ⟨_, longest_isLongest (historyFits_shorter never j), ?_⟩
  unfold fittingHistory
  by_cases none : history = []
  · subst none
    rfl
  · rw [if_pos none]
    dsimp only
    by_cases zero : longest history (rag.historyFits query (contextPart context j) history) = 0
    · rw [zero]
      rfl
    · rw [if_pos (Nat.pos_of_ne_zero zero), if_neg zero, tail_eq]

theorem LongestSuffix.le_of {ctx : Bytes} {start start' : ℕ}
    (longest : rag.LongestSuffix query ctx history start)
    (longest' : rag.LongestSuffix query ctx history start') : start ≤ start' := by
  rcases longest'.fits with rfl | fit
  · exact longest.le
  · rcases Nat.lt_or_eq_of_le longest'.le with cut | rfl
    · exact longest.least start' cut longest'.boundary fit
    · exact longest.le

theorem LongestSuffix.unique {ctx : Bytes} {start start' : ℕ}
    (longest : rag.LongestSuffix query ctx history start)
    (longest' : rag.LongestSuffix query ctx history start') : start = start' :=
  Nat.le_antisymm (longest.le_of longest') (longest'.le_of longest)

open Classical in
theorem exists_longestSuffix (rag : RAGInference) (query ctx history : Bytes) :
    ∃ start, rag.LongestSuffix query ctx history start := by
  by_cases found : ∃ start, start < history.length ∧ IsBoundary isContinuation history start ∧
      rag.suffixFits query ctx history start
  · obtain ⟨cut, boundary, fits⟩ := Nat.find_spec found
    exact ⟨Nat.find found, cut.le, boundary, .inr fits, fun start' cut' boundary' fits' =>
      Nat.find_min' found ⟨cut', boundary', fits'⟩⟩
  · refine ⟨history.length, le_rfl, length_isBoundary history, .inl rfl, ?_⟩
    intro start cut boundary fits
    exact absurd ⟨start, cut, boundary, fits⟩ found

theorem historyPart_inj {start start' : ℕ} (positive : 0 < start) (positive' : 0 < start')
    (inside : start ≤ history.length) (inside' : start' ≤ history.length)
    (same : historyPart history start = historyPart history start') : start = start' := by
  unfold historyPart at same
  rw [if_neg (by omega), if_neg (by omega)] at same
  have sizes := congrArg List.length (List.append_cancel_left same)
  rw [List.length_drop, List.length_drop] at sizes
  omega

/-- The longest suffix that fits is kept exactly if it is reached. -/
theorem fittingHistory_longest_iff (never : rag.NeverFewer query context history) (j : ℕ) :
    (∃ start, rag.LongestSuffix query (contextPart context j) history start ∧
      (rag.fittingHistory query (contextPart context j) history = historyPart history start ∨
        start = history.length ∧
          rag.fittingHistory query (contextPart context j) history = [])) ↔
    ∀ start, rag.LongestSuffix query (contextPart context j) history start →
      0 < start → start < history.length → Reached history start := by
  obtain ⟨n, longest, kept⟩ := fittingHistory_eq never j
  rw [kept]
  have whole (all : n = history.length) (some_ : 0 < history.length) :
      rag.suffixFits query (contextPart context j) history 0 := by
    have fits := longest.fits.resolve_left (by omega)
    rw [historyFits_iff, tailStart, if_pos all.ge] at fits
    exact fits
  constructor
  · rintro ⟨start, isLongest, is⟩ start' isLongest' positive cut
    obtain rfl := isLongest.unique isLongest'
    have part := is.resolve_right fun none => absurd none.1 (Nat.ne_of_lt cut)
    have apart : historyPart history start ≠ [] := by
      rw [historyPart, if_neg (by omega)]
      exact List.cons_ne_nil _ _
    by_cases zero : n = 0
    · rw [if_pos zero] at part
      exact absurd part.symm apart
    · rw [if_neg zero] at part
      have shorter : n < history.length := by
        refine lt_of_le_of_ne longest.le fun all => ?_
        exact absurd (isLongest.least 0 (by omega) (.inl rfl) (whole all (by omega))) (by omega)
      obtain ⟨moved, within, -⟩ := tailStart_of_lt shorter
      have same := historyPart_inj moved positive within cut.le part
      rw [tailStart, if_neg (by omega)] at same
      exact ⟨n, Nat.pos_of_ne_zero zero, shorter, longest.boundary, same⟩
  · intro reached
    obtain ⟨start, isLongest⟩ := exists_longestSuffix rag query (contextPart context j) history
    refine ⟨start, isLongest, ?_⟩
    rcases Nat.eq_zero_or_pos start with rfl | positive
    · -- the whole conversation fits, and the search tests it first
      rcases Nat.eq_zero_or_pos history.length with empty | some_
      · obtain rfl : n = 0 := by
          have := longest.le
          omega
        exact .inr ⟨empty.symm, if_pos rfl⟩
      · have fits := isLongest.fits.resolve_left (by omega)
        have found : rag.historyFits query (contextPart context j) history history.length = true := by
          rw [historyFits_iff, tailStart, if_pos le_rfl]
          exact fits
        have all : n = history.length := longest.le.antisymm
          (longest.greatest _ le_rfl (length_isBoundary history) found)
        rw [if_neg (by omega), tailStart, if_pos all.ge]
        exact .inl rfl
    · have notWhole : n ≠ history.length := fun all => by
        have inside := isLongest.le
        exact absurd (isLongest.least 0 (by omega) (.inl rfl) (whole all (by omega))) (by omega)
      have shorter : n < history.length := lt_of_le_of_ne longest.le notWhole
      obtain ⟨-, within, boundary⟩ := tailStart_of_lt shorter
      rcases Nat.lt_or_eq_of_le isLongest.le with cut | rfl
      · obtain ⟨m, some_, mCut, mBoundary, leads⟩ := reached start isLongest positive cut
        have found : rag.historyFits query (contextPart context j) history m = true := by
          rw [historyFits_iff, tailStart, if_neg (by omega), leads]
          exact isLongest.fits.resolve_left (by omega)
        have most := longest.greatest m mCut.le mBoundary found
        have fits := longest.fits.resolve_left (by omega)
        rw [historyFits_iff] at fits
        have first : tailStart history n ≤ start := by
          rw [tailStart, if_neg (by omega), ← leads]
          exact nextBoundary_mono (by omega) (by omega)
        have last := isLongest.least _ (first.trans_lt cut) boundary fits
        rw [if_neg (by omega), first.antisymm last]
        exact .inl rfl
      · -- nothing fits, and at most the ellipsis is kept
        by_cases zero : n = 0
        · exact .inr ⟨rfl, if_pos zero⟩
        · have fits := longest.fits.resolve_left zero
          rw [historyFits_iff] at fits
          have last : tailStart history n = history.length := by
            refine within.antisymm (Nat.le_of_not_lt fun cut => ?_)
            exact absurd (isLongest.least _ cut boundary fits) (Nat.not_le_of_lt cut)
          rw [if_neg zero, last]
          exact .inl rfl

/-! ## Both -/

theorem contextPart_ne_nil {k : ℕ} (positive : 0 < k) (inside : k ≤ context.length) :
    contextPart context k ≠ [] := by
  rw [contextPart, if_neg (by omega), clipped]
  split
  · exact List.length_pos_iff.mp (by omega)
  · exact List.append_ne_nil_of_right_ne_nil _ (List.cons_ne_nil _ _)

/-- Where the question takes all of the budget, nothing is kept. -/
theorem budgetUsed_of_question
    (question : rag.countTokens (rag.buildAugmentedPrompt query [] []) ≥ rag.maxSeq) :
    rag.BudgetUsed query context history ↔
      (∀ k, 0 < k → k ≤ context.length → IsBoundary isContinuation context k →
        rag.contextFits query context k = false) ∧
      ∀ start < history.length, IsBoundary isContinuation history start →
        ¬ rag.suffixFits query [] history start := by
  unfold BudgetUsed keptContext keptHistory
  rw [if_pos question, if_pos question]
  constructor
  · rintro ⟨⟨k, longest, none⟩, start, isLongest, part⟩
    obtain rfl : k = 0 := by
      by_contra some_
      exact contextPart_ne_nil (Nat.pos_of_ne_zero some_) longest.le none.symm
    have last : start = history.length := by
      rcases part with part | ⟨last, -⟩
      · unfold historyPart at part
        split at part
        · rename_i zero
          rw [zero, ← part]
          rfl
        · exact absurd part (List.cons_ne_nil _ _).symm
      · exact last
    refine ⟨fun k positive inside boundary => ?_, fun start' cut boundary fits => ?_⟩
    · rw [← Bool.not_eq_true]
      exact fun fits => absurd (longest.greatest k inside boundary fits) (by omega)
    · exact absurd (isLongest.least start' cut boundary fits) (by omega)
  · rintro ⟨noContext, noHistory⟩
    refine ⟨⟨0, ⟨Nat.zero_le _, .inl rfl, .inl rfl, fun k inside boundary fits => ?_⟩, rfl⟩,
      history.length, ⟨le_rfl, length_isBoundary history, .inl rfl, ?_⟩, .inr ⟨rfl, rfl⟩⟩
    · by_contra positive
      rw [noContext k (by omega) inside boundary] at fits
      cases fits
    · intro start cut boundary fits
      exact absurd fits (noHistory start cut boundary)

theorem nothing_fits (never : rag.NeverFewer query context history)
    (question : rag.maxSeq < rag.countTokens (rag.buildAugmentedPrompt query [] [])) :
    (∀ k, 0 < k → k ≤ context.length → IsBoundary isContinuation context k →
      rag.contextFits query context k = false) ∧
    ∀ start < history.length, IsBoundary isContinuation history start →
      ¬ rag.suffixFits query [] history start := by
  refine ⟨fun k _ inside boundary => ?_, fun start cut boundary fits => ?_⟩
  · have more := never.someContext k inside boundary
    rw [← Bool.not_eq_true]
    intro fits
    have room := of_decide_eq_true (Bool.and_eq_true_iff.mp fits).2
    omega
  · have more := never.someHistory 0 start cut boundary
    change rag.countTokens (rag.buildAugmentedPrompt query [] []) ≤
      rag.countTokens (rag.buildAugmentedPrompt query [] (historyPart history start)) at more
    exact absurd (more.trans fits) (Nat.not_le_of_lt question)

end RAGInference

open RAGInference

/-- If a longer part never counts fewer tokens, the context kept is the longest prefix that fits
and the history kept the longest suffix that fits behind it, exactly if no part fits beside a
question that fills the budget alone, and otherwise a boundary from the front of the
conversation leads to the longest suffix that fits. -/
theorem budget_used_iff (rag : RAGInference) {query context history : Bytes}
    (never : rag.NeverFewer query context history) :
    rag.BudgetUsed query context history ↔ rag.FindsAll query context history := by
  by_cases question : rag.countTokens (rag.buildAugmentedPrompt query [] []) ≥ rag.maxSeq
  · rw [budgetUsed_of_question question]
    rcases Nat.lt_or_eq_of_le question with more | same
    · exact ⟨fun _ => ⟨fun equal => by omega, fun less => by omega⟩, fun _ => nothing_fits never more⟩
    · exact ⟨fun none => ⟨fun _ => none, fun less => by omega⟩, fun finds => finds.full same.symm⟩
  · obtain ⟨j, longest, context_⟩ := fittingContext_eq never
    have history_ := fittingHistory_longest_iff never j
    unfold BudgetUsed keptContext keptHistory
    rw [if_neg question, if_neg question, context_, history_]
    constructor
    · rintro ⟨-, reached⟩
      refine ⟨fun equal => absurd equal.ge question, fun _ k longest' start => ?_⟩
      obtain rfl := longest.unique longest'
      exact reached start
    · intro finds
      exact ⟨⟨j, longest, rfl⟩, finds.room (by omega) j longest⟩

/-! ## A counter that passes over dots -/

theorem one_le_maxContextLength : (1 : Int) ≤ 512 := by decide

/-- A model whose tokens are the bytes but dots, with empty prefixes. -/
def dotless (maxSeqLength : Int) : RAGInference where
  config := ⟨[], [], [], 512⟩
  maxSeqLength := maxSeqLength
  encodedSize := List.countP (· != 0x2E)
  contextRoom := one_le_maxContextLength

section Dotless

variable (maxSeqLength : Int) {context : Bytes}

theorem countTokens_dotless (text : Bytes) :
    (dotless maxSeqLength).countTokens text = text.countP (· != 0x2E) := by
  unfold countTokens
  split
  · rename_i empty
    rw [empty]
    rfl
  · rfl

theorem countTokens_dotless_prompt (query ctx history : Bytes) :
    (dotless maxSeqLength).countTokens
        ((dotless maxSeqLength).buildAugmentedPrompt query ctx history) =
      ctx.countP (· != 0x2E) + (history.countP (· != 0x2E) + query.countP (· != 0x2E)) := by
  rw [countTokens_dotless, buildAugmentedPrompt]
  by_cases noContext : ctx = [] <;> by_cases noHistory : history = [] <;>
    simp [noContext, noHistory, dotless, List.countP_append]

theorem countP_clipped (k : ℕ) :
    (clipped context k).countP (· != 0x2E) = (context.take k).countP (· != 0x2E) := by
  unfold clipped
  split
  · rename_i whole
    rw [List.take_of_length_le whole]
  · rw [List.countP_append]
    rfl

theorem countP_historyPart (history : Bytes) (start : ℕ) :
    (historyPart history start).countP (· != 0x2E) =
      (history.drop start).countP (· != 0x2E) := by
  unfold historyPart
  split
  · rename_i whole
    rw [whole]
    rfl
  · rw [List.countP_append]
    exact Nat.zero_add _

/-- Longer parts never count fewer tokens, whole texts among them. -/
theorem dotless_neverFewer (query context history : Bytes) :
    (dotless maxSeqLength).NeverFewer query context history := by
  have front {k k' : ℕ} (le : k ≤ k') :
      (context.take k).countP (· != 0x2E) ≤ (context.take k').countP (· != 0x2E) :=
    (List.take_sublist_take_left le).countP_le
  have back {start start' : ℕ} (le : start ≤ start') :
      (history.drop start').countP (· != 0x2E) ≤ (history.drop start).countP (· != 0x2E) :=
    (List.drop_sublist_drop_left history le).countP_le
  constructor
  · intro k k' le _ _ _
    rw [countTokens_dotless, countTokens_dotless, countP_clipped, countP_clipped]
    exact front le
  · intro k k' le _ _ _
    rw [countTokens_dotless_prompt, countTokens_dotless_prompt, countP_clipped, countP_clipped]
    exact Nat.add_le_add_right (front le) _
  · intro k _ _
    rw [countTokens_dotless_prompt, countTokens_dotless_prompt]
    exact Nat.add_le_add_right (Nat.zero_le _) _
  · intro k start start' _ le _ _ _
    rw [countTokens_dotless_prompt, countTokens_dotless_prompt, countP_historyPart,
      countP_historyPart]
    exact Nat.add_le_add_left (Nat.add_le_add_right (back le) _) _
  · intro k start _ _
    rw [countTokens_dotless_prompt, countTokens_dotless_prompt]
    exact Nat.add_le_add_left (Nat.add_le_add_right (Nat.zero_le _) _) _

end Dotless

theorem budget_used_iff_ascii : (dotless 2).BudgetUsed [0x71] [0x62] [0x61] ↔
    (dotless 2).FindsAll [0x71] [0x62] [0x61] :=
  budget_used_iff (dotless 2) (dotless_neverFewer 2 [0x71] [0x62] [0x61])

/-- "éabc". -/
def accented : Bytes := [0xC3, 0xA9, 0x61, 0x62, 0x63]

theorem fittingHistory_accented : (dotless 2).fittingHistory [0x71] [] accented = [] := by
  have nothing : longest accented ((dotless 2).historyFits [0x71] [] accented) = 0 := by
    have stops : halve (fun mid => (dotless 2).historyFits [0x71] [] accented
        (utf8Boundary accented mid)) 0 (accented.length - 1) = 1 := by
      rw [halve, if_pos (by decide), if_neg (by decide), halve, if_pos (by decide),
        if_pos (by decide), halve, if_neg (by decide)]
      rfl
    unfold longest
    rw [if_neg (by decide), if_neg (by decide), stops]
    rfl
  unfold fittingHistory
  rw [if_pos (by decide), nothing]
  rfl

/-- The last letter fits behind the question, and nothing is kept. -/
theorem budget_not_used :
    ¬ ∀ (rag : RAGInference) (query context history : Bytes),
      rag.NeverFewer query context history → rag.BudgetUsed query context history := by
  intro all
  obtain ⟨-, start, isLongest, part⟩ :=
    all (dotless 2) [0x71] [] accented (dotless_neverFewer 2 _ _ _)
  have noContext : (dotless 2).keptContext [0x71] [] = [] := rfl
  have noHistory : (dotless 2).keptHistory [0x71] [] accented = [] :=
    (if_neg (by decide)).trans fittingHistory_accented
  rw [noContext] at isLongest
  have fits : (dotless 2).suffixFits [0x71] [] accented 4 := by
    unfold suffixFits
    decide
  have least := isLongest.least 4 (by decide) (.inr fun c is => by
    obtain rfl := Option.some.inj is
    rfl) fits
  rw [noHistory] at part
  rcases part with part | ⟨last, -⟩
  · unfold historyPart at part
    split at part
    · cases part
    · cases part
  · rw [last] at least
    exact absurd least (by decide)

end Adai.Retrieval
