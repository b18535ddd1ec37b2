import Mathlib.Algebra.Order.Field.Basic
import Mathlib.Analysis.SpecialFunctions.Pow.Real
import Adai.Decoding.BeamStep
import Adai.Decoding.TextGenerator

/-! # Early stopping is exact

A running beam's score only falls, so its score over the largest length penalty that it can
still get bounds every final score it can lead to. Beam search stops early when no such
bound is above the best finished beam, and then it returns what it would return without
stopping (`Adai.Decoding.TextGenerator.early_stopping_exact`). All that is asked of the
length penalty is what the rule relies on (`StopRuleHolds`); the formula with a real power
has it for every exponent.
-/

namespace Adai.Decoding.TextGenerator

open BoundedSearch

variable {σ K : Type} [Field K] [LinearOrder K] (lib : Library σ K) (config : GenerationConfig K)
  (model : List Int → Matrix K)

/-! ## The flag is read by the rule only -/

theorem candidatesFrom_earlyStopping (flag : Bool) (numBeams step beamIdx : Nat)
    (beams : List (BeamHypothesis K)) :
    candidatesFrom lib { config with earlyStopping := flag } model numBeams step beamIdx beams =
      candidatesFrom lib config model numBeams step beamIdx beams := by
  induction beams generalizing beamIdx with
  | nil => rfl
  | cons beam rest ih =>
      rw [candidatesFrom, candidatesFrom, ih]
      rfl

theorem selectBeams_earlyStopping (flag : Bool) (numBeams finalLength : Nat)
    (beams : List (BeamHypothesis K)) (candidates : List (Candidate K))
    (finished newBeams : List (BeamHypothesis K)) :
    selectBeams lib { config with earlyStopping := flag } numBeams finalLength beams candidates
        finished newBeams =
      selectBeams lib config numBeams finalLength beams candidates finished newBeams := by
  induction candidates generalizing finished newBeams with
  | nil => rfl
  | cons candidate rest ih =>
      simp only [selectBeams, ih]
      rfl

theorem beamSearch_earlyStopping (flag : Bool) (numBeams finalLength : Nat) :
    beamSearch lib { config with earlyStopping := flag } model numBeams finalLength =
      beamSearch lib config model numBeams finalLength := by
  have step : beamStep lib { config with earlyStopping := flag } model numBeams finalLength =
      beamStep lib config model numBeams finalLength := by
    funext step beams
    simp only [beamStep, candidatesFrom_earlyStopping, selectBeams_earlyStopping]
  unfold beamSearch
  rw [step]
  rfl

omit [Field K] [LinearOrder K] in
theorem tokenLoop_earlyStopping (flag : Bool) (pick : Pick σ K) (left step : Nat)
    (generated : List Int) (s : σ) :
    tokenLoop { config with earlyStopping := flag } model pick left step generated s =
      tokenLoop config model pick left step generated s := by
  induction left generalizing step generated s with
  | zero => rfl
  | succ left ih =>
      simp only [tokenLoop, ih]
      rfl

theorem generateGreedy_earlyStopping (flag : Bool) (promptTokens : List Int) (s : σ) :
    generateGreedy { config with earlyStopping := flag } model promptTokens s =
      generateGreedy config model promptTokens s :=
  tokenLoop_earlyStopping config model flag _ _ _ _ s

/-! ## The bound of the rule -/

/-- What the rule asks of the length penalty: it is positive, and between two lengths it is
never above what it is at both. -/
structure StopRuleHolds : Prop where
  positive : ∀ length, 0 < computeLengthPenalty lib config length
  between : ∀ short length long, short ≤ length → length ≤ long →
    computeLengthPenalty lib config length ≤
      max (computeLengthPenalty lib config short) (computeLengthPenalty lib config long)

variable {lib config model}

theorem stopRuleHolds_of_monotone (positive : ∀ length, 0 < computeLengthPenalty lib config length)
    (grows : Monotone (computeLengthPenalty lib config)) : StopRuleHolds lib config :=
  ⟨positive, fun _ _ _ _ below => (grows below).trans (le_max_right _ _)⟩

theorem stopRuleHolds_of_antitone (positive : ∀ length, 0 < computeLengthPenalty lib config length)
    (falls : Antitone (computeLengthPenalty lib config)) : StopRuleHolds lib config :=
  ⟨positive, fun _ _ _ above _ => (falls above).trans (le_max_left _ _)⟩

/-- The rule holds for the real power, with a positive or a negative exponent. -/
theorem stopRuleHolds_of_rpow {lib : Library σ ℝ} (power : ∀ x a, lib.pow x a = x ^ a)
    (config : GenerationConfig ℝ) : StopRuleHolds lib config := by
  have base (length : ℕ) : (0 : ℝ) < ((5 + length : ℕ) : ℝ) / ((6 : ℕ) : ℝ) := by positivity
  have grows {short long : ℕ} (le : short ≤ long) :
      ((5 + short : ℕ) : ℝ) / ((6 : ℕ) : ℝ) ≤ ((5 + long : ℕ) : ℝ) / ((6 : ℕ) : ℝ) := by
    gcongr
  have positive (length : ℕ) : 0 < computeLengthPenalty lib config length := by
    rw [computeLengthPenalty, power]
    exact Real.rpow_pos_of_pos (base length) _
  rcases le_total 0 config.lengthPenaltyAlpha with up | down
  · apply stopRuleHolds_of_monotone positive
    intro short long le
    simp only [computeLengthPenalty, power]
    exact Real.rpow_le_rpow (base short).le (grows le) up
  · apply stopRuleHolds_of_antitone positive
    intro short long le
    simp only [computeLengthPenalty, power]
    exact Real.rpow_le_rpow_of_nonpos (base short) (grows le) down

variable [IsStrictOrderedRing K]

/-- A negative score is better over a larger penalty. -/
theorem div_le_div_of_nonpos {score short long : K} (low : score ≤ 0) (positive : 0 < short)
    (le : short ≤ long) : score / short ≤ score / long :=
  (div_le_div_iff₀ positive (positive.trans_le le)).mpr (mul_le_mul_of_nonpos_left le low)

/-- A final score is within the bound. -/
theorem normalized_le_bestFinalScore
    (holds : config.lengthPenalty = true → StopRuleHolds lib config)
    {beam : BeamHypothesis K} (low : beam.score ≤ 0) (finalLength : Nat) :
    normalized lib config beam.score beam.tokens.length ≤
      bestFinalScore lib config finalLength beam := by
  unfold normalized bestFinalScore
  split
  · rename_i penalized
    exact div_le_div_of_nonpos low ((holds penalized).positive _) (le_max_left _ _)
  · exact le_refl _

/-- With one token more the bound is no higher. -/
theorem bestFinalScore_le_of_descends
    (holds : config.lengthPenalty = true → StopRuleHolds lib config)
    {parent child : BeamHypothesis K} (low : parent.score ≤ 0) (descends : Descends parent child)
    {finalLength : Nat} (short : parent.tokens.length < finalLength) :
    bestFinalScore lib config finalLength child ≤ bestFinalScore lib config finalLength parent := by
  unfold bestFinalScore
  split
  · rename_i penalized
    obtain ⟨positive, between⟩ := holds penalized
    have largest : max (computeLengthPenalty lib config child.tokens.length)
        (computeLengthPenalty lib config finalLength) ≤
        max (computeLengthPenalty lib config parent.tokens.length)
          (computeLengthPenalty lib config finalLength) := by
      rw [descends.length]
      exact max_le (between _ _ _ (Nat.le_succ _) short) (le_max_right _ _)
    have above := (positive child.tokens.length).trans_le
      (le_max_left _ (computeLengthPenalty lib config finalLength))
    exact (div_le_div_of_nonneg_right descends.2 above.le).trans
      (div_le_div_of_nonpos low above largest)
  · exact descends.2

/-! ## The rule is exact -/

/-- The beams behind so many steps: scores below zero, one token for each step, and not
full. -/
def Running (start finalLength n : Nat) (beams : List (BeamHypothesis K)) : Prop :=
  ∀ beam ∈ beams, beam.score ≤ 0 ∧ beam.tokens.length = start + n ∧
    beam.tokens.length < finalLength

/-- No beam has a bound above `k`. -/
def NoneAbove (lib : Library σ K) (config : GenerationConfig K) (finalLength : Nat) (k : K)
    (_ : Nat) (beams : List (BeamHypothesis K)) : Prop :=
  ∀ beam ∈ beams, bestFinalScore lib config finalLength beam ≤ k

omit [Field K] [IsStrictOrderedRing K] in
/-- The largest of the scores is one of them. -/
theorem foldl_max_score (beams : List (BeamHypothesis K)) (best : Score K) :
    beams.foldl (fun best beam => Score.max best (.finite beam.score)) best = best ∨
      ∃ beam ∈ beams, beams.foldl (fun best beam => Score.max best (.finite beam.score)) best =
        .finite beam.score := by
  induction beams generalizing best with
  | nil => exact .inl rfl
  | cons beam rest ih =>
      rw [List.foldl_cons]
      rcases ih (Score.max best (.finite beam.score)) with same | ⟨other, member, is⟩
      · rw [same, Score.max]
        split
        · exact .inr ⟨beam, List.mem_cons_self, rfl⟩
        · exact .inl rfl
      · exact .inr ⟨other, List.mem_cons_of_mem _ member, is⟩

omit [IsStrictOrderedRing K] in
/-- The rule stops when one finished beam is as good as every bound. -/
theorem noneAbove_of_noneCanWin {finalLength n : Nat} {finished beams : List (BeamHypothesis K)}
    (stops : noneCanWin lib config finalLength finished beams = true) :
    ∃ best ∈ finished, NoneAbove lib config finalLength best.score n beams := by
  cases finished with
  | nil => simp [noneCanWin] at stops
  | cons first rest =>
      simp only [noneCanWin, Bool.and_eq_true, Bool.not_eq_true', List.any_eq_false] at stops
      obtain ⟨_, none⟩ := stops
      have largest := foldl_max_score rest (.finite first.score)
      have start : Score.max .negInf (.finite first.score) = .finite first.score := rfl
      rw [List.foldl_cons, start] at none
      have found : ∃ best ∈ first :: rest, rest.foldl
          (fun best beam => Score.max best (.finite beam.score)) (.finite first.score) =
            .finite best.score := by
        rcases largest with same | ⟨best, member, is⟩
        · exact ⟨first, List.mem_cons_self, same⟩
        · exact ⟨best, List.mem_cons_of_mem _ member, is⟩
      obtain ⟨best, member, is⟩ := found
      refine ⟨best, member, fun beam running => ?_⟩
      have bound := none beam running
      rw [is] at bound
      exact not_lt.mp (by simpa [Score.less] using bound)

theorem noneCanWin_exact (holds : config.lengthPenalty = true → StopRuleHolds lib config)
    (numBeams start finalLength : Nat) :
    Exact (beamSearch lib config model numBeams finalLength) BeamHypothesis.score
      (noneCanWin lib config finalLength) (Running start finalLength)
      (NoneAbove lib config finalLength) where
  inv_round := by
    intro n beams finished next running returned _ beam member
    obtain ⟨short, parent, before, descends⟩ := (beamStep_descends returned).2 beam member
    obtain ⟨low, length, _⟩ := running parent before
    exact ⟨descends.2.trans low, by rw [descends.length, length, Nat.add_assoc], short⟩
  stop_beaten := fun _ stops => noneAbove_of_noneCanWin stops
  beaten_round := by
    intro k n beams finished next running beaten returned
    obtain ⟨ends, goes⟩ := beamStep_descends returned
    constructor
    · intro beam member
      obtain ⟨parent, before, child, descends, rfl⟩ := ends beam member
      obtain ⟨low, _, short⟩ := running parent before
      calc normalized lib config child.score child.tokens.length
          ≤ bestFinalScore lib config finalLength child :=
            normalized_le_bestFinalScore holds (descends.2.trans low) finalLength
        _ ≤ bestFinalScore lib config finalLength parent :=
            bestFinalScore_le_of_descends holds low descends short
        _ ≤ k := beaten parent before
    · intro _ beam member
      obtain ⟨_, parent, before, descends⟩ := goes beam member
      obtain ⟨low, _, short⟩ := running parent before
      exact (bestFinalScore_le_of_descends holds low descends short).trans (beaten parent before)
  beaten_rest := by
    intro k n beams running beaten beam member
    obtain ⟨parent, before, rfl⟩ := List.mem_map.mp member
    exact (normalized_le_bestFinalScore holds (running parent before).1 finalLength).trans
      (beaten parent before)

theorem running_startBeams (numBeams : Nat) (tokens : List Int) {finalLength : Nat}
    (room : tokens.length < finalLength) :
    Running tokens.length finalLength 0 (startBeams (K := K) numBeams tokens) := by
  intro beam member
  rcases List.mem_cons.mp member with rfl | other
  · exact ⟨le_refl _, rfl, room⟩
  · rw [List.eq_of_mem_replicate other]
    exact ⟨neg_nonpos.mpr (Nat.cast_nonneg _), rfl, room⟩

omit [IsStrictOrderedRing K] in
theorem noneCanWin_off (finalLength : Nat) :
    noneCanWin lib { config with earlyStopping := false } finalLength = never := rfl

/-- The finished beams with and without the rule. -/
theorem finishedBeams_earlyStopping
    (holds : config.lengthPenalty = true → StopRuleHolds lib config)
    (promptTokens : List Int) (numBeams : Nat) :
    (∀ all, finishedBeams lib { config with earlyStopping := false } model promptTokens numBeams =
        .ok all →
      ∃ short, finishedBeams lib { config with earlyStopping := true } model promptTokens numBeams =
          .ok short ∧
        firstBest BeamHypothesis.score short = firstBest BeamHypothesis.score all) ∧
      ∀ error, finishedBeams lib { config with earlyStopping := true } model promptTokens numBeams =
          .error error →
        finishedBeams lib { config with earlyStopping := false } model promptTokens numBeams =
          .error error := by
  have on : ({ config with earlyStopping := true } : GenerationConfig K).lengthPenalty = true →
      StopRuleHolds lib { config with earlyStopping := true } := fun penalized =>
    ⟨(holds penalized).positive, (holds penalized).between⟩
  simp only [finishedBeams, noneCanWin_off, beamSearch_earlyStopping lib config model false]
  rw [← beamSearch_earlyStopping lib config model true]
  rcases Nat.eq_zero_or_pos config.maxLength.toNat with none | some_
  · rw [none]
    exact ⟨fun all returned => ⟨all, returned, rfl⟩, fun _ failed => failed⟩
  · exact run_eq_of_exact (noneCanWin_exact on numBeams _ _) _ []
      (running_startBeams numBeams _ (Nat.lt_add_of_pos_right some_))

/-- **Early stopping.** For every model, prompt and beam width, the sequence that beam
search returns without early stopping is the one that it returns with it, and with it the
search fails only as it fails without. -/
theorem early_stopping_exact (holds : config.lengthPenalty = true → StopRuleHolds lib config)
    (promptTokens : List Int) (numBeams : Int) (s : σ) :
    (∀ sequence, generateBeamSearch lib { config with earlyStopping := false } model promptTokens
        numBeams s = .ok sequence →
      generateBeamSearch lib { config with earlyStopping := true } model promptTokens numBeams s =
        .ok sequence) ∧
      ∀ error, generateBeamSearch lib { config with earlyStopping := true } model promptTokens
          numBeams s = .error error →
        generateBeamSearch lib { config with earlyStopping := false } model promptTokens numBeams s =
          .error error := by
  simp only [generateBeamSearch, generateGreedy_earlyStopping]
  generalize (if numBeams = -1 then config.numBeams else numBeams) = width
  by_cases greedy : width = 1
  · simp only [greedy, ↓reduceIte]
    exact ⟨fun _ returned => returned, fun _ failed => failed⟩
  by_cases narrow : width < 1
  · simp only [greedy, narrow, ↓reduceIte]
    exact ⟨fun _ returned => returned, fun _ failed => failed⟩
  simp only [greedy, narrow, ↓reduceIte]
  obtain ⟨same, fails⟩ :=
    finishedBeams_earlyStopping holds promptTokens width.toNat
  constructor
  · intro sequence returned
    cases full : finishedBeams lib { config with earlyStopping := false } model promptTokens
        width.toNat with
    | error error =>
        rw [full] at returned
        cases returned
    | ok all =>
        obtain ⟨short, early, best⟩ := same all full
        rw [full] at returned
        cases returned
        rw [early]
        simp only [bestTokens, best]
        rfl
  · intro error failed
    cases early : finishedBeams lib { config with earlyStopping := true } model promptTokens
        width.toNat with
    | error other =>
        rw [early] at failed
        cases failed
        rw [fails error early]
    | ok short =>
        rw [early] at failed
        cases failed

/-! ## A search that stops early -/

/-- The logarithms of the probabilities one half and zero, with six digits. -/
def roundedLog (x : ℚ) : ℚ := if x < 1 / 2 then -23025851 / 1000000 else -693147 / 1000000

/-- The exponential is asked for zero only, and the power for a natural exponent. -/
def coinLibrary : Library Unit ℚ :=
  stableLibrary (fun x => if x = 0 then 1 else 0) roundedLog fun x a => x ^ a.num.toNat

def coinConfig : GenerationConfig ℚ :=
  { maxLength := 3, temperature := 1, topP := 1, repetitionPenalty := 1, lengthPenaltyAlpha := 1 }

/-- Ends or goes on, with equal probabilities. -/
def coinModel (_ : List Int) : Matrix ℚ := [[.negInf, .finite 0, .negInf, .finite 0]]

theorem stopRuleHolds_coin : StopRuleHolds coinLibrary coinConfig := by
  have penalty (length : Nat) :
      computeLengthPenalty coinLibrary coinConfig length = ((5 + length : ℕ) : ℚ) / ((6 : ℕ) : ℚ) :=
    pow_one _
  apply stopRuleHolds_of_monotone
  · intro length
    rw [penalty]
    positivity
  · intro short long le
    rw [penalty, penalty]
    gcongr

/-- The coin's search stops after two of three steps. -/
theorem early_stopping_exact_coin :
    (finishedBeams coinLibrary { coinConfig with earlyStopping := false } coinModel [] 2).toOption.map
        List.length = some 12 ∧
      (finishedBeams coinLibrary coinConfig coinModel [] 2).toOption.map List.length = some 4 ∧
        generateBeamSearch coinLibrary coinConfig coinModel [] 2 () = .ok ([2, 3], ()) := by
  have evaluated :
      ((finishedBeams coinLibrary { coinConfig with earlyStopping := false } coinModel [] 2).toOption.map
          List.length = some 12 ∧
        (finishedBeams coinLibrary coinConfig coinModel [] 2).toOption.map List.length = some 4) ∧
          generateBeamSearch coinLibrary { coinConfig with earlyStopping := false } coinModel [] 2 () =
            .ok ([2, 3], ()) := by
    decide +kernel
  exact ⟨evaluated.1.1, evaluated.1.2, (early_stopping_exact (fun _ => stopRuleHolds_coin) [] 2 ()).1
    ([2, 3], ()) evaluated.2⟩

end Adai.Decoding.TextGenerator
