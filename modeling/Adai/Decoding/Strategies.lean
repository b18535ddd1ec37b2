import Adai.Decoding.TokenLoop

/-! # The strategies

Behind its defaults and special cases every strategy is one of two: the loop over one
sequence, at a temperature and with filters, or beam search
(`Adai.Decoding.TextGenerator.Strategy.generate_eq`). Greedy decoding is the loop at
temperature zero with filters that keep everything.
-/

namespace Adai.Decoding.TextGenerator

/-! ## Plans -/

/-- The functions that generate. -/
inductive Strategy (K : Type)
  | greedy
  | sampling (temperature : K)
  | topK (k : Int)
  | nucleus (p : K)
  | beamSearch (numBeams : Int)
  | combined

/-- What a strategy comes down to. -/
inductive Plan (K : Type)
  | oneByOne (temperature : K) (k : Int) (p : K)
  | beams (numBeams : Int)

variable {σ K : Type} [Field K] [LinearOrder K] (lib : Library σ K) (config : GenerationConfig K)
  (model : List Int → Matrix K) (promptTokens : List Int) (s : σ)

def Strategy.generate : Strategy K → Except GeneratorError (List Int × σ)
  | .greedy => generateGreedy config model promptTokens s
  | .sampling temperature => generateSampling lib config model promptTokens temperature s
  | .topK k => generateTopK lib config model promptTokens k s
  | .nucleus p => generateNucleus lib config model promptTokens p s
  | .beamSearch numBeams => generateBeamSearch lib config model promptTokens numBeams s
  | .combined => TextGenerator.generate lib config model promptTokens s

/-- The choice of a plan for one sequence, whatever temperature is configured. -/
def planPick (temperature : K) (k : Int) (p : K) : Pick σ K :=
  filteredPick lib { config with temperature } k p

def Plan.generate : Plan K → Except GeneratorError (List Int × σ)
  | .oneByOne temperature k p =>
      generateTokens config model (planPick lib config temperature k p) promptTokens s
  | .beams numBeams =>
      if numBeams < 1 then
        .error (.invalidArgument ("TextGenerator: beam width must be at least 1, got " ++
          toString numBeams))
      else
        match finishedBeams lib config model promptTokens numBeams.toNat with
        | .error error => .error error
        | .ok finished => .ok (bestTokens config promptTokens finished, s)

/-- With the defaults put in. -/
def Strategy.plan : Strategy K → Plan K
  | .greedy => .oneByOne 0 0 1
  | .sampling temperature =>
      let temperature := if temperature = -1 then config.temperature else temperature
      .oneByOne (max temperature 0) 0 1
  | .topK k => .oneByOne config.temperature (if k = -1 then config.topK else k) 1
  | .nucleus p => .oneByOne config.temperature 0 (if p = -1 then config.topP else p)
  | .beamSearch numBeams =>
      let numBeams := if numBeams = -1 then config.numBeams else numBeams
      if numBeams = 1 then .oneByOne 0 0 1 else .beams numBeams
  | .combined =>
      if 1 < config.numBeams then .beams config.numBeams
      else .oneByOne config.temperature config.topK config.topP

/-! ## Strategies follow their plans -/

theorem greedyPick_eq : greedyPick config = planPick lib config 0 0 1 := by
  funext generated logits s
  simp [greedyPick, planPick, filteredPick, filtered, pickAt, applyTemperature, penalized]

theorem samplingPick_eq {temperature : K} (hot : 0 < temperature) :
    samplingPick lib config temperature = planPick lib config temperature 0 1 := by
  funext generated logits s
  simp [samplingPick, planPick, filteredPick, filtered, pickAt, penalized, not_le.mpr hot]

theorem generateGreedy_eq :
    generateGreedy config model promptTokens s =
      (Plan.oneByOne 0 0 1).generate lib config model promptTokens s := by
  rw [generateGreedy, greedyPick_eq lib]
  rfl

theorem generateBeamSearch_eq (numBeams : Int) :
    generateBeamSearch lib config model promptTokens numBeams s =
      ((Strategy.beamSearch numBeams).plan config).generate lib config model promptTokens s := by
  simp only [generateBeamSearch, Strategy.plan]
  generalize (if numBeams = -1 then config.numBeams else numBeams) = width
  by_cases greedy : width = 1
  · rw [if_pos greedy, if_pos greedy]
    exact generateGreedy_eq lib config model promptTokens s
  · rw [if_neg greedy, if_neg greedy]
    rfl

/-- **Plans.** A strategy generates what its plan does. -/
theorem Strategy.generate_eq (strategy : Strategy K) :
    strategy.generate lib config model promptTokens s =
      (strategy.plan config).generate lib config model promptTokens s := by
  cases strategy with
  | greedy => exact generateGreedy_eq lib config model promptTokens s
  | sampling temperature =>
      simp only [Strategy.generate, generateSampling, Strategy.plan]
      generalize (if temperature = -1 then config.temperature else temperature) = actual
      by_cases cold : actual ≤ 0
      · rw [if_pos cold, max_eq_right cold]
        exact generateGreedy_eq lib config model promptTokens s
      · have hot := not_le.mp cold
        rw [if_neg cold, max_eq_left hot.le, samplingPick_eq lib config hot]
        rfl
  | topK k => rfl
  | nucleus p => rfl
  | beamSearch numBeams => exact generateBeamSearch_eq lib config model promptTokens s numBeams
  | combined =>
      simp only [Strategy.generate, TextGenerator.generate, Strategy.plan]
      by_cases wide : 1 < config.numBeams
      · rw [if_pos wide, if_pos wide, generateBeamSearch_eq]
        simp only [Strategy.plan, ↓reduceIte, if_neg (ne_of_gt wide)]
      · rw [if_neg wide, if_neg wide]
        rfl

/-! ## The steps of a plan -/

/-- What beam search has found and the beams that it goes on with, behind so many steps. -/
def BeamsReached (numBeams n : Nat) (found beams : List (BeamHypothesis K)) : Prop :=
  let start := startTokens config promptTokens
  let finalLength := start.length + config.maxLength.toNat
  BoundedSearch.Reached (beamSearch lib config model numBeams finalLength)
    (noneCanWin lib config finalLength) [] (startBeams numBeams start) n found beams

/-- The sequences that a plan takes logits for, with as many new tokens. -/
def Plan.Asks : Plan K → Nat → List Int → Prop
  | .oneByOne temperature k p => fun n tokens => n < config.maxLength.toNat ∧
      ∃ s', TokenReached config model (planPick lib config temperature k p) promptTokens s n tokens s'
  | .beams numBeams => fun n tokens => n < config.maxLength.toNat ∧
      ∃ found beams, BeamsReached lib config model promptTokens numBeams.toNat n found beams ∧
        ∃ beam ∈ beams, beam.tokens = tokens

/-- Some filter drops tokens of a vocabulary. -/
def Filters (k : Int) (p : K) (vocabulary : Nat) : Prop :=
  (0 < k ∧ k < vocabulary) ∨ p < 1

/-- The logits of a step, when they come to the filters. -/
def unfiltered (temperature : K) (generated : List Int) : Logits K :=
  applyTemperature (penalized config generated (maskStops config (lastRow (model generated))))
    temperature

/-- A positive penalty leaves the mask. -/
theorem maskKept_penalized [IsStrictOrderedRing K] (positive : 0 < config.repetitionPenalty)
    {logits : Logits K} (mask : MaskKept config logits) (generated : List Int) :
    MaskKept config (penalized config generated logits) := by
  unfold penalized applyRepetitionPenalty
  split
  · split
    · exact mask
    · intro i v at_ stop
      rw [List.getElem?_mapIdx] at at_
      obtain ⟨w, before, rfl⟩ := Option.map_eq_some_iff.mp at_
      rw [mask i w before stop]
      split
      · have notZero : -config.repetitionPenalty ≠ 0 := neg_ne_zero.mpr positive.ne'
        simp [Score.less, Score.mul, Score.infinite, notZero, positive]
      · rfl
  · exact mask

theorem maskKept_applyTemperature {logits : Logits K} (mask : MaskKept config logits)
    (temperature : K) : MaskKept config (applyTemperature logits temperature) := by
  unfold applyTemperature
  split
  · exact mask
  · rename_i hot
    intro i v at_ stop
    rw [List.getElem?_map] at at_
    obtain ⟨w, before, rfl⟩ := Option.map_eq_some_iff.mp at_
    rw [mask i w before stop, Score.div, if_neg (not_lt.mpr (not_le.mp (not_or.mp hot).1).le)]

/-- The mask gets as far as the filters, if the penalty is positive. -/
theorem maskKept_unfiltered [IsStrictOrderedRing K] (positive : 0 < config.repetitionPenalty)
    (temperature : K) (generated : List Int) :
    MaskKept config (unfiltered config model temperature generated) := by
  apply maskKept_applyTemperature
  apply maskKept_penalized config positive
  exact maskKept_maskStops _

theorem someGoesOn_unfiltered (temperature : K) {generated : List Int}
    (allowed : Allowed config model generated) :
    SomeGoesOn config (unfiltered config model temperature generated) := by
  apply SomeGoesOn.applyTemperature
  obtain ⟨i, a, at_, goesOn⟩ := allowed.masked
  exact someGoesOn_penalized at_ goesOn generated

/-- Filters keep the largest logit, and what they drop has their value for it. -/
theorem filtered_kept [IsStrictOrderedRing K] {lib : Library σ K} (lawful : lib.Lawful) (k : Int)
    (p : K) {top : K} {logits : Logits K} (largest : IsLargest top logits)
    (floor : (dropped : Score K).less (.finite top) = true) :
    let kept := if 0 < k then applyTopK lib logits k else logits
    let kept := if p < 1 then applyTopP lib kept p else kept
    Filtered logits kept ∧ IsLargest top kept := by
  have first : Filtered logits (if 0 < k then applyTopK lib logits k else logits) ∧
      IsLargest top (if 0 < k then applyTopK lib logits k else logits) := by
    split
    · exact applyTopK_kept lib largest floor k
    · exact ⟨filtered_refl logits, largest⟩
  simp only
  by_cases nucleus : p < 1
  · obtain ⟨second, still⟩ := applyTopP_kept lawful first.2 floor p
    rw [if_pos nucleus]
    exact ⟨first.1.trans second, still⟩
  · rw [if_neg nucleus]
    exact first

/-- The choice of a plan goes on where the mask gets through to it. -/
theorem planPick_goesOn [IsStrictOrderedRing K] {lib : Library σ K} (lawful : lib.Lawful)
    {temperature : K} {k : Int} {p : K} {generated : List Int}
    (kept : PickKept config lib temperature
      (Filters k p (unfiltered config model temperature generated).length)
      (unfiltered config model temperature generated))
    (allowed : Allowed config model generated) (s : σ) :
    isStopToken config (planPick lib config temperature k p generated
      (maskStops config (lastRow (model generated))) s).1 = false := by
  refine pickAt_goesOn lawful kept (someGoesOn_unfiltered config model temperature allowed) ?_ ?_ s
  · intro off
    obtain ⟨noTopK, noTopP⟩ := not_or.mp off
    change (if p < 1 then applyTopP lib _ p else if 0 < k then
      applyTopK lib (unfiltered config model temperature generated) k else
        unfiltered config model temperature generated) = _
    rw [if_neg noTopP]
    split
    · rename_i some_
      exact if_pos (.inr (not_lt.mp fun few => noTopK ⟨some_, few⟩))
    · rfl
  · intro _ top largest floor
    exact filtered_kept lawful k p largest floor

end Adai.Decoding.TextGenerator
