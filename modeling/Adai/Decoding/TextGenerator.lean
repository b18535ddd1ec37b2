import Mathlib.Algebra.Order.Field.Basic
import Mathlib.Data.List.Perm.Basic
import Mathlib.Data.List.Sort
import Adai.Math.BoundedSearch
import Adai.Decoding.SpeculativeDecoding

/-! # The text generator

`TextGenerator` decodes from a model that is a function of the tokens so far. Greedy
decoding, sampling, top-k, nucleus sampling and their combination are one loop
(`Adai.Decoding.TextGenerator.tokenLoop`) with different choices of the next token; beam
search keeps several hypotheses and is a search in rounds
(`Adai.Decoding.TextGenerator.beamSearch`). Every strategy takes its logits from
`nextLogits`, which refuses what is not a number and masks the stop tokens before
`minLength`.

Arithmetic is that of an ordered field, with the infinities and the NaN that masks and
penalties can make; the functions of the standard library are parameters, with what the
library documents of them. An instance of them
(`Adai.Decoding.TextGenerator.stableLibrary`) has insertion sorts, and samples the first
token with a positive weight.
-/

namespace Adai.Decoding

/-! ## Floating-point values -/

namespace Score

variable {K : Type} [Field K] [LinearOrder K]

def isFinite : Score K → Bool
  | .finite _ => true
  | _ => false

/-- `std::max`. -/
def max (a b : Score K) : Score K := if a.less b then b else a

/-- An infinity times a number of that sign. -/
def infinite (sign : K) : Score K :=
  if sign = 0 then .nan else if sign < 0 then .negInf else .posInf

def mul : Score K → K → Score K
  | .nan, _ => .nan
  | .finite a, b => .finite (a * b)
  | .posInf, b => infinite b
  | .negInf, b => infinite (-b)

def div : Score K → K → Score K
  | .nan, _ => .nan
  | .finite a, b => if b = 0 then infinite a else .finite (a / b)
  | .posInf, b => if b < 0 then .negInf else .posInf
  | .negInf, b => if b < 0 then .posInf else .negInf

def add : Score K → Score K → Score K
  | .finite a, .finite b => .finite (a + b)
  | .finite _, b => b
  | a, .finite _ => a
  | .posInf, .posInf => .posInf
  | .negInf, .negInf => .negInf
  | _, _ => .nan

def neg : Score K → Score K
  | .nan => .nan
  | .finite a => .finite (-a)
  | .posInf => .negInf
  | .negInf => .posInf

def sub (a b : Score K) : Score K := a.add b.neg

/-- `>=` against a number. -/
def atLeast (a : Score K) (bound : K) : Bool :=
  match a with
  | .finite a => bound ≤ a
  | .posInf => true
  | _ => false

end Score

namespace TextGenerator

/-! ## Setup -/

structure GenerationConfig (K : Type) where
  maxLength : Int := 100
  temperature : K
  topK : Int := 0
  topP : K
  repetitionPenalty : K
  numBeams : Int := 1
  lengthPenalty : Bool := true
  lengthPenaltyAlpha : K
  earlyStopping : Bool := true
  minLength : Int := 0
  padTokenId : Int := 0
  bosTokenId : Int := 2
  eosTokenId : Int := 3

inductive GeneratorError
  | invalidArgument (message : String)
  | runtime (message : String)
  deriving DecidableEq, Repr

/-- What the generator takes from the standard library, with states `σ` of the random
numbers. Both sorts are by descending key, and equal keys come in any order; of a partial
sort only the first elements are in their places. A sample has a positive weight, if the
weights allow one. -/
structure Library (σ K : Type) [Field K] [LinearOrder K] where
  exp : K → K
  log : K → K
  pow : K → K → K
  sort : {β : Type} → (β → Score K) → List β → List β
  sort_perm : ∀ {β : Type} (key : β → Score K) (items : List β), (sort key items).Perm items
  sort_sorted : ∀ {β : Type} (key : β → Score K) (items : List β),
    (∀ item ∈ items, key item ≠ .nan) →
      (sort key items).Pairwise fun first second => (key first).less (key second) = false
  partialSort : {β : Type} → Nat → (β → Score K) → List β → List β
  partialSort_perm : ∀ {β : Type} (count : Nat) (key : β → Score K) (items : List β),
    (partialSort count key items).Perm items
  partialSort_sorted : ∀ {β : Type} (count : Nat) (key : β → Score K) (items : List β),
    (∀ item ∈ items, key item ≠ .nan) → ∀ i j, i < count → i < j →
      ∀ first ∈ (partialSort count key items)[i]?, ∀ second ∈ (partialSort count key items)[j]?,
        (key first).less (key second) = false
  sample : List (Score K) → σ → Nat × σ
  sample_positive : ∀ (weights : List (Score K)) (s : σ),
    (∀ weight ∈ weights, ∃ w, weight = .finite w ∧ 0 ≤ w) →
      (∃ w, 0 < w ∧ .finite w ∈ weights) →
        ∃ w, 0 < w ∧ weights[(sample weights s).1]? = some (.finite w)

section Filters

variable {σ K : Type} [Field K] [LinearOrder K] (lib : Library σ K)

/-! ## Filters on logits -/

def applyTemperature (logits : Logits K) (temperature : K) : Logits K :=
  if temperature ≤ 0 ∨ temperature = 1 then logits else logits.map fun v => v.div temperature

/-- What a filter leaves of a token that it drops: `-1e9f`. -/
def dropped : Score K := .finite (-((10 ^ 9 : ℕ) : K))

def applyTopK (logits : Logits K) (k : Int) : Logits K :=
  if k ≤ 0 ∨ (logits.length : Int) ≤ k then logits
  else
    ((lib.partialSort k.toNat Prod.fst logits.zipIdx).take k.toNat).foldl
      (fun filtered item => filtered.set item.2 item.1)
      (List.replicate logits.length dropped)

/-- Tokens are kept until their probabilities add up to `p`. -/
def keepNucleus (logits : Logits K) (p : K) :
    Score K → Logits K → List (Score K × Nat) → Logits K
  | _, filtered, [] => filtered
  | cumsum, filtered, (prob, index) :: rest =>
      let cumsum := cumsum.add prob
      let filtered := filtered.set index (logits.getD index .nan)
      if cumsum.atLeast p then filtered else keepNucleus logits p cumsum filtered rest

/-- `exp` of a value; of negative infinity it is zero. -/
def expScore : Score K → Score K
  | .nan => .nan
  | .finite a => .finite (lib.exp a)
  | .posInf => .posInf
  | .negInf => .finite 0

/-- `Activation::softmax_row`: relative to the largest value, and divided by the sum unless
that is a NaN. -/
def softmax (logits : Logits K) : List (Score K) :=
  match logits with
  | [] => []
  | first :: rest =>
      let maxVal := rest.foldl Score.max first
      let out := logits.map fun v => expScore lib (v.sub maxVal)
      match out.foldl Score.add (.finite 0) with
      | .finite sum => if 0 < sum then out.map fun v => v.div sum else out
      | _ => out

def applyTopP (logits : Logits K) (p : K) : Logits K :=
  if 1 ≤ p ∨ logits = [] then logits
  else if p ≤ 0 then applyTopK lib logits 1
  else
    keepNucleus logits p (.finite 0) (List.replicate logits.length dropped)
      (lib.sort Prod.fst (softmax lib logits).zipIdx)

/-- Once for each token that has appeared. -/
def applyRepetitionPenalty (logits : Logits K) (generated : List Int) (penalty : K) : Logits K :=
  if penalty = 1 ∨ generated = [] then logits
  else
    logits.mapIdx fun i v =>
      if (i : Int) ∈ generated then
        if (Score.finite 0).less v then v.div penalty else v.mul penalty
      else v

/-! ## The next logits -/

variable (config : GenerationConfig K)

/-- `((5 + length) / 6) ^ alpha`. -/
def computeLengthPenalty (length : Nat) : K :=
  lib.pow (((5 + length : ℕ) : K) / ((6 : ℕ) : K)) config.lengthPenaltyAlpha

def isStopToken (token : Int) : Bool := token == config.eosTokenId || token == config.padTokenId

def startTokens (promptTokens : List Int) : List Int :=
  if promptTokens = [] then [config.bosTokenId] else promptTokens

/-- The stop tokens that the vocabulary has are set to negative infinity. -/
def maskStops (logits : Logits K) : Logits K :=
  [config.eosTokenId, config.padTokenId].foldl
    (fun next stop => if 0 ≤ stop then next.set stop.toNat .negInf else next) logits

variable (model : List Int → Matrix K)

def nextLogits (tokens : List Int) (newTokens : Nat) : Except GeneratorError (Logits K) :=
  let logits := model tokens
  if logits.length < 1 ∨ (row logits 0).length < 1 then
    .error (.runtime "TextGenerator: the model returned no logits")
  else if ¬ (lastRow logits).all Score.usable then
    .error (.runtime "TextGenerator: the model returned non-finite logits")
  else if ¬ (lastRow logits).any Score.isFinite then
    .error (.runtime "TextGenerator: every logit is -inf")
  else if (newTokens : Int) < config.minLength then .ok (maskStops config (lastRow logits))
  else .ok (lastRow logits)

/-! ## One token at a time -/

/-- How a strategy chooses the next token. -/
abbrev Pick (σ K : Type) := List Int → Logits K → σ → Int × σ

/-- The loop of the strategies that keep one sequence: at most so many more tokens, `step`
of them are there. -/
def tokenLoop (pick : Pick σ K) : Nat → Nat → List Int → σ → Except GeneratorError (List Int × σ)
  | 0, _, generated, s => .ok (generated, s)
  | left + 1, step, generated, s =>
      match nextLogits config model generated step with
      | .error error => .error error
      | .ok lastLogits =>
          let (nextToken, s) := pick generated lastLogits s
          if isStopToken config nextToken then .ok (generated ++ [nextToken], s)
          else tokenLoop pick left (step + 1) (generated ++ [nextToken]) s

def generateTokens (pick : Pick σ K) (promptTokens : List Int) (s : σ) :
    Except GeneratorError (List Int × σ) :=
  tokenLoop config model pick config.maxLength.toNat 0 (startTokens config promptTokens) s

def penalized (generated : List Int) (logits : Logits K) : Logits K :=
  if config.repetitionPenalty ≠ 1 then
    applyRepetitionPenalty logits generated config.repetitionPenalty
  else logits

def sampleToken (logits : Logits K) (s : σ) : Int × σ :=
  let (token, s) := lib.sample (softmax lib logits) s
  (token, s)

/-- At a temperature of zero or below the largest logit is taken, without sampling. -/
def pickAt (temperature : K) (logits : Logits K) (s : σ) : Int × σ :=
  if temperature ≤ 0 then (argmax logits, s) else sampleToken lib logits s

def greedyPick : Pick σ K := fun generated logits s => (argmax (penalized config generated logits), s)

def generateGreedy (promptTokens : List Int) (s : σ) : Except GeneratorError (List Int × σ) :=
  generateTokens config model (greedyPick config) promptTokens s

def samplingPick (temperature : K) : Pick σ K := fun generated logits s =>
  sampleToken lib (applyTemperature (penalized config generated logits) temperature) s

/-- A temperature of `-1` stands for the configured one. -/
def generateSampling (promptTokens : List Int) (temperature : K) (s : σ) :
    Except GeneratorError (List Int × σ) :=
  let temperature := if temperature = -1 then config.temperature else temperature
  if temperature ≤ 0 then generateGreedy config model promptTokens s
  else generateTokens config model (samplingPick lib config temperature) promptTokens s

/-- The logits behind the penalty, the temperature and the filters. -/
def filtered (k : Int) (p : K) (generated : List Int) (logits : Logits K) : Logits K :=
  let logits := applyTemperature (penalized config generated logits) config.temperature
  let logits := if 0 < k then applyTopK lib logits k else logits
  if p < 1 then applyTopP lib logits p else logits

def filteredPick (k : Int) (p : K) : Pick σ K := fun generated logits s =>
  pickAt lib config.temperature (filtered lib config k p generated logits) s

def generateTopK (promptTokens : List Int) (k : Int) (s : σ) :
    Except GeneratorError (List Int × σ) :=
  let k := if k = -1 then config.topK else k
  generateTokens config model (filteredPick lib config k 1) promptTokens s

def generateNucleus (promptTokens : List Int) (p : K) (s : σ) :
    Except GeneratorError (List Int × σ) :=
  let p := if p = -1 then config.topP else p
  generateTokens config model (filteredPick lib config 0 p) promptTokens s

/-! ## Beam search -/

structure BeamHypothesis (K : Type) where
  tokens : List Int
  score : K
  isFinished : Bool := false
  deriving DecidableEq, Repr

structure Candidate (K : Type) where
  score : K
  beamIdx : Nat
  tokenId : Int

/-- The logarithm of a probability, with its floor and clamped at zero; of a NaN the clamp
makes zero. -/
def logProb (prob : Score K) : K :=
  match prob with
  | .finite p => min 0 (lib.log (p + ((10 ^ 10 : ℕ) : K)⁻¹))
  | _ => 0

def normalized (score : K) (length : Nat) : K :=
  if config.lengthPenalty then score / computeLengthPenalty lib config length else score

/-- The best continuations of a beam, twice as many as there are beams. -/
def beamCandidates (numBeams step beamIdx : Nat) (beam : BeamHypothesis K) :
    Except GeneratorError (List (Candidate K)) :=
  if beam.isFinished then .ok []
  else
    match nextLogits config model beam.tokens step with
    | .error error => .error error
    | .ok lastLogits =>
        let tokenScores := ((softmax lib lastLogits).map (logProb lib)).zipIdx
        let count := min (numBeams * 2) tokenScores.length
        .ok (((lib.partialSort count (fun item => .finite item.1) tokenScores).take count).map
          fun (tokenScore, tokenId) => ⟨beam.score + tokenScore, beamIdx, tokenId⟩)

/-- The candidates of the beams from `beamIdx` on. -/
def candidatesFrom (numBeams step : Nat) :
    Nat → List (BeamHypothesis K) → Except GeneratorError (List (Candidate K))
  | _, [] => .ok []
  | beamIdx, beam :: rest =>
      match beamCandidates lib config model numBeams step beamIdx beam with
      | .error error => .error error
      | .ok here =>
          match candidatesFrom numBeams step (beamIdx + 1) rest with
          | .error error => .error error
          | .ok later => .ok (here ++ later)

def extend (beams : List (BeamHypothesis K)) (candidate : Candidate K) : BeamHypothesis K :=
  { tokens := (beams.getD candidate.beamIdx ⟨[], 0, false⟩).tokens ++ [candidate.tokenId]
    score := candidate.score }

def finish (beam : BeamHypothesis K) : BeamHypothesis K :=
  { beam with isFinished := true, score := normalized lib config beam.score beam.tokens.length }

/-- Candidates in order, until there are enough beams that go on; those that are finished
on the way are set aside. -/
def selectBeams (numBeams finalLength : Nat) (beams : List (BeamHypothesis K)) :
    List (Candidate K) → List (BeamHypothesis K) → List (BeamHypothesis K) →
      List (BeamHypothesis K) × List (BeamHypothesis K)
  | [], finished, newBeams => (finished, newBeams)
  | candidate :: rest, finished, newBeams =>
      if newBeams.length < numBeams then
        let newBeam := extend beams candidate
        if isStopToken config candidate.tokenId ∨ finalLength ≤ newBeam.tokens.length then
          selectBeams numBeams finalLength beams rest (finished ++ [finish lib config newBeam])
            newBeams
        else selectBeams numBeams finalLength beams rest finished (newBeams ++ [newBeam])
      else (finished, newBeams)

/-- One step: the beams that finish and those that go on. -/
def beamStep (numBeams finalLength step : Nat) (beams : List (BeamHypothesis K)) :
    Except GeneratorError (List (BeamHypothesis K) × List (BeamHypothesis K)) :=
  match candidatesFrom lib config model numBeams step 0 beams with
  | .error error => .error error
  | .ok candidates =>
      .ok (selectBeams lib config numBeams finalLength beams
        (lib.sort (fun candidate => .finite candidate.score) candidates) [] [])

/-- No final score of the beam can be above this. -/
def bestFinalScore (finalLength : Nat) (beam : BeamHypothesis K) : K :=
  if config.lengthPenalty then
    beam.score / max (computeLengthPenalty lib config beam.tokens.length)
      (computeLengthPenalty lib config finalLength)
  else beam.score

/-- The rule of early stopping. -/
def noneCanWin (finalLength : Nat) (finished beams : List (BeamHypothesis K)) : Bool :=
  config.earlyStopping && !finished.isEmpty &&
    let bestFinished := finished.foldl
      (fun best beam => Score.max best (.finite beam.score)) .negInf
    !beams.any fun beam => bestFinished.less (.finite (bestFinalScore lib config finalLength beam))

/-- Beam search in rounds: a step of the beams finds those that finish. -/
def beamSearch (numBeams finalLength : Nat) :
    BoundedSearch.Search (List (BeamHypothesis K)) (BeamHypothesis K) GeneratorError where
  round := beamStep lib config model numBeams finalLength
  ended := List.isEmpty
  rest := List.map fun beam =>
    { beam with score := normalized lib config beam.score beam.tokens.length }

/-- The first beam; the others have very low scores. -/
def startBeams (numBeams : Nat) (tokens : List Int) : List (BeamHypothesis K) :=
  ⟨tokens, 0, false⟩ :: List.replicate (numBeams - 1) ⟨tokens, -((10 ^ 9 : ℕ) : K), false⟩

def finishedBeams (promptTokens : List Int) (numBeams : Nat) :
    Except GeneratorError (List (BeamHypothesis K)) :=
  let start := startTokens config promptTokens
  let finalLength := start.length + config.maxLength.toNat
  BoundedSearch.run (beamSearch lib config model numBeams finalLength)
    (noneCanWin lib config finalLength) config.maxLength.toNat 0 [] (startBeams numBeams start)

def bestTokens (promptTokens : List Int) (finished : List (BeamHypothesis K)) : List Int :=
  match BoundedSearch.firstBest BeamHypothesis.score finished with
  | some best => best.tokens
  | none => startTokens config promptTokens

/-- A width of `-1` stands for the configured one, and one beam is greedy decoding. -/
def generateBeamSearch (promptTokens : List Int) (numBeams : Int) (s : σ) :
    Except GeneratorError (List Int × σ) :=
  let numBeams := if numBeams = -1 then config.numBeams else numBeams
  if numBeams = 1 then generateGreedy config model promptTokens s
  else if numBeams < 1 then
    .error (.invalidArgument ("TextGenerator: beam width must be at least 1, got " ++
      toString numBeams))
  else
    match finishedBeams lib config model promptTokens numBeams.toNat with
    | .error error => .error error
    | .ok finished => .ok (bestTokens config promptTokens finished, s)

/-- All filters, or beam search if there are beams. -/
def generate (promptTokens : List Int) (s : σ) : Except GeneratorError (List Int × σ) :=
  if 1 < config.numBeams then generateBeamSearch lib config model promptTokens (-1) s
  else generateTokens config model (filteredPick lib config config.topK config.topP) promptTokens s

end Filters

end TextGenerator

end Adai.Decoding

/-! ## A library with stable sorts -/

namespace Adai.Decoding.TextGenerator

variable {K : Type} [LinearOrder K]

/-- In descending order, NaNs last. -/
def precedes : Score K → Score K → Bool
  | _, .nan => true
  | .nan, _ => false
  | a, b => !a.less b

theorem precedes_total (a b : Score K) : precedes a b = true ∨ precedes b a = true := by
  cases a <;> cases b <;> simp [precedes, Score.less, le_total]

theorem precedes_trans {a b c : Score K} (first : precedes a b = true)
    (second : precedes b c = true) : precedes a c = true := by
  cases a <;> cases b <;> cases c <;> simp_all [precedes, Score.less]
  exact second.trans first

theorem less_of_precedes {a b : Score K} (first : a ≠ .nan) (before : precedes a b = true) :
    a.less b = false := by
  cases a <;> cases b <;> simp_all [precedes, Score.less]

variable {β : Type}

def Before (key : β → Score K) (first second : β) : Prop :=
  precedes (key first) (key second) = true

instance (key : β → Score K) : DecidableRel (Before key) :=
  fun _ _ => inferInstanceAs (Decidable (_ = true))

instance (key : β → Score K) : Std.Total (Before key) :=
  ⟨fun first second => precedes_total (key first) (key second)⟩

instance (key : β → Score K) : IsTrans β (Before key) := ⟨fun _ _ _ => precedes_trans⟩

def stableSort (key : β → Score K) (items : List β) : List β := items.insertionSort (Before key)

theorem stableSort_perm (key : β → Score K) (items : List β) :
    (stableSort key items).Perm items := List.perm_insertionSort _ items

theorem stableSort_sorted (key : β → Score K) (items : List β)
    (numbers : ∀ item ∈ items, key item ≠ .nan) :
    (stableSort key items).Pairwise fun first second => (key first).less (key second) = false := by
  have sorted := List.pairwise_insertionSort (Before key) items
  refine sorted.imp_of_mem fun member _ before => ?_
  exact less_of_precedes (numbers _ ((stableSort_perm key items).mem_iff.mp member)) before

/-- The index of the first positive weight. -/
def firstPositive [Zero K] (weights : List (Score K)) : Nat :=
  weights.findIdx fun weight => (Score.finite 0).less weight

theorem firstPositive_spec [Zero K] {weights : List (Score K)}
    (numbers : ∀ weight ∈ weights, ∃ w, weight = .finite w ∧ 0 ≤ w)
    (some_ : ∃ w, 0 < w ∧ Score.finite w ∈ weights) :
    ∃ w, 0 < w ∧ weights[firstPositive weights]? = some (.finite w) := by
  obtain ⟨w, positive, member⟩ := some_
  have found : firstPositive weights < weights.length :=
    List.findIdx_lt_length_of_exists ⟨_, member, by simpa [Score.less] using positive⟩
  have holds : (Score.finite 0).less weights[firstPositive weights] = true :=
    List.findIdx_getElem
  obtain ⟨v, is, _⟩ := numbers _ (List.getElem_mem found)
  rw [is] at holds
  exact ⟨v, by simpa [Score.less] using holds, by rw [List.getElem?_eq_getElem found, is]⟩

def stableLibrary [Field K] (exp log : K → K) (pow : K → K → K) : Library Unit K where
  exp := exp
  log := log
  pow := pow
  sort := stableSort
  sort_perm := stableSort_perm
  sort_sorted := stableSort_sorted
  partialSort := fun _ => stableSort
  partialSort_perm := fun _ => stableSort_perm
  partialSort_sorted := by
    intro _ _ key items numbers i j _ before first isFirst second isSecond
    obtain ⟨hi, rfl⟩ := List.getElem?_eq_some_iff.mp isFirst
    obtain ⟨hj, rfl⟩ := List.getElem?_eq_some_iff.mp isSecond
    exact List.pairwise_iff_getElem.mp (stableSort_sorted key items numbers) i j hi hj before
  sample := fun weights s => (firstPositive weights, s)
  sample_positive := fun _ _ => firstPositive_spec

end Adai.Decoding.TextGenerator
