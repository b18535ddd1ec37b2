import Mathlib.Algebra.Field.Rat
import Mathlib.Algebra.Order.Field.Basic
import Mathlib.Algebra.Order.Ring.Rat
import Mathlib.Tactic.Linarith
import Mathlib.Tactic.NormNum.Inv
import Mathlib.Tactic.NormNum.Ineq
import Adai.Decoding.BeamSelection
import Adai.Decoding.TextGenerator
import Adai.Decoding.Strategies

/-! # The minimal length

`minLength` is honoured by every strategy in the runs whose steps keep the mask
(`Adai.Decoding.TextGenerator.min_length_honoured`). A step keeps it if the repetition
penalty leaves the stop tokens at negative infinity, if the largest logit is above what a
filter puts in the place of the others, and, in beam search, if for each stop token among
the candidates there are enough better ones.
-/

namespace Adai.Decoding.TextGenerator

variable {σ K : Type} [Field K] [LinearOrder K]

/-! ## Beam search -/

section Beams

variable {lib : Library σ K} {config : GenerationConfig K} {model : List Int → Matrix K}

/-- A running beam behind so many steps: as many new tokens, none a stop token. -/
structure GoesOn (config : GenerationConfig K) (start : List Int) (n : Nat)
    (beam : BeamHypothesis K) : Prop where
  running : beam.isFinished = false
  tokens : ∃ new, beam.tokens = start ++ new ∧ new.length = n ∧
    ∀ token ∈ new, isStopToken config token = false

/-- The sequences found honour the minimal length, or another one is better. -/
def GoodBeams (config : GenerationConfig K) (start : List Int) (found : List (BeamHypothesis K)) :
    Prop :=
  found ≠ [] ∧ ∀ beam ∈ found, Honoured config start beam.tokens ∨
    ∃ other ∈ found, beam.score < other.score

omit [Field K] in
theorem goodBeams_of_forall {start : List Int} {found : List (BeamHypothesis K)} (some_ : found ≠ [])
    (honoured : ∀ beam ∈ found, Honoured config start beam.tokens) : GoodBeams config start found :=
  ⟨some_, fun beam member => .inl (honoured beam member)⟩

/-- The length penalty keeps the order of scores. -/
theorem normalized_lt [IsStrictOrderedRing K] (lawful : lib.Lawful) {score other : K}
    (worse : score < other) (length : Nat) :
    normalized lib config score length < normalized lib config other length := by
  unfold normalized
  split
  · have base : (0 : K) < ((5 + length : ℕ) : K) / ((6 : ℕ) : K) :=
      div_pos (Nat.cast_pos.mpr (by omega)) (Nat.cast_pos.mpr (by omega))
    exact div_lt_div_of_pos_right worse (lawful.pow_pos _ _ base)
  · exact worse

/-- What a candidate of a beam that goes on makes of it. -/
theorem extend_of_goesOn {numBeams n : Nat} {start : List Int} {beams : List (BeamHypothesis K)}
    (goesOn : ∀ beam ∈ beams, GoesOn config start n beam) {candidates : List (Candidate K)}
    (gathered : candidatesFrom lib config model numBeams n 0 beams = .ok candidates)
    {candidate : Candidate K} (member : candidate ∈ candidates) :
    ∃ new, (extend beams candidate).tokens = start ++ new ++ [candidate.tokenId] ∧
      (extend beams candidate).isFinished = false ∧ new.length = n ∧
        ∀ token ∈ new, isStopToken config token = false := by
  obtain ⟨i, beam, here, at_, _, _, is⟩ := extend_of_candidate gathered member
  obtain ⟨_, new, tokens, size, all⟩ := goesOn beam (List.mem_of_getElem? at_)
  exact ⟨new, by rw [is, tokens], by rw [is], size, all⟩

/-- In the last step all candidates finish, and no masked one is the best. -/
theorem goodBeams_of_full [IsStrictOrderedRing K] (lawful : lib.Lawful) {numBeams n : Nat}
    (room : 0 < numBeams) {start : List Int} {beams found : List (BeamHypothesis K)}
    (goesOn : ∀ beam ∈ beams, GoesOn config start n beam)
    (honoured : ∀ beam ∈ found, Honoured config start beam.tokens)
    (last : n + 1 = config.maxLength.toNat)
    (allowed : (n : Int) < config.minLength → ∀ beam ∈ beams, Allowed config model beam.tokens)
    {candidates sorted : List (Candidate K)} (some_ : candidates ≠ [])
    (gathered : candidatesFrom lib config model numBeams n 0 beams = .ok candidates)
    (perm : sorted.Perm candidates) :
    GoodBeams config start
      (found ++ sorted.map fun candidate => finish lib config (extend beams candidate)) := by
  constructor
  · intro none
    have empty := List.map_eq_nil_iff.mp (List.append_eq_nil_iff.mp none).2
    rw [empty] at perm
    exact some_ perm.nil_eq.symm
  intro beam member
  rcases List.mem_append.mp member with before | here
  · exact .inl (honoured beam before)
  obtain ⟨candidate, listed, rfl⟩ := List.mem_map.mp here
  obtain ⟨new, tokens, _, size, all⟩ :=
    extend_of_goesOn goesOn gathered (perm.mem_iff.mp listed)
  by_cases below : (n : Int) < config.minLength
  · by_cases stop : isStopToken config candidate.tokenId = true
    · -- Another candidate of the same beam is better.
      obtain ⟨i, parent, own, at_, is, ofParent, _⟩ :=
        extend_of_candidate gathered (perm.mem_iff.mp listed)
      have parentMember := List.mem_of_getElem? at_
      obtain ⟨best, bestOwn, _, better⟩ := exists_better_candidate lawful room below
        (goesOn parent parentMember).running (allowed below parent parentMember) is
      have bestMember := candidate_of_beamCandidates gathered at_ is best bestOwn
      obtain ⟨others, bestTokens, _, bestSize, _⟩ := extend_of_goesOn goesOn gathered bestMember
      refine .inr ⟨finish lib config (extend beams best), List.mem_append_right _
        (List.mem_map_of_mem (perm.mem_iff.mpr bestMember)), ?_⟩
      have sameLength : (extend beams best).tokens.length =
          (extend beams candidate).tokens.length := by
        rw [bestTokens, tokens]
        simp only [List.length_append, List.length_singleton, size, bestSize]
      change normalized lib config candidate.score _ < normalized lib config best.score _
      rw [sameLength]
      exact normalized_lt lawful (better candidate ofParent stop) _
    · left
      have goes := Bool.eq_false_iff.mpr stop
      change Honoured config start (extend beams candidate).tokens
      rw [tokens, List.append_assoc]
      apply honoured_of_forall
      · intro token inNew
        rcases List.mem_append.mp inNew with before | here
        · exact all token before
        · rw [List.mem_singleton.mp here]
          exact goes
      · rw [List.length_append, List.length_singleton, size]
        omega
  · left
    change Honoured config start (extend beams candidate).tokens
    rw [tokens]
    exact honoured_snoc all (by omega) _

/-- A step of beams that go on. -/
theorem beamStep_goodBeams [IsStrictOrderedRing K] (lawful : lib.Lawful) {numBeams n : Nat}
    (room : 0 < numBeams) {start : List Int} {beams found new next : List (BeamHypothesis K)}
    (some_ : beams ≠ []) (goesOn : ∀ beam ∈ beams, GoesOn config start n beam)
    (honoured : ∀ beam ∈ found, Honoured config start beam.tokens)
    (inside : n < config.maxLength.toNat)
    (kept : (n : Int) < config.minLength → (∀ beam ∈ beams, Allowed config model beam.tokens) ∧
      (n + 1 < config.maxLength.toNat → SelectionKept lib config model numBeams n beams))
    (returned : beamStep lib config model numBeams (start.length + config.maxLength.toNat) n beams =
      .ok (new, next)) :
    (next = [] → GoodBeams config start (found ++ new)) ∧
      (next ≠ [] → (∀ beam ∈ found ++ new, Honoured config start beam.tokens) ∧
        ∀ beam ∈ next, GoesOn config start (n + 1) beam) := by
  unfold beamStep at returned
  cases gathered : candidatesFrom lib config model numBeams n 0 beams with
  | error error => simp [gathered] at returned
  | ok candidates =>
      simp only [gathered, Except.ok.injEq] at returned
      have perm := lib.sort_perm (fun candidate : Candidate K => Score.finite candidate.score)
        candidates
      have someCandidate : candidates ≠ [] := by
        obtain ⟨first, rest, rfl⟩ := List.exists_cons_of_ne_nil some_
        obtain ⟨here, is, sub⟩ := (mem_candidatesFrom gathered).2 0 first rfl
        obtain ⟨candidate, member⟩ := List.exists_mem_of_ne_nil _
          (beamCandidates_ne_nil room (goesOn first List.mem_cons_self).running is)
        exact List.ne_nil_of_mem (sub candidate member)
      have lengths : ∀ candidate ∈ candidates,
          (extend beams candidate).tokens.length = start.length + n + 1 := by
        intro candidate member
        obtain ⟨new, tokens, _, size, _⟩ := extend_of_goesOn goesOn gathered member
        simp only [tokens, List.length_append, List.length_singleton, size]
      by_cases last : n + 1 = config.maxLength.toNat
      · -- All candidates finish, and nothing is left to search.
        rw [selectBeams_full _ _ room fun candidate member => by
          rw [lengths candidate (perm.mem_iff.mp member)]
          omega] at returned
        obtain ⟨rfl, rfl⟩ := Prod.mk.inj returned
        refine ⟨fun _ => ?_, fun some_ => absurd rfl some_⟩
        exact goodBeams_of_full lawful room goesOn honoured last (fun below => (kept below).1)
          someCandidate gathered perm
      · have before : n + 1 < config.maxLength.toNat := by omega
        obtain ⟨ends, goes⟩ := selectBeams_spec lib config numBeams
          (start.length + config.maxLength.toNat) beams
          (lib.sort (fun candidate => .finite candidate.score) candidates) [] []
        have sortedSome : lib.sort (fun candidate : Candidate K => .finite candidate.score)
            candidates ≠ [] := by
          intro empty
          rw [empty] at perm
          exact someCandidate perm.nil_eq.symm
        have some_ : next = [] → new ≠ [] := by
          change (new, next).2 = [] → (new, next).1 ≠ []
          rw [← returned]
          exact selectBeams_ne_nil sortedSome room
        have honouredNew : ∀ beam ∈ new, Honoured config start beam.tokens := by
          by_cases below : (n : Int) < config.minLength
          · have none : new = [] := by
              change (new, next).1 = []
              rw [← returned]
              exact selectBeams_goesOn
                (fun candidate member => by rw [lengths candidate member]; omega)
                ((kept below).2 before candidates gathered)
            rw [none]
            exact fun _ member => absurd member List.not_mem_nil
          · rw [returned] at ends
            intro beam member
            rcases ends beam member with none | ⟨candidate, listed, rfl, _⟩
            · cases none
            · obtain ⟨others, tokens, _, size, all⟩ :=
                extend_of_goesOn goesOn gathered (perm.mem_iff.mp listed)
              change Honoured config start (extend beams candidate).tokens
              rw [tokens]
              exact honoured_snoc all (by omega) _
        have honouredAll : ∀ beam ∈ found ++ new, Honoured config start beam.tokens := by
          intro beam member
          exact (List.mem_append.mp member).elim (honoured beam) (honouredNew beam)
        rw [returned] at goes
        refine ⟨fun none => ?_, fun _ => ⟨honouredAll, fun beam member => ?_⟩⟩
        · exact goodBeams_of_forall
            (fun empty => some_ none (List.append_eq_nil_iff.mp empty).2) honouredAll
        · rcases goes beam member with none | ⟨candidate, listed, rfl, goesOn_, _⟩
          · cases none
          · obtain ⟨others, tokens, running, size, all⟩ :=
              extend_of_goesOn goesOn gathered (perm.mem_iff.mp listed)
            refine ⟨running, others ++ [candidate.tokenId], by rw [tokens, List.append_assoc],
              by rw [List.length_append, List.length_singleton, size], ?_⟩
            intro token inNew
            rcases List.mem_append.mp inNew with old | here
            · exact all token old
            · rw [List.mem_singleton.mp here]
              exact goesOn_

omit [LinearOrder K] in
theorem goesOn_startBeams (numBeams : Nat) (start : List Int) :
    ∀ beam ∈ startBeams (K := K) numBeams start, GoesOn config start 0 beam := by
  have itself {score : K} : GoesOn config start 0 ⟨start, score, false⟩ :=
    ⟨rfl, [], (List.append_nil _).symm, rfl, fun _ member => absurd member List.not_mem_nil⟩
  intro beam member
  rcases List.mem_cons.mp member with rfl | other
  · exact itself
  · rw [List.eq_of_mem_replicate other]
    exact itself

/-- **Beam search.** Runs whose steps keep the mask find a best sequence that honours the
minimal length. -/
theorem finishedBeams_good [IsStrictOrderedRing K] (lawful : lib.Lawful) {numBeams : Nat}
    (room : 0 < numBeams) {promptTokens : List Int}
    (kept : ∀ n found beams, BeamsReached lib config model promptTokens numBeams n found beams →
      n < config.maxLength.toNat → (n : Int) < config.minLength →
        (∀ beam ∈ beams, Allowed config model beam.tokens) ∧
          (n + 1 < config.maxLength.toNat → SelectionKept lib config model numBeams n beams))
    {found : List (BeamHypothesis K)}
    (returned : finishedBeams lib config model promptTokens numBeams = .ok found) :
    GoodBeams config (startTokens config promptTokens) found := by
  let Inv := fun (n : Nat) (found beams : List (BeamHypothesis K)) => beams ≠ [] ∧
    (∀ beam ∈ found, Honoured config (startTokens config promptTokens) beam.tokens) ∧
      ∀ beam ∈ beams, GoesOn config (startTokens config promptTokens) n beam
  have start : Inv 0 [] (startBeams numBeams (startTokens config promptTokens)) :=
    ⟨List.cons_ne_nil _ _, fun _ member => absurd member List.not_mem_nil,
      goesOn_startBeams numBeams _⟩
  refine BoundedSearch.run_induction start ?_ ?_ returned
  · rintro n found beams new next reached inside ⟨some_, honoured, goesOn⟩ round
    obtain ⟨ends, goes⟩ := beamStep_goodBeams lawful room some_ goesOn honoured inside
      (kept n found beams reached inside) round
    refine ⟨fun ended => ends (List.isEmpty_iff.mp ended), fun more => ?_⟩
    have left : next ≠ [] := fun none => by
      rw [none] at more
      cases more
    obtain ⟨honouredAll, goesOnAll⟩ := goes left
    refine ⟨⟨left, honouredAll, goesOnAll⟩, fun stops => goodBeams_of_forall ?_ honouredAll⟩
    intro none
    rw [none] at stops
    simp [noneCanWin] at stops
  · rintro found beams ⟨some_, honoured, goesOn⟩
    apply goodBeams_of_forall
    · intro none
      exact some_ (List.map_eq_nil_iff.mp (List.append_eq_nil_iff.mp none).2)
    · intro beam member
      rcases List.mem_append.mp member with before | here
      · exact honoured beam before
      · obtain ⟨running, listed, rfl⟩ := List.mem_map.mp here
        obtain ⟨-, new, tokens, size, all⟩ := goesOn running listed
        change Honoured config _ running.tokens
        rw [tokens]
        exact honoured_of_forall all (by omega)

omit [Field K] in
/-- The best of good beams is a sequence that honours the minimal length. -/
theorem GoodBeams.bestTokens {promptTokens : List Int} {found : List (BeamHypothesis K)}
    (good : GoodBeams config (startTokens config promptTokens) found) :
    Honoured config (startTokens config promptTokens) (bestTokens config promptTokens found) := by
  obtain ⟨some_, all⟩ := good
  unfold TextGenerator.bestTokens
  cases is : BoundedSearch.firstBest BeamHypothesis.score found with
  | none =>
      cases found with
      | nil => exact absurd rfl some_
      | cons first rest => cases is
  | some best =>
      obtain ⟨member, highest⟩ := BoundedSearch.firstBest_spec _ is
      rcases all best member with honoured | ⟨other, listed, better⟩
      · exact honoured
      · exact absurd better (not_lt.mpr (highest other listed))

end Beams

/-! ## Every strategy -/

section Plans

variable (lib : Library σ K) (config : GenerationConfig K) (model : List Int → Matrix K)
  (promptTokens : List Int) (s : σ)

/-- In each step before the minimal length the mask gets through: to the choice of a token,
or, before the last step, to the selection of the beams. -/
def Plan.StepsKept : Plan K → Prop
  | .oneByOne temperature k p => ∀ n generated,
      (Plan.oneByOne temperature k p).Asks lib config model promptTokens s n generated →
        (n : Int) < config.minLength →
          PickKept config lib temperature
            (Filters k p (unfiltered config model temperature generated).length)
            (unfiltered config model temperature generated)
  | .beams numBeams => ∀ n found beams,
      BeamsReached lib config model promptTokens numBeams.toNat n found beams →
        (n : Int) < config.minLength → n + 1 < config.maxLength.toNat →
          SelectionKept lib config model numBeams.toNat n beams

variable {lib config model promptTokens s}

/-- **The minimal length.** If in each step some token that is no stop token has a finite
logit, then the sequence that any strategy returns honours the minimal length, in every run
whose steps keep the mask. -/
theorem min_length_honoured [IsStrictOrderedRing K] (lawful : lib.Lawful) (strategy : Strategy K)
    (allowed : ∀ n tokens, (strategy.plan config).Asks lib config model promptTokens s n tokens →
      Allowed config model tokens)
    (kept : (strategy.plan config).StepsKept lib config model promptTokens s)
    {result : List Int × σ}
    (returned : strategy.generate lib config model promptTokens s = .ok result) :
    Honoured config (startTokens config promptTokens) result.1 := by
  rw [strategy.generate_eq] at returned
  cases plan : strategy.plan config with
  | oneByOne temperature k p =>
      rw [plan] at returned allowed kept
      apply honoured_of_goesOn ?_ returned
      intro n generated s' logits reached below inside found
      have asks : (Plan.oneByOne temperature k p).Asks lib config model promptTokens s n generated :=
        ⟨inside, s', reached⟩
      obtain ⟨-, -, masked⟩ := nextLogits_ok found
      rw [masked, if_pos below]
      exact planPick_goesOn config model lawful (kept n generated asks below)
        (allowed n generated asks) s'
  | beams numBeams =>
      rw [plan] at returned allowed kept
      simp only [Plan.generate] at returned
      by_cases narrow : numBeams < 1
      · rw [if_pos narrow] at returned
        cases returned
      rw [if_neg narrow] at returned
      cases found : finishedBeams lib config model promptTokens numBeams.toNat with
      | error error =>
          rw [found] at returned
          cases returned
      | ok finished =>
          rw [found] at returned
          cases returned
          apply GoodBeams.bestTokens
          apply finishedBeams_good lawful (by omega) ?_ found
          intro n found beams reached inside below
          refine ⟨fun beam member => allowed n beam.tokens ?_, kept n found beams reached below⟩
          exact ⟨inside, found, beams, reached, beam, member, rfl⟩

end Plans

/-! ## Even odds -/

/-- The logarithms of `10 ^ -10` and of one half, with nine digits, and lines through them. -/
def floorLog (x : ℚ) : ℚ :=
  if x ≤ 1 / 100000 then x - 23025850930 / 1000000000 else 1386294361 / 1000000000 * (x - 1)

/-- The exponential is asked for zero only. -/
def evenLibrary : Library Unit ℚ :=
  stableLibrary (fun x => if x < 0 then 0 else 1) floorLog fun _ _ => 1

theorem evenLibrary_lawful : evenLibrary.Lawful where
  exp_nonneg := by
    intro x
    change (0 : ℚ) ≤ if x < 0 then 0 else 1
    split
    · exact le_refl _
    · exact zero_le_one
  exp_lt := by
    intro x negative
    change (if x < 0 then 0 else 1 : ℚ) < if (0 : ℚ) < 0 then 0 else 1
    rw [if_pos negative, if_neg (lt_irrefl _)]
    exact zero_lt_one
  log_one := by
    change floorLog 1 = 0
    norm_num [floorLog]
  log_lt := by
    intro x y _ less
    change floorLog x < floorLog y
    unfold floorLog
    split <;> split <;> linarith
  pow_pos := fun _ _ _ => zero_lt_one

def evenConfig : GenerationConfig ℚ :=
  { maxLength := 34, minLength := 34, temperature := 1, topP := 1, repetitionPenalty := 1,
    lengthPenalty := false, lengthPenaltyAlpha := 1 }

/-- All four tokens have the same logit. -/
def evenModel (_ : List Int) : Matrix ℚ := [[.finite 0, .finite 0, .finite 0, .finite 0]]

theorem allowed_even {config : GenerationConfig ℚ} (goesOn : isStopToken config 1 = false)
    (tokens : List Int) : Allowed config evenModel tokens :=
  ⟨1, 0, rfl, goesOn⟩

/-- **A masked token wins.** With three beams and two tokens that are allowed the first step
finishes a beam with the padding token, at the floor of the logarithm; 34 tokens at even odds
are worse. -/
theorem beamSearch_even_ends :
    evenLibrary.Lawful ∧ (∀ tokens, Allowed evenConfig evenModel tokens) ∧
      (Strategy.beamSearch 3).generate evenLibrary evenConfig evenModel [] () = .ok ([2, 0], ()) ∧
        ¬ Honoured evenConfig (startTokens evenConfig []) [2, 0] := by
  refine ⟨evenLibrary_lawful, allowed_even rfl, by decide +kernel, fun honoured => ?_⟩
  obtain ⟨new, is, goesOn, -⟩ := honoured
  have one : new = [0] := (List.cons.inj is).2.symm
  have stops := goesOn 0 (by rw [one]; exact List.mem_cons_self)
  cases stops

def shortConfig : GenerationConfig ℚ := { evenConfig with maxLength := 2, minLength := 1 }

/-- Two beams have room for no masked token. -/
theorem selectionKept_even :
    SelectionKept evenLibrary shortConfig evenModel 2 0 (startBeams 2 [2]) := by
  have counted : (candidatesFrom evenLibrary shortConfig evenModel 2 0 0
      (startBeams 2 [2])).toOption.all (fun candidates => candidates.all fun stop =>
        !isStopToken shortConfig stop.tokenId ||
          (2 ≤ (candidates.filter (goesBefore shortConfig stop)).length : Bool)) = true := by
    decide +kernel
  intro candidates gathered stop member ends
  rw [gathered] at counted
  have each := List.all_eq_true.mp counted stop member
  rw [ends] at each
  exact of_decide_eq_true each

/-- The padding token comes behind the minimal length. -/
theorem min_length_honoured_even :
    (Strategy.beamSearch 2).generate evenLibrary shortConfig evenModel [] () =
        .ok ([2, 1, 0], ()) ∧
      Honoured shortConfig (startTokens shortConfig []) [2, 1, 0] := by
  have returned : (Strategy.beamSearch 2).generate evenLibrary shortConfig evenModel [] () =
      .ok ([2, 1, 0], ()) := by
    decide +kernel
  refine ⟨returned, min_length_honoured evenLibrary_lawful (.beamSearch 2)
    (fun _ tokens _ => allowed_even rfl tokens) ?_ returned⟩
  intro n found beams reached below _
  have first : n = 0 := by
    change (n : Int) < 1 at below
    omega
  subst first
  cases reached
  exact selectionKept_even

end Adai.Decoding.TextGenerator
