import Adai.Decoding.BeamStep
import Adai.Decoding.TokenLoop

/-! # Stop tokens among the candidates

A masked token has probability zero, but its logarithm has a floor, so that it can be among
a beam's candidates. Selection does not come to it while enough candidates that go on are
better (`Adai.Decoding.TextGenerator.selectBeams_goesOn`). In the last step every
candidate finishes, and one that is masked is worse than another of its beam
(`Adai.Decoding.TextGenerator.exists_better_candidate`).
-/

namespace Adai.Decoding.TextGenerator

variable {σ K : Type} [Field K] [LinearOrder K] {lib : Library σ K} {config : GenerationConfig K}
  {model : List Int → Matrix K}

/-! ## Selection -/

/-- Better than a stop token, and none itself. -/
def goesBefore (config : GenerationConfig K) (stop candidate : Candidate K) : Bool :=
  !isStopToken config candidate.tokenId && decide (stop.score < candidate.score)

/-- For each stop token among the candidates, enough others are better. -/
def SelectionKept (lib : Library σ K) (config : GenerationConfig K) (model : List Int → Matrix K)
    (numBeams step : Nat) (beams : List (BeamHypothesis K)) : Prop :=
  ∀ candidates, candidatesFrom lib config model numBeams step 0 beams = .ok candidates →
    ∀ stop ∈ candidates, isStopToken config stop.tokenId = true →
      numBeams ≤ (candidates.filter (goesBefore config stop)).length

/-- Nothing finishes if enough candidates that go on stand before each stop token. -/
theorem selectBeams_fst_of_before {numBeams finalLength : Nat} {beams : List (BeamHypothesis K)}
    (candidates : List (Candidate K)) (finished newBeams : List (BeamHypothesis K))
    (short : ∀ candidate ∈ candidates, (extend beams candidate).tokens.length < finalLength)
    (before : ∀ front stop back, candidates = front ++ stop :: back →
      isStopToken config stop.tokenId = true → numBeams ≤ newBeams.length +
        (front.filter fun candidate => !isStopToken config candidate.tokenId).length) :
    (selectBeams lib config numBeams finalLength beams candidates finished newBeams).1 = finished := by
  induction candidates generalizing newBeams with
  | nil => rfl
  | cons candidate rest ih =>
      rw [selectBeams]
      by_cases room : newBeams.length < numBeams
      · have goesOn : isStopToken config candidate.tokenId = false := by
          by_contra stop
          have full := before [] candidate rest rfl (Bool.not_eq_false _ ▸ stop)
          exact absurd room (not_lt.mpr full)
        have notFull := not_le.mpr (short candidate List.mem_cons_self)
        simp only [room, ↓reduceIte, goesOn, Bool.false_eq_true, false_or, notFull]
        apply ih
        · exact fun other member => short other (List.mem_cons_of_mem _ member)
        · intro front stop back split ends
          have counted := before (candidate :: front) stop back (by rw [split]; rfl) ends
          rw [List.length_append, List.length_singleton]
          simp only [List.filter_cons, goesOn, Bool.not_false, ↓reduceIte, List.length_cons]
            at counted
          omega
      · rw [if_neg room]

/-- **Selection.** While no beam is full, a step with enough better candidates finishes
nothing. -/
theorem selectBeams_goesOn {numBeams finalLength : Nat} {beams : List (BeamHypothesis K)}
    {candidates : List (Candidate K)}
    (short : ∀ candidate ∈ candidates, (extend beams candidate).tokens.length < finalLength)
    (better : ∀ stop ∈ candidates, isStopToken config stop.tokenId = true →
      numBeams ≤ (candidates.filter (goesBefore config stop)).length) :
    (selectBeams lib config numBeams finalLength beams
      (lib.sort (fun candidate => .finite candidate.score) candidates) [] []).1 = [] := by
  have perm := lib.sort_perm (fun candidate : Candidate K => Score.finite candidate.score) candidates
  have sorted := lib.sort_sorted (fun candidate : Candidate K => Score.finite candidate.score)
    candidates (fun _ _ nan => by cases nan)
  apply selectBeams_fst_of_before
  · exact fun candidate member => short candidate (perm.mem_iff.mp member)
  · intro front stop back split ends
    have listed : stop ∈ candidates := perm.mem_iff.mp (by rw [split]; simp)
    rw [split] at sorted
    -- All that is better stands in front of the stop token.
    have behind : (stop :: back).filter (goesBefore config stop) = [] := by
      apply List.filter_eq_nil_iff.mpr
      intro candidate member
      have order : ¬ stop.score < candidate.score := by
        rcases List.mem_cons.mp member with rfl | later
        · exact lt_irrefl _
        · have pair := (List.pairwise_cons.mp (List.pairwise_append.mp sorted).2.1).1 candidate later
          simpa [Score.less] using pair
      simp [goesBefore, order]
    have count := (perm.filter (goesBefore config stop)).length_eq
    rw [split, List.filter_append, behind, List.append_nil] at count
    have fewer : (front.filter (goesBefore config stop)).length ≤
        (front.filter fun candidate => !isStopToken config candidate.tokenId).length := by
      apply List.Sublist.length_le
      apply List.monotone_filter_right
      intro candidate before
      exact (Bool.and_eq_true_iff.mp before).1
    rw [List.length_nil, Nat.zero_add]
    exact (better stop listed ends).trans (count ▸ fewer)

/-- When all beams are full, all candidates finish. -/
theorem selectBeams_full {numBeams finalLength : Nat} {beams : List (BeamHypothesis K)}
    (candidates : List (Candidate K)) (finished : List (BeamHypothesis K)) (some_ : 0 < numBeams)
    (full : ∀ candidate ∈ candidates, finalLength ≤ (extend beams candidate).tokens.length) :
    selectBeams lib config numBeams finalLength beams candidates finished [] =
      (finished ++ candidates.map fun candidate => finish lib config (extend beams candidate), []) := by
  induction candidates generalizing finished with
  | nil => rw [selectBeams, List.map_nil, List.append_nil]
  | cons candidate rest ih =>
      rw [selectBeams, List.length_nil, if_pos some_]
      simp only [full candidate List.mem_cons_self, or_true, ↓reduceIte]
      rw [ih _ fun other member => full other (List.mem_cons_of_mem _ member), List.append_assoc]
      rfl

variable (lib config) in
/-- Selection takes nothing back. -/
theorem length_le_selectBeams (numBeams finalLength : Nat) (beams : List (BeamHypothesis K))
    (candidates : List (Candidate K)) (finished newBeams : List (BeamHypothesis K)) :
    finished.length + newBeams.length ≤
      (selectBeams lib config numBeams finalLength beams candidates finished newBeams).1.length +
        (selectBeams lib config numBeams finalLength beams candidates finished newBeams).2.length := by
  induction candidates generalizing finished newBeams with
  | nil => exact le_refl _
  | cons candidate rest ih =>
      rw [selectBeams]
      by_cases room : newBeams.length < numBeams
      · rw [if_pos room]
        by_cases ends : isStopToken config candidate.tokenId = true ∨
            finalLength ≤ (extend beams candidate).tokens.length
        · simp only [if_pos ends]
          refine le_trans ?_ (ih _ _)
          rw [List.length_append, List.length_singleton]
          omega
        · simp only [if_neg ends]
          refine le_trans ?_ (ih _ _)
          rw [List.length_append, List.length_singleton]
          omega
      · rw [if_neg room]

/-- A step with candidates and room has a result. -/
theorem selectBeams_ne_nil {numBeams finalLength : Nat} {beams : List (BeamHypothesis K)}
    {candidates : List (Candidate K)} (some_ : candidates ≠ []) (room : 0 < numBeams)
    (none : (selectBeams lib config numBeams finalLength beams candidates [] []).2 = []) :
    (selectBeams lib config numBeams finalLength beams candidates [] []).1 ≠ [] := by
  intro empty
  obtain ⟨candidate, rest, rfl⟩ := List.exists_cons_of_ne_nil some_
  rw [selectBeams, List.length_nil, if_pos room] at none empty
  simp only [List.nil_append] at none empty
  by_cases ends : isStopToken config candidate.tokenId = true ∨
      finalLength ≤ (extend beams candidate).tokens.length
  · have grows := length_le_selectBeams lib config numBeams finalLength beams rest
      [finish lib config (extend beams candidate)] []
    rw [if_pos ends] at none empty
    rw [none, empty] at grows
    exact absurd grows (Nat.not_succ_le_zero _)
  · have grows := length_le_selectBeams lib config numBeams finalLength beams rest []
      [extend beams candidate]
    rw [if_neg ends] at none empty
    rw [none, empty] at grows
    exact absurd grows (Nat.not_succ_le_zero _)

/-! ## Candidates -/

theorem length_softmax (logits : Logits K) : (softmax lib logits).length = logits.length := by
  cases logits with
  | nil => rfl
  | cons first rest =>
      simp only [softmax]
      split
      · split <;> simp
      · simp

/-- The floor of the logarithm is below that of every positive probability. -/
theorem logProb_zero_lt [IsStrictOrderedRing K] (lawful : lib.Lawful) {p : K} (positive : 0 < p) :
    logProb lib (.finite 0) < logProb lib (.finite p) := by
  have base : (1 : K) < ((10 ^ 10 : ℕ) : K) := by exact_mod_cast (by norm_num : 1 < 10 ^ 10)
  have floor : 0 < ((10 ^ 10 : ℕ) : K)⁻¹ := inv_pos.mpr (one_pos.trans base)
  have below := lawful.log_lt _ _ floor (inv_lt_one_of_one_lt₀ base)
  rw [lawful.log_one] at below
  have rises := lawful.log_lt _ _ floor (lt_add_of_pos_left _ positive)
  simp only [logProb, zero_add]
  rw [min_eq_right below.le]
  exact lt_min below rises

/-- A running beam has candidates. -/
theorem beamCandidates_ne_nil {numBeams step beamIdx : Nat} (some_ : 0 < numBeams)
    {beam : BeamHypothesis K} (running : beam.isFinished = false) {here : List (Candidate K)}
    (returned : beamCandidates lib config model numBeams step beamIdx beam = .ok here) :
    here ≠ [] := by
  rw [beamCandidates, running] at returned
  cases found : nextLogits config model beam.tokens step with
  | error error => simp [found] at returned
  | ok logits =>
      simp only [found, Bool.false_eq_true, ↓reduceIte, Except.ok.injEq] at returned
      rw [← returned]
      apply List.ne_nil_of_length_pos
      have vocabulary := List.length_pos_iff.mpr (nextLogits_ne_nil found)
      rw [List.length_map, List.length_take, (lib.partialSort_perm _ _ _).length_eq]
      simp only [List.length_zipIdx, List.length_map, length_softmax]
      omega

/-- A masked token has the floor of the logarithm, and some token more. -/
theorem tokenScores_of_mask [IsStrictOrderedRing K] (lawful : lib.Lawful) {logits : Logits K}
    (mask : MaskKept config logits) {top : K} (largest : IsLargest top logits) :
    (∀ item ∈ ((softmax lib logits).map (logProb lib)).zipIdx,
      isStopToken config item.2 = true → item.1 = logProb lib (.finite 0)) ∧
    ∃ item ∈ ((softmax lib logits).map (logProb lib)).zipIdx,
      logProb lib (.finite 0) < item.1 := by
  obtain ⟨sum, positive, weights⟩ := softmax_of_largest lawful largest
  rw [weights, List.map_map]
  constructor
  · intro item member stop
    have listed := List.mem_zipIdx_iff_getElem?.mp member
    rw [List.getElem?_map] at listed
    obtain ⟨v, value, is⟩ := Option.map_eq_some_iff.mp listed
    rw [← is, mask _ v value stop]
    change logProb lib (.finite (0 / sum)) = _
    rw [zero_div]
  · obtain ⟨j, topAt⟩ := List.mem_iff_getElem?.mp largest.mem
    refine ⟨(logProb lib (.finite (lib.exp (top - top) / sum)), j), ?_, ?_⟩
    · rw [List.mem_zipIdx_iff_getElem?, List.getElem?_map, topAt]
      rfl
    · rw [sub_self]
      exact logProb_zero_lt lawful (div_pos lawful.exp_zero_pos positive)

omit [Field K] in
/-- The logits of a step before the minimal length are masked, and have a largest one. -/
theorem isLargest_of_allowed {tokens : List Int} {n : Nat} {logits : Logits K}
    (returned : nextLogits config model tokens n = .ok logits) (below : (n : Int) < config.minLength)
    (allowed : Allowed config model tokens) :
    MaskKept config logits ∧ ∃ top, IsLargest top logits := by
  obtain ⟨usable, -, masked⟩ := nextLogits_ok returned
  rw [if_pos below] at masked
  obtain ⟨i, a, at_, -⟩ := allowed.masked
  rw [masked]
  refine ⟨maskKept_maskStops _, exists_isLargest (fun v member => ?_) (List.mem_of_getElem? at_)⟩
  obtain ⟨j, value⟩ := List.mem_iff_getElem?.mp member
  rw [getElem?_maskStops] at value
  obtain ⟨w, before, rfl⟩ := Option.map_eq_some_iff.mp value
  split
  · rfl
  · exact usable w (List.mem_of_getElem? before)

/-- Before the minimal length one of a beam's candidates goes on and is better than all that
are masked. -/
theorem exists_better_candidate [IsStrictOrderedRing K] (lawful : lib.Lawful)
    {numBeams step beamIdx : Nat} (some_ : 0 < numBeams) (below : (step : Int) < config.minLength)
    {beam : BeamHypothesis K} (running : beam.isFinished = false)
    (allowed : Allowed config model beam.tokens) {here : List (Candidate K)}
    (returned : beamCandidates lib config model numBeams step beamIdx beam = .ok here) :
    ∃ best ∈ here, isStopToken config best.tokenId = false ∧
      ∀ stop ∈ here, isStopToken config stop.tokenId = true → stop.score < best.score := by
  rw [beamCandidates, running] at returned
  cases found : nextLogits config model beam.tokens step with
  | error error => simp [found] at returned
  | ok logits =>
      simp only [found, Bool.false_eq_true, ↓reduceIte, Except.ok.injEq] at returned
      obtain ⟨mask, top, largest⟩ := isLargest_of_allowed found below allowed
      obtain ⟨floor, other, listed, above⟩ := tokenScores_of_mask lawful mask largest
      generalize ((softmax lib logits).map (logProb lib)).zipIdx = tokenScores at *
      have room : 0 < min (numBeams * 2) tokenScores.length := by
        have size := List.length_pos_of_mem listed
        omega
      have perm := lib.partialSort_perm (min (numBeams * 2) tokenScores.length)
        (fun item : K × Nat => Score.finite item.1) tokenScores
      cases sorted : lib.partialSort (min (numBeams * 2) tokenScores.length)
          (fun item : K × Nat => Score.finite item.1) tokenScores with
      | nil =>
          have member := perm.mem_iff.mpr listed
          rw [sorted] at member
          cases member
      | cons head rest =>
          have first := partialSort_head lib (fun item : K × Nat => Score.finite item.1)
            (fun _ _ nan => by cases nan) room sorted other listed
          have highest : logProb lib (.finite 0) < head.1 :=
            above.trans_le (by simpa [Score.less] using first)
          have headListed : head ∈ tokenScores :=
            perm.mem_iff.mp (by rw [sorted]; exact List.mem_cons_self)
          refine ⟨⟨beam.score + head.1, beamIdx, head.2⟩, ?_, ?_, ?_⟩
          · rw [← returned, sorted]
            apply List.mem_map_of_mem (f := fun item : K × Nat =>
              (⟨beam.score + item.1, beamIdx, item.2⟩ : Candidate K))
            rw [← Nat.succ_pred_eq_of_pos room, List.take_succ_cons]
            exact List.mem_cons_self
          · by_contra stop
            exact highest.ne' (floor head headListed (Bool.not_eq_false _ ▸ stop))
          · intro stop member ends
            rw [← returned] at member
            obtain ⟨item, taken, rfl⟩ := List.mem_map.mp member
            have masked := floor item (perm.mem_iff.mp (List.mem_of_mem_take taken)) ends
            rw [masked]
            exact add_lt_add_right highest _

end Adai.Decoding.TextGenerator
