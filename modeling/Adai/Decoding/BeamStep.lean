import Adai.Decoding.TextGenerator

/-! # A step of beam search

What a step makes of its beams: every candidate extends a beam by one of that beam's own
candidates (`Adai.Decoding.TextGenerator.mem_candidatesFrom`), and selection sorts them into
beams that finish and beams that go on (`Adai.Decoding.TextGenerator.selectBeams_spec`). A
score never rises on the way (`Adai.Decoding.TextGenerator.score_le_of_beamCandidates`).
-/

namespace Adai.Decoding.TextGenerator

variable {σ K : Type} [Field K] [LinearOrder K] (lib : Library σ K) (config : GenerationConfig K)
  (model : List Int → Matrix K)

/-! ## Candidates -/

variable {lib config model}

/-- The candidates are those of the beams. -/
theorem mem_candidatesFrom {numBeams step beamIdx : Nat} {beams : List (BeamHypothesis K)}
    {candidates : List (Candidate K)}
    (returned : candidatesFrom lib config model numBeams step beamIdx beams = .ok candidates) :
    (∀ candidate ∈ candidates, ∃ i beam here, beams[i]? = some beam ∧
      beamCandidates lib config model numBeams step (beamIdx + i) beam = .ok here ∧
        candidate ∈ here) ∧
    ∀ i beam, beams[i]? = some beam → ∃ here,
      beamCandidates lib config model numBeams step (beamIdx + i) beam = .ok here ∧
        ∀ candidate ∈ here, candidate ∈ candidates := by
  induction beams generalizing beamIdx candidates with
  | nil =>
      cases returned
      constructor
      · intro candidate member
        cases member
      · intro i beam at_
        cases at_
  | cons first rest ih =>
      rw [candidatesFrom] at returned
      cases hereIs : beamCandidates lib config model numBeams step beamIdx first with
      | error error => simp [hereIs] at returned
      | ok here =>
          cases laterIs : candidatesFrom lib config model numBeams step (beamIdx + 1) rest with
          | error error => simp [hereIs, laterIs] at returned
          | ok later =>
              simp only [hereIs, laterIs] at returned
              cases returned
              obtain ⟨some_, all⟩ := ih laterIs
              constructor
              · intro candidate member
                rcases List.mem_append.mp member with member | member
                · exact ⟨0, first, here, rfl, hereIs, member⟩
                · obtain ⟨i, beam, list, at_, is, member⟩ := some_ candidate member
                  exact ⟨i + 1, beam, list, at_, by rw [← is, Nat.add_right_comm]; rfl, member⟩
              · intro i beam at_
                cases i with
                | zero =>
                    cases at_
                    exact ⟨here, hereIs, fun _ member => List.mem_append_left _ member⟩
                | succ i =>
                    obtain ⟨list, is, sub⟩ := all i beam at_
                    exact ⟨list, by rw [← is, Nat.add_right_comm]; rfl,
                      fun _ member => List.mem_append_right _ (sub _ member)⟩

theorem logProb_le_zero (prob : Score K) : logProb lib prob ≤ 0 := by
  unfold logProb
  split
  · exact min_le_left _ _
  · exact le_refl _

/-- A candidate is a token of the vocabulary, by its probability. -/
theorem of_mem_beamCandidates {numBeams step beamIdx : Nat} {beam : BeamHypothesis K}
    {here : List (Candidate K)}
    (returned : beamCandidates lib config model numBeams step beamIdx beam = .ok here)
    {candidate : Candidate K} (member : candidate ∈ here) :
    ∃ lastLogits, nextLogits config model beam.tokens step = .ok lastLogits ∧
      candidate.beamIdx = beamIdx ∧
        ∃ (i : Nat) (prob : Score K), (softmax lib lastLogits)[i]? = some prob ∧
          candidate.tokenId = i ∧ candidate.score = beam.score + logProb lib prob := by
  unfold beamCandidates at returned
  split at returned
  · cases returned
    cases member
  · cases logits : nextLogits config model beam.tokens step with
    | error error => simp [logits] at returned
    | ok lastLogits =>
        simp only [logits] at returned
        cases returned
        obtain ⟨⟨tokenScore, i⟩, taken, rfl⟩ := List.mem_map.mp member
        have listed := (lib.partialSort_perm _ _ _).mem_iff.mp (List.mem_of_mem_take taken)
        obtain ⟨prob, at_, is⟩ : ∃ prob, (softmax lib lastLogits)[i]? = some prob ∧
            logProb lib prob = tokenScore := by
          simpa [List.mem_zipIdx_iff_getElem?] using listed
        exact ⟨lastLogits, rfl, rfl, i, prob, at_, rfl, by rw [is]⟩

/-- The score of a candidate is no better than its beam's. -/
theorem score_le_of_beamCandidates [IsStrictOrderedRing K] {numBeams step beamIdx : Nat}
    {beam : BeamHypothesis K} {here : List (Candidate K)}
    (returned : beamCandidates lib config model numBeams step beamIdx beam = .ok here)
    {candidate : Candidate K} (member : candidate ∈ here) : candidate.score ≤ beam.score := by
  obtain ⟨_, _, _, _, prob, _, _, score⟩ := of_mem_beamCandidates returned member
  rw [score]
  exact add_le_of_nonpos_right (logProb_le_zero prob)

/-! ## Selection -/

variable (lib config) in
/-- What is selected are extended beams: those that end or are full finish, and the others
go on. -/
theorem selectBeams_spec (numBeams finalLength : Nat) (beams : List (BeamHypothesis K))
    (candidates : List (Candidate K)) (finished newBeams : List (BeamHypothesis K)) :
    (∀ beam ∈ (selectBeams lib config numBeams finalLength beams candidates finished newBeams).1,
      beam ∈ finished ∨ ∃ candidate ∈ candidates,
        beam = finish lib config (extend beams candidate) ∧
          (isStopToken config candidate.tokenId ∨
            finalLength ≤ (extend beams candidate).tokens.length)) ∧
    ∀ beam ∈ (selectBeams lib config numBeams finalLength beams candidates finished newBeams).2,
      beam ∈ newBeams ∨ ∃ candidate ∈ candidates, beam = extend beams candidate ∧
        isStopToken config candidate.tokenId = false ∧
          (extend beams candidate).tokens.length < finalLength := by
  induction candidates generalizing finished newBeams with
  | nil => exact ⟨fun _ => .inl, fun _ => .inl⟩
  | cons candidate rest ih =>
      have lift {P : Candidate K → Prop} (later : ∃ other ∈ rest, P other) :
          ∃ other ∈ candidate :: rest, P other := by
        obtain ⟨other, member, holds⟩ := later
        exact ⟨other, List.mem_cons_of_mem _ member, holds⟩
      rw [selectBeams]
      by_cases room : newBeams.length < numBeams
      · rw [if_pos room]
        by_cases ends : isStopToken config candidate.tokenId = true ∨
            finalLength ≤ (extend beams candidate).tokens.length
        · simp only [if_pos ends]
          refine ⟨fun beam member => ?_, fun beam member => ((ih _ _).2 beam member).imp_right lift⟩
          rcases (ih _ _).1 beam member with before | later
          · rcases List.mem_append.mp before with before | here
            · exact .inl before
            · exact .inr ⟨candidate, List.mem_cons_self, List.mem_singleton.mp here, ends⟩
          · exact .inr (lift later)
        · simp only [if_neg ends]
          obtain ⟨goes, short⟩ := not_or.mp ends
          refine ⟨fun beam member => ((ih _ _).1 beam member).imp_right lift, fun beam member => ?_⟩
          rcases (ih _ _).2 beam member with before | later
          · rcases List.mem_append.mp before with before | here
            · exact .inl before
            · exact .inr ⟨candidate, List.mem_cons_self, List.mem_singleton.mp here,
                Bool.eq_false_iff.mpr goes, Nat.lt_of_not_le short⟩
          · exact .inr (lift later)
      · rw [if_neg room]
        exact ⟨fun _ => .inl, fun _ => .inl⟩

/-! ## Steps -/

/-- One token more, and a score that is no better. -/
def Descends (beam child : BeamHypothesis K) : Prop :=
  (∃ token, child.tokens = beam.tokens ++ [token]) ∧ child.score ≤ beam.score

omit [Field K] in
theorem Descends.length {beam child : BeamHypothesis K} (descends : Descends beam child) :
    child.tokens.length = beam.tokens.length + 1 := by
  obtain ⟨⟨token, tokens⟩, _⟩ := descends
  rw [tokens, List.length_append, List.length_singleton]

/-- A candidate extends the beam that it is a candidate of. -/
theorem extend_of_candidate {numBeams step : Nat} {beams : List (BeamHypothesis K)}
    {candidates : List (Candidate K)}
    (gathered : candidatesFrom lib config model numBeams step 0 beams = .ok candidates)
    {candidate : Candidate K} (member : candidate ∈ candidates) :
    ∃ i beam here, beams[i]? = some beam ∧
      beamCandidates lib config model numBeams step i beam = .ok here ∧ candidate ∈ here ∧
        extend beams candidate =
          { tokens := beam.tokens ++ [candidate.tokenId], score := candidate.score } := by
  obtain ⟨i, beam, here, at_, is, listed⟩ := (mem_candidatesFrom gathered).1 candidate member
  obtain ⟨_, _, index, _⟩ := of_mem_beamCandidates is listed
  rw [Nat.zero_add] at is index
  refine ⟨i, beam, here, at_, is, listed, ?_⟩
  rw [extend, index, List.getD_eq_getElem?_getD, at_]
  rfl

/-- A beam's candidates are candidates of the step. -/
theorem candidate_of_beamCandidates {numBeams step i : Nat} {beams : List (BeamHypothesis K)}
    {candidates here : List (Candidate K)}
    (gathered : candidatesFrom lib config model numBeams step 0 beams = .ok candidates)
    {beam : BeamHypothesis K} (at_ : beams[i]? = some beam)
    (is : beamCandidates lib config model numBeams step i beam = .ok here) :
    ∀ candidate ∈ here, candidate ∈ candidates := by
  obtain ⟨list, listIs, sub⟩ := (mem_candidatesFrom gathered).2 i beam at_
  rw [Nat.zero_add, is] at listIs
  cases listIs
  exact sub

/-- The beams of a step descend from those before. -/
theorem beamStep_descends [IsStrictOrderedRing K] {numBeams finalLength step : Nat}
    {beams finished next : List (BeamHypothesis K)}
    (returned : beamStep lib config model numBeams finalLength step beams = .ok (finished, next)) :
    (∀ beam ∈ finished, ∃ parent ∈ beams, ∃ child, Descends parent child ∧
      beam = finish lib config child) ∧
    ∀ beam ∈ next, beam.tokens.length < finalLength ∧ ∃ parent ∈ beams, Descends parent beam := by
  unfold beamStep at returned
  cases gathered : candidatesFrom lib config model numBeams step 0 beams with
  | error error => simp [gathered] at returned
  | ok candidates =>
      simp only [gathered] at returned
      have extended {candidate : Candidate K} (member : candidate ∈ lib.sort
          (fun candidate => .finite candidate.score) candidates) :
          ∃ parent ∈ beams, Descends parent (extend beams candidate) := by
        obtain ⟨i, parent, here, at_, is, listed, extends_⟩ :=
          extend_of_candidate gathered ((lib.sort_perm _ _).mem_iff.mp member)
        rw [extends_]
        exact ⟨parent, List.mem_of_getElem? at_, ⟨candidate.tokenId, rfl⟩,
          score_le_of_beamCandidates is listed⟩
      obtain ⟨ends, goes⟩ := selectBeams_spec lib config numBeams finalLength beams
        (lib.sort (fun candidate => .finite candidate.score) candidates) [] []
      rw [Except.ok.inj returned] at ends goes
      constructor
      · intro beam member
        rcases ends beam member with none | ⟨candidate, listed, is, _⟩
        · cases none
        · obtain ⟨parent, before, descends⟩ := extended listed
          exact ⟨parent, before, _, descends, is⟩
      · intro beam member
        rcases goes beam member with none | ⟨candidate, listed, is, _, short⟩
        · cases none
        · rw [is]
          exact ⟨short, extended listed⟩

end Adai.Decoding.TextGenerator
