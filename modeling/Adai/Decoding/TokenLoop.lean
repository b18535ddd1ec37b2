import Adai.Decoding.MaskedLogits

/-! # The minimal length of one sequence

A sequence honours the minimal length if so many of its new tokens are no stop tokens. In
the loop of the strategies that keep one sequence this comes down to the choice of each
step (`Adai.Decoding.TextGenerator.honoured_of_goesOn`), and a choice goes on where the mask
gets through to it (`Adai.Decoding.TextGenerator.pickAt_goesOn`): the repetition penalty
must leave it, and what a filter puts in the place of dropped logits must stay below the
largest.
-/

namespace Adai.Decoding.TextGenerator

section Picks

variable {σ K : Type} [LinearOrder K] (config : GenerationConfig K) (model : List Int → Matrix K)

/-! ## What gets through -/

/-- Some token that is no stop token has a finite logit. -/
def Allowed (tokens : List Int) : Prop :=
  ∃ (i : Nat) (a : K), (lastRow (model tokens))[i]? = some (.finite a) ∧
    isStopToken config i = false

/-- The stop tokens are at negative infinity. -/
def MaskKept (logits : Logits K) : Prop :=
  ∀ (i : Nat) v, logits[i]? = some v → isStopToken config i = true → v = .negInf

/-- A token that goes on is above negative infinity. -/
def SomeGoesOn (logits : Logits K) : Prop :=
  ∃ (i : Nat) (v : Score K), logits[i]? = some v ∧ Score.negInf.less v = true ∧
    isStopToken config i = false

/-- The mask gets through to a choice at that temperature, with filters or without. -/
structure PickKept [Field K] (lib : Library σ K) (temperature : K) (filters : Prop)
    (logits : Logits K) : Prop where
  mask : MaskKept config logits
  numbers : filters ∨ 0 < temperature → ∀ v ∈ logits, v.usable = true
  floor : filters → ∀ top, IsLargest top logits → (dropped : Score K).less (.finite top) = true ∧
    (0 < temperature → weight lib top dropped = 0)

variable {config model}

omit [LinearOrder K] in
/-- The mask leaves the tokens that go on. -/
theorem Allowed.masked {tokens : List Int} (allowed : Allowed config model tokens) :
    ∃ (i : Nat) (a : K), (maskStops config (lastRow (model tokens)))[i]? = some (.finite a) ∧
      isStopToken config i = false := by
  obtain ⟨i, a, at_, goesOn⟩ := allowed
  refine ⟨i, a, ?_, goesOn⟩
  rw [getElem?_maskStops, at_]
  simp [goesOn]

omit [LinearOrder K] in
theorem maskKept_maskStops (logits : Logits K) : MaskKept config (maskStops config logits) := by
  intro i v at_ stop
  rw [getElem?_maskStops] at at_
  obtain ⟨w, _, is⟩ := Option.map_eq_some_iff.mp at_
  rw [← is, if_pos stop]

theorem above_penalty [Field K] {a : K} (penalty : K) :
    Score.negInf.less (if (Score.finite 0).less (.finite a) then (Score.finite a).div penalty
      else (Score.finite a).mul penalty) = true := by
  by_cases positive : (0 : K) < a
  · have up : (Score.finite 0).less (.finite a) = true := decide_eq_true positive
    rw [if_pos up, Score.div]
    split
    · rw [Score.infinite, if_neg positive.ne', if_neg positive.le.not_gt]
      rfl
    · rfl
  · have up : ¬ (Score.finite 0).less (.finite a) = true := by
      simpa [Score.less] using positive
    rw [if_neg up]
    rfl

/-- The penalty leaves a finite logit above negative infinity. -/
theorem someGoesOn_penalized [Field K] {logits : Logits K} {i : Nat} {a : K}
    (at_ : logits[i]? = some (.finite a)) (goesOn : isStopToken config i = false)
    (generated : List Int) : SomeGoesOn config (penalized config generated logits) := by
  have itself : SomeGoesOn config logits := ⟨i, .finite a, at_, rfl, goesOn⟩
  unfold penalized applyRepetitionPenalty
  split
  · split
    · exact itself
    · refine ⟨i, _, by rw [List.getElem?_mapIdx, at_]; rfl, ?_, goesOn⟩
      simp only
      split
      · exact above_penalty _
      · rfl
  · exact itself

/-- And so does a temperature. -/
theorem SomeGoesOn.applyTemperature [Field K] {logits : Logits K}
    (some_ : SomeGoesOn config logits) (temperature : K) :
    SomeGoesOn config (applyTemperature logits temperature) := by
  unfold TextGenerator.applyTemperature
  split
  · exact some_
  · rename_i hot
    have positive := not_le.mp (not_or.mp hot).1
    obtain ⟨i, v, at_, above, goesOn⟩ := some_
    refine ⟨i, v.div temperature, by rw [List.getElem?_map, at_]; rfl, ?_, goesOn⟩
    cases v with
    | nan => cases above
    | negInf => cases above
    | posInf =>
        rw [Score.div, if_neg positive.le.not_gt]
        rfl
    | finite a =>
        rw [Score.div, if_neg positive.ne']
        rfl

/-! ## Choices go on -/

/-- **Choices.** A choice goes on where the mask gets through to it, whatever the filters
keep. -/
theorem pickAt_goesOn [Field K] [IsStrictOrderedRing K] {lib : Library σ K} (lawful : lib.Lawful)
    {temperature : K} {filters : Prop} {logits filtered : Logits K}
    (kept : PickKept config lib temperature filters logits) (some_ : SomeGoesOn config logits)
    (off : ¬ filters → filtered = logits)
    (on : filters → ∀ top, IsLargest top logits → (dropped : Score K).less (.finite top) = true →
      Filtered logits filtered ∧ IsLargest top filtered) (s : σ) :
    isStopToken config (pickAt lib temperature filtered s).1 = false := by
  obtain ⟨mask, numbers, floor⟩ := kept
  obtain ⟨i, v, at_, above, goesOn⟩ := some_
  have largest_of (usable : ∀ w ∈ logits, w.usable = true) : ∃ top, IsLargest top logits := by
    have member := List.mem_of_getElem? at_
    have number := usable v member
    cases v with
    | nan => cases above
    | negInf => cases above
    | posInf => cases number
    | finite a => exact exists_isLargest usable member
  by_cases filters_ : filters
  · obtain ⟨top, largest⟩ := largest_of (numbers (.inl filters_))
    obtain ⟨higher, light⟩ := floor filters_ top largest
    obtain ⟨each, stillLargest⟩ := on filters_ top largest higher
    have stops (j : Nat) (w : Score K) (value : filtered[j]? = some w)
        (stop : isStopToken config j = true) : w = .negInf ∨ w = dropped :=
      (each.2 j w value).imp_left fun before => mask j w before stop
    by_cases cold : temperature ≤ 0
    · rw [pickAt, if_pos cold]
      apply argmax_goesOn (List.ne_nil_of_mem stillLargest.mem)
      intro j w value stop tops
      have is := stillLargest.eq_of_tops (List.mem_of_getElem? value) tops
      rcases stops j w value stop with masked | drop
      · rw [masked] at is
        cases is
      · rw [← is, drop] at higher
        simp [dropped, Score.less] at higher
    · rw [pickAt, if_neg cold]
      apply sampleToken_goesOn lawful stillLargest
      intro j w value stop
      rcases stops j w value stop with rfl | rfl
      · rfl
      · exact light (not_le.mp cold)
  · rw [off filters_]
    by_cases cold : temperature ≤ 0
    · rw [pickAt, if_pos cold]
      have member := List.mem_of_getElem? at_
      apply argmax_goesOn (List.ne_nil_of_mem member)
      intro j w value stop tops
      rcases tops with nan | below
      · rw [mask j w value stop] at nan
        cases nan
      · rw [mask j w value stop] at below
        exact absurd above (Bool.eq_false_iff.mp (below v member))
    · rw [pickAt, if_neg cold]
      obtain ⟨top, largest⟩ := largest_of (numbers (.inr (not_le.mp cold)))
      apply sampleToken_goesOn lawful largest
      intro j w value stop
      rw [mask j w value stop]
      rfl

end Picks

/-! ## Sequences -/

section Loops

variable {σ K : Type} (config : GenerationConfig K)

/-- The first new tokens are no stop tokens, and there are enough of them, as far as the
maximal length allows. -/
def Honoured (start result : List Int) : Prop :=
  ∃ new, result = start ++ new ∧
    (∀ token ∈ new.take config.minLength.toNat, isStopToken config token = false) ∧
      min config.minLength.toNat config.maxLength.toNat ≤ new.length

variable {config}

theorem honoured_of_forall {start new : List Int}
    (goesOn : ∀ token ∈ new, isStopToken config token = false)
    (enough : min config.minLength.toNat config.maxLength.toNat ≤ new.length) :
    Honoured config start (start ++ new) :=
  ⟨new, rfl, fun token member => goesOn token (List.mem_of_mem_take member), enough⟩

/-- Behind enough tokens any token may follow. -/
theorem honoured_snoc {start new : List Int}
    (goesOn : ∀ token ∈ new, isStopToken config token = false)
    (enough : config.minLength.toNat ≤ new.length) (token : Int) :
    Honoured config start (start ++ new ++ [token]) := by
  refine ⟨new ++ [token], List.append_assoc .., ?_, ?_⟩
  · rw [List.take_append_of_le_length enough]
    exact fun other member => goesOn other (List.mem_of_mem_take member)
  · rw [List.length_append, List.length_singleton]
    omega

theorem nextLogits_ok {model : List Int → Matrix K} {tokens : List Int} {n : Nat}
    {logits : Logits K} (returned : nextLogits config model tokens n = .ok logits) :
    (∀ v ∈ lastRow (model tokens), v.usable = true) ∧ lastRow (model tokens) ≠ [] ∧
      logits = if (n : Int) < config.minLength then maskStops config (lastRow (model tokens))
        else lastRow (model tokens) := by
  simp only [nextLogits] at returned
  by_cases none : (model tokens).length < 1 ∨ (row (model tokens) 0).length < 1
  · rw [if_pos none] at returned
    cases returned
  rw [if_neg none] at returned
  by_cases usable : (lastRow (model tokens)).all Score.usable = true
  · rw [if_neg (not_not.mpr usable)] at returned
    by_cases finite : (lastRow (model tokens)).any Score.isFinite = true
    · rw [if_neg (not_not.mpr finite)] at returned
      refine ⟨List.all_eq_true.mp usable, ?_, ?_⟩
      · obtain ⟨v, member, _⟩ := List.any_eq_true.mp finite
        exact List.ne_nil_of_mem member
      · by_cases below : (n : Int) < config.minLength
        · rw [if_pos below] at returned ⊢
          exact (Except.ok.inj returned).symm
        · rw [if_neg below] at returned ⊢
          exact (Except.ok.inj returned).symm
    · rw [if_pos finite] at returned
      cases returned
  · rw [if_pos usable] at returned
    cases returned

theorem nextLogits_ne_nil {model : List Int → Matrix K} {tokens : List Int} {n : Nat} {logits : Logits K}
    (returned : nextLogits config model tokens n = .ok logits) : logits ≠ [] := by
  obtain ⟨-, some_, is⟩ := nextLogits_ok returned
  rw [is]
  split
  · intro empty
    have size := length_maskStops config (lastRow (model tokens))
    rw [empty] at size
    exact some_ (List.length_eq_zero_iff.mp size.symm)
  · exact some_

variable (config) (model : List Int → Matrix K) (pick : Pick σ K) (promptTokens : List Int) (s₀ : σ)

/-- The states that the steps of the loop start from. -/
inductive TokenReached : Nat → List Int → σ → Prop
  | start : TokenReached 0 (startTokens config promptTokens) s₀
  | next {step : Nat} {generated : List Int} {s : σ} {logits : Logits K}
      (before : TokenReached step generated s)
      (found : nextLogits config model generated step = .ok logits)
      (goesOn : isStopToken config (pick generated logits s).1 = false) :
      TokenReached (step + 1) (generated ++ [(pick generated logits s).1])
        (pick generated logits s).2

variable {config model pick promptTokens s₀}

/-- **The loop.** If every step before the minimal length goes on, the sequence honours
it. -/
theorem honoured_of_goesOn
    (goesOn : ∀ step generated s logits, TokenReached config model pick promptTokens s₀ step
      generated s → (step : Int) < config.minLength → step < config.maxLength.toNat →
        nextLogits config model generated step = .ok logits →
          isStopToken config (pick generated logits s).1 = false)
    {result : List Int × σ}
    (returned : generateTokens config model pick promptTokens s₀ = .ok result) :
    Honoured config (startTokens config promptTokens) result.1 := by
  have runs : ∀ left step generated s new, step + left = config.maxLength.toNat →
      TokenReached config model pick promptTokens s₀ step generated s →
      generated = startTokens config promptTokens ++ new → new.length = step →
      (∀ token ∈ new, isStopToken config token = false) →
      tokenLoop config model pick left step generated s = .ok result →
        Honoured config (startTokens config promptTokens) result.1 := by
    intro left
    induction left with
    | zero =>
        intro step generated s new sum _ is size all returned
        cases returned
        rw [is]
        exact honoured_of_forall all (by omega)
    | succ left ih =>
        intro step generated s new sum reached is size all returned
        rw [tokenLoop] at returned
        cases found : nextLogits config model generated step with
        | error error =>
            rw [found] at returned
            cases returned
        | ok logits =>
            rw [found] at returned
            simp only at returned
            by_cases stop : isStopToken config (pick generated logits s).1 = true
            · rw [if_pos stop] at returned
              cases returned
              rw [is]
              apply honoured_snoc all
              by_contra short
              have goes := goesOn step generated s logits reached (by omega) (by omega) found
              rw [goes] at stop
              cases stop
            · rw [if_neg stop] at returned
              have goes := Bool.eq_false_iff.mpr stop
              refine ih (step + 1) _ _ (new ++ [(pick generated logits s).1]) (by omega)
                (reached.next found goes) (by rw [is, List.append_assoc])
                (by rw [List.length_append, List.length_singleton, size]) ?_ returned
              intro token member
              rcases List.mem_append.mp member with before | here
              · exact all token before
              · rw [List.mem_singleton.mp here]
                exact goes
  exact runs _ 0 _ s₀ [] (Nat.zero_add _) .start (List.append_nil _).symm rfl
    (fun _ member => absurd member List.not_mem_nil) returned

end Loops

end Adai.Decoding.TextGenerator
