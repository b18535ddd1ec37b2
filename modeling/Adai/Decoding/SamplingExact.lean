import Adai.Decoding.DecodingLaw
import Mathlib.Algebra.Order.BigOperators.Group.List
import Mathlib.Data.List.GetD
import Mathlib.MeasureTheory.Measure.Lebesgue.Basic
import Mathlib.Topology.Algebra.InfiniteSum.ENNReal

/-! # Sampling speculative decoding

With exact probabilities and a uniform source, accepting a proposal as often as the
smaller of its two probabilities asks, and drawing from what the target has more
otherwise, gives the target's law (`exact_of_sampling`). So the tokens that
`generateTokens` returns have the law of ancestral sampling from the target alone
(`generate_tokens_sampling`), whatever the draft proposes and however many tokens.
-/

/-! ## Greedy speculative decoding

In greedy mode nothing is drawn, and whatever the draft proposes, `generateTokens`
returns the tokens of plain decoding with the target: its largest logit, token by
token, up to the end token or the bound (`generate_tokens_greedy`). The target may
answer for every position (`serves_perPosition`) or for the last one only
(`serves_lastOnly`).
-/

namespace Adai.Decoding

open StatefulLaw Speculation SpeculativeDecoder

variable {α : Type} [LT α] [DecidableLT α]

/-- The target's largest logit, token by token. -/
def argmaxDecode (next : List Int → Logits α) (eos : Int) : Nat → List Int → List Int
  | 0, _ => []
  | n + 1, context =>
      if argmax (next context) = eos then [argmax (next context)]
      else argmax (next context) :: argmaxDecode next eos n (context ++ [argmax (next context)])

theorem argmaxDecode_length_le (next : List Int → Logits α) (eos : Int) (n : Nat)
    (context : List Int) : (argmaxDecode next eos n context).length ≤ n := by
  induction n generalizing context with
  | zero => exact Nat.le_refl 0
  | succ n ih =>
      rw [argmaxDecode]
      split
      · exact Nat.succ_le_succ (Nat.zero_le n)
      · exact Nat.succ_le_succ (ih _)

variable {M : Type → Type} [Monad M] [LawfulMonad M] {next : List Int → Logits α}

/-- A proposal that is not the target's token is replaced by it. -/
theorem exact_of_greedy {setup : Setup M α} (greedy_ : greedy setup = true) :
    (scheme setup next).Exact := by
  intro calls context some_
  simp only [scheme, propose, targetToken, greedy_, if_true, pure_bind, Scheme.settle,
    acceptProposal, replaceProposal]
  by_cases same : argmax (lastRow (setup.models.draft calls context)) = argmax (next context) <;>
    simp [same]

theorem plainTarget_greedy {setup : Setup M α} (greedy_ : greedy setup = true) (n : Nat)
    (context : List Int) : plainTarget setup next n context =
      pure (argmaxDecode next setup.models.eosTokenId n context) := by
  induction n generalizing context with
  | zero => rfl
  | succ n ih =>
      have chosen : (scheme setup next).choose context = pure (argmax (next context)) :=
        if_pos greedy_
      rw [plainTarget, plain, chosen, pure_bind, argmaxDecode]
      split
      · rfl
      · exact (congrArg _ (ih _)).trans (map_pure _ _)

/-- **Greedy decoding is exact.** From any state of the decoder and for any draft, the
tokens are those of plain decoding with the target, at most as many as asked for. -/
theorem generate_tokens_greedy {setup : Setup Id α} (greedy_ : greedy setup = true)
    (serves : Serves setup next) (prompt : List Int) (maxNewTokens : Int)
    (d : SpeculativeDecoder) :
    ∃ tokens, ((generateTokens setup prompt maxNewTokens).run.run d).1 = .ok tokens ∧
      tokens = argmaxDecode next setup.models.eosTokenId (newTokenBound setup maxNewTokens)
        (startContext setup prompt) ∧
      tokens.length ≤ newTokenBound setup maxNewTokens := by
  refine ⟨_, ?_, rfl, argmaxDecode_length_le next _ _ _⟩
  have law := (follows_generateTokens independent_id (exact_of_greedy greedy_) serves prompt
    maxNewTokens d).map_fst
  rw [plainTarget_greedy greedy_] at law
  exact law

/-- Two models that disagree: the draft alternates, the target counts its input. -/
def countingNext (context : List Int) : Logits Int :=
  if context.length < 4 then [.finite 0, .finite 1, .negInf] else [.finite 0, .finite 0, .finite 1]

def countingSetup (target : List Int → Matrix Int) : Setup Id Int where
  models :=
    { draft := fun calls _ => [[.finite (calls % 2), .finite 0, .negInf]]
      target := target
      bosTokenId := 1
      configEosTokenId := 2
      tokenizerEosTokenId := none }
  config := { numCandidates := 3, useGreedy := true }
  distribution := fun _ _ => []
  rng := ⟨fun _ => 0, fun _ => false⟩

theorem countingDraft_usable (target : List Int → Matrix Int) :
    DraftUsable (countingSetup target).models :=
  fun _ _ _ => ⟨⟨Nat.le_refl 1, Nat.le_add_left 1 2⟩, rfl⟩

theorem countingNext_usable : RowsUsable countingNext := by
  intro context _
  rw [countingNext]
  split <;> exact ⟨by decide, by decide⟩

theorem generate_tokens_greedy_counting :
    (∃ tokens, ((generateTokens (countingSetup fun context => [countingNext context])
        [] 6).run.run ⟨0, 0, 0, 0, 0, .unknown⟩).1 = .ok tokens ∧ tokens = [1, 1, 1, 2] ∧
      tokens.length ≤ 6) ∧
    ∃ tokens, ((generateTokens (countingSetup fun context =>
        (List.range context.length).map fun i => countingNext (context.take (i + 1)))
        [] 6).run.run ⟨0, 0, 0, 0, 0, .unknown⟩).1 = .ok tokens ∧ tokens = [1, 1, 1, 2] ∧
      tokens.length ≤ 6 := by
  constructor
  · exact generate_tokens_greedy rfl (serves_lastOnly (.inl rfl) (countingDraft_usable _)
      countingNext_usable fun _ _ => rfl) [] 6 _
  · exact generate_tokens_greedy rfl (serves_perPosition (.inl rfl) (countingDraft_usable _)
      countingNext_usable fun _ _ => rfl) [] 6 _

end Adai.Decoding

noncomputable section

namespace Adai.Decoding

open StatefulLaw Speculation SpeculativeDecoder

open scoped ENNReal

/-! ## A uniform source -/

/-- The weight of a token; none past the end of the list. -/
def weight (weights : List ℚ) (n : Nat) : ℝ≥0∞ := ENNReal.ofReal (weights.getD n 0 : ℚ)

/-- A discrete distribution: each token as often as its share of the weights. -/
def sample (weights : List ℚ) : PMF Nat :=
  if total : tsum (weight weights) ≠ 0 ∧ tsum (weight weights) ≠ ∞ then
    PMF.normalize (weight weights) total.1 total.2
  else PMF.pure 0

/-- How likely a uniform value from `[0, 1)` lies below a bound. -/
def massBelow (bound : ℚ) : ℝ≥0∞ :=
  MeasureTheory.volume (Set.Ico (0 : ℝ) 1 ∩ Set.Iio (bound : ℝ))

theorem massBelow_eq (bound : ℚ) : massBelow bound = ENNReal.ofReal (min 1 bound : ℚ) := by
  rw [massBelow, Set.Ico_inter_Iio, Real.volume_Ico, sub_zero, Rat.cast_min, Rat.cast_one]

theorem massBelow_le_one (bound : ℚ) : massBelow bound ≤ 1 := by
  rw [massBelow_eq, ← ENNReal.ofReal_one]
  exact ENNReal.ofReal_le_ofReal (by exact_mod_cast min_le_left 1 bound)

def uniformBelow (bound : ℚ) : PMF Bool :=
  PMF.ofFintype (fun below => if below then massBelow bound else 1 - massBelow bound)
    (by
      rw [Fintype.sum_bool]
      exact add_tsub_cancel_of_le (massBelow_le_one bound))

def uniformSource : RandomSource PMF := ⟨sample, uniformBelow⟩

theorem independent_pmf : Independent PMF where
  comm x y f := PMF.bind_comm x y f
  const x y := PMF.bind_const x y

/-! ## Lists of probabilities -/

structure IsDistribution (probs : List ℚ) : Prop where
  nonneg : ∀ x ∈ probs, 0 ≤ x
  sum : probs.sum = 1

theorem getD_nonneg {weights : List ℚ} (nonneg : ∀ x ∈ weights, 0 ≤ x) (n : Nat) :
    0 ≤ weights.getD n 0 := by
  by_cases inside : n < weights.length
  · rw [List.getD_eq_getElem _ _ inside]
    exact nonneg _ (List.getElem_mem inside)
  · rw [List.getD_eq_default _ _ (Nat.not_lt.mp inside)]

theorem tsum_weight {weights : List ℚ} (nonneg : ∀ x ∈ weights, 0 ≤ x) :
    tsum (weight weights) = ENNReal.ofReal (weights.sum : ℚ) := by
  induction weights with
  | nil => simp [weight]
  | cons w rest ih =>
      have later := ih fun x member => nonneg x (List.mem_cons_of_mem _ member)
      have first : 0 ≤ w := nonneg w List.mem_cons_self
      have others : 0 ≤ rest.sum :=
        List.sum_nonneg fun x member => nonneg x (List.mem_cons_of_mem _ member)
      calc tsum (weight (w :: rest))
          = weight (w :: rest) 0 + tsum (fun n => weight (w :: rest) (n + 1)) :=
            tsum_eq_zero_add' ENNReal.summable
        _ = ENNReal.ofReal (w : ℚ) + ENNReal.ofReal (rest.sum : ℚ) := by
            rw [← later]
            rfl
        _ = ENNReal.ofReal ((w :: rest).sum : ℚ) := by
            rw [List.sum_cons, Rat.cast_add,
              ENNReal.ofReal_add (Rat.cast_nonneg.mpr first) (Rat.cast_nonneg.mpr others)]

theorem sample_apply {weights : List ℚ} (nonneg : ∀ x ∈ weights, 0 ≤ x)
    (positive : 0 < weights.sum) (n : Nat) :
    ENNReal.ofReal (weights.sum : ℚ) * sample weights n = weight weights n := by
  have some_ : ENNReal.ofReal (weights.sum : ℚ) ≠ 0 :=
    (ENNReal.ofReal_pos.mpr (Rat.cast_pos.mpr positive)).ne'
  have total : tsum (weight weights) ≠ 0 ∧ tsum (weight weights) ≠ ∞ := by
    rw [tsum_weight nonneg]
    exact ⟨some_, ENNReal.ofReal_ne_top⟩
  rw [sample, dif_pos total, PMF.normalize_apply, tsum_weight nonneg, mul_left_comm,
    ENNReal.mul_inv_cancel some_ ENNReal.ofReal_ne_top, mul_one]

/-- Probabilities are drawn as they are. -/
theorem sample_distribution {probs : List ℚ} (distribution : IsDistribution probs) (n : Nat) :
    sample probs n = weight probs n := by
  have positive : 0 < probs.sum := distribution.sum.symm ▸ zero_lt_one
  have drawn := sample_apply distribution.nonneg positive n
  rwa [distribution.sum, Rat.cast_one, ENNReal.ofReal_one, one_mul] at drawn

/-! ## One proposal -/

theorem residual_nonneg (p q : List ℚ) : ∀ x ∈ SpeculativeDecoder.residual p q, 0 ≤ x := by
  intro x member
  obtain ⟨j, inside, rfl⟩ := List.mem_mapIdx.mp member
  exact le_max_left _ _

/-- What the target has more for a token. -/
theorem weight_residual {p q : List ℚ} (nonneg : ∀ x ∈ q, 0 ≤ x) (n : Nat) :
    weight (SpeculativeDecoder.residual p q) n = weight p n - weight q n := by
  have below := getD_nonneg nonneg n
  rw [weight, weight, weight, ← ENNReal.ofReal_sub _ (Rat.cast_nonneg.mpr below), ← Rat.cast_sub]
  by_cases inside : n < p.length
  · have entry : (SpeculativeDecoder.residual p q).getD n 0 = max 0 (p.getD n 0 - q.getD n 0) := by
      simp [SpeculativeDecoder.residual, List.getD_eq_getElem?_getD, inside]
    rw [entry, Rat.cast_max, Rat.cast_zero, ENNReal.ofReal_max, ENNReal.ofReal_zero]
    exact max_eq_right zero_le
  · have outside := Nat.not_lt.mp inside
    have entry : (SpeculativeDecoder.residual p q).getD n 0 = 0 :=
      List.getD_eq_default _ _ (by rwa [SpeculativeDecoder.residual, List.length_mapIdx])
    rw [entry, List.getD_eq_default _ _ outside, Rat.cast_zero, ENNReal.ofReal_zero, zero_sub,
      ENNReal.ofReal_of_nonpos]
    exact_mod_cast neg_nonpos.mpr below

variable {p q : List ℚ}

theorem excess_sample (hp : IsDistribution p) (hq : IsDistribution q) :
    RejectionSampling.excess (sample p) (sample q) = ENNReal.ofReal ((SpeculativeDecoder.residual p q).sum : ℚ) := by
  rw [RejectionSampling.excess, ← tsum_weight (residual_nonneg p q)]
  congr 1
  funext n
  rw [sample_distribution hp, sample_distribution hq, weight_residual hq.nonneg]

theorem getD_proposed {q : List ℚ} (proposed : ∀ x ∈ q, x = 0 ∨ 1 / 10 ^ 30 ≤ x) (n : Nat) :
    q.getD n 0 = 0 ∨ 1 / 10 ^ 30 ≤ q.getD n 0 := by
  by_cases inside : n < q.length
  · rw [List.getD_eq_getElem _ _ inside]
    exact proposed _ (List.getElem_mem inside)
  · exact .inl (List.getD_eq_default _ _ (Nat.not_lt.mp inside))

/-- Drawn and accepted with the smaller probability. -/
theorem sample_mul_accept (hp : IsDistribution p) (hq : IsDistribution q)
    (proposed : ∀ x ∈ q, x = 0 ∨ 1 / 10 ^ 30 ≤ x) (n : Nat) :
    sample q n * uniformBelow (acceptanceBound p ⟨Int.ofNat n, q⟩) true =
      min (sample q n) (sample p n) := by
  have accepted : uniformBelow (acceptanceBound p ⟨Int.ofNat n, q⟩) true =
      ENNReal.ofReal (min 1 (p.getD n 0 / max (q.getD n 0) (1 / 10 ^ 30)) : ℚ) := by
    rw [uniformBelow, PMF.ofFintype_apply, if_pos rfl, massBelow_eq, acceptanceBound, ← min_assoc,
      min_self]
    rfl
  have nonneg := getD_nonneg hq.nonneg n
  rw [accepted, sample_distribution hp, sample_distribution hq, weight, weight,
    ← ENNReal.ofReal_mul (Rat.cast_nonneg.mpr nonneg), ← Rat.cast_mul, ← ENNReal.ofReal_min,
    ← Rat.cast_min]
  congr 2
  rcases getD_proposed proposed n with none_ | enough
  · rw [none_, zero_mul, min_eq_left (getD_nonneg hp.nonneg n)]
  · have positive : 0 < q.getD n 0 := lt_of_lt_of_le (by norm_num) enough
    rw [max_eq_left enough, mul_min_of_nonneg _ _ nonneg, mul_one, mul_div_cancel₀ _ positive.ne']

/-- What is drawn in place of a proposal that is not accepted. -/
theorem excess_mul_replace (hp : IsDistribution p) (hq : IsDistribution q) (n : Nat) :
    RejectionSampling.excess (sample p) (sample q) *
        (if 0 < (SpeculativeDecoder.residual p q).sum then sample (SpeculativeDecoder.residual p q) else sample p) n =
      sample p n - sample q n := by
  rw [excess_sample hp hq, sample_distribution hp, sample_distribution hq,
    ← weight_residual hq.nonneg]
  by_cases some_ : 0 < (SpeculativeDecoder.residual p q).sum
  · rw [if_pos some_]
    exact sample_apply (residual_nonneg p q) some_ n
  · have nothing : (SpeculativeDecoder.residual p q).sum = 0 :=
      le_antisymm (not_lt.mp some_) (List.sum_nonneg (residual_nonneg p q))
    have total := tsum_weight (residual_nonneg p q)
    rw [nothing, Rat.cast_zero, ENNReal.ofReal_zero] at total ⊢
    rw [zero_mul, ENNReal.tsum_eq_zero.mp total n]

/-! ## Generation -/

section Generation

variable {α : Type} [LT α] [DecidableLT α] {setup : Setup PMF α} {next : List Int → Logits α}

/-- The draft's and the target's softmax rows are distributions, and no token is
proposed with less than `1e-30`. -/
structure Samples (setup : Setup PMF α) (next : List Int → Logits α) : Prop where
  sampling : greedy setup = false
  source : setup.rng = uniformSource
  draft : ∀ calls context, context ≠ [] →
    IsDistribution (distribution setup (lastRow (setup.models.draft calls context)))
  proposed : ∀ calls context, context ≠ [] →
    ∀ x ∈ distribution setup (lastRow (setup.models.draft calls context)), x = 0 ∨ 1 / 10 ^ 30 ≤ x
  target : ∀ context, context ≠ [] → IsDistribution (distribution setup (next context))

theorem choose_sampling (samples : Samples setup next) (context : List Int) :
    (scheme setup next).choose context =
      Int.ofNat <$> sample (distribution setup (next context)) := by
  rw [scheme]
  dsimp only
  rw [targetToken, if_neg (Bool.eq_false_iff.mp samples.sampling), samples.source, uniformSource]

theorem propose_sampling (samples : Samples setup next) (calls : Nat) (context : List Int) :
    (scheme setup next).propose calls context =
      (fun token => ⟨Int.ofNat token, distribution setup (lastRow (setup.models.draft calls context))⟩)
        <$> sample (distribution setup (lastRow (setup.models.draft calls context))) := by
  rw [scheme]
  dsimp only
  rw [propose, if_neg (Bool.eq_false_iff.mp samples.sampling), samples.source, uniformSource]

/-- A proposal that is accepted or made up for has the target's law. -/
theorem exact_of_sampling (samples : Samples setup next) : (scheme setup next).Exact := by
  intro calls context some_
  have hp := samples.target context some_
  have hq := samples.draft calls context some_
  have law := RejectionSampling.bind_accept
    (sample_mul_accept hp hq (samples.proposed calls context some_)) (excess_mul_replace hp hq)
  have not_greedy : ¬ greedy setup = true := Bool.eq_false_iff.mp samples.sampling
  rw [choose_sampling samples, propose_sampling samples, bind_map_left, ← law]
  simp only [PMF.monad_map_eq_map, PMF.map_bind]
  apply bind_congr
  intro token
  simp only [Scheme.settle, scheme, acceptProposal, replaceProposal, if_neg not_greedy,
    samples.source]
  apply bind_congr
  intro accepted
  cases accepted with
  | false => rfl
  | true => exact (PMF.pure_map _ _).symm

/-- Ancestral sampling: token by token from the target's distribution. -/
def ancestral (p : List Int → List ℚ) (eos : Int) : Nat → List Int → PMF (List Int)
  | 0, _ => PMF.pure []
  | n + 1, context => (sample (p context)).bind fun token =>
      if Int.ofNat token = eos then PMF.pure [Int.ofNat token]
      else (ancestral p eos n (context ++ [Int.ofNat token])).map (Int.ofNat token :: ·)

theorem plainTarget_sampling (samples : Samples setup next) (n : Nat) (context : List Int) :
    plainTarget setup next n context =
      ancestral (fun context => distribution setup (next context)) setup.models.eosTokenId n
        context := by
  induction n generalizing context with
  | zero => rfl
  | succ n ih =>
      rw [plainTarget, plain, choose_sampling samples, bind_map_left, ancestral]
      apply bind_congr
      intro token
      split
      · rfl
      · exact congrArg _ (ih _)

/-- **Sampling is exact.** The tokens have the law of ancestral sampling from the
target, from any state of the decoder and for any number of tokens. -/
theorem generate_tokens_sampling (samples : Samples setup next) (serves : Serves setup next)
    (prompt : List Int) (maxNewTokens : Int) (d : SpeculativeDecoder) :
    Prod.fst <$> (generateTokens setup prompt maxNewTokens).run.run d =
      Except.ok <$> ancestral (fun context => distribution setup (next context))
        setup.models.eosTokenId (newTokenBound setup maxNewTokens) (startContext setup prompt) := by
  rw [← plainTarget_sampling samples]
  exact (follows_generateTokens independent_pmf (exact_of_sampling samples) serves prompt
    maxNewTokens d).map_fst

/-- Rows that are their own distributions. -/
def shareOf : Score ℚ → ℚ
  | .finite x => x
  | _ => 0

/-- A draft that never proposes what the target says half of the time. -/
def sharesSetup : Setup PMF ℚ where
  models :=
    { draft := fun _ _ => [[.finite (1 / 2), .finite (1 / 2), .finite 0]]
      target := fun _ => [[.finite (1 / 4), .finite (1 / 4), .finite (1 / 2)]]
      bosTokenId := 0
      configEosTokenId := 2
      tokenizerEosTokenId := none }
  config := { }
  distribution := fun _ logits => logits.map shareOf
  rng := uniformSource

theorem generate_tokens_sampling_shares :
    Prod.fst <$> (generateTokens sharesSetup [1] 5).run.run ⟨0, 0, 0, 0, 0, .unknown⟩ =
      Except.ok <$> ancestral (fun _ => [1 / 4, 1 / 4, 1 / 2]) 2 5 [1] := by
  have half : IsDistribution [1 / 2, 1 / 2, 0] := ⟨by norm_num, by norm_num⟩
  have quarters : IsDistribution [1 / 4, 1 / 4, 1 / 2] := ⟨by norm_num, by norm_num⟩
  have samples : Samples sharesSetup fun _ =>
      [.finite (1 / 4), .finite (1 / 4), .finite (1 / 2)] :=
    { sampling := by decide
      source := rfl
      draft := fun _ _ _ => half
      proposed := fun _ _ _ x member => by
        change x ∈ [1 / 2, 1 / 2, 0] at member
        rcases List.mem_cons.mp member with rfl | member
        · norm_num
        · rcases List.mem_cons.mp member with rfl | member
          · norm_num
          · exact .inl (List.mem_singleton.mp member)
      target := fun _ _ => quarters }
  exact generate_tokens_sampling samples (serves_lastOnly (.inr fun _ _ _ _ _ => rfl)
    (fun _ _ _ => ⟨⟨Nat.le_refl 1, Nat.le_add_left 1 2⟩, rfl⟩)
    (fun _ _ => ⟨List.cons_ne_nil _ _, rfl⟩) fun _ _ => rfl) [1] 5 _

end Generation

end Adai.Decoding

end
