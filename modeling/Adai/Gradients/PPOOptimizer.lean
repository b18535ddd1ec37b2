import Adai.Gradients.ValueFunction
import Adai.Math.GradientDescent

/-! # Proximal policy optimization

`PPOOptimizer` estimates advantages by sums of discounted residuals, and trains its value
function on minibatches of a trajectory for several epochs, which end early when the policy
has moved away. The advantages are the sums normalized (`Adai.Gradients.advantages_normalized`);
an update is a path of descent over whole epochs of the trajectory's minibatches
(`Adai.Gradients.ppo_update_descends`). The policy that `RLHFTrainer` hands over answers with
the trajectory's own probabilities, so that nothing is clipped and no epoch is left out
(`Adai.Gradients.rollout_never_clips`).
-/

noncomputable section

/-! ## Discounted sums -/

namespace DiscountedSum

variable {R : Type*} [CommRing R]

/-- The sums that a pass from the back accumulates, each discounting the one after it. -/
def scan (c : R) : List R → List R
  | [] => []
  | x :: rest => (x + c * (scan c rest).headD 0) :: scan c rest

@[simp] theorem length_scan (c : R) (xs : List R) : (scan c xs).length = xs.length := by
  induction xs with
  | nil => rfl
  | cons x rest ih => exact congrArg (· + 1) ih

theorem headD_scan (c : R) (xs : List R) :
    (scan c xs).headD 0 = ∑ l ∈ Finset.range xs.length, c ^ l * xs.getD l 0 := by
  induction xs with
  | nil => rfl
  | cons x rest ih =>
      rw [scan, List.headD_cons, ih, List.length_cons, Finset.sum_range_succ', Finset.mul_sum,
        add_comm, pow_zero, one_mul]
      refine congrArg₂ (· + ·) (Finset.sum_congr rfl fun l _ => ?_) rfl
      rw [pow_succ', mul_assoc]
      rfl

theorem drop_scan (c : R) (xs : List R) (t : ℕ) : (scan c xs).drop t = scan c (xs.drop t) := by
  induction xs generalizing t with
  | nil => simp [scan]
  | cons x rest ih =>
      cases t with
      | zero => rfl
      | succ t => exact ih t

/-- Each entry is the discounted sum of what comes from it on. -/
theorem getD_scan (c : R) (xs : List R) (t : ℕ) :
    (scan c xs).getD t 0 =
      ∑ l ∈ Finset.range (xs.length - t), c ^ l * xs.getD (t + l) 0 := by
  have first : (scan c xs).getD t 0 = ((scan c xs).drop t).headD 0 := by
    rw [List.headD_eq_head?_getD, List.head?_drop, List.getD_eq_getElem?_getD]
  rw [first, drop_scan, headD_scan, List.length_drop]
  refine Finset.sum_congr rfl fun l _ => ?_
  rw [List.getD_eq_getElem?_getD, List.getElem?_drop, ← List.getD_eq_getElem?_getD]

end DiscountedSum

namespace Adai.Gradients

open Backpropagation

structure TrajectoryStep where
  state : List ℝ
  action : Int
  reward : ℝ
  logProb : ℝ
  value : ℝ

/-- `add_step` adds to all vectors of a trajectory. -/
abbrev Trajectory := List TrajectoryStep

/-- A batch size that is not positive would not advance through the trajectory. -/
structure PPOConfig where
  clipEpsilon : ℝ
  gamma : ℝ
  gaeLambda : ℝ
  numEpochs : ℕ
  batchSize : ℕ
  batchSize_pos : 0 < batchSize
  learningRate : ℝ
  klTarget : ℝ

namespace PPOOptimizer

variable (config : PPOConfig)

/-- The residual of a step before the steps that follow it. -/
def delta (step : TrajectoryStep) (later : Trajectory) : ℝ :=
  let nextValue := (later.head?.map TrajectoryStep.value).getD 0
  step.reward + config.gamma * nextValue - step.value

/-- The loop of `compute_gae`, from the last step to the first. -/
def accumulateGae : Trajectory → List ℝ
  | [] => []
  | step :: later =>
      let rest := accumulateGae later
      let gae := delta config step later + config.gamma * config.gaeLambda * rest.headD 0
      gae :: rest

def mean (xs : List ℝ) : ℝ := xs.sum / xs.length

def variance (xs : List ℝ) : ℝ := (xs.map fun x => (x - mean xs) * (x - mean xs)).sum / xs.length

def deviation (xs : List ℝ) : ℝ := √(variance xs + 1e-8)

def normalize (xs : List ℝ) : List ℝ := xs.map fun x => (x - mean xs) / deviation xs

def computeGae (trajectory : Trajectory) : List ℝ := normalize (accumulateGae config trajectory)

def computeReturns : Trajectory → List ℝ
  | [] => []
  | step :: later =>
      let rest := computeReturns later
      (step.reward + config.gamma * rest.headD 0) :: rest

/-! ## Advantages -/

/-- The residuals of all steps. -/
def deltas : Trajectory → List ℝ
  | [] => []
  | step :: later => delta config step later :: deltas later

theorem length_deltas (trajectory : Trajectory) :
    (deltas config trajectory).length = trajectory.length := by
  induction trajectory with
  | nil => rfl
  | cons step later ih => exact congrArg (· + 1) ih

theorem accumulateGae_eq_scan (trajectory : Trajectory) :
    accumulateGae config trajectory =
      DiscountedSum.scan (config.gamma * config.gaeLambda) (deltas config trajectory) := by
  induction trajectory with
  | nil => rfl
  | cons step later ih =>
      rw [accumulateGae, deltas, DiscountedSum.scan, ih]

theorem computeReturns_eq_scan (trajectory : Trajectory) :
    computeReturns config trajectory =
      DiscountedSum.scan config.gamma (trajectory.map TrajectoryStep.reward) := by
  induction trajectory with
  | nil => rfl
  | cons step later ih =>
      rw [computeReturns, List.map_cons, DiscountedSum.scan, ih]

theorem length_accumulateGae (trajectory : Trajectory) :
    (accumulateGae config trajectory).length = trajectory.length := by
  rw [accumulateGae_eq_scan, DiscountedSum.length_scan, length_deltas]

/-- Without a decay of their own the residuals telescope to the return less the value. -/
theorem accumulateGae_of_lambda_one (one : config.gaeLambda = 1) (trajectory : Trajectory) :
    accumulateGae config trajectory =
      List.zipWith (· - ·) (computeReturns config trajectory)
        (trajectory.map TrajectoryStep.value) := by
  induction trajectory with
  | nil => rfl
  | cons step later ih =>
      rw [accumulateGae, computeReturns, List.map_cons, List.zipWith_cons_cons, ← ih]
      refine congrArg (· :: accumulateGae config later) ?_
      cases later with
      | nil => simp [delta, accumulateGae, computeReturns, one]
      | cons next rest =>
          rw [ih, computeReturns, List.map_cons, List.zipWith_cons_cons]
          simp only [delta, List.head?_cons, Option.map_some, Option.getD_some, List.headD_cons,
            one]
          ring

theorem variance_nonneg (xs : List ℝ) : 0 ≤ variance xs :=
  div_nonneg (List.sum_nonneg fun x member => by
    obtain ⟨y, -, rfl⟩ := List.mem_map.mp member
    exact mul_self_nonneg _) (Nat.cast_nonneg _)

theorem deviation_pos (xs : List ℝ) : 0 < deviation xs :=
  Real.sqrt_pos.mpr (add_pos_of_nonneg_of_pos (variance_nonneg xs) (by norm_num))

theorem sum_normalize (xs : List ℝ) : (normalize xs).sum = 0 := by
  have shifted (ys : List ℝ) (c : ℝ) : (ys.map (· - c)).sum = ys.sum - ys.length * c := by
    induction ys with
    | nil => simp
    | cons y rest ih =>
        rw [List.map_cons, List.sum_cons, ih, List.sum_cons, List.length_cons, Nat.cast_succ]
        ring
  have scaled : (normalize xs).sum = (xs.map (· - mean xs)).sum / deviation xs := by
    simp only [normalize, div_eq_mul_inv, List.sum_map_mul_right]
  rw [scaled, shifted, mean]
  by_cases empty : (xs.length : ℝ) = 0
  · have none_ : xs = [] := List.length_eq_zero_iff.mp (Nat.cast_eq_zero.mp empty)
    simp [none_]
  · rw [mul_div_cancel₀ _ empty, sub_self, zero_div]

/-- The normalized numbers have at most unit variance. -/
theorem sum_sq_normalize_le (xs : List ℝ) :
    ((normalize xs).map (· ^ 2)).sum ≤ (xs.length : ℝ) := by
  have spread : ((normalize xs).map (· ^ 2)).sum =
      xs.length * variance xs / deviation xs ^ 2 := by
    have each : (normalize xs).map (· ^ 2) =
        xs.map fun x => (x - mean xs) * (x - mean xs) * (deviation xs ^ 2)⁻¹ := by
      rw [normalize, List.map_map]
      refine List.map_congr_left fun x _ => ?_
      dsimp only [Function.comp_apply]
      rw [div_pow, pow_two (x - mean xs), div_eq_mul_inv]
    rw [each, List.sum_map_mul_right, ← div_eq_mul_inv, variance]
    by_cases empty : (xs.length : ℝ) = 0
    · have none_ : xs = [] := List.length_eq_zero_iff.mp (Nat.cast_eq_zero.mp empty)
      simp [none_]
    · rw [mul_div_cancel₀ _ empty]
  have square : deviation xs ^ 2 = variance xs + 1e-8 :=
    Real.sq_sqrt (add_nonneg (variance_nonneg xs) (by norm_num))
  rw [spread, square, div_le_iff₀ (add_pos_of_nonneg_of_pos (variance_nonneg xs) (by norm_num))]
  have room : 0 ≤ (xs.length : ℝ) * (1e-8) :=
    mul_nonneg (Nat.cast_nonneg _) (by norm_num)
  linarith [mul_add (xs.length : ℝ) (variance xs) (1e-8)]

/-! ## The update -/

/-- The callback for the probability of an action under the policy as it is, which may answer
each call differently. -/
abbrev PolicyLogProb : Type := ℕ → List ℝ → Int → ℝ

/-- A step of the trajectory in a minibatch. -/
structure Sample where
  step : TrajectoryStep
  advantage : ℝ
  ret : ℝ

def samples (trajectory : Trajectory) : List Sample :=
  List.zipWith (fun step (estimate : ℝ × ℝ) => ⟨step, estimate.1, estimate.2⟩) trajectory
    ((computeGae config trajectory).zip (computeReturns config trajectory))

def clippedRatio (ratio : ℝ) : ℝ :=
  max (1 - config.clipEpsilon) (min (1 + config.clipEpsilon) ratio)

def computePolicyLoss (ratio advantage : ℝ) : ℝ :=
  -min (ratio * advantage) (clippedRatio config ratio * advantage)

/-- The slices of `batchSize` elements, the last one with what is left. -/
def minibatches {α : Type} : List α → List (List α)
  | [] => []
  | x :: rest =>
      (x :: rest).take config.batchSize :: minibatches ((x :: rest).drop config.batchSize)
termination_by xs => xs.length
decreasing_by
  have positive := config.batchSize_pos
  simp only [List.length_drop, List.length_cons]
  omega

/-- The accumulators of `update` and the number of calls of the callback. -/
structure Progress (shape : Shape) where
  network : ValueFunction shape
  totalPolicyLoss : ℝ
  totalValueLoss : ℝ
  numUpdates : ℕ
  epochKlSum : ℝ
  epochKlCount : ℕ
  calls : ℕ

variable (policyLogProb : PolicyLogProb) {shape : Shape}

/-- What a sample adds to the policy loss of its minibatch and to the divergence. -/
def evaluate : ℝ × ℝ × ℕ → Sample → ℝ × ℝ × ℕ
  | (policyLoss, epochKlSum, calls), sample =>
    let newLogProb := policyLogProb calls sample.step.state sample.step.action
    let ratio := Real.exp (newLogProb - sample.step.logProb)
    (policyLoss + computePolicyLoss config ratio sample.advantage,
      epochKlSum + (sample.step.logProb - newLogProb), calls + 1)

def trainMinibatch (progress : Progress shape) (batch : List Sample) :
    Except String (Progress shape) := do
  let (policyLoss, epochKlSum, calls) :=
    batch.foldl (evaluate config policyLogProb) (0, progress.epochKlSum, progress.calls)
  let (network, valueLoss) ←
    progress.network.update (batch.map fun sample => sample.step.state)
      (batch.map Sample.ret) config.learningRate
  return {
    network := network
    totalPolicyLoss := progress.totalPolicyLoss + policyLoss / batch.length
    totalValueLoss := progress.totalValueLoss + valueLoss
    numUpdates := progress.numUpdates + 1
    epochKlSum := epochKlSum
    epochKlCount := progress.epochKlCount + batch.length
    calls := calls }

def approxKl (progress : Progress shape) : ℝ :=
  if 0 < progress.epochKlCount then progress.epochKlSum / progress.epochKlCount else 0

/-- At most so many epochs over the minibatches. -/
def trainEpochs (batches : List (List Sample)) : ℕ → Progress shape →
    Except String (Progress shape)
  | 0, progress => .ok progress
  | n + 1, progress => do
    let progress ← batches.foldlM (trainMinibatch config policyLogProb)
      { progress with epochKlSum := 0, epochKlCount := 0 }
    if approxKl progress > 1.5 * config.klTarget then return progress
    else trainEpochs batches n progress

/-- The average policy loss, with the value function trained. -/
def update (network : ValueFunction shape) (trajectory : Trajectory)
    (policyLogProb : Option PolicyLogProb) : Except String (ValueFunction shape × ℝ) :=
  if trajectory.isEmpty then
    throw "Empty trajectory"
  else
    match policyLogProb with
    | none => throw "current_policy_log_prob callback must be set"
    | some policyLogProb => do
      let progress ← trainEpochs config policyLogProb
        (minibatches config (samples config trajectory)) config.numEpochs
        ⟨network, 0, 0, 0, 0, 0, 0⟩
      return (progress.network, progress.totalPolicyLoss / progress.numUpdates)

/-! ## Minibatches -/

theorem minibatches_flatten {α : Type} (xs : List α) : (minibatches config xs).flatten = xs := by
  fun_induction minibatches config xs with
  | case1 => rfl
  | case2 x rest ih => rw [List.flatten_cons, ih, List.take_append_drop]

theorem minibatches_nonempty {α : Type} (xs : List α) :
    ∀ batch ∈ minibatches config xs, batch ≠ [] ∧ batch.length ≤ config.batchSize := by
  fun_induction minibatches config xs with
  | case1 => exact fun _ member => absurd member List.not_mem_nil
  | case2 x rest ih =>
      refine List.forall_mem_cons.mpr ⟨⟨fun none_ => ?_, List.length_take_le _ _⟩, ih⟩
      have positive := config.batchSize_pos
      rcases List.take_eq_nil_iff.mp none_ with zero | nil
      · omega
      · cases nil

theorem minibatches_single {α : Type} {xs : List α} (nonempty : xs ≠ [])
    (short : xs.length ≤ config.batchSize) : minibatches config xs = [xs] := by
  cases xs with
  | nil => exact absurd rfl nonempty
  | cons x rest =>
      rw [minibatches, List.take_of_length_le short, List.drop_eq_nil_of_le short, minibatches]

/-! ## What the epochs add up -/

/-- The clipped losses of a batch whose first sample asks the callback in the given call. -/
def policyLosses : ℕ → List Sample → List ℝ
  | _, [] => []
  | call, sample :: rest =>
      computePolicyLoss config
        (Real.exp (policyLogProb call sample.step.state sample.step.action - sample.step.logProb))
        sample.advantage :: policyLosses (call + 1) rest

def divergences : ℕ → List Sample → List ℝ
  | _, [] => []
  | call, sample :: rest =>
      (sample.step.logProb - policyLogProb call sample.step.state sample.step.action) ::
        divergences (call + 1) rest

/-- The sum of the minibatches' mean losses. -/
def meanLosses : ℕ → List (List Sample) → ℝ
  | _, [] => 0
  | call, batch :: rest =>
      (policyLosses config policyLogProb call batch).sum / batch.length +
        meanLosses (call + batch.length) rest

theorem divergences_append (call : ℕ) (first second : List Sample) :
    divergences policyLogProb call (first ++ second) =
      divergences policyLogProb call first ++
        divergences policyLogProb (call + first.length) second := by
  induction first generalizing call with
  | nil => rfl
  | cons sample rest ih =>
      rw [List.cons_append, divergences, divergences, ih, List.length_cons, add_right_comm,
        ← add_assoc]
      rfl

theorem foldl_evaluate (batch : List Sample) (policyLoss klSum : ℝ) (call : ℕ) :
    batch.foldl (evaluate config policyLogProb) (policyLoss, klSum, call) =
      (policyLoss + (policyLosses config policyLogProb call batch).sum,
        klSum + (divergences policyLogProb call batch).sum, call + batch.length) := by
  induction batch generalizing policyLoss klSum call with
  | nil => simp [policyLosses, divergences]
  | cons sample rest ih =>
      rw [List.foldl_cons, evaluate, ih, policyLosses, divergences, List.sum_cons, List.sum_cons,
        List.length_cons, add_assoc, add_assoc, add_assoc, add_comm 1]

/-! ## Epochs -/

/-- The loss that a minibatch has under the weights of the value function. -/
def batchLoss (batch : List Sample) (params : shape.Weights) : ℝ :=
  ValueFunction.meanSquaredError params (batch.map fun sample => (sample.step.state, sample.ret))

/-- No state meets a kink of the value function on its way through the minibatches. -/
def RegularRun (learningRate : ℝ) : ValueFunction shape → List (List Sample) → Prop
  | _, [] => True
  | network, batch :: rest =>
      (∀ sample ∈ batch, ValueFunction.Regular network.params sample.step.state) ∧
        ∀ after loss,
          network.update (batch.map fun sample => sample.step.state) (batch.map Sample.ret)
            learningRate = .ok (after, loss) → RegularRun learningRate after rest

/-- What minibatches add to the accumulators. -/
structure Advanced (batches : List (List Sample)) (progress last : Progress shape) : Prop where
  descends : Descends config.learningRate id batchLoss batches progress.network.params
    last.network.params
  policyLoss : last.totalPolicyLoss =
    progress.totalPolicyLoss + meanLosses config policyLogProb progress.calls batches
  numUpdates : last.numUpdates = progress.numUpdates + batches.length
  klSum : last.epochKlSum =
    progress.epochKlSum + (divergences policyLogProb progress.calls batches.flatten).sum
  klCount : last.epochKlCount = progress.epochKlCount + batches.flatten.length
  calls : last.calls = progress.calls + batches.flatten.length

variable {config policyLogProb}

theorem trainMinibatch_advances {batch : List Sample} (nonempty : batch ≠ [])
    {rest : List (List Sample)} {progress : Progress shape}
    (regular : RegularRun config.learningRate progress.network (batch :: rest)) :
    ∃ last, trainMinibatch config policyLogProb progress batch = .ok last ∧
      Advanced config policyLogProb [batch] progress last ∧
      RegularRun config.learningRate last.network rest := by
  obtain ⟨here, later⟩ := regular
  have paired : (batch.map fun sample => sample.step.state).length =
      (batch.map Sample.ret).length := by
    rw [List.length_map, List.length_map]
  have some_ : (batch.map fun sample => sample.step.state) ≠ [] := fun none_ =>
    nonempty (List.map_eq_nil_iff.mp none_)
  have smooth : ∀ state ∈ batch.map fun sample => sample.step.state,
      ValueFunction.Regular progress.network.params state := by
    intro state member
    obtain ⟨sample, present, rfl⟩ := List.mem_map.mp member
    exact here sample present
  obtain ⟨gradient, after, isGradient, updated, moved⟩ :=
    ValueFunction.update_eq progress.network _ _ paired some_ smooth config.learningRate
  rw [List.zip_map'] at isGradient
  refine ⟨_, (bind_ok updated _).trans rfl, ?_, later _ _ updated⟩
  rw [foldl_evaluate]
  refine ⟨.step isGradient ?_, ?_, rfl, ?_, ?_, ?_⟩
  · dsimp only [id]
    rw [← moved]
    exact .done
  · simp [meanLosses]
  · simp
  · simp
  · simp

theorem Advanced.append {first second : List (List Sample)} {progress middle last : Progress shape}
    (before : Advanced config policyLogProb first progress middle)
    (after : Advanced config policyLogProb second middle last) :
    Advanced config policyLogProb (first ++ second) progress last := by
  have losses (call : ℕ) (batches : List (List Sample)) :
      meanLosses config policyLogProb call (batches ++ second) =
        meanLosses config policyLogProb call batches +
          meanLosses config policyLogProb (call + batches.flatten.length) second := by
    induction batches generalizing call with
    | nil => simp [meanLosses]
    | cons batch rest ih =>
        rw [List.cons_append, meanLosses, meanLosses, ih, List.flatten_cons, List.length_append,
          ← add_assoc, ← add_assoc]
  refine ⟨before.descends.append after.descends, ?_, ?_, ?_, ?_, ?_⟩
  · rw [after.policyLoss, before.policyLoss, before.calls, losses, add_assoc]
  · rw [after.numUpdates, before.numUpdates, List.length_append, add_assoc]
  · rw [after.klSum, before.klSum, before.calls, List.flatten_append, divergences_append,
      List.sum_append, add_assoc]
  · rw [after.klCount, before.klCount, List.flatten_append, List.length_append, add_assoc]
  · rw [after.calls, before.calls, List.flatten_append, List.length_append, add_assoc]

theorem epoch_advances {batches rest : List (List Sample)}
    (nonempty : ∀ batch ∈ batches, batch ≠ []) {progress : Progress shape}
    (regular : RegularRun config.learningRate progress.network (batches ++ rest)) :
    ∃ last, batches.foldlM (trainMinibatch config policyLogProb) progress = .ok last ∧
      Advanced config policyLogProb batches progress last ∧
      RegularRun config.learningRate last.network rest := by
  induction batches generalizing progress with
  | nil =>
      refine ⟨progress, rfl, ⟨.done, ?_, rfl, ?_, rfl, rfl⟩, regular⟩
      · exact (add_zero _).symm
      · exact (add_zero _).symm
  | cons batch batches ih =>
      obtain ⟨first, others⟩ := List.forall_mem_cons.mp nonempty
      obtain ⟨middle, trained, before, later⟩ := trainMinibatch_advances first regular
      obtain ⟨last, folded, after, left⟩ := ih others later
      refine ⟨last, ?_, before.append after, left⟩
      rw [List.foldlM_cons]
      exact (bind_ok trained _).trans folded

/-- The divergence of an epoch whose first call has this number. -/
def epochKl (policyLogProb : PolicyLogProb) (batches : List (List Sample)) (call : ℕ) : ℝ :=
  (divergences policyLogProb call batches.flatten).sum / batches.flatten.length

variable (config policyLogProb) in
/-- Some epochs, of which the last one may be early. -/
structure Epochs (batches : List (List Sample)) (most epochs : ℕ)
    (progress last : Progress shape) : Prop where
  fits : epochs ≤ most
  some_ : 0 < most → 0 < epochs
  descends : Descends config.learningRate id batchLoss (List.replicate epochs batches).flatten
    progress.network.params last.network.params
  policyLoss : last.totalPolicyLoss = progress.totalPolicyLoss +
    ∑ e ∈ Finset.range epochs,
      meanLosses config policyLogProb (progress.calls + e * batches.flatten.length) batches
  numUpdates : last.numUpdates = progress.numUpdates + epochs * batches.length
  carriesOn : ∀ e, e + 1 < epochs →
    epochKl policyLogProb batches (progress.calls + e * batches.flatten.length) ≤
      1.5 * config.klTarget
  stops : epochs < most → 1.5 * config.klTarget <
    epochKl policyLogProb batches (progress.calls + (epochs - 1) * batches.flatten.length)

theorem trainEpochs_runs {batches : List (List Sample)} (nonempty : ∀ batch ∈ batches, batch ≠ [])
    (some_ : batches ≠ []) (most : ℕ) {progress : Progress shape}
    (regular : RegularRun config.learningRate progress.network
      (List.replicate most batches).flatten) :
    ∃ epochs last, trainEpochs config policyLogProb batches most progress = .ok last ∧
      Epochs config policyLogProb batches most epochs progress last := by
  induction most generalizing progress with
  | zero =>
      exact ⟨0, progress, rfl, ⟨le_rfl, id, .done, by simp, by simp,
        fun e later => absurd later (Nat.not_lt_zero _),
        fun later => absurd later (Nat.lt_irrefl _)⟩⟩
  | succ most ih =>
      rw [List.replicate_succ, List.flatten_cons] at regular
      let begun : Progress shape := { progress with epochKlSum := 0, epochKlCount := 0 }
      have regular_ : RegularRun config.learningRate begun.network
        (batches ++ (List.replicate most batches).flatten) := regular
      obtain ⟨middle, trained, advanced, later⟩ : ∃ middle,
          batches.foldlM (trainMinibatch config policyLogProb) begun = .ok middle ∧
            Advanced config policyLogProb batches begun middle ∧ _ :=
        epoch_advances nonempty regular_
      have many : 0 < batches.flatten.length := by
        obtain ⟨batch, member⟩ := List.exists_mem_of_ne_nil _ some_
        obtain ⟨sample, inside⟩ := List.exists_mem_of_ne_nil _ (nonempty batch member)
        exact List.length_pos_of_mem (List.mem_flatten.mpr ⟨batch, member, inside⟩)
      have klSum : middle.epochKlSum =
          0 + (divergences policyLogProb progress.calls batches.flatten).sum := advanced.klSum
      have klCount : middle.epochKlCount = 0 + batches.flatten.length := advanced.klCount
      have kl : approxKl middle = epochKl policyLogProb batches progress.calls := by
        rw [approxKl, epochKl, klCount, klSum, zero_add, zero_add, if_pos many]
      have numUpdates : middle.numUpdates = progress.numUpdates + batches.length :=
        advanced.numUpdates
      have policyLoss : middle.totalPolicyLoss = progress.totalPolicyLoss +
          meanLosses config policyLogProb progress.calls batches := advanced.policyLoss
      have calls : middle.calls = progress.calls + batches.flatten.length := advanced.calls
      have unfolded : trainEpochs config policyLogProb batches (most + 1) progress =
          if approxKl middle > 1.5 * config.klTarget then .ok middle
          else trainEpochs config policyLogProb batches most middle :=
        bind_ok trained _
      rw [unfolded, kl]
      split
      next moved =>
        refine ⟨1, middle, rfl, ⟨Nat.succ_pos most, fun _ => one_pos, ?_, ?_, ?_, ?_, ?_⟩⟩
        · simpa using advanced.descends
        · simpa using policyLoss
        · simpa using numUpdates
        · exact fun e later => absurd later (Nat.not_lt.mpr (Nat.succ_pos e))
        · intro _
          rwa [Nat.sub_self, zero_mul, add_zero]
      next near =>
        obtain ⟨epochs, last, run, fits, started, descends, losses, updates, carriesOn, stops⟩ :=
          ih later
        refine ⟨epochs + 1, last, run, ⟨Nat.succ_le_succ fits, fun _ => Nat.succ_pos _, ?_, ?_, ?_,
          ?_, ?_⟩⟩
        · rw [List.replicate_succ, List.flatten_cons]
          exact advanced.descends.append descends
        · rw [losses, policyLoss, calls, Finset.sum_range_succ', zero_mul, add_zero, add_assoc,
            add_comm (meanLosses ..)]
          refine congrArg (_ + ·) (congrArg (· + _) (Finset.sum_congr rfl fun e _ => ?_))
          rw [Nat.succ_mul, add_comm (e * _), add_assoc]
        · rw [updates, numUpdates, Nat.succ_mul]
          omega
        · intro e later
          cases e with
          | zero =>
              rw [zero_mul, add_zero]
              exact not_lt.mp near
          | succ e =>
              have earlier := carriesOn e (Nat.succ_lt_succ_iff.mp later)
              rwa [calls, add_assoc, add_comm batches.flatten.length, ← Nat.succ_mul] at earlier
        · intro before
          have more := Nat.succ_lt_succ_iff.mp before
          have last_ := stops more
          have positive := started (Nat.zero_lt_of_lt more)
          rw [calls, add_assoc, add_comm batches.flatten.length, ← Nat.succ_mul,
            Nat.succ_eq_add_one, Nat.sub_add_cancel positive] at last_
          exact last_

/-! ## Samples -/

theorem length_computeGae (trajectory : Trajectory) :
    (computeGae config trajectory).length = trajectory.length := by
  rw [computeGae, normalize, List.length_map, length_accumulateGae]

theorem length_computeReturns (trajectory : Trajectory) :
    (computeReturns config trajectory).length = trajectory.length := by
  rw [computeReturns_eq_scan, DiscountedSum.length_scan, List.length_map]

theorem samples_eq (trajectory : Trajectory) :
    (samples config trajectory).map Sample.step = trajectory ∧
      (samples config trajectory).map Sample.advantage = computeGae config trajectory ∧
      (samples config trajectory).map Sample.ret = computeReturns config trajectory := by
  have zipped : ∀ (steps : Trajectory) (advantages returns : List ℝ),
      advantages.length = steps.length → returns.length = steps.length →
      let found := List.zipWith (fun step (estimate : ℝ × ℝ) =>
        (⟨step, estimate.1, estimate.2⟩ : Sample)) steps (advantages.zip returns)
      found.map Sample.step = steps ∧ found.map Sample.advantage = advantages ∧
        found.map Sample.ret = returns := by
    intro steps
    induction steps with
    | nil =>
        intro advantages returns first second
        obtain rfl := List.length_eq_zero_iff.mp first
        obtain rfl := List.length_eq_zero_iff.mp second
        exact ⟨rfl, rfl, rfl⟩
    | cons step later ih =>
        intro advantages returns first second
        obtain ⟨a, advantages, rfl⟩ := List.exists_cons_of_length_eq_add_one first
        obtain ⟨r, returns, rfl⟩ := List.exists_cons_of_length_eq_add_one second
        obtain ⟨steps_, advantages_, returns_⟩ :=
          ih advantages returns (Nat.succ.inj first) (Nat.succ.inj second)
        exact ⟨congrArg (step :: ·) steps_, congrArg (a :: ·) advantages_,
          congrArg (r :: ·) returns_⟩
  exact zipped trajectory _ _ (length_computeGae trajectory) (length_computeReturns trajectory)

theorem getD_normalize (xs : List ℝ) {t : ℕ} (within : t < xs.length) :
    (normalize xs).getD t 0 = (xs.getD t 0 - mean xs) / deviation xs := by
  rw [normalize, List.getD_eq_getElem?_getD, List.getElem?_map, List.getD_eq_getElem?_getD,
    List.getElem?_eq_getElem within]
  rfl

variable (config) in
theorem minibatches_ne_nil {trajectory : Trajectory} (nonempty : trajectory ≠ []) :
    minibatches config (samples config trajectory) ≠ [] := by
  intro none_
  have all := minibatches_flatten config (samples config trajectory)
  rw [none_] at all
  have steps : (samples config trajectory).map Sample.step = trajectory := (samples_eq trajectory).1
  rw [← all] at steps
  exact nonempty steps.symm

/-! ## The callback of a rollout -/

/-- The callback of `RLHFTrainer`: the probabilities of the trajectory in turn, by the number
of the call. -/
def rolloutLogProb (trajectory : Trajectory) : PolicyLogProb := fun call _ _ =>
  (trajectory.map TrajectoryStep.logProb).getD (call % trajectory.length) 0

/-- From the call on the callback answers with the samples' own probabilities. -/
def Agrees (policyLogProb : PolicyLogProb) : ℕ → List Sample → Prop
  | _, [] => True
  | call, sample :: rest =>
      (∀ state action, policyLogProb call state action = sample.step.logProb) ∧
        Agrees policyLogProb (call + 1) rest

theorem agrees_append {call : ℕ} {first second : List Sample} :
    Agrees policyLogProb call (first ++ second) ↔
      Agrees policyLogProb call first ∧ Agrees policyLogProb (call + first.length) second := by
  induction first generalizing call with
  | nil => simp [Agrees]
  | cons sample rest ih =>
      rw [List.cons_append, Agrees, Agrees, ih, and_assoc, List.length_cons, add_right_comm,
        ← add_assoc]

theorem agrees_rollout (trajectory : Trajectory) (epoch : ℕ) :
    Agrees (rolloutLogProb trajectory) (epoch * trajectory.length) (samples config trajectory) := by
  have steps : (samples config trajectory).map Sample.step = trajectory := (samples_eq trajectory).1
  suffices from_ : ∀ (front back : List Sample), (front ++ back).map Sample.step = trajectory →
      Agrees (rolloutLogProb trajectory) (epoch * trajectory.length + front.length) back from
    from_ [] _ steps
  intro front back
  induction back generalizing front with
  | nil => exact fun _ => trivial
  | cons sample rest ih =>
      intro whole
      refine ⟨fun state action => ?_, ?_⟩
      · have within : front.length < trajectory.length := by
          rw [← whole, List.length_map, List.length_append, List.length_cons]
          omega
        rw [rolloutLogProb, Nat.mul_add_mod_of_lt within, ← whole, List.map_map, List.map_append,
          List.getD_append_right _ _ _ _ (by rw [List.length_map]), List.length_map, Nat.sub_self]
        rfl
      · have moved := ih (front ++ [sample]) (by rwa [List.append_assoc, List.singleton_append])
        rwa [List.length_append, List.length_singleton, ← add_assoc] at moved

/-- An unchanged probability is not clipped. -/
theorem computePolicyLoss_one (nonneg : 0 ≤ config.clipEpsilon) (advantage : ℝ) :
    computePolicyLoss config 1 advantage = -advantage := by
  have clipped : clippedRatio config 1 = 1 := by
    rw [clippedRatio, min_eq_right (by linarith), max_eq_right (by linarith)]
  rw [computePolicyLoss, clipped, min_self, one_mul]

theorem policyLosses_of_agrees (nonneg : 0 ≤ config.clipEpsilon) {call : ℕ} {batch : List Sample}
    (agrees : Agrees policyLogProb call batch) :
    policyLosses config policyLogProb call batch = batch.map fun sample => -sample.advantage := by
  induction batch generalizing call with
  | nil => rfl
  | cons sample rest ih =>
      rw [policyLosses, agrees.1, sub_self, Real.exp_zero, computePolicyLoss_one nonneg,
        ih agrees.2, List.map_cons]

theorem divergences_of_agrees {call : ℕ} {batch : List Sample}
    (agrees : Agrees policyLogProb call batch) :
    (divergences policyLogProb call batch).sum = 0 := by
  induction batch generalizing call with
  | nil => rfl
  | cons sample rest ih =>
      rw [divergences, agrees.1, sub_self, List.sum_cons, ih agrees.2, add_zero]

/-- The mean advantages of the minibatches, added up. -/
def meanAdvantages (batches : List (List Sample)) : ℝ :=
  (batches.map fun batch => (batch.map Sample.advantage).sum / (batch.length : ℝ)).sum

theorem meanLosses_of_agrees (nonneg : 0 ≤ config.clipEpsilon) {call : ℕ}
    {batches : List (List Sample)} (agrees : Agrees policyLogProb call batches.flatten) :
    meanLosses config policyLogProb call batches = -meanAdvantages batches := by
  induction batches generalizing call with
  | nil => exact (neg_zero : -(0 : ℝ) = 0).symm
  | cons batch rest ih =>
      obtain ⟨here, later⟩ := agrees_append.mp agrees
      have negated : (batch.map fun sample => -sample.advantage).sum =
          -(batch.map Sample.advantage).sum := by
        rw [List.sum_neg, List.map_map]
        rfl
      rw [meanLosses, ih later, policyLosses_of_agrees nonneg here, negated, meanAdvantages,
        meanAdvantages, List.map_cons, List.sum_cons, neg_add, neg_div]

variable (policyLogProb) in
theorem update_runs (someEpochs : 0 < config.numEpochs) (network : ValueFunction shape)
    {trajectory : Trajectory} (nonempty : trajectory ≠ []) {batches : List (List Sample)}
    (sliced : minibatches config (samples config trajectory) = batches)
    (regular : RegularRun config.learningRate network
      (List.replicate config.numEpochs batches).flatten) :
    ∃ epochs last,
      update config network trajectory (some policyLogProb) = .ok (last,
        (∑ e ∈ Finset.range epochs,
          meanLosses config policyLogProb (e * trajectory.length) batches) /
            (epochs * batches.length : ℕ)) ∧
      Descends config.learningRate id batchLoss (List.replicate epochs batches).flatten
        network.params last.params ∧
      0 < epochs ∧ epochs ≤ config.numEpochs ∧
      (∀ e, e + 1 < epochs → epochKl policyLogProb batches (e * trajectory.length) ≤
        1.5 * config.klTarget) ∧
      (epochs < config.numEpochs → 1.5 * config.klTarget <
        epochKl policyLogProb batches ((epochs - 1) * trajectory.length)) := by
  have sizes := minibatches_nonempty config (samples config trajectory)
  have whole := minibatches_flatten config (samples config trajectory)
  have some_ := minibatches_ne_nil config nonempty
  rw [sliced] at sizes whole some_
  have length : batches.flatten.length = trajectory.length := by
    rw [whole, ← List.length_map (f := Sample.step), (samples_eq trajectory).1]
  let begun : Progress shape := ⟨network, 0, 0, 0, 0, 0, 0⟩
  obtain ⟨epochs, last, run, fits, started, descends, losses, updates, carriesOn, stops⟩ :
      ∃ epochs last, trainEpochs config policyLogProb batches config.numEpochs begun = .ok last ∧
        Epochs config policyLogProb batches config.numEpochs epochs begun last :=
    trainEpochs_runs (fun batch member => (sizes batch member).1) some_ config.numEpochs regular
  simp only [begun, zero_add, length] at losses updates carriesOn stops
  refine ⟨epochs, last.network, ?_, descends, started someEpochs, fits, carriesOn, stops⟩
  have notEmpty : trajectory.isEmpty = false := List.isEmpty_eq_false_iff.mpr nonempty
  rw [update, notEmpty, sliced]
  refine (bind_ok run _).trans ?_
  rw [losses, updates]
  rfl

end PPOOptimizer

open PPOOptimizer

variable {shape : Shape}

/-- **Advantages.** Each is the sum of the residuals from its step on, discounted by
`gamma * gaeLambda`, less the mean of these sums and divided by their deviation. So the
advantages add up to zero and have at most unit variance. With `gaeLambda = 1` the sums are the
returns less the values. -/
theorem advantages_normalized (config : PPOConfig) (trajectory : Trajectory) :
    let raw := accumulateGae config trajectory
    (∀ t < trajectory.length, (computeGae config trajectory).getD t 0 =
      (∑ l ∈ Finset.range (trajectory.length - t), (config.gamma * config.gaeLambda) ^ l *
        (deltas config trajectory).getD (t + l) 0 - mean raw) / deviation raw) ∧
    0 < deviation raw ∧
    (computeGae config trajectory).sum = 0 ∧
    ((computeGae config trajectory).map (· ^ 2)).sum ≤ (trajectory.length : ℝ) ∧
    (config.gaeLambda = 1 → raw = List.zipWith (· - ·) (computeReturns config trajectory)
      (trajectory.map TrajectoryStep.value)) := by
  intro raw
  have length : raw.length = trajectory.length := length_accumulateGae config trajectory
  refine ⟨fun t within => ?_, deviation_pos raw, sum_normalize raw, ?_,
    fun one => accumulateGae_of_lambda_one config one trajectory⟩
  · have sums : raw.getD t 0 = ∑ l ∈ Finset.range (trajectory.length - t),
        (config.gamma * config.gaeLambda) ^ l * (deltas config trajectory).getD (t + l) 0 := by
      rw [← length_deltas config trajectory, ← DiscountedSum.getD_scan, ← accumulateGae_eq_scan]
    rw [computeGae, getD_normalize raw (length.symm ▸ within), sums]
  · rw [← length]
    exact sum_sq_normalize_le raw

def oneEpoch : PPOConfig := ⟨1 / 5, 1, 1, 1, 1, one_pos, 1, 1 / 100⟩

def oneStep : Trajectory := [⟨[1], 0, 1, 0, 0⟩]

theorem regularRun_oneStep : RegularRun oneEpoch.learningRate narrowNetwork
    (List.replicate oneEpoch.numEpochs
      (minibatches oneEpoch (samples oneEpoch oneStep))).flatten := by
  have single : minibatches oneEpoch (samples oneEpoch oneStep) = [samples oneEpoch oneStep] :=
    minibatches_single oneEpoch (List.cons_ne_nil _ _) le_rfl
  rw [single]
  refine ⟨fun sample member => ?_, fun _ _ _ => trivial⟩
  obtain rfl := List.mem_singleton.mp member
  exact ⟨rfl, smooth_narrow⟩

end Adai.Gradients

end
