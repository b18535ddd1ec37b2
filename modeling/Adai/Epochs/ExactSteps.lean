import Mathlib.Algebra.Field.Rat
import Mathlib.Tactic.NormNum
import Adai.Epochs.Windows

/-! # Steps on the mean of their window

`accumulation_exact_iff` shows when gradient accumulation is exact: each step uses
the mean gradient and reports the mean loss of the completed samples of its window,
each completed sample is in one step unless its window is discarded later, and the
dropped samples are those of no step. Gradients and counts always are. A sample that
fails after its loss was added leaves that loss in the window, so the loss of a step
is the mean exactly when these losses cancel in each window that ends with a step.
-/

namespace Adai.Epochs

variable {K Logits Gradient : Type*} [Field K] [AddCommGroup Logits] [Module K Logits]
  [AddCommGroup Gradient] [Module K Gradient]

/-! ## Exact accumulation -/

section Samples

variable (samples : List (Sample K Logits Gradient))

def Completes (i : Nat) : Prop :=
  ∃ outcome, samples[i]?.map Sample.outcome = some outcome ∧ outcome.completed

def FailsInBackward (i : Nat) : Prop :=
  ∃ outcome, samples[i]?.map Sample.outcome = some outcome ∧ outcome.failedInBackward

def gradientOf (i : Nat) : Gradient :=
  (samples[i]?.map fun sample => sample.outcome.gradient).getD 0

def lossOf (i : Nat) : K :=
  (samples[i]?.map fun sample => sample.outcome.loss).getD 0

/-- A step uses the mean gradient of some completed samples, and reports their mean
loss. -/
structure StepOf (update : Update K Gradient) (group : List Nat) : Prop where
  nonempty : group ≠ []
  distinct : group.Nodup
  completed : ∀ i ∈ group, Completes samples i
  gradient : update.gradient = (group.length : K)⁻¹ • (group.map (gradientOf samples)).sum
  loss : update.loss = (group.length : K)⁻¹ * (group.map (lossOf samples)).sum

/-- A sample that the loop reaches later in the window of a sample fails in its
backward pass; no step is made in between. -/
def LaterFails (final : Nat × EpochState K Gradient) (i : Nat) : Prop :=
  ∃ j, i < j ∧ j < final.1 ∧ FailsInBackward samples j ∧
    ∀ update ∈ final.2.updates, i ≤ update.sample → j ≤ update.sample

/-- Accumulation is exact, with the samples of each step: of the samples that the loop
reaches, all of them without an abort, those that complete are in one step unless a
later one of their window fails in its backward pass, and those in no step are counted
as dropped. -/
structure ExactSteps (final : Nat × EpochState K Gradient) (groups : List (List Nat)) :
    Prop where
  reached : (∀ sample ∈ samples, sample.abortRequested = false) → final.1 = samples.length
  steps : List.Forall₂ (StepOf samples) final.2.updates groups
  once : ∀ i < final.1, Completes samples i →
    (groups.flatten.count i = 1 ↔ ¬ LaterFails samples final i)
  dropped : final.2.droppedSamples =
    (List.range final.1).countP fun i => decide (i ∉ groups.flatten)

end Samples

/-- The windows of an epoch. -/
def epochWindows (steps : Nat) (samples : List (Sample K Logits Gradient)) :
    List (Window K Logits Gradient) :=
  windows steps 0 [] samples

/-- The completed samples of the windows that end with a step. -/
def stepGroups (steps : Nat) (samples : List (Sample K Logits Gradient)) : List (List Nat) :=
  (steppedWindows (epochWindows steps samples)).map fun window =>
    (completed window.samples).map Prod.snd

/-- In each window that ends with a step, the losses of the samples that failed after
their loss was added sum to zero. -/
def LeftLossesCancel (steps : Nat) (samples : List (Sample K Logits Gradient)) : Prop :=
  ∀ window ∈ steppedWindows (epochWindows steps samples), leftLosses window.samples = 0

/-! ## The windows of an epoch -/

/-- The windows hold the samples in order, up to an abort. -/
theorem windows_flatten (steps : Nat) (rest : List (Sample K Logits Gradient)) :
    ∀ (i : Nat) (window : Numbered K Logits Gradient), ∃ count,
      (windows steps i window rest).flatMap Window.samples =
        window ++ ((rest.map Sample.outcome).take count).zipIdx i := by
  induction rest with
  | nil => exact fun i window => ⟨0, by simp [windows]⟩
  | cons sample rest ih =>
      intro i window
      unfold windows
      split
      · exact ⟨0, by simp⟩
      split
      · obtain ⟨count, later⟩ := ih (i + 1) []
        exact ⟨count + 1, by simp [later]⟩
      · obtain ⟨count, later⟩ := ih (i + 1) (window ++ [(sample.outcome, i)])
        exact ⟨count + 1, by simp [later]⟩

/-- How a window can look, by its ending. -/
structure Window.Shape (window : Window K Logits Gradient) : Prop where
  stepped : window.ending = .stepped → 0 < (completed window.samples).length ∧
    ∀ sample ∈ window.samples, sample.1.failedInBackward = false
  discarded : window.ending = .discarded →
    ∃ sample, window.samples.getLast? = some sample ∧ sample.1.failedInBackward
  unfinished : window.ending = .unfinished → (completed window.samples).length = 0

theorem windows_shape {steps : Nat} (positive : 1 ≤ steps)
    (rest : List (Sample K Logits Gradient)) :
    ∀ (i : Nat) (window : Numbered K Logits Gradient),
      (∀ sample ∈ window, sample.1.failedInBackward = false) →
      (rest = [] → (completed window).length = 0) →
      ∀ ended ∈ windows steps i window rest, ended.Shape := by
  have unfinished (window : Numbered K Logits Gradient)
      (none : (completed window).length = 0) : Window.Shape ⟨window, .unfinished⟩ :=
    ⟨fun stepped => absurd stepped (by simp), fun discarded => absurd discarded (by simp),
      fun _ => none⟩
  induction rest with
  | nil =>
      intro i window _ none ended member
      rw [List.mem_singleton.mp member]
      exact unfinished window (none rfl)
  | cons sample rest ih =>
      intro i window kept _ ended member
      unfold windows at member
      split at member
      · rename_i aborts
        rw [List.mem_singleton.mp member]
        exact unfinished window aborts.1
      have others (goes : sample.outcome.failedInBackward = false) :
          ∀ other ∈ window ++ [(sample.outcome, i)], other.1.failedInBackward = false := by
        intro other member
        rcases List.mem_append.mp member with member | member
        · exact kept other member
        · rw [List.mem_singleton.mp member]
          exact goes
      split at member
      · rename_i ending ends
        rcases List.mem_cons.mp member with same | member
        · rw [same]
          refine ⟨fun stepped => ?_, fun discarded => ?_, fun impossible => ?_⟩
          · cases stepped
            obtain ⟨goes, some⟩ := ending?_stepped positive ends
            exact ⟨some, others goes⟩
          · cases discarded
            exact ⟨_, List.getLast?_concat, ending?_discarded.mp ends⟩
          · cases impossible
            exact absurd ends ending?_ne_unfinished
        · exact ih (i + 1) [] (fun _ impossible => by cases impossible) (fun _ => rfl) ended member
      · rename_i goes
        obtain ⟨goes, _, last⟩ := ending?_none goes
        exact ih (i + 1) _ (others goes) (fun none => last (by simp [none])) ended member

/-- The positions of the samples increase along the windows. -/
def Increasing (all : List (Window K Logits Gradient)) : Prop :=
  (all.flatMap Window.samples).Pairwise fun earlier later => earlier.2 < later.2

theorem pairwise_zipIdx {α : Type*} (items : List α) (i : Nat) :
    (items.zipIdx i).Pairwise fun earlier later => earlier.2 < later.2 := by
  have ordered : ((items.zipIdx i).map Prod.snd).Pairwise (· < ·) := by
    rw [List.zipIdx_map_snd]
    exact List.pairwise_lt_range'
  exact List.pairwise_map.mp ordered

theorem epochWindows_increasing (steps : Nat) (samples : List (Sample K Logits Gradient)) :
    Increasing (epochWindows steps samples) := by
  obtain ⟨count, flat⟩ := windows_flatten steps samples 0 []
  rw [Increasing, epochWindows, flat, List.nil_append]
  exact pairwise_zipIdx _ 0

section Increasing

variable {all : List (Window K Logits Gradient)} {first second : Window K Logits Gradient}

/-- Of two windows, one is before the other. -/
theorem Increasing.apart (increasing : Increasing all) (left : first ∈ all)
    (right : second ∈ all) (distinct : first ≠ second) :
    (∀ a ∈ first.samples, ∀ b ∈ second.samples, a.2 < b.2) ∨
      (∀ a ∈ first.samples, ∀ b ∈ second.samples, b.2 < a.2) := by
  have ordered := (List.pairwise_flatMap.mp increasing).2
  obtain ⟨before, rest, rfl⟩ := List.append_of_mem left
  rw [List.pairwise_append, List.pairwise_cons] at ordered
  obtain ⟨_, ⟨after, _⟩, across⟩ := ordered
  rcases List.mem_append.mp right with member | member
  · exact .inr fun a inFirst b inSecond =>
      across second member first List.mem_cons_self b inSecond a inFirst
  · rcases List.mem_cons.mp member with same | member
    · exact absurd same.symm distinct
    · exact .inl (after second member)

/-- A window has all samples between two of its own. -/
theorem Increasing.between (increasing : Increasing all) (left : first ∈ all)
    (right : second ∈ all) {low high middle : SampleOutcome K Logits Gradient × Nat}
    (lowIn : low ∈ first.samples) (highIn : high ∈ first.samples)
    (middleIn : middle ∈ second.samples) (above : low.2 ≤ middle.2)
    (below : middle.2 ≤ high.2) : first = second := by
  by_contra distinct
  rcases increasing.apart left right distinct with before | after
  · have := before high highIn middle middleIn
    omega
  · have := after low lowIn middle middleIn
    omega

theorem Increasing.le_last (increasing : Increasing all) (member : first ∈ all)
    {last sample : SampleOutcome K Logits Gradient × Nat}
    (isLast : first.samples.getLast? = some last) (inside : sample ∈ first.samples) :
    sample.2 ≤ last.2 := by
  have ordered := (List.pairwise_flatMap.mp increasing).1 first member
  obtain ⟨front, split⟩ := List.getLast?_eq_some_iff.mp isLast
  rw [split] at ordered inside
  rcases List.mem_append.mp inside with before | same
  · exact ((List.pairwise_append.mp ordered).2.2 sample before last
      (List.mem_singleton.mpr rfl)).le
  · rw [List.mem_singleton.mp same]

/-- A step is attributed to a sample of its window that no other one is after. -/
theorem Increasing.update_sample (increasing : Increasing all) (member : first ∈ all)
    (nonempty : 0 < (completed first.samples).length) :
    ∃ last ∈ first.samples, last.2 = (windowUpdate first.samples).sample ∧
      ∀ sample ∈ first.samples, sample.2 ≤ last.2 := by
  cases isLast : first.samples.getLast? with
  | none =>
      rw [List.getLast?_eq_none_iff.mp isLast] at nonempty
      exact absurd nonempty (Nat.lt_irrefl 0)
  | some last =>
      exact ⟨last, List.mem_of_getLast? isLast, by simp [windowUpdate, isLast],
        fun sample inside => increasing.le_last member isLast inside⟩

end Increasing

/-! ## The samples of the steps -/

section Epoch

variable {steps : Nat} {samples : List (Sample K Logits Gradient)}

/-- The windows have the samples that the loop reaches, at their positions. -/
theorem mem_epochWindows {sample : SampleOutcome K Logits Gradient × Nat} :
    sample ∈ (epochWindows steps samples).flatMap Window.samples ↔
      sample.2 < ((epochWindows steps samples).flatMap Window.samples).length ∧
        samples[sample.2]?.map Sample.outcome = some sample.1 := by
  obtain ⟨count, flat⟩ := windows_flatten steps samples 0 []
  rw [epochWindows, flat, List.nil_append]
  rw [List.mem_zipIdx_iff_getElem?, List.getElem?_take, List.getElem?_map, List.length_zipIdx,
    List.length_take, List.length_map]
  constructor
  · intro found
    split at found
    · rename_i below
      have bound := (List.getElem?_eq_some_iff.mp (Option.map_eq_some_iff.mp found).choose_spec.1).1
      exact ⟨by omega, found⟩
    · cases found
  · rintro ⟨below, found⟩
    rw [if_pos (by omega)]
    exact found

theorem gradientOf_eq {outcome : SampleOutcome K Logits Gradient} {i : Nat}
    (found : samples[i]?.map Sample.outcome = some outcome) :
    gradientOf samples i = outcome.gradient := by
  obtain ⟨sample, here, rfl⟩ := Option.map_eq_some_iff.mp found
  simp [gradientOf, here]

theorem lossOf_eq {outcome : SampleOutcome K Logits Gradient} {i : Nat}
    (found : samples[i]?.map Sample.outcome = some outcome) :
    lossOf samples i = outcome.loss := by
  obtain ⟨sample, here, rfl⟩ := Option.map_eq_some_iff.mp found
  simp [lossOf, here]

theorem found_of_mem {window : Window K Logits Gradient}
    (member : window ∈ epochWindows steps samples)
    {sample : SampleOutcome K Logits Gradient × Nat} (inside : sample ∈ window.samples) :
    samples[sample.2]?.map Sample.outcome = some sample.1 :=
  (mem_epochWindows.mp (List.mem_flatMap.mpr ⟨window, member, inside⟩)).2

theorem epochWindows_shape (positive : 1 ≤ steps) :
    ∀ window ∈ epochWindows steps samples, window.Shape :=
  windows_shape positive samples 0 [] (fun _ impossible => by cases impossible) fun _ => rfl

theorem mem_steppedWindows {all : List (Window K Logits Gradient)}
    {window : Window K Logits Gradient} :
    window ∈ steppedWindows all ↔ window ∈ all ∧ window.ending = .stepped := by
  simp [steppedWindows]

theorem mem_stepGroups {i : Nat} :
    i ∈ (stepGroups steps samples).flatten ↔
      ∃ window ∈ epochWindows steps samples, window.ending = .stepped ∧
        ∃ outcome, (outcome, i) ∈ window.samples ∧ outcome.completed := by
  rw [stepGroups, ← List.flatMap_def, List.mem_flatMap]
  constructor
  · rintro ⟨window, member, inside⟩
    obtain ⟨⟨outcome, i⟩, sample, rfl⟩ := List.mem_map.mp inside
    obtain ⟨here, stepped⟩ := mem_steppedWindows.mp member
    exact ⟨window, here, stepped, outcome, List.mem_filter.mp sample⟩
  · rintro ⟨window, here, stepped, outcome, inside⟩
    exact ⟨window, mem_steppedWindows.mpr ⟨here, stepped⟩,
      List.mem_map.mpr ⟨(outcome, i), List.mem_filter.mpr inside, rfl⟩⟩

/-- The samples of steps are among those of the windows. -/
theorem steppedWindows_sublist (all : List (Window K Logits Gradient)) :
    ((steppedWindows all).flatMap fun window => (completed window.samples).map Prod.snd).Sublist
      ((all.flatMap Window.samples).map Prod.snd) := by
  induction all with
  | nil => exact .slnil
  | cons window rest ih =>
      have inside : ((completed window.samples).map Prod.snd).Sublist
          (window.samples.map Prod.snd) :=
        List.filter_sublist.map _
      rw [steppedWindows] at ih ⊢
      rw [List.filter_cons, List.flatMap_cons, List.map_append]
      split
      · exact inside.append ih
      · exact ih.trans (List.sublist_append_right ..)

/-- No sample is in two steps. -/
theorem stepGroups_nodup : (stepGroups steps samples).flatten.Nodup := by
  have increasing := epochWindows_increasing steps samples
  rw [Increasing, ← List.pairwise_map] at increasing
  rw [stepGroups, ← List.flatMap_def]
  exact (increasing.sublist (steppedWindows_sublist _)).imp Nat.ne_of_lt

/-- Each sample of a window is in its step or dropped. -/
theorem dropped_add_stepped {all : List (Window K Logits Gradient)}
    (shaped : ∀ window ∈ all, window.Shape) :
    (all.map Window.dropped).sum +
        ((steppedWindows all).flatMap fun window =>
          (completed window.samples).map Prod.snd).length =
      (all.flatMap Window.samples).length := by
  induction all with
  | nil => rfl
  | cons window rest ih =>
      have later := ih fun other member => shaped other (List.mem_cons_of_mem _ member)
      have shape := shaped window List.mem_cons_self
      have parts := completed_add_failures window.samples
      rw [steppedWindows] at later ⊢
      rw [List.map_cons, List.sum_cons, List.filter_cons, List.flatMap_cons, List.length_append]
      cases ending : window.ending with
      | stepped =>
          simp [Window.dropped, ending] at later ⊢
          omega
      | discarded =>
          simp [Window.dropped, ending] at later ⊢
          omega
      | unfinished =>
          have none := shape.unfinished ending
          simp [Window.dropped, ending] at later ⊢
          omega

/-- A step is exact when the losses left in its window cancel. -/
theorem stepOf_windowUpdate [CharZero K] (positive : 1 ≤ steps)
    {window : Window K Logits Gradient}
    (member : window ∈ steppedWindows (epochWindows steps samples)) :
    StepOf samples (windowUpdate window.samples) ((completed window.samples).map Prod.snd) ↔
      leftLosses window.samples = 0 := by
  obtain ⟨here, stepped⟩ := mem_steppedWindows.mp member
  have shape := epochWindows_shape positive window here
  have some := (shape.stepped stepped).1
  have count : ((completed window.samples).length : K) ≠ 0 := cast_ne_zero_of_one_le some
  have gradients : ((completed window.samples).map Prod.snd).map (gradientOf samples) =
      (completed window.samples).map fun sample => sample.1.gradient := by
    rw [List.map_map]
    exact List.map_congr_left fun sample inside =>
      gradientOf_eq (found_of_mem here (List.mem_of_mem_filter inside))
  have losses : ((completed window.samples).map Prod.snd).map (lossOf samples) =
      (completed window.samples).map fun sample => sample.1.loss := by
    rw [List.map_map]
    exact List.map_congr_left fun sample inside =>
      lossOf_eq (found_of_mem here (List.mem_of_mem_filter inside))
  constructor
  · intro exactly
    have mean := exactly.loss
    rw [losses, List.length_map] at mean
    exact (mul_eq_zero.mp (add_eq_left.mp mean)).resolve_left (inv_ne_zero count)
  · intro cancels
    refine ⟨fun none => ?_, ?_, ?_, ?_, ?_⟩
    · rw [List.map_eq_nil_iff.mp none] at some
      exact absurd some (Nat.lt_irrefl 0)
    · have ordered := (List.pairwise_flatMap.mp (epochWindows_increasing steps samples)).1
        window here
      rw [← List.pairwise_map] at ordered
      exact (ordered.sublist (List.filter_sublist.map _)).imp Nat.ne_of_lt
    · intro i inside
      obtain ⟨⟨outcome, i⟩, sample, rfl⟩ := List.mem_map.mp inside
      obtain ⟨sample, completes⟩ := List.mem_filter.mp sample
      exact ⟨outcome, found_of_mem here sample, completes⟩
    · rw [gradients, List.length_map]
      rfl
    · rw [losses, List.length_map, windowUpdate, cancels, mul_zero, add_zero]
      rfl

theorem trainEpoch_windows [CharZero K] (config : AccumulationConfig K Gradient)
    (gradient : Gradient)
    (finite : ∀ window ∈ steppedWindows
        (epochWindows config.gradientAccumulationSteps samples),
      config.finiteNorm (meanGradient (completed window.samples))) :
    Covers [] 0 (epochWindows config.gradientAccumulationSteps samples)
      ⟨gradient, 0, 0, 0, [], false⟩ (trainEpoch config gradient samples) :=
  trainSamples_windows samples.length samples 0 [] _ (Nat.zero_add _) (gathered_nil ..)
    config.one_le_steps finite

section Final

variable {final : Nat × EpochState K Gradient} {gradient : Gradient}
  (covers : Covers [] 0 (epochWindows steps samples) ⟨gradient, 0, 0, 0, [], false⟩ final)

include covers

theorem Covers.reached :
    final.1 = ((epochWindows steps samples).flatMap Window.samples).length :=
  covers.index.trans (Nat.zero_add _)

/-- A sample that the loop reaches is in a window. -/
theorem Covers.window_of {i : Nat} (reached : i < final.1)
    {outcome : SampleOutcome K Logits Gradient}
    (found : samples[i]?.map Sample.outcome = some outcome) :
    ∃ window ∈ epochWindows steps samples, (outcome, i) ∈ window.samples := by
  rw [covers.reached] at reached
  exact List.mem_flatMap.mp
    (mem_epochWindows.mpr (show (outcome, i).2 < _ ∧ _ from ⟨reached, found⟩))

/-- A sample of a step has no later one of its window that fails in its backward
pass. -/
theorem Covers.not_laterFails (positive : 1 ≤ steps) {i : Nat}
    (inStep : i ∈ (stepGroups steps samples).flatten) : ¬ LaterFails samples final i := by
  rintro ⟨j, after, reached, ⟨outcome, found, fails⟩, between⟩
  obtain ⟨window, member, stepped, own, inside, _⟩ := mem_stepGroups.mp inStep
  have increasing := epochWindows_increasing steps samples
  have shape := epochWindows_shape positive window member
  obtain ⟨last, lastIn, sample, isLast⟩ :=
    increasing.update_sample member (shape.stepped stepped).1
  have update : windowUpdate window.samples ∈ final.2.updates := by
    rw [covers.updates]
    exact List.mem_map.mpr ⟨window, mem_steppedWindows.mpr ⟨member, stepped⟩, rfl⟩
  have beyond := between _ update (by rw [← sample]; exact isLast _ inside)
  obtain ⟨other, otherMember, failing⟩ := covers.window_of reached found
  have same := increasing.between member otherMember inside lastIn failing after.le
    (sample ▸ beyond)
  subst same
  rw [(shape.stepped stepped).2 _ failing] at fails
  cases fails

/-- A completed sample of no step has a later one of its window that fails in its
backward pass. -/
theorem Covers.laterFails (positive : 1 ≤ steps) {i : Nat} (reached : i < final.1)
    (completes : Completes samples i)
    (noStep : i ∉ (stepGroups steps samples).flatten) : LaterFails samples final i := by
  obtain ⟨outcome, found, done⟩ := completes
  have increasing := epochWindows_increasing steps samples
  obtain ⟨window, member, inside⟩ := covers.window_of reached found
  have shape := epochWindows_shape positive window member
  have inCompleted : (outcome, i) ∈ completed window.samples :=
    List.mem_filter.mpr ⟨inside, done⟩
  cases ending : window.ending with
  | stepped =>
      exact absurd (mem_stepGroups.mpr ⟨window, member, ending, outcome, inside, done⟩) noStep
  | unfinished =>
      rw [List.eq_nil_of_length_eq_zero (shape.unfinished ending)] at inCompleted
      cases inCompleted
  | discarded =>
      obtain ⟨last, isLast, fails⟩ := shape.discarded ending
      have lastIn := List.mem_of_getLast? isLast
      have below := increasing.le_last member isLast inside
      have different : i ≠ last.2 := by
        intro same
        have lastFound := found_of_mem member lastIn
        rw [← same, found] at lastFound
        rw [← Option.some.inj lastFound] at fails
        cases outcome <;> simp [SampleOutcome.completed, SampleOutcome.failedInBackward] at done fails
      refine ⟨last.2, Nat.lt_of_le_of_ne below different, ?_, ⟨_, found_of_mem member lastIn, fails⟩,
        fun update isUpdate onward => ?_⟩
      · rw [covers.reached]
        exact (mem_epochWindows.mp (List.mem_flatMap.mpr ⟨window, member, lastIn⟩)).1
      · rw [covers.updates, List.nil_append] at isUpdate
        obtain ⟨other, otherStepped, rfl⟩ := List.mem_map.mp isUpdate
        obtain ⟨otherMember, otherEnding⟩ := mem_steppedWindows.mp otherStepped
        have otherShape := epochWindows_shape positive other otherMember
        obtain ⟨step, stepIn, position, _⟩ :=
          increasing.update_sample otherMember (otherShape.stepped otherEnding).1
        by_contra before
        have same := increasing.between member otherMember inside lastIn stepIn
          (position.symm ▸ onward) (by omega)
        rw [same, otherEnding] at ending
        cases ending

/-- The samples of no step are counted as dropped. -/
theorem Covers.dropped_eq (positive : 1 ≤ steps) :
    final.2.droppedSamples =
      (List.range final.1).countP fun i => decide (i ∉ (stepGroups steps samples).flatten) := by
  have total := dropped_add_stepped fun window (member : window ∈ epochWindows steps samples) =>
    epochWindows_shape positive window member
  have inSteps : ((List.range final.1).filter
      fun i => decide (i ∈ (stepGroups steps samples).flatten)).Perm
        (stepGroups steps samples).flatten := by
    rw [List.perm_ext_iff_of_nodup (List.nodup_range.filter _) stepGroups_nodup]
    intro i
    rw [List.mem_filter, List.mem_range, decide_eq_true_iff]
    refine ⟨And.right, fun inStep => ⟨?_, inStep⟩⟩
    obtain ⟨window, member, _, outcome, inside, _⟩ := mem_stepGroups.mp inStep
    rw [covers.reached]
    exact (mem_epochWindows.mp (List.mem_flatMap.mpr ⟨window, member, inside⟩)).1
  have parts := List.length_eq_length_filter_add (l := List.range final.1)
    fun i => decide (i ∈ (stepGroups steps samples).flatten)
  rw [List.length_range, inSteps.length_eq] at parts
  rw [List.flatMap_def, ← stepGroups] at total
  have dropped := covers.dropped
  have reached := covers.reached
  simp only [failures, List.filter_nil, List.length_nil, decide_not] at dropped ⊢
  rw [List.countP_eq_length_filter]
  omega

end Final

end Epoch

section Claim

variable (config : AccumulationConfig K Gradient)

/-- Without an abort the loop reaches every sample. -/
theorem trainSamples_reached (numSamples : Nat) (rest : List (Sample K Logits Gradient))
    (goes : ∀ sample ∈ rest, sample.abortRequested = false) :
    ∀ (i : Nat) (state : EpochState K Gradient),
      (trainSamples config numSamples i rest state).1 = i + rest.length := by
  induction rest with
  | nil => exact fun _ _ => rfl
  | cons sample rest ih =>
      intro i state
      have here := goes sample List.mem_cons_self
      rw [trainSamples, if_neg (by simp [here]),
        ih fun other member => goes other (List.mem_cons_of_mem _ member)]
      rw [List.length_cons]
      omega

variable [CharZero K]

/-- Gradient accumulation is exact exactly when the losses that failed samples leave
cancel in each window that ends with a step. -/
theorem accumulation_exact_iff (gradient : Gradient) (samples : List (Sample K Logits Gradient))
    (finite : ∀ window ∈ steppedWindows
        (epochWindows config.gradientAccumulationSteps samples),
      config.finiteNorm (meanGradient (completed window.samples))) :
    ExactSteps samples (trainEpoch config gradient samples)
        (stepGroups config.gradientAccumulationSteps samples) ↔
      LeftLossesCancel config.gradientAccumulationSteps samples := by
  have covers := trainEpoch_windows config gradient finite
  have positive := config.one_le_steps
  have steps : List.Forall₂ (StepOf samples) (trainEpoch config gradient samples).2.updates
        (stepGroups config.gradientAccumulationSteps samples) ↔
      LeftLossesCancel config.gradientAccumulationSteps samples := by
    rw [covers.updates, List.nil_append, stepGroups, List.forall₂_map_left_iff,
      List.forall₂_map_right_iff, List.forall₂_same]
    exact forall₂_congr fun window member => stepOf_windowUpdate positive member
  constructor
  · exact fun exactly => steps.mp exactly.steps
  · intro cancel
    refine ⟨fun goes => ?_, steps.mpr cancel, fun i reached completes => ?_,
      covers.dropped_eq positive⟩
    · exact (trainSamples_reached config samples.length samples goes 0 _).trans (Nat.zero_add _)
    · rw [stepGroups_nodup.count]
      by_cases inStep : i ∈ (stepGroups config.gradientAccumulationSteps samples).flatten
      · simp [inStep, covers.not_laterFails positive inStep]
      · simp [inStep, covers.laterFails positive reached completes inStep]

end Claim

/-- Windows of two samples. -/
def twoSamples : AccumulationConfig ℚ ℚ where
  gradientAccumulationSteps := 2
  one_le_steps := Nat.le_succ 1
  finiteNorm _ := true
  clip _ gradient := gradient

/-- Two samples of loss one, and one that fails in between. -/
def failsBetween (failure : SampleOutcome ℚ ℚ ℚ) : List (Sample ℚ ℚ ℚ) :=
  [⟨false, .completes 1 1 .id⟩, ⟨false, failure⟩, ⟨false, .completes 1 1 .id⟩]

theorem epochWindows_failsBetween (failure : SampleOutcome ℚ ℚ ℚ)
    (failed : failure.completed = false) (kept : failure.failedInBackward = false) :
    steppedWindows (epochWindows 2 (failsBetween failure)) =
      [⟨[(.completes 1 1 .id, 0), (failure, 1), (.completes 1 1 .id, 2)], .stepped⟩] := by
  cases failure with
  | completes => cases failed
  | failsBeforeLoss => rfl
  | failsAfterLoss => rfl
  | failsInBackward => cases kept

/-- A sample that fails before its loss is added. -/
theorem accumulation_exact_early :
    ExactSteps (failsBetween .failsBeforeLoss)
      (trainEpoch twoSamples 0 (failsBetween .failsBeforeLoss))
      (stepGroups 2 (failsBetween .failsBeforeLoss)) :=
  (accumulation_exact_iff twoSamples 0 (failsBetween .failsBeforeLoss) fun _ _ => rfl).mpr
    fun window member => by
      have windows := epochWindows_failsBetween .failsBeforeLoss rfl rfl
      change window ∈ steppedWindows (epochWindows 2 _) at member
      rw [windows, List.mem_singleton] at member
      rw [member]
      simp [leftLosses, SampleOutcome.leftLoss]

/-- The loss of a sample that fails later is reported with the step. -/
theorem accumulation_exact_fails :
    ¬ ∃ groups, ExactSteps (failsBetween (.failsAfterLoss 2))
      (trainEpoch twoSamples 0 (failsBetween (.failsAfterLoss 2))) groups := by
  rintro ⟨groups, exactly⟩
  have covers : Covers [] 0 (epochWindows 2 (failsBetween (.failsAfterLoss 2)))
      ⟨0, 0, 0, 0, [], false⟩ (trainEpoch twoSamples 0 (failsBetween (.failsAfterLoss 2))) :=
    trainEpoch_windows twoSamples 0 fun _ _ => rfl
  have steps := exactly.steps
  rw [covers.updates, epochWindows_failsBetween _ rfl rfl] at steps
  obtain ⟨group, _, step, _, _⟩ := List.forall₂_cons_left_iff.mp steps
  have losses : group.map (lossOf (failsBetween (.failsAfterLoss 2))) =
      List.replicate group.length 1 := by
    rw [List.eq_replicate_iff, List.length_map]
    refine ⟨rfl, fun loss member => ?_⟩
    obtain ⟨i, inGroup, rfl⟩ := List.mem_map.mp member
    obtain ⟨outcome, found, done⟩ := step.completed i inGroup
    rw [lossOf_eq found]
    match i with
    | 0 => cases found; rfl
    | 1 => cases found; cases done
    | 2 => cases found; rfl
    | i + 3 => simp [failsBetween] at found
  have nonzero : (group.length : ℚ) ≠ 0 := by
    simpa using step.nonempty
  have loss := step.loss
  rw [losses, List.sum_replicate, nsmul_eq_mul, mul_one, inv_mul_cancel₀ nonzero] at loss
  norm_num [windowUpdate, meanLoss, completed, SampleOutcome.completed, leftLosses,
    SampleOutcome.loss, SampleOutcome.leftLoss] at loss

end Adai.Epochs
