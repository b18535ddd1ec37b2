import Adai.Epochs.Reports

/-! # The best weights are restored

Saving the copy of the best model may fail and leave older files in it, or files
that cannot be read; the copy is loaded at the end all the same.
`best_restored_iff` says for which runs the weights of the best epoch are back in
the model whatever the weights of the epochs are: those whose last copy has all its
files, or has one that cannot be read where its save stopped and no epoch after it.
-/

namespace Adai.Epochs

open Sections

variable {ω Value : Type*}

/-! ## Files of a copy -/

theorem writeFiles_length (written : Nat) (torn : Bool) (sections : List ω)
    (files : List (Option ω)) :
    (writeFiles written torn sections files).length = files.length := by
  induction written generalizing sections files with
  | zero => cases sections <;> cases files <;> rfl
  | succ written ih =>
      cases sections with
      | nil => rfl
      | cons section_ sections =>
          cases files with
          | nil => rfl
          | cons file files => exact congrArg Nat.succ (ih sections files)

/-- Which files can be read does not depend on what is in them. -/
theorem writeFiles_map {Tag : Type*} (tag : ω → Tag) (written : Nat) (torn : Bool)
    (sections : List ω) (files : List (Option ω)) :
    (writeFiles written torn sections files).map (Option.map tag) =
      writeFiles written torn (sections.map tag) (files.map (Option.map tag)) := by
  induction written generalizing sections files with
  | zero =>
      cases sections with
      | nil => rfl
      | cons section_ sections =>
          cases files with
          | nil => rfl
          | cons file files => cases torn <;> rfl
  | succ written ih =>
      cases sections with
      | nil => rfl
      | cons section_ sections =>
          cases files with
          | nil => rfl
          | cons file files => exact congrArg (some (tag section_) :: ·) (ih sections files)

/-- A file that can be read was so before, or was written now. -/
theorem mem_writeFiles {written : Nat} {torn : Bool} {sections : List ω}
    {files : List (Option ω)} {content : ω}
    (member : some content ∈ writeFiles written torn sections files) :
    content ∈ sections ∨ some content ∈ files := by
  induction written generalizing sections files with
  | zero =>
      cases sections with
      | nil => exact .inr member
      | cons section_ sections =>
          cases files with
          | nil => exact .inr member
          | cons file files =>
              cases torn with
              | false => exact .inr member
              | true =>
                  rcases List.mem_cons.mp member with impossible | member
                  · cases impossible
                  · exact .inr (List.mem_cons_of_mem _ member)
  | succ written ih =>
      cases sections with
      | nil => exact .inr member
      | cons section_ sections =>
          cases files with
          | nil => exact .inr member
          | cons file files =>
              rcases List.mem_cons.mp member with same | member
              · exact .inl (Option.some.inj same ▸ List.mem_cons_self ..)
              · exact (ih member).imp (List.mem_cons_of_mem _) (List.mem_cons_of_mem _)

/-- The files where a save stopped, the first of them perhaps cut short. -/
def tearFirst (torn : Bool) : List (Option ω) → List (Option ω)
  | [] => []
  | file :: files => (if torn then none else file) :: files

/-- A copy after a save: what was written, and then what was there. -/
theorem writeFiles_eq {written : Nat} {torn : Bool} {sections : List ω}
    {files : List (Option ω)} (size : files.length = sections.length) :
    writeFiles written torn sections files =
      (sections.take written).map some ++ tearFirst torn (files.drop written) := by
  induction written generalizing sections files with
  | zero =>
      cases sections with
      | nil =>
          obtain rfl := List.eq_nil_of_length_eq_zero size
          rfl
      | cons section_ sections =>
          cases files with
          | nil => cases size
          | cons file files => rfl
  | succ written ih =>
      cases sections with
      | nil =>
          obtain rfl := List.eq_nil_of_length_eq_zero size
          rfl
      | cons section_ sections =>
          cases files with
          | nil => cases size
          | cons file files => exact congrArg (some section_ :: ·) (ih (Nat.succ.inj size))

/-- The first file that a save did not write. -/
theorem writeFiles_stop {written : Nat} {torn : Bool} {sections : List ω}
    {files : List (Option ω)} (size : files.length = sections.length)
    (short : written < sections.length) :
    (writeFiles written torn sections files)[written]? =
      (tearFirst torn (files.drop written)).head? := by
  have count : ((sections.take written).map some).length = written := by
    rw [List.length_map, List.length_take, Nat.min_eq_left short.le]
  rw [writeFiles_eq size, List.getElem?_append_right count.le, count, Nat.sub_self,
    ← List.head?_eq_getElem?]

theorem mem_of_tearFirst {torn : Bool} {files : List (Option ω)} {content : ω}
    (first : (tearFirst torn files).head? = some (some content)) : some content ∈ files := by
  cases files with
  | nil => cases first
  | cons file files =>
      have same : (if torn then none else file) = some content := Option.some.inj first
      cases torn with
      | false => exact same ▸ List.mem_cons_self ..
      | true => cases same

/-- What loading a copy leaves, from the place on where its save stopped. -/
theorem loadAll_writeFiles {written : Nat} {torn : Bool} {sections model : List ω}
    {files : List (Option ω)} (size : files.length = sections.length)
    (modelSize : model.length = sections.length) :
    (loadAll (writeFiles written torn sections files) model).2 =
      sections.take written ++
        (loadAll (tearFirst torn (files.drop written)) (model.drop written)).2 := by
  rw [writeFiles_eq size]
  conv_lhs => rw [← List.take_append_drop written model]
  refine loadAll_read_append _ _ _ ?_
  rw [List.length_take, List.length_take, modelSize]

/-- A copy with all its files restores what was saved. -/
theorem loadAll_of_complete {written : Nat} {torn : Bool} {sections model : List ω}
    {files : List (Option ω)} (size : files.length = sections.length)
    (modelSize : model.length = sections.length) (complete : sections.length ≤ written) :
    (loadAll (writeFiles written torn sections files) model).2 = sections := by
  rw [loadAll_writeFiles size modelSize, List.take_of_length_le complete,
    List.drop_eq_nil_of_le (size ▸ complete), List.drop_eq_nil_of_le (modelSize ▸ complete)]
  exact List.append_nil sections

/-- A file that cannot be read ends the load where the save stopped. -/
theorem loadAll_of_unreadable {written : Nat} {torn : Bool} {sections model : List ω}
    {files : List (Option ω)} (size : files.length = sections.length)
    (modelSize : model.length = sections.length)
    (unreadable : (tearFirst torn (files.drop written)).head? = some none) :
    (loadAll (writeFiles written torn sections files) model).2 =
      sections.take written ++ model.drop written := by
  obtain ⟨rest, same⟩ := List.head?_eq_some_iff.mp unreadable
  rw [loadAll_writeFiles size modelSize, same]
  rfl

/-- An older file is loaded where the save stopped. -/
theorem loadAll_of_older {written : Nat} {torn : Bool} {sections model : List ω}
    {files : List (Option ω)} {content : ω} (size : files.length = sections.length)
    (modelSize : model.length = sections.length) (short : written < sections.length)
    (older : (tearFirst torn (files.drop written)).head? = some (some content)) :
    (loadAll (writeFiles written torn sections files) model).2[written]? = some content := by
  obtain ⟨rest, same⟩ := List.head?_eq_some_iff.mp older
  have count : (sections.take written).length = written := by
    rw [List.length_take, Nat.min_eq_left short.le]
  have held : model.drop written ≠ [] := by
    rw [Ne, List.drop_eq_nil_iff, modelSize]
    exact Nat.not_le.mpr short
  rw [loadAll_writeFiles size modelSize, same, List.getElem?_append_right count.le, count,
    Nat.sub_self]
  cases after : model.drop written with
  | nil => exact absurd after held
  | cons section_ model => rfl

/-! ## The epochs of a run -/

section Runs

variable (config : TrainingConfig Value)

/-- The epochs that run, each with whether it is recorded as best. -/
def ranEpochs (hasValidation : Bool) : Value → Int → List (EpochOutcome Value) →
    List (EpochOutcome Value × Bool)
  | _, _, [] => []
  | best, stale, outcome :: rest =>
    if outcome.aborted then [(outcome, false)]
    else
      let after := if hasValidation then afterValidation config best stale outcome.validation
        else (best, stale)
      (outcome, hasValidation && outcome.validation.any (config.improves · best)) ::
        (if hasValidation && config.enableEarlyStopping &&
            decide (config.patience ≤ after.2) then []
        else ranEpochs hasValidation after.1 after.2 rest)

/-- The copy of the best model after the given epochs. -/
def copyAfter (weights : Nat → List ω) : Nat → List (EpochOutcome Value × Bool) →
    Option (List (Option ω)) → Option (List (Option ω))
  | _, [], copy => copy
  | epoch, (outcome, recorded) :: rest, copy =>
    copyAfter weights (epoch + 1) rest
      (if recorded then outcome.save.save (weights epoch) copy else copy)

/-- What a run leaves in the trainer before the copy is loaded. -/
structure RanTo (weights : Nat → List ω) (first : Nat) (before after : ChatbotTrainer ω Value)
    (ran : List (EpochOutcome Value × Bool)) : Prop where
  model : after.model =
    if ran = [] then before.model else weights (first + ran.length - 1)
  copy : after.bestModelCopy = copyAfter weights first ran before.bestModelCopy
  none : (∀ epoch ∈ ran, epoch.2 = false) →
    after.bestEpoch = before.bestEpoch ∧
      after.bestValidationLoss = before.bestValidationLoss
  best : ∀ front outcome back, ran = front ++ (outcome, true) :: back →
    (∀ epoch ∈ back, epoch.2 = false) →
      after.bestEpoch = before.trainingLosses.length + front.length + 1 ∧
        outcome.validation = some after.bestValidationLoss

/-- What one epoch leaves in the trainer. -/
structure Ran (weights : List ω) (before after : ChatbotTrainer ω Value)
    (outcome : EpochOutcome Value) (recorded : Bool) : Prop where
  model : after.model = weights
  losses : after.trainingLosses.length = before.trainingLosses.length + 1
  copy : after.bestModelCopy =
    if recorded then outcome.save.save weights before.bestModelCopy else before.bestModelCopy
  none : recorded = false →
    after.bestEpoch = before.bestEpoch ∧
      after.bestValidationLoss = before.bestValidationLoss
  best : recorded = true →
    after.bestEpoch = before.trainingLosses.length + 1 ∧
      outcome.validation = some after.bestValidationLoss

theorem RanTo.cons {weights : Nat → List ω} {first : Nat}
    {before middle after : ChatbotTrainer ω Value} {outcome : EpochOutcome Value}
    {recorded : Bool} {rest : List (EpochOutcome Value × Bool)}
    (ran : Ran (weights first) before middle outcome recorded)
    (later : RanTo weights (first + 1) middle after rest) :
    RanTo weights first before after ((outcome, recorded) :: rest) where
  model := by
    rw [later.model, if_neg (List.cons_ne_nil _ _), List.length_cons]
    split
    · rename_i last
      rw [ran.model, last]
      rfl
    · rename_i more
      have count := List.length_pos_iff.mpr more
      congr 1
      omega
  copy := by
    rw [later.copy, ran.copy]
    rfl
  none unrecorded := by
    obtain ⟨epoch, loss⟩ := later.none fun epoch member =>
      unrecorded epoch (List.mem_cons_of_mem _ member)
    obtain ⟨sameEpoch, sameLoss⟩ := ran.none (unrecorded _ (List.mem_cons_self ..))
    exact ⟨epoch.trans sameEpoch, loss.trans sameLoss⟩
  best front best back split unrecorded := by
    cases front with
    | nil =>
        obtain ⟨same, rfl⟩ := List.cons.inj split
        obtain ⟨rfl, rfl⟩ := Prod.mk.inj same
        obtain ⟨epoch, loss⟩ := later.none unrecorded
        obtain ⟨number, validated⟩ := ran.best rfl
        exact ⟨epoch.trans number, validated.trans (congrArg some loss.symm)⟩
    | cons head front =>
        obtain ⟨-, rfl⟩ := List.cons.inj split
        obtain ⟨number, validated⟩ := later.best front best back rfl unrecorded
        refine ⟨?_, validated⟩
        rw [number, ran.losses, List.length_cons]
        omega

/-- Nothing ran, and nothing that matters changed. -/
theorem RanTo.nil {weights : Nat → List ω} {first : Nat}
    {before after : ChatbotTrainer ω Value} (model : after.model = before.model)
    (copy : after.bestModelCopy = before.bestModelCopy)
    (epoch : after.bestEpoch = before.bestEpoch)
    (loss : after.bestValidationLoss = before.bestValidationLoss) :
    RanTo weights first before after [] := by
  refine ⟨model, copy, fun _ => ⟨epoch, loss⟩, fun front outcome back impossible _ => ?_⟩
  cases front <;> cases impossible

variable [Zero Value] {config}

theorem validateEpoch_counts (config : TrainingConfig Value) (hasValidation : Bool)
    (outcome : EpochOutcome Value) (trainer : ChatbotTrainer ω Value) (weights : List ω) :
    ((validateEpoch config hasValidation outcome
          (trainer.trainEpoch weights outcome)).2.bestValidationLoss,
        (validateEpoch config hasValidation outcome
          (trainer.trainEpoch weights outcome)).2.epochsWithoutImprovement) =
      if hasValidation then
        afterValidation config trainer.bestValidationLoss trainer.epochsWithoutImprovement
          outcome.validation
      else (trainer.bestValidationLoss, trainer.epochsWithoutImprovement) := by
  cases hasValidation with
  | false => rfl
  | true => exact validate_counts config outcome (trainer.trainEpoch weights outcome)

/-- An epoch with its validation. -/
theorem validateEpoch_ran
    (on : config.enableEarlyStopping = true ∧ config.restoreBestWeights = true)
    (hasValidation : Bool) (weights : List ω) (trainer : ChatbotTrainer ω Value)
    (outcome : EpochOutcome Value) :
    Ran weights trainer
      (validateEpoch config hasValidation outcome (trainer.trainEpoch weights outcome)).2 outcome
      (hasValidation && outcome.validation.any (config.improves · trainer.bestValidationLoss)) := by
  have losses : (trainer.trainingLosses ++ [outcome.loss]).length =
      trainer.trainingLosses.length + 1 := by simp
  cases hasValidation with
  | false =>
      exact ⟨rfl, losses, rfl, fun _ => ⟨rfl, rfl⟩, fun impossible => (by cases impossible)⟩
  | true =>
      unfold validateEpoch validate
      rw [if_pos rfl, Bool.true_and]
      cases validation : outcome.validation with
      | none => exact ⟨rfl, losses, rfl, fun _ => ⟨rfl, rfl⟩, fun impossible => (by cases impossible)⟩
      | some loss =>
          rw [Option.any_some]
          dsimp only [ChatbotTrainer.trainEpoch]
          cases improves : config.improves loss trainer.bestValidationLoss with
          | false =>
              exact ⟨rfl, losses, rfl, fun _ => ⟨rfl, rfl⟩,
                fun impossible => (by cases impossible)⟩
          | true =>
              refine ⟨rfl, losses, ?_, fun impossible => (by cases impossible),
                fun _ => ⟨losses, validation⟩⟩
              simp only [on.1, on.2, Bool.and_self, if_true]

theorem epochLoop_ranTo (on : config.enableEarlyStopping = true ∧ config.restoreBestWeights = true)
    (hasValidation : Bool) (weights : Nat → List ω) (total : Nat)
    (epochs : List (EpochOutcome Value)) :
    ∀ (first : Nat) (trainer : ChatbotTrainer ω Value),
      RanTo weights first trainer
        (epochLoop config hasValidation weights total epochs first trainer).2
        (ranEpochs config hasValidation trainer.bestValidationLoss
          trainer.epochsWithoutImprovement epochs) := by
  induction epochs with
  | nil => exact fun first trainer => .nil rfl rfl rfl rfl
  | cons outcome rest ih =>
      intro first trainer
      have ran := validateEpoch_ran on hasValidation (weights first) trainer outcome
      unfold epochLoop ranEpochs
      dsimp only
      have trained : (trainer.trainEpoch (weights first) outcome).wasAborted =
          outcome.aborted := rfl
      by_cases aborted : outcome.aborted = true
      · rw [trained, if_pos aborted, if_pos aborted]
        have alone : Ran (weights first) trainer (trainer.trainEpoch (weights first) outcome)
            outcome false :=
          ⟨rfl, by simp [ChatbotTrainer.trainEpoch], rfl, fun _ => ⟨rfl, rfl⟩,
            fun impossible => (by cases impossible)⟩
        exact .cons alone (.nil rfl rfl rfl rfl)
      · rw [trained, if_neg aborted, if_neg aborted, ← validateEpoch_counts config hasValidation outcome
            trainer (weights first)]
        split
        · exact .cons ran (.nil rfl rfl rfl rfl)
        · exact .cons ran (ih _ _)

end Runs

/-! ## Copies -/

theorem copyAfter_append (weights : Nat → List ω) (front back : List (EpochOutcome Value × Bool)) :
    ∀ (first : Nat) (copy : Option (List (Option ω))),
      copyAfter weights first (front ++ back) copy =
        copyAfter weights (first + front.length) back (copyAfter weights first front copy) := by
  induction front with
  | nil => exact fun _ _ => rfl
  | cons epoch front ih =>
      intro first copy
      rw [List.cons_append, copyAfter, ih, List.length_cons, copyAfter, Nat.add_right_comm,
        Nat.add_assoc]

theorem copyAfter_of_unrecorded (weights : Nat → List ω)
    {back : List (EpochOutcome Value × Bool)} (unrecorded : ∀ epoch ∈ back, epoch.2 = false) :
    ∀ (first : Nat) (copy : Option (List (Option ω))),
      copyAfter weights first back copy = copy := by
  induction back with
  | nil => exact fun _ _ => rfl
  | cons epoch back ih =>
      intro first copy
      rw [copyAfter, unrecorded epoch (List.mem_cons_self ..), if_neg Bool.false_ne_true]
      exact ih (fun other member => unrecorded other (List.mem_cons_of_mem _ member)) _ _

/-- The copy is saved last at the last recorded epoch. -/
theorem copyAfter_best (weights : Nat → List ω) (front : List (EpochOutcome Value × Bool))
    (best : EpochOutcome Value) {back : List (EpochOutcome Value × Bool)}
    (unrecorded : ∀ epoch ∈ back, epoch.2 = false) :
    copyAfter weights 0 (front ++ (best, true) :: back) none =
      best.save.save (weights front.length) (copyAfter weights 0 front none) := by
  rw [copyAfter_append, copyAfter, if_pos rfl, copyAfter_of_unrecorded weights unrecorded,
    Nat.zero_add]

/-- The files that a save starts from. -/
def SaveOutcome.files (outcome : SaveOutcome) (weights : List ω) :
    Option (List (Option ω)) → Option (List (Option ω))
  | none => if outcome.directory then some (weights.map fun _ => none) else none
  | some files => some files

theorem save_eq (outcome : SaveOutcome) (weights : List ω) (copy : Option (List (Option ω))) :
    outcome.save weights copy = (outcome.files weights copy).map
      (writeFiles outcome.written outcome.torn weights) := by
  unfold SaveOutcome.save SaveOutcome.files
  cases copy with
  | some files => rfl
  | none => cases outcome.directory <;> rfl

/-- A copy of a model of so many files, whose readable ones have some property. -/
def CopyOf (sections : Nat) (holds : ω → Prop) (copy : Option (List (Option ω))) : Prop :=
  ∀ files, copy = some files →
    files.length = sections ∧ ∀ content, some content ∈ files → holds content

theorem CopyOf.files {sections : Nat} {holds : ω → Prop} {copy : Option (List (Option ω))}
    (of : CopyOf sections holds copy) {weights : List ω} (size : weights.length = sections)
    (outcome : SaveOutcome) : CopyOf sections holds (outcome.files weights copy) := by
  intro files same
  cases copy with
  | some older => exact of files same
  | none =>
      unfold SaveOutcome.files at same
      dsimp only at same
      split at same
      · obtain rfl := Option.some.inj same
        refine ⟨by rw [List.length_map, size], fun content member => ?_⟩
        obtain ⟨_, _, impossible⟩ := List.mem_map.mp member
        cases impossible
      · cases same

theorem CopyOf.save {sections : Nat} {holds : ω → Prop} {copy : Option (List (Option ω))}
    (of : CopyOf sections holds copy) {weights : List ω} (size : weights.length = sections)
    (all : ∀ section_ ∈ weights, holds section_) (outcome : SaveOutcome) :
    CopyOf sections holds (outcome.save weights copy) := by
  intro files same
  rw [save_eq] at same
  obtain ⟨older, found, rfl⟩ := Option.map_eq_some_iff.mp same
  obtain ⟨length, contents⟩ := of.files size outcome older found
  refine ⟨(writeFiles_length _ _ _ _).trans length, fun content member => ?_⟩
  rcases mem_writeFiles member with written | kept
  · exact all content written
  · exact contents content kept

theorem copyAfter_of {sections : Nat} {holds : ω → Prop} {weights : Nat → List ω}
    (ran : List (EpochOutcome Value × Bool)) :
    ∀ (first : Nat) (copy : Option (List (Option ω))), CopyOf sections holds copy →
      (∀ epoch, (weights epoch).length = sections) →
      (∀ epoch, first ≤ epoch → epoch < first + ran.length →
        ∀ section_ ∈ weights epoch, holds section_) →
      CopyOf sections holds (copyAfter weights first ran copy) := by
  induction ran with
  | nil => exact fun _ _ of _ _ => of
  | cons epoch ran ih =>
      intro first copy of sizes all
      rw [copyAfter]
      refine ih (first + 1) _ ?_ sizes fun later from_ to_ => all later (by omega) (by
        rw [List.length_cons]
        omega)
      split
      · exact of.save (sizes first) (all first (Nat.le_refl _) (by simp)) epoch.1.save
      · exact of

/-- Which files can be read does not depend on the weights. -/
theorem copyAfter_map {Tag : Type*} (tag : ω → Tag) (weights : Nat → List ω)
    (ran : List (EpochOutcome Value × Bool)) :
    ∀ (first : Nat) (copy : Option (List (Option ω))),
      (copyAfter weights first ran copy).map (List.map (Option.map tag)) =
        copyAfter (fun epoch => (weights epoch).map tag) first ran
          (copy.map (List.map (Option.map tag))) := by
  induction ran with
  | nil => exact fun _ _ => rfl
  | cons epoch ran ih =>
      intro first copy
      rw [copyAfter, copyAfter, ih]
      congr 1
      split
      · cases copy with
        | some files => exact congrArg some (writeFiles_map tag ..)
        | none =>
            unfold SaveOutcome.save
            dsimp only [Option.map_none]
            split
            · refine congrArg some ((writeFiles_map tag ..).trans ?_)
              rw [List.map_map, List.map_map]
              rfl
            · rfl
      · rfl

/-! ## Restoring -/

/-- Which files of the copy can be read after the given epochs. -/
def readableAfter (sections : Nat) (ran : List (EpochOutcome Value × Bool)) :
    Option (List (Option Unit)) :=
  copyAfter (fun _ => List.replicate sections ()) 0 ran none

/-- The last copy has all its files; or no epoch ran after it, and the file where
its save stopped cannot be read, or there is no directory for the copy. -/
def Restorable (sections : Nat) (ran : List (EpochOutcome Value × Bool)) : Prop :=
  ∀ front best back, ran = front ++ (best, true) :: back → (∀ epoch ∈ back, epoch.2 = false) →
    match readableAfter sections ran with
    | none => back = []
    | some files =>
      sections ≤ best.save.written ∨ back = [] ∧ files[best.save.written]? = some none

/-- After a run the model holds the weights of the last epoch recorded as best, and
the trainer its number and its loss. -/
def RestoresBest (weights : Nat → List ω) (ran : List (EpochOutcome Value × Bool))
    (before after : ChatbotTrainer ω Value) : Prop :=
  ∀ front best back, ran = front ++ (best, true) :: back → (∀ epoch ∈ back, epoch.2 = false) →
    after.bestEpoch = before.trainingLosses.length + front.length + 1 ∧
      best.validation = some after.bestValidationLoss ∧ after.model = weights front.length

/-- The files of the last copy, as far as they can be read. -/
theorem readableAfter_best {sections : Nat} {weights : Nat → List ω}
    (sizes : ∀ epoch, (weights epoch).length = sections)
    (front : List (EpochOutcome Value × Bool)) (best : EpochOutcome Value)
    {back : List (EpochOutcome Value × Bool)} (unrecorded : ∀ epoch ∈ back, epoch.2 = false) :
    readableAfter sections (front ++ (best, true) :: back) =
      (best.save.save (weights front.length) (copyAfter weights 0 front none)).map
        (List.map (Option.map fun _ => ())) := by
  rw [← copyAfter_best weights front best unrecorded, copyAfter_map, readableAfter]
  congr 1
  funext epoch
  rw [List.map_const', sizes epoch]

/-- A file that cannot be read, where a save stopped. -/
theorem unreadable_of_tags {written : Nat} {torn : Bool} {sections : List ω}
    {files : List (Option ω)} (size : files.length = sections.length)
    (short : written < sections.length)
    (unreadable : ((writeFiles written torn sections files).map
      (Option.map fun _ => ()))[written]? = some none) :
    (tearFirst torn (files.drop written)).head? = some none := by
  rw [List.getElem?_map, writeFiles_stop size short] at unreadable
  obtain ⟨file, found, none_⟩ := Option.map_eq_some_iff.mp unreadable
  rw [found, Option.map_eq_none_iff.mp none_]

section Restoring

variable [Zero Value] {config : TrainingConfig Value}

theorem train_ranTo (on : config.enableEarlyStopping = true ∧ config.restoreBestWeights = true)
    (hasValidation : Bool) (weights : Nat → List ω) (epochs : List (EpochOutcome Value))
    (trainer : ChatbotTrainer ω Value) :
    ∃ last : ChatbotTrainer ω Value,
      RanTo weights 0 { trainer with wasAborted := false, bestModelCopy := none } last
        (ranEpochs config hasValidation trainer.bestValidationLoss
          trainer.epochsWithoutImprovement epochs) ∧
      (train config hasValidation weights epochs trainer).2 = last.restoreBest config :=
  ⟨_, epochLoop_ranTo on hasValidation weights epochs.length epochs 0
    { trainer with wasAborted := false, bestModelCopy := none }, rfl⟩

/-- The model after a run whose last recorded epoch is given. -/
theorem train_model (on : config.enableEarlyStopping = true ∧ config.restoreBestWeights = true)
    (hasValidation : Bool) (weights : Nat → List ω) (epochs : List (EpochOutcome Value))
    (trainer : ChatbotTrainer ω Value) {front : List (EpochOutcome Value × Bool)}
    {best : EpochOutcome Value} {back : List (EpochOutcome Value × Bool)}
    (ran : ranEpochs config hasValidation trainer.bestValidationLoss
      trainer.epochsWithoutImprovement epochs = front ++ (best, true) :: back)
    (unrecorded : ∀ epoch ∈ back, epoch.2 = false) :
    (train config hasValidation weights epochs trainer).2.model =
      match best.save.save (weights front.length) (copyAfter weights 0 front none) with
      | none => weights (front.length + back.length)
      | some files => (loadAll files (weights (front.length + back.length))).2 := by
  obtain ⟨last, ranTo, restored⟩ := train_ranTo on hasValidation weights epochs trainer
  rw [ran] at ranTo
  have model : last.model = weights (front.length + back.length) := by
    rw [ranTo.model, if_neg (by simp), List.length_append, List.length_cons]
    congr 1
    omega
  rw [restored, ← model, ← copyAfter_best weights front best unrecorded, ← ranTo.copy]
  unfold ChatbotTrainer.restoreBest
  dsimp only
  cases last.bestModelCopy with
  | none => rfl
  | some files => simp only [on.1, on.2, Bool.and_self, if_true]

/-- A restorable run restores its best weights, whatever they are. -/
theorem restoresBest_of_restorable
    (on : config.enableEarlyStopping = true ∧ config.restoreBestWeights = true)
    {sections : Nat} {weights : Nat → List ω} (sizes : ∀ epoch, (weights epoch).length = sections)
    (hasValidation : Bool) (epochs : List (EpochOutcome Value)) (trainer : ChatbotTrainer ω Value)
    (restorable : Restorable sections (ranEpochs config hasValidation trainer.bestValidationLoss
      trainer.epochsWithoutImprovement epochs)) :
    RestoresBest weights (ranEpochs config hasValidation trainer.bestValidationLoss
        trainer.epochsWithoutImprovement epochs) trainer
      (train config hasValidation weights epochs trainer).2 := by
  intro front best back ran unrecorded
  obtain ⟨last, ranTo, restored⟩ := train_ranTo on hasValidation weights epochs trainer
  obtain ⟨number, loss⟩ := ranTo.best front best back ran unrecorded
  refine ⟨?_, ?_, ?_⟩
  · rw [restored]
    exact number
  · rw [restored]
    exact loss
  · have holds := restorable front best back ran unrecorded
    rw [ran, readableAfter_best sizes front best unrecorded, save_eq] at holds
    rw [train_model on hasValidation weights epochs trainer ran unrecorded, save_eq]
    have of : CopyOf sections (fun _ : ω => True) (copyAfter weights 0 front none) :=
      copyAfter_of front 0 none (fun _ impossible => by cases impossible) sizes
        fun _ _ _ _ _ => trivial
    cases found : best.save.files (weights front.length) (copyAfter weights 0 front none) with
    | none =>
        rw [found] at holds
        have atEnd : back = [] := holds
        rw [atEnd]
        rfl
    | some files =>
        rw [found] at holds
        have size := (of.files (sizes front.length) best.save files found).1
        have sameSize := size.trans (sizes front.length).symm
        have modelSize := (sizes (front.length + back.length)).trans (sizes front.length).symm
        rw [Option.map_some]
        dsimp only
        by_cases complete : sections ≤ best.save.written
        · exact loadAll_of_complete sameSize modelSize ((sizes front.length).trans_le complete)
        · obtain ⟨atEnd, unreadable⟩ := holds.resolve_left complete
          have short := (Nat.lt_of_not_le complete).trans_eq (sizes front.length).symm
          rw [loadAll_of_unreadable sameSize modelSize
            (unreadable_of_tags sameSize short unreadable), atEnd]
          exact List.take_append_drop _ _

/-- Weights that are the same in every section, and differ at one epoch. -/
def apartAt (sections : Nat) (own other : ω) (epoch : Nat) : Nat → List ω :=
  fun at_ => List.replicate sections (if at_ = epoch then own else other)

/-- A run that restores its best weights whatever they are is restorable. -/
theorem restorable_of_restoresBest
    (on : config.enableEarlyStopping = true ∧ config.restoreBestWeights = true)
    {sections : Nat} (some_ : 0 < sections) {own other : ω} (apart : own ≠ other)
    (hasValidation : Bool) (epochs : List (EpochOutcome Value)) (trainer : ChatbotTrainer ω Value)
    (restores : ∀ weights : Nat → List ω, (∀ epoch, (weights epoch).length = sections) →
      RestoresBest weights (ranEpochs config hasValidation trainer.bestValidationLoss
          trainer.epochsWithoutImprovement epochs) trainer
        (train config hasValidation weights epochs trainer).2) :
    Restorable sections (ranEpochs config hasValidation trainer.bestValidationLoss
      trainer.epochsWithoutImprovement epochs) := by
  intro front best back ran unrecorded
  let weights := apartAt sections own other front.length
  have sizes : ∀ epoch, (weights epoch).length = sections := fun _ => List.length_replicate ..
  have bestWeights : weights front.length = List.replicate sections own := by
    simp [weights, apartAt]
  have otherWeights : ∀ epoch, epoch ≠ front.length →
      weights epoch = List.replicate sections other := by
    intro epoch ne
    simp [weights, apartAt, ne]
  have model := (restores weights sizes front best back ran unrecorded).2.2
  rw [train_model on hasValidation weights epochs trainer ran unrecorded, save_eq] at model
  rw [ran, readableAfter_best sizes front best unrecorded, save_eq]
  have of : CopyOf sections (fun content : ω => content = other)
      (copyAfter weights 0 front none) := by
    refine copyAfter_of front 0 none (fun _ impossible => by cases impossible) sizes ?_
    intro epoch _ before content member
    rw [otherWeights epoch (by omega)] at member
    exact List.eq_of_mem_replicate member
  -- the weights after the run, at any section, when other epochs followed
  have after : back ≠ [] → weights (front.length + back.length) =
      List.replicate sections other := by
    intro more
    have count := List.length_pos_iff.mpr more
    exact otherWeights _ (by omega)
  cases found : best.save.files (weights front.length) (copyAfter weights 0 front none) with
  | none =>
      rw [found] at model
      have kept : weights (front.length + back.length) = weights front.length := model
      by_contra more
      rw [after more, bestWeights] at kept
      have first := congrArg (fun sections => sections[0]?) kept
      simp [some_] at first
      exact apart first.symm
  | some files =>
      rw [found, Option.map_some] at model
      have restored : (loadAll (writeFiles best.save.written best.save.torn
          (weights front.length) files) (weights (front.length + back.length))).2 =
          weights front.length := model
      obtain ⟨size, contents⟩ := of.files (sizes front.length) best.save files found
      have sameSize := size.trans (sizes front.length).symm
      have modelSize := (sizes (front.length + back.length)).trans (sizes front.length).symm
      refine or_iff_not_imp_left.mpr fun incomplete => ?_
      have short := (Nat.lt_of_not_le incomplete).trans_eq (sizes front.length).symm
      have ownSection : (weights front.length)[best.save.written]? = some own := by
        rw [bestWeights, List.getElem?_replicate, if_pos (Nat.lt_of_not_le incomplete)]
      cases stopped : (tearFirst best.save.torn (files.drop best.save.written)).head? with
      | none =>
          cases rest : files.drop best.save.written with
          | nil =>
              rw [List.drop_eq_nil_iff] at rest
              omega
          | cons file rest' =>
              rw [rest] at stopped
              cases stopped
      | some file =>
          cases file with
          | some content =>
              have loaded := loadAll_of_older sameSize modelSize short stopped
              rw [restored, ownSection] at loaded
              have older := contents content (List.mem_of_mem_drop (mem_of_tearFirst stopped))
              exact absurd ((Option.some.inj loaded).trans older) apart
          | none =>
              refine ⟨?_, ?_⟩
              · by_contra more
                rw [loadAll_of_unreadable sameSize modelSize stopped, after more] at restored
                have count : ((weights front.length).take best.save.written).length =
                    best.save.written := by
                  rw [List.length_take, Nat.min_eq_left short.le]
                have there := ownSection
                rw [← restored, List.getElem?_append_right count.le, count, Nat.sub_self,
                  List.drop_replicate, List.getElem?_replicate, if_pos (by omega)] at there
                exact apart (Option.some.inj there).symm
              · rw [List.getElem?_map, writeFiles_stop sameSize short, stopped]
                rfl

/-- Whatever the weights of its epochs are, a run restores the best ones exactly
when it is restorable. -/
theorem best_restored_iff [Nontrivial ω]
    (on : config.enableEarlyStopping = true ∧ config.restoreBestWeights = true)
    (hasValidation : Bool) (epochs : List (EpochOutcome Value)) (trainer : ChatbotTrainer ω Value)
    {sections : Nat} (some_ : 0 < sections) :
    (∀ weights : Nat → List ω, (∀ epoch, (weights epoch).length = sections) →
      RestoresBest weights (ranEpochs config hasValidation trainer.bestValidationLoss
          trainer.epochsWithoutImprovement epochs) trainer
        (train config hasValidation weights epochs trainer).2) ↔
      Restorable sections (ranEpochs config hasValidation trainer.bestValidationLoss
        trainer.epochsWithoutImprovement epochs) := by
  constructor
  · obtain ⟨own, other, apart⟩ := exists_pair_ne ω
    exact restorable_of_restoresBest on some_ apart hasValidation epochs trainer
  · intro restorable weights sizes
    exact restoresBest_of_restorable on sizes hasValidation epochs trainer restorable

end Restoring

/-- A first epoch whose copy is written in full, and one that does not improve. -/
def completeRun : List (EpochOutcome Int) :=
  [validatedEpoch 2 ⟨true, 1, false⟩, validatedEpoch 3 ⟨true, 1, false⟩]

/-- The weights of the first epoch are restored. -/
theorem best_restored_complete :
    RestoresBest (fun epoch => [epoch == 0]) (ranEpochs patientOnce true 9 0 completeRun)
      (newTrainer [false] 9)
      (train patientOnce true (fun epoch => [epoch == 0]) completeRun (newTrainer [false] 9)).2 := by
  refine (best_restored_iff ⟨rfl, rfl⟩ true completeRun (newTrainer [false] 9)
    Nat.zero_lt_one).mpr ?_ _ fun _ => rfl
  intro front best back ran _
  have recorded : (best, true) ∈ [(validatedEpoch 2 ⟨true, 1, false⟩, true),
      (validatedEpoch 3 ⟨true, 1, false⟩, false)] := by
    rw [show [(validatedEpoch 2 ⟨true, 1, false⟩, true),
      (validatedEpoch 3 ⟨true, 1, false⟩, false)] = front ++ (best, true) :: back from ran]
    exact List.mem_append_right _ (List.mem_cons_self ..)
  obtain rfl : best = validatedEpoch 2 ⟨true, 1, false⟩ := by
    simpa using recorded
  exact .inl (Nat.le_refl 1)

/-- Two epochs that improve, of which only the first can save its copy. -/
def failedSaveRun : List (EpochOutcome Int) :=
  [validatedEpoch 5 ⟨true, 1, false⟩, validatedEpoch 3 ⟨true, 0, false⟩]

/-- The weights of the first epoch come back, although the second was best. -/
theorem best_restored_fails :
    ¬ ∀ (config : TrainingConfig Int) (hasValidation : Bool) (epochs : List (EpochOutcome Int))
        (trainer : ChatbotTrainer Nat Int) (weights : Nat → List Nat),
      config.enableEarlyStopping = true ∧ config.restoreBestWeights = true →
        (∀ epoch, (weights epoch).length = 1) →
        RestoresBest weights (ranEpochs config hasValidation trainer.bestValidationLoss
            trainer.epochsWithoutImprovement epochs) trainer
          (train config hasValidation weights epochs trainer).2 := by
  intro restores
  have model := (restores patientOnce true failedSaveRun (newTrainer [0] 9)
    (fun epoch => [epoch]) ⟨rfl, rfl⟩ (fun _ => rfl)
    [(validatedEpoch 5 ⟨true, 1, false⟩, true)] (validatedEpoch 3 ⟨true, 0, false⟩) [] rfl
    (fun _ member => absurd member List.not_mem_nil)).2.2
  exact absurd model (by decide)

end Adai.Epochs
