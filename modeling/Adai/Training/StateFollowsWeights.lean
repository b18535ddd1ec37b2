import Adai.Training.TrainerRuns

/-! # The training state follows the weights

The optimizer moments, the global step and the rest of the training state are
saved beside the weights, and `train_on_files` restores them from the path in
`loaded_checkpoint_path_`. `state_follows_weights` shows that a pass only ever
restores a state saved at the optimizer step of the weights it starts from, in
every run that avoids four kinds of steps (`StateCondition`). Each of them leaves
weights and training state at different steps: best weights restored from before
the last optimizer step, a pause, which saves its weights without the training
state, a training state that cannot be written over an older one, and a pass
begun with the weights of one that ended early.
-/

namespace Adai.Training

open TransitionSystem

/-- A training state kept beside the base is at the given step. -/
def Directory.Agrees (directory : Directory) (base : Base) (weights : Nat) : Prop :=
  ∀ state, directory.states base = some state → state = weights

/-- The condition on a step. -/
def StateCondition (system : System) (action : Action) : Prop :=
  match system.process, action with
  | .idle trainer, .startPass readable =>
    system.moved = true → readable = true →
      trainer.loadedCheckpointPath.bind system.directory.states = none
  | .training trainer pass, .autoSaveModel _ stateWritten =>
    stateWritten = false →
      system.directory.Agrees (.autoSave trainer.currentSessionId) pass.weights
  | .training trainer pass, .improve (some stateWritten) =>
    stateWritten = false →
      system.directory.Agrees (.best trainer.currentSessionId) pass.weights
  | .training trainer pass, .complete restore stateWritten _ _ =>
    (pass.restoreBest system.clock restore).weights = pass.weights ∧
      (stateWritten = false →
        system.directory.Agrees (.checkpoint trainer.currentSessionId) pass.weights)
  | .training trainer pass, .pause restore (some _) =>
    system.directory.Agrees (.autoSave trainer.currentSessionId)
      (pass.restoreBest system.clock restore).weights
  | _, _ => True

/-- Each training state is at the step of the weights beside it. -/
def Directory.Coherent (directory : Directory) : Prop :=
  ∀ base snapshot, directory.models base = some snapshot →
    directory.Agrees base snapshot.weights

/-- What the loaded checkpoint's training state, if it has one, is at. -/
def Trainer.LoadedAgrees (directory : Directory) (trainer : Trainer) (weights : Nat) : Prop :=
  ∀ base, trainer.loadedCheckpointPath = some base → directory.Agrees base weights

/-- The invariant of a process. -/
def Process.Follows (directory : Directory) (moved : Bool) : Process → Prop
  | .gone => True
  | .idle trainer =>
    (moved = false → trainer.LoadedAgrees directory trainer.model) ∧
      (trainer.pendingVocabBuild = true → trainer.loadedCheckpointPath = none)
  | .training trainer pass =>
    pass.state = pass.weights ∧
      (moved = false → pass.stepped = false → trainer.LoadedAgrees directory pass.weights) ∧
      (pass.stepped = false → ∀ best, pass.bestCopy = some best → best = pass.weights) ∧
      trainer.pendingVocabBuild = false

def System.Follows (system : System) : Prop :=
  system.directory.Coherent ∧ system.process.Follows system.directory system.moved

/-! ## The directory -/

theorem Directory.Within.agrees {smaller larger : Directory} (within : smaller.Within larger)
    {base : Base} {weights : Nat} (agrees : larger.Agrees base weights) :
    smaller.Agrees base weights := by
  intro state found
  rcases within base with ⟨-, states⟩ | ⟨-, deleted⟩
  · exact agrees state (states ▸ found)
  · rw [deleted] at found
    cases found

theorem Directory.Within.coherent {smaller larger : Directory} (within : smaller.Within larger)
    (coherent : larger.Coherent) : smaller.Coherent := by
  intro base snapshot found
  rcases within base with ⟨models, -⟩ | ⟨deleted, -⟩
  · exact within.agrees (coherent base snapshot (models ▸ found))
  · rw [deleted] at found
    cases found

/-- The training states after a save. A state that was not written has to agree
with the new weights already. -/
theorem Directory.saveTrainingState_agrees {directory : Directory} {base other : Base}
    {weights : Nat} {written : Bool}
    (kept : (written = true → other ≠ base) → directory.Agrees other weights) :
    (directory.saveTrainingState base weights written).Agrees other weights := by
  intro state found
  cases written with
  | false => exact kept (fun impossible => by cases impossible) state found
  | true =>
      by_cases same : other = base
      · subst same
        simpa [Directory.saveTrainingState, eq_comm] using found
      · simp only [Directory.saveTrainingState, if_true, Function.update_of_ne same] at found
        exact kept (fun _ => same) state found

/-- A save of weights with the training state of the same step keeps the
directory coherent. -/
theorem Directory.Coherent.save {directory : Directory} (coherent : directory.Coherent)
    {base : Base} {weights time : Nat} {written : Bool}
    (kept : written = false → directory.Agrees base weights) :
    ((directory.saveModel base ⟨weights, time⟩).saveTrainingState base weights written).Coherent := by
  intro other snapshot found
  rw [Directory.saveTrainingState_models] at found
  by_cases same : other = base
  · subst same
    obtain rfl : ⟨weights, time⟩ = snapshot := by
      simpa [Directory.saveModel] using found
    refine Directory.saveTrainingState_agrees fun differs => ?_
    cases written with
    | false => exact kept rfl
    | true => exact absurd rfl (differs rfl)
  · have older : directory.models other = some snapshot := by
      simpa [Directory.saveModel, same] using found
    intro state stored
    cases written with
    | false => exact coherent other snapshot older state stored
    | true =>
        simp only [Directory.saveTrainingState, if_true, Function.update_of_ne same] at stored
        exact coherent other snapshot older state stored

/-- The loaded checkpoint still agrees after a save of the same weights. -/
theorem Trainer.LoadedAgrees.save {directory : Directory} {trainer : Trainer} {weights : Nat}
    (agrees : trainer.LoadedAgrees directory weights) (base : Base) (time : Nat)
    (written : Bool) :
    trainer.LoadedAgrees
      ((directory.saveModel base ⟨weights, time⟩).saveTrainingState base weights written)
      weights := by
  intro other loaded
  exact Directory.saveTrainingState_agrees fun _ => agrees other loaded

/-- A checkpoint that was loaded holds the weights of the model. -/
theorem Trainer.loadModel_agrees {directory : Directory} (coherent : directory.Coherent)
    {trainer : Trainer} (path : Option Base)
    (before : directory.checkpointFilesExist path = false →
      trainer.LoadedAgrees directory trainer.model) :
    (trainer.loadModel directory path).LoadedAgrees directory
      (trainer.loadModel directory path).model := by
  unfold Trainer.loadModel
  cases found : path.bind fun base => (directory.models base).map fun model => (base, model) with
  | none =>
      refine before ?_
      cases path with
      | none => rfl
      | some base => simpa [Directory.checkpointFilesExist] using found
  | some loaded =>
      obtain ⟨base, snapshot⟩ := loaded
      obtain ⟨_, rfl, read⟩ := Option.bind_eq_some_iff.mp found
      obtain ⟨_, models, same⟩ := Option.map_eq_some_iff.mp read
      obtain ⟨rfl, rfl⟩ := Prod.mk.inj same
      intro other chosen
      obtain rfl := Option.some.inj chosen
      exact coherent _ _ models

/-! ## The steps -/

@[simp] theorem loadSessionHistory_model (directory : Directory) (trainer : Trainer) :
    (trainer.loadSessionHistory directory).model = trainer.model := by
  unfold Trainer.loadSessionHistory
  split <;> rfl

@[simp] theorem loadSessionHistory_loadedCheckpointPath (directory : Directory)
    (trainer : Trainer) :
    (trainer.loadSessionHistory directory).loadedCheckpointPath =
      trainer.loadedCheckpointPath := by
  unfold Trainer.loadSessionHistory
  split <;> rfl

@[simp] theorem loadSessionHistory_pendingVocabBuild (directory : Directory)
    (trainer : Trainer) :
    (trainer.loadSessionHistory directory).pendingVocabBuild = trainer.pendingVocabBuild := by
  unfold Trainer.loadSessionHistory
  split <;> rfl

theorem takeInterruptedSession_loadedCheckpointPath (directory : Directory)
    (trainer : Trainer) :
    (trainer.takeInterruptedSession directory).1.loadedCheckpointPath =
      trainer.loadedCheckpointPath := by
  unfold Trainer.takeInterruptedSession
  repeat' split
  all_goals rfl

theorem takeInterruptedSession_pendingVocabBuild (directory : Directory)
    (trainer : Trainer) :
    (trainer.takeInterruptedSession directory).1.pendingVocabBuild =
      trainer.pendingVocabBuild := by
  unfold Trainer.takeInterruptedSession
  repeat' split
  all_goals rfl

theorem loadModel_pendingVocabBuild (directory : Directory) (trainer : Trainer)
    (path : Option Base) :
    (trainer.loadModel directory path).pendingVocabBuild = trainer.pendingVocabBuild := by
  unfold Trainer.loadModel
  split <;> rfl

/-- A constructed trainer's weights agree with the training state it would
restore. -/
theorem constructTrainer_follows {directory : Directory} (coherent : directory.Coherent)
    (weights : Nat) :
    (constructTrainer directory weights).1.Coherent ∧
      Process.Follows (constructTrainer directory weights).1 false
        (.idle (constructTrainer directory weights).2) := by
  unfold constructTrainer
  cases directory.vocabulary with
  | false =>
      refine ⟨coherent, fun _ base loaded => ?_, fun _ => rfl⟩
      cases loaded
  | true =>
      let loaded := (Trainer.fresh weights false).loadSessionHistory directory
      let taken : Trainer :=
        { (loaded.takeInterruptedSession directory).1 with
          interruptedResumeCheckpoint := (loaded.takeInterruptedSession directory).2 }
      have nothing : taken.loadedCheckpointPath = none :=
        (takeInterruptedSession_loadedCheckpointPath directory loaded).trans
          (loadSessionHistory_loadedCheckpointPath directory _)
      have built : taken.pendingVocabBuild = false :=
        (takeInterruptedSession_pendingVocabBuild directory loaded).trans
          (loadSessionHistory_pendingVocabBuild directory _)
      have agrees : (loaded.initFromSessionHistory directory).LoadedAgrees directory
          (loaded.initFromSessionHistory directory).model := by
        refine @Trainer.loadModel_agrees _ coherent taken _ fun _ base impossible => ?_
        rw [nothing] at impossible
        cases impossible
      have within := cleanupDeadSessions_within directory (loaded.initFromSessionHistory directory)
      refine ⟨within.coherent coherent, fun _ base found => within.agrees (agrees base found), ?_⟩
      intro pending
      have stillBuilt : (loaded.initFromSessionHistory directory).pendingVocabBuild = false :=
        (loadModel_pendingVocabBuild directory taken _).trans built
      exact Bool.noConfusion (pending.symm.trans stillBuilt)

/-- Restoring the best weights of a pass that took no step leaves it where it
was, unless it mixes them. -/
theorem restoreBest_weights {pass : LivePass} {clock : Nat} {outcome : RestoreOutcome}
    (copies : pass.stepped = false → ∀ best, pass.bestCopy = some best → best = pass.weights)
    (still : (pass.restoreBest clock outcome).stepped = false) :
    pass.stepped = false ∧ (pass.restoreBest clock outcome).weights = pass.weights := by
  unfold LivePass.restoreBest at still ⊢
  cases copied : pass.bestCopy with
  | none =>
      simp only [copied] at still ⊢
      exact ⟨still, trivial⟩
  | some best =>
      cases outcome with
      | loads =>
          simp only [copied] at still ⊢
          exact ⟨still, copies still best copied⟩
      | keeps =>
          simp only [copied] at still ⊢
          exact ⟨still, trivial⟩
      | mixes => simp [copied] at still

/-- Ending a pass early keeps the weights only where the pass took no step. -/
theorem endsEarly_agrees {directory : Directory} {trainer : Trainer} {pass after : LivePass}
    {moved : Bool}
    (agrees : moved = false → pass.stepped = false → trainer.LoadedAgrees directory pass.weights)
    (kept : after.stepped = false → pass.stepped = false ∧ after.weights = pass.weights)
    (still : (moved || after.stepped) = false) :
    trainer.LoadedAgrees directory after.weights := by
  obtain ⟨unmoved, unstepped⟩ := Bool.or_eq_false_iff.mp still
  obtain ⟨started, same⟩ := kept unstepped
  rw [same]
  exact agrees unmoved started

/-- A pass that starts restores, if anything, a training state at the step of its
weights. -/
theorem beginPass_restored {directory : Directory} {moved : Bool} {trainer : Trainer}
    {readable : Bool}
    (agrees : moved = false → trainer.LoadedAgrees directory trainer.model)
    (allowed : moved = true → readable = true →
      trainer.loadedCheckpointPath.bind directory.states = none)
    (state : Nat) (restored : (trainer.beginPass directory readable).restored = some state) :
    state = trainer.model := by
  unfold Trainer.beginPass at restored
  cases readable with
  | false => cases restored
  | true =>
      simp only [if_true] at restored
      cases wasMoved : moved with
      | true =>
          rw [allowed wasMoved rfl] at restored
          cases restored
      | false =>
          obtain ⟨base, loaded, stored⟩ := Option.bind_eq_some_iff.mp restored
          exact agrees wasMoved base loaded state stored

theorem restoreBest_state (pass : LivePass) (clock : Nat) (outcome : RestoreOutcome) :
    (pass.restoreBest clock outcome).state = pass.state := by
  unfold LivePass.restoreBest
  split <;> rfl

/-- A save of a live pass keeps the directory coherent, and the loaded checkpoint
in agreement. -/
theorem System.saveTo_follows {system : System} {pass : LivePass} {base : Base}
    {stateWritten : Bool} (coherent : system.directory.Coherent)
    (level : pass.state = pass.weights)
    (kept : stateWritten = false → system.directory.Agrees base pass.weights) :
    (system.saveTo pass base stateWritten).directory.Coherent ∧
      ∀ trainer : Trainer, trainer.LoadedAgrees system.directory pass.weights →
        trainer.LoadedAgrees (system.saveTo pass base stateWritten).directory pass.weights := by
  unfold System.saveTo
  rw [level]
  exact ⟨coherent.save kept, fun trainer agrees => agrees.save base _ _⟩

theorem System.autoSaveModel_follows {system : System} {trainer : Trainer} {pass : LivePass}
    {stateWritten : Bool} (samples : Nat) (coherent : system.directory.Coherent)
    (process : Process.Follows system.directory system.moved (.training trainer pass))
    (kept : stateWritten = false →
      system.directory.Agrees (.autoSave trainer.currentSessionId) pass.weights) :
    (system.autoSaveModel trainer pass samples stateWritten).Follows := by
  obtain ⟨level, agrees, copies, built⟩ := process
  obtain ⟨saved, stays⟩ := System.saveTo_follows coherent level kept
  exact ⟨saved, level, fun unmoved unstepped => stays trainer (agrees unmoved unstepped),
    copies, built⟩

theorem System.improve_follows {system : System} {trainer : Trainer} {pass : LivePass}
    {snapshot : Option Bool} (coherent : system.directory.Coherent)
    (process : Process.Follows system.directory system.moved (.training trainer pass))
    (kept : ∀ stateWritten, snapshot = some stateWritten → stateWritten = false →
      system.directory.Agrees (.best trainer.currentSessionId) pass.weights) :
    (system.improve trainer pass snapshot).Follows := by
  obtain ⟨level, agrees, copies, built⟩ := process
  have copied : ∀ best, some pass.weights = some best → best = pass.weights :=
    fun best same => (Option.some.inj same).symm
  cases snapshot with
  | none => exact ⟨coherent, level, agrees, fun _ => copied, built⟩
  | some stateWritten =>
      obtain ⟨saved, stays⟩ := System.saveTo_follows coherent level (kept stateWritten rfl)
      exact ⟨saved, level, fun unmoved unstepped => stays trainer (agrees unmoved unstepped),
        fun _ => copied, built⟩

/-- A completed pass whose weights are those of its last optimizer step leaves a
checkpoint that agrees with its training state. -/
theorem System.complete_follows {system : System} {trainer : Trainer} {pass : LivePass}
    {restore : RestoreOutcome} {stateWritten : Bool} (results : Results)
    (maxSessionsToKeep : Nat) (coherent : system.directory.Coherent)
    (process : Process.Follows system.directory system.moved (.training trainer pass))
    (unmoved : (pass.restoreBest system.clock restore).weights = pass.weights)
    (kept : stateWritten = false →
      system.directory.Agrees (.checkpoint trainer.currentSessionId) pass.weights) :
    (system.complete trainer pass restore stateWritten results maxSessionsToKeep).Follows := by
  obtain ⟨level, -, -, built⟩ := process
  have levelAfter : (pass.restoreBest system.clock restore).state =
      (pass.restoreBest system.clock restore).weights := by
    rw [restoreBest_state, unmoved, level]
  have keptAfter : stateWritten = false →
      system.directory.Agrees (.checkpoint trainer.currentSessionId)
        (pass.restoreBest system.clock restore).weights := unmoved ▸ kept
  obtain ⟨saved, -⟩ := System.saveTo_follows coherent levelAfter keptAfter
  have within := finalizeSession_within maxSessionsToKeep results
    (system.saveTo (pass.restoreBest system.clock restore)
      (.checkpoint trainer.currentSessionId) stateWritten).directory
    { trainer with
      model := (pass.restoreBest system.clock restore).weights
      loadedCheckpointPath := some (.checkpoint trainer.currentSessionId) }
  refine ⟨within.coherent saved, fun _ base loaded => ?_, fun pending => ?_⟩
  · obtain rfl := Option.some.inj loaded
    have stored : (system.saveTo (pass.restoreBest system.clock restore)
        (.checkpoint trainer.currentSessionId) stateWritten).directory.models
        (.checkpoint trainer.currentSessionId) =
        some ⟨(pass.restoreBest system.clock restore).weights, system.clock⟩ := by
      simp [System.saveTo, Directory.saveModel]
    exact within.agrees (saved _ _ stored)
  · exact Bool.noConfusion (pending.symm.trans built)

theorem System.fail_follows {system : System} {trainer : Trainer} {pass : LivePass}
    (restore : Option RestoreOutcome) (coherent : system.directory.Coherent)
    (process : Process.Follows system.directory system.moved (.training trainer pass)) :
    (system.fail trainer pass restore).Follows := by
  obtain ⟨-, agrees, copies, built⟩ := process
  refine ⟨coherent, fun still => ?_, fun pending => Bool.noConfusion (pending.symm.trans built)⟩
  cases restore with
  | none => exact endsEarly_agrees agrees (fun unstepped => ⟨unstepped, rfl⟩) still
  | some outcome => exact endsEarly_agrees agrees (restoreBest_weights copies) still

theorem System.pause_follows {system : System} {trainer : Trainer} {pass : LivePass}
    {restore : RestoreOutcome} {samples : Option Nat} (coherent : system.directory.Coherent)
    (process : Process.Follows system.directory system.moved (.training trainer pass))
    (kept : samples.isSome → system.directory.Agrees (.autoSave trainer.currentSessionId)
      (pass.restoreBest system.clock restore).weights) :
    (system.pause trainer pass restore samples).Follows := by
  obtain ⟨-, agrees, copies, built⟩ := process
  cases samples with
  | none =>
      exact ⟨coherent, endsEarly_agrees agrees (restoreBest_weights copies),
        fun pending => Bool.noConfusion (pending.symm.trans built)⟩
  | some samples =>
      refine ⟨?_, endsEarly_agrees agrees (restoreBest_weights copies),
        fun pending => Bool.noConfusion (pending.symm.trans built)⟩
      have unwritten : false = false → system.directory.Agrees
          (.autoSave trainer.currentSessionId) (pass.restoreBest system.clock restore).weights :=
        fun _ => kept rfl
      exact coherent.save unwritten

/-- A restored state is at the step of the weights, so the pass begins level. -/
theorem beginPass_level {directory : Directory} {trainer : Trainer} {readable : Bool}
    (restored : ∀ state, (trainer.beginPass directory readable).restored = some state →
      state = trainer.model) :
    (trainer.beginPass directory readable).state =
      (trainer.beginPass directory readable).weights := by
  cases found : (trainer.beginPass directory readable).restored with
  | none => exact congrArg (·.getD trainer.model) found
  | some state => exact (congrArg (·.getD trainer.model) found).trans (restored state found)

/-- Bootstrapping the vocabulary comes before anything is loaded. -/
theorem bootstrapVocab_follows {directory : Directory} {moved : Bool} {trainer : Trainer}
    (weights : Nat) (process : Process.Follows directory moved (.idle trainer)) :
    Process.Follows (bootstrapVocab directory weights trainer).1 moved
        (.idle (bootstrapVocab directory weights trainer).2) ∧
      (bootstrapVocab directory weights trainer).2.pendingVocabBuild = false ∧
      (bootstrapVocab directory weights trainer).2.loadedCheckpointPath =
        trainer.loadedCheckpointPath := by
  unfold bootstrapVocab
  cases pending : trainer.pendingVocabBuild with
  | true =>
      have nothing := process.2 pending
      simp only [if_true]
      refine ⟨⟨fun _ base loaded => ?_, fun _ => ?_⟩, trivial, ?_⟩
      · simp [nothing] at loaded
      · simp [nothing]
      · simp
  | false => exact ⟨process, pending, rfl⟩

theorem bootstrapVocab_directory (directory : Directory) (weights : Nat) (trainer : Trainer) :
    (bootstrapVocab directory weights trainer).1.models = directory.models ∧
      (bootstrapVocab directory weights trainer).1.states = directory.states := by
  unfold bootstrapVocab
  split <;> exact ⟨rfl, rfl⟩

/-- What a pass restores when it starts is at the step of the weights. -/
theorem System.startPass_restored {system : System} {trainer : Trainer} {readable : Bool}
    (process : Process.Follows system.directory system.moved (.idle trainer))
    (allowed : system.moved = true → readable = true →
      trainer.loadedCheckpointPath.bind system.directory.states = none) (state : Nat)
    (restored : ((bootstrapVocab system.directory system.clock trainer).2.beginPass
      (bootstrapVocab system.directory system.clock trainer).1 readable).restored =
        some state) :
    state = (bootstrapVocab system.directory system.clock trainer).2.model := by
  obtain ⟨⟨agrees, -⟩, -, same⟩ := bootstrapVocab_follows system.clock process
  refine beginPass_restored agrees (fun moved read => ?_) state restored
  rw [same, (bootstrapVocab_directory _ _ _).2]
  exact allowed moved read

theorem System.startPass_follows {system : System} {trainer : Trainer} {readable : Bool}
    (coherent : system.directory.Coherent)
    (process : Process.Follows system.directory system.moved (.idle trainer))
    (allowed : system.moved = true → readable = true →
      trainer.loadedCheckpointPath.bind system.directory.states = none) :
    (system.startPass trainer readable).Follows := by
  obtain ⟨⟨agrees, -⟩, built, -⟩ := bootstrapVocab_follows system.clock process
  obtain ⟨models, states⟩ := bootstrapVocab_directory system.directory system.clock trainer
  refine ⟨?_, beginPass_level (System.startPass_restored process allowed),
    fun unmoved _ => agrees unmoved, fun _ best copied => ?_, built⟩
  · intro base snapshot found state stored
    exact coherent base snapshot (models ▸ found) state (states ▸ stored)
  · cases copied

/-- What a step that meets the condition keeps. -/
theorem System.Transition.follows {before after : System} {action : Action}
    (taken : System.Transition before action after) (condition : StateCondition before action)
    (follows : before.Follows) : after.Follows := by
  obtain ⟨coherent, process⟩ := follows
  cases taken with
  | construct gone => exact constructTrainer_follows coherent before.clock
  | resume idle built present =>
      rw [idle] at process
      refine ⟨coherent, fun _ => Trainer.loadModel_agrees coherent _ fun absent => ?_, ?_⟩
      · exact Bool.noConfusion (absent.symm.trans present)
      · rw [loadModel_pendingVocabBuild, built]
        intro impossible
        cases impossible
  | startPass readable idle =>
      rw [idle] at process
      simp only [StateCondition, idle] at condition
      exact System.startPass_follows coherent process condition
  | optimizerStep live =>
      rw [live] at process
      refine ⟨coherent, rfl, fun _ impossible => ?_, fun impossible => ?_, process.2.2.2⟩
      · cases impossible
      · cases impossible
  | autoSaveModel samples stateWritten live =>
      rw [live] at process
      simp only [StateCondition, live] at condition
      exact System.autoSaveModel_follows samples coherent process condition
  | autoSaveHistory live awaiting =>
      rw [live] at process
      exact ⟨coherent, process⟩
  | improve snapshot live ready =>
      rw [live] at process
      simp only [StateCondition, live] at condition
      refine System.improve_follows coherent process fun stateWritten saved => ?_
      subst saved
      exact condition
  | complete restore stateWritten results maxSessionsToKeep live ready trained =>
      rw [live] at process
      simp only [StateCondition, live] at condition
      exact System.complete_follows results maxSessionsToKeep coherent process condition.1
        condition.2
  | fail restore live ready =>
      rw [live] at process
      exact System.fail_follows restore coherent process
  | pause restore samples live ready =>
      rw [live] at process
      simp only [StateCondition, live] at condition
      refine System.pause_follows coherent process fun saved => ?_
      obtain ⟨count, rfl⟩ := Option.isSome_iff_exists.mp saved
      exact condition
  | ends => exact ⟨coherent, trivial⟩

/-! ## Runs -/

theorem initial_follows (vocabulary : Bool) : (System.initial vocabulary).Follows := by
  refine ⟨fun base snapshot found => ?_, trivial⟩
  cases found

theorem System.Follows.step {before after : System} {action : Action}
    (follows : before.Follows) (taken : Restrict System.Step StateCondition before action after) :
    after.Follows :=
  taken.1.transition.follows taken.2 follows

/-- The training state that a pass restores when it starts, if any, was saved at
the optimizer step of the weights the pass starts from. -/
def System.StartsLevel (system : System) : Prop :=
  ∀ trainer pass, system.process = .training trainer pass →
    ∀ state, pass.restored = some state → state = pass.weights

/-- In every run whose steps meet the condition, each pass restores, if anything,
the training state of its weights. -/
theorem state_follows_weights (vocabulary : Bool) (actions : List Action)
    (before after : System) (readable : Bool)
    (run : Run (Restrict System.Step StateCondition) (System.initial vocabulary) actions before)
    (starts : Restrict System.Step StateCondition before (.startPass readable) after) :
    after.StartsLevel := by
  have follows := run.invariant System.Follows (fun _ _ _ holds taken => holds.step taken)
    (initial_follows vocabulary)
  obtain ⟨-, process⟩ := follows
  have condition := starts.2
  cases starts.1.transition with
  | startPass _ idle =>
      rw [idle] at process
      simp only [StateCondition, idle] at condition
      intro trainer pass live state restored
      obtain ⟨-, rfl⟩ := Process.training.inj live
      exact System.startPass_restored process condition state restored

/-- A pass that completes, and a second one in the same process that takes a step
and is paused. -/
def pausedRun : List Action :=
  [.construct, .startPass true, .optimizerStep,
    .complete .keeps true ⟨1, .finite 1, .finite 1⟩ 50,
    .startPass true, .optimizerStep, .pause .keeps (some 1)]

/-- A run of a pass that completes, after which the next pass restores its
training state. -/
theorem state_follows_weights_completed : ∃ before after,
    Run (Restrict System.Step StateCondition) (System.initial true)
        [.construct, .startPass true, .optimizerStep,
          .complete .keeps true ⟨1, .finite 1, .finite 1⟩ 50] before ∧
      Restrict System.Step StateCondition before (.startPass true) after ∧
      after.StartsLevel := by
  have run : ∃ before, Run (Restrict System.Step StateCondition) (System.initial true)
      [.construct, .startPass true, .optimizerStep,
        .complete .keeps true ⟨1, .finite 1, .finite 1⟩ 50] before ∧
      ∃ after, Restrict System.Step StateCondition before (.startPass true) after := by
    refine ⟨_, .cons ⟨rfl, trivial⟩ (.cons ⟨rfl, ?_⟩ (.cons ⟨rfl, trivial⟩
      (.cons ⟨rfl, rfl, ?_⟩ (.refl _)))), _, rfl, ?_⟩
    all_goals
      intro impossible
      cases impossible
  obtain ⟨before, run, after, starts⟩ := run
  exact ⟨before, after, run, starts, state_follows_weights true _ _ _ true run starts⟩

/-- Whether the pass under way restored a training state of other weights. -/
def System.startsApart (system : System) : Bool :=
  match system.process with
  | .training _ pass => pass.restored.any (· != pass.weights)
  | _ => false

theorem System.not_startsLevel {system : System} (apart : system.startsApart = true) :
    ¬ system.StartsLevel := by
  intro level
  unfold System.startsApart at apart
  cases process : system.process with
  | gone => simp [process] at apart
  | idle trainer => simp [process] at apart
  | training trainer pass =>
      simp only [process] at apart
      obtain ⟨state, restored, differs⟩ := (Option.any_eq_true _ _).mp apart
      have same := level trainer pass process state restored
      simp [same] at differs

/-- After the pause a third pass restores the training state of the first one's
checkpoint, while the model holds the weights of the second. -/
theorem state_follows_weights_fails :
    ¬ ∀ (vocabulary : Bool) (actions : List Action) (before after : System) (readable : Bool),
      Run System.Step (System.initial vocabulary) actions before →
        System.Step before (.startPass readable) after → after.StartsLevel := by
  intro level
  have apart : ((execute System.next (System.initial true) pausedRun).bind
      (·.next (.startPass true))).any System.startsApart = true := by decide +kernel
  obtain ⟨after, taken, starts⟩ := (Option.any_eq_true _ _).mp apart
  obtain ⟨before, executed, step⟩ := Option.bind_eq_some_iff.mp taken
  have run := Run.of_execute (fun _ _ _ taken => taken) executed
  exact System.not_startsLevel starts (level true _ before after true run step)

end Adai.Training
