import Mathlib.Data.Rat.Init
import Mathlib.Algebra.Order.Ring.Unbundled.Rat

/-! # The session directory of a trainer

What a trainer keeps between processes: checkpoints named after sessions, the
training state beside each, and the history of sessions. This module models the
parts of `IncrementalTrainer` that read and write them: the constructor with
`take_interrupted_session`, `select_resume_checkpoint` and
`cleanup_dead_sessions`, and the bookkeeping of a pass with
`initialize_session`, `perform_auto_save`, `finalize_session` and
`cleanup_old_sessions`.

Saving a model writes all its files or none. Weights and training states carry
the number of the optimizer step they belong to, and a file its time of writing;
both count upwards.
-/

namespace Adai.Training

/-- The base names of the checkpoints in a session directory:
`session_N_checkpoint.bin`, `session_N_best.bin` and `auto_save_session_N.bin`. -/
inductive Base where
  | checkpoint (id : Nat)
  | best (id : Nat)
  | autoSave (id : Nat)
  deriving DecidableEq, Repr

/-- A recorded loss. -/
inductive Loss where
  | notFinite
  | finite (value : Rat)
  deriving DecidableEq, Repr

/-- `TrainingSession::kNoValidationLoss`. -/
def kNoValidationLoss : Loss := .finite (-1)

def Loss.isFinite : Loss → Bool
  | .notFinite => false
  | .finite _ => true

/-- An entry of the session history. -/
structure TrainingSession where
  sessionId : Nat
  samplesTrained : Nat
  finalLoss : Loss
  finalValidationLoss : Loss
  checkpointPath : Option Base
  deriving DecidableEq, Repr

/-- `has_validation_loss`. -/
def TrainingSession.hasValidationLoss (session : TrainingSession) : Bool :=
  match session.finalValidationLoss with
  | .notFinite => false
  | .finite value => 0 < value

/-- The model files of a checkpoint: the step of their weights and the time the
configuration file was written. -/
structure Snapshot where
  weights : Nat
  time : Nat
  deriving DecidableEq, Repr

/-- A session directory. A history that was never saved is absent, and
`vocabulary` says whether the vocabulary file exists. -/
structure Directory where
  models : Base → Option Snapshot
  states : Base → Option Nat
  history : Option (List TrainingSession)
  vocabulary : Bool

/-- A line of the history that `read_session_history` accepts: numbers that the
stream reads back, and a path. -/
def TrainingSession.reads (session : TrainingSession) : Bool :=
  session.finalLoss.isFinite && session.finalValidationLoss.isFinite &&
    session.checkpointPath.isSome

/-- `read_session_history`. -/
def Directory.readSessionHistory (directory : Directory) : Option (List TrainingSession) :=
  directory.history.map fun history => history.filter (·.reads)

/-- `checkpoint_files_exist`. -/
def Directory.checkpointFilesExist (directory : Directory) : Option Base → Bool
  | none => false
  | some base => (directory.models base).isSome

/-- `is_sane_checkpoint_candidate`. -/
def Directory.isSaneCheckpointCandidate (directory : Directory) (session : TrainingSession) :
    Bool :=
  0 < session.samplesTrained &&
    (session.finalValidationLoss == kNoValidationLoss || session.hasValidationLoss) &&
      directory.checkpointFilesExist session.checkpointPath

/-- Deletes every file of the bases that are dead. -/
def Directory.removeWhere (directory : Directory) (dead : Base → Bool) : Directory :=
  { directory with
    models := fun base => if dead base then none else directory.models base
    states := fun base => if dead base then none else directory.states base }

/-- `remove_model_files`; an empty path names no file. -/
def Directory.removeModelFiles (directory : Directory) (path : Option Base) : Directory :=
  directory.removeWhere fun base => some base == path

/-- Writes the model files of a checkpoint. -/
def Directory.saveModel (directory : Directory) (base : Base) (snapshot : Snapshot) :
    Directory :=
  { directory with models := Function.update directory.models base (some snapshot) }

/-- `save_training_state`: a failed write leaves the file that was there. -/
def Directory.saveTrainingState (directory : Directory) (base : Base) (state : Nat)
    (written : Bool) : Directory :=
  if written then
    { directory with states := Function.update directory.states base (some state) }
  else directory

/-- `save_session_history`. -/
def Directory.saveSessionHistory (directory : Directory) (history : List TrainingSession) :
    Directory :=
  { directory with history := some history }

/-- The trainer of a process, between passes. -/
structure Trainer where
  sessionHistory : List TrainingSession
  currentSessionId : Nat
  /-- The step of the weights the model holds. -/
  model : Nat
  loadedCheckpointPath : Option Base
  interruptedResumeCheckpoint : Option Base
  pendingVocabBuild : Bool
  deriving DecidableEq, Repr

/-! ## The constructor -/

/-- `load_session_history`: the ids of new sessions go on after the old ones. -/
def Trainer.loadSessionHistory (directory : Directory) (trainer : Trainer) : Trainer :=
  match directory.readSessionHistory with
  | none => trainer
  | some history =>
    { trainer with
      sessionHistory := history
      currentSessionId := history.foldl
        (fun current session =>
          if current ≤ session.sessionId then session.sessionId + 1 else current)
        trainer.currentSessionId }

/-- The newer of an auto-save and a best snapshot, of those that exist. -/
def Directory.newestOf (directory : Directory) (first second : Base) : Option Base :=
  match directory.models first, directory.models second with
  | none, none => none
  | some _, none => some first
  | none, some _ => some second
  | some older, some newer => if older.time < newer.time then some second else some first

/-- `take_interrupted_session`: a last entry with an auto-save path is a session
that was interrupted. Its newest snapshot is taken, and the entry leaves the
history in memory. -/
def Trainer.takeInterruptedSession (directory : Directory) (trainer : Trainer) :
    Trainer × Option Base :=
  match trainer.sessionHistory.getLast? with
  | none => (trainer, none)
  | some last =>
    match last.checkpointPath with
    | some (.autoSave id) =>
      match directory.newestOf (.autoSave id) (.best last.sessionId) with
      | none => (trainer, none)
      | some chosen =>
        ({ trainer with
            currentSessionId := last.sessionId
            sessionHistory := trainer.sessionHistory.dropLast }, some chosen)
    | _ => (trainer, none)

/-- `select_resume_checkpoint`, with `RESUME_FROM_BEST_CHECKPOINT` off: the last
sane entry of the history. -/
def Directory.selectResumeCheckpoint (directory : Directory) (history : List TrainingSession) :
    Option Base :=
  (history.reverse.find? directory.isSaneCheckpointCandidate).bind (·.checkpointPath)

/-- `load_model`, where the checkpoint can be read. -/
def Trainer.loadModel (directory : Directory) (trainer : Trainer) (path : Option Base) :
    Trainer :=
  match path.bind fun base => (directory.models base).map fun model => (base, model) with
  | none => trainer
  | some (base, snapshot) =>
    { trainer with model := snapshot.weights, loadedCheckpointPath := some base }

/-- `init_from_session_history`: an interrupted session outranks every completed
one. -/
def Trainer.initFromSessionHistory (directory : Directory) (trainer : Trainer) : Trainer :=
  let taken := trainer.takeInterruptedSession directory
  let trainer := { taken.1 with interruptedResumeCheckpoint := taken.2 }
  trainer.loadModel directory
    (taken.2.or (directory.selectResumeCheckpoint trainer.sessionHistory))

/-- Whether `cleanup_dead_sessions` takes the files of a base for dead. -/
def Directory.isDead (directory : Directory) (trainer : Trainer) (base : Base) : Bool :=
  if (directory.models base).isNone then true
  else
    match base with
    | .best id => id != trainer.currentSessionId
    | .autoSave id => id != trainer.currentSessionId
    | .checkpoint _ => !(trainer.sessionHistory.any fun session =>
        session.checkpointPath == some base)

/-- Drops the entries that can no longer be trusted, with their files. -/
def Directory.dropBroken (directory : Directory) :
    List TrainingSession → Directory × List TrainingSession
  | [] => (directory, [])
  | session :: rest =>
    if directory.isSaneCheckpointCandidate session then
      ((directory.dropBroken rest).1, session :: (directory.dropBroken rest).2)
    else
      (directory.removeModelFiles session.checkpointPath).dropBroken rest

/-- `cleanup_dead_sessions`: the history is saved again if an entry was dropped. -/
def cleanupDeadSessions (directory : Directory) (trainer : Trainer) : Directory × Trainer :=
  let cleaned := directory.removeWhere (directory.isDead trainer)
  let dropped := cleaned.dropBroken trainer.sessionHistory
  let history := dropped.2
  (if history.length < trainer.sessionHistory.length then
      dropped.1.saveSessionHistory history
    else dropped.1,
    { trainer with sessionHistory := history })

/-- A trainer with a freshly built model, before anything is loaded. -/
def Trainer.fresh (weights : Nat) (pendingVocabBuild : Bool) : Trainer where
  sessionHistory := []
  currentSessionId := 0
  model := weights
  loadedCheckpointPath := none
  interruptedResumeCheckpoint := none
  pendingVocabBuild := pendingVocabBuild

/-- The `IncrementalTrainer` constructor, with fresh weights for a model that
loads nothing. Without a vocabulary everything waits for the first pass. -/
def constructTrainer (directory : Directory) (weights : Nat) : Directory × Trainer :=
  if directory.vocabulary then
    cleanupDeadSessions directory
      (((Trainer.fresh weights false).loadSessionHistory directory).initFromSessionHistory
        directory)
  else (directory, Trainer.fresh weights true)

/-! ## The bookkeeping of a pass -/

/-- `initialize_session`. -/
def Trainer.initializeSession (trainer : Trainer) : Trainer :=
  { trainer with
    sessionHistory := trainer.sessionHistory ++
      [⟨trainer.currentSessionId, 0, .finite 0, .finite 0, none⟩] }

/-- The last entry of a history, changed. -/
def updateLast (change : TrainingSession → TrainingSession) (history : List TrainingSession) :
    List TrainingSession :=
  match history.getLast? with
  | none => history
  | some last => history.dropLast ++ [change last]

/-- The entry that `perform_auto_save` leaves in the history. -/
def Trainer.recordAutoSave (trainer : Trainer) (samples : Nat) : Trainer :=
  { trainer with
    sessionHistory := updateLast
      (fun session =>
        { session with
          samplesTrained := samples
          checkpointPath := some (.autoSave trainer.currentSessionId) })
      trainer.sessionHistory }

/-- Deletes what `cleanup_old_sessions` deletes for one old session. -/
def Directory.retire (directory : Directory) (session : TrainingSession) : Directory :=
  match session.checkpointPath with
  | some (.checkpoint id) =>
    (directory.removeModelFiles session.checkpointPath).removeModelFiles (some (.best id))
  | path => directory.removeModelFiles path

/-- `cleanup_old_sessions`. -/
def cleanupOldSessions (maxSessionsToKeep : Nat) (directory : Directory)
    (history : List TrainingSession) : Directory × List TrainingSession :=
  let old := history.length - maxSessionsToKeep
  ((history.take old).foldl Directory.retire directory, history.drop old)

/-- The results that a completed pass records. -/
structure Results where
  samples : Nat
  finalLoss : Loss
  finalValidationLoss : Loss
  deriving DecidableEq, Repr

/-- `finalize_session` and the history write after it. -/
def finalizeSession (maxSessionsToKeep : Nat) (results : Results) (directory : Directory)
    (trainer : Trainer) : Directory × Trainer :=
  let id := trainer.currentSessionId
  let finished := updateLast
    (fun session =>
      { session with
        samplesTrained := results.samples
        finalLoss := results.finalLoss
        finalValidationLoss := results.finalValidationLoss
        checkpointPath := some (.checkpoint id) })
    trainer.sessionHistory
  let kept := cleanupOldSessions maxSessionsToKeep
    (directory.removeModelFiles (some (.best id))) finished
  (kept.1.saveSessionHistory kept.2,
    { trainer with sessionHistory := kept.2, currentSessionId := id + 1 })

/-! ## What saving leaves -/

/-- Saving a model leaves the training states as they are. -/
@[simp] theorem Directory.saveModel_states (directory : Directory) (base : Base)
    (snapshot : Snapshot) : (directory.saveModel base snapshot).states = directory.states := rfl

@[simp] theorem Directory.saveTrainingState_models (directory : Directory) (base : Base)
    (state : Nat) (written : Bool) :
    (directory.saveTrainingState base state written).models = directory.models := by
  cases written <;> rfl

@[simp] theorem Directory.saveTrainingState_history (directory : Directory) (base : Base)
    (state : Nat) (written : Bool) :
    (directory.saveTrainingState base state written).history = directory.history := by
  cases written <;> rfl

@[simp] theorem Directory.saveTrainingState_vocabulary (directory : Directory) (base : Base)
    (state : Nat) (written : Bool) :
    (directory.saveTrainingState base state written).vocabulary = directory.vocabulary := by
  cases written <;> rfl

/-! ## What cleaning leaves -/

/-- Each checkpoint of the first directory is that of the second, or deleted with
all its files. -/
def Directory.Within (smaller larger : Directory) : Prop :=
  ∀ base,
    smaller.models base = larger.models base ∧ smaller.states base = larger.states base ∨
      smaller.models base = none ∧ smaller.states base = none

theorem Directory.Within.refl (directory : Directory) : directory.Within directory :=
  fun _ => .inl ⟨rfl, rfl⟩

theorem Directory.Within.trans {first second third : Directory} (inner : first.Within second)
    (outer : second.Within third) : first.Within third := by
  intro base
  rcases inner base with ⟨models, states⟩ | deleted
  · rw [models, states]
    exact outer base
  · exact .inr deleted

theorem Directory.removeWhere_within (directory : Directory) (dead : Base → Bool) :
    (directory.removeWhere dead).Within directory := by
  intro base
  cases removed : dead base with
  | true => exact .inr (by simp [Directory.removeWhere, removed])
  | false => exact .inl (by simp [Directory.removeWhere, removed])

theorem Directory.saveSessionHistory_within (directory : Directory)
    (history : List TrainingSession) :
    (directory.saveSessionHistory history).Within directory :=
  fun _ => .inl ⟨rfl, rfl⟩

theorem Directory.dropBroken_within (history : List TrainingSession) :
    ∀ directory : Directory, (directory.dropBroken history).1.Within directory := by
  induction history with
  | nil => exact fun directory => .refl directory
  | cons session rest ih =>
      intro directory
      unfold Directory.dropBroken
      split
      · exact ih directory
      · exact (ih _).trans (directory.removeWhere_within _)

theorem cleanupDeadSessions_within (directory : Directory) (trainer : Trainer) :
    (cleanupDeadSessions directory trainer).1.Within directory := by
  have dropped := (Directory.dropBroken_within trainer.sessionHistory
    (directory.removeWhere (directory.isDead trainer))).trans (directory.removeWhere_within _)
  unfold cleanupDeadSessions
  dsimp only
  split
  · exact (Directory.saveSessionHistory_within _ _).trans dropped
  · exact dropped

theorem Directory.retire_within (directory : Directory) (session : TrainingSession) :
    (directory.retire session).Within directory := by
  unfold Directory.retire
  split
  · exact (Directory.removeWhere_within _ _).trans (directory.removeWhere_within _)
  · exact directory.removeWhere_within _

theorem retireAll_within (history : List TrainingSession) :
    ∀ directory : Directory, (history.foldl Directory.retire directory).Within directory := by
  induction history with
  | nil => exact fun directory => .refl directory
  | cons session rest ih =>
      exact fun directory => (ih _).trans (directory.retire_within session)

theorem finalizeSession_within (maxSessionsToKeep : Nat) (results : Results)
    (directory : Directory) (trainer : Trainer) :
    (finalizeSession maxSessionsToKeep results directory trainer).1.Within directory :=
  (Directory.saveSessionHistory_within _ _).trans
    ((retireAll_within _ _).trans (directory.removeWhere_within _))

end Adai.Training
