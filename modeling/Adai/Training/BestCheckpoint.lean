import Adai.Training.TrainerRuns

/-! # The best checkpoint of a trainer

Beside its history a trainer keeps the lowest validation loss of a session and
the checkpoint of that session. This module models `init_from_session_history`,
`update_best_checkpoint` and `cleanup_old_sessions` as far as they keep these two
up to date, and runs them along with the system of a session directory and its
trainer processes. Of the symbolic links only the setting that enables them
matters here.
-/

namespace Adai.Training

/-- `std::numeric_limits<float>::max()`. -/
def floatMax : Rat := (2 ^ 24 - 1) * 2 ^ 104

/-- `best_validation_loss` and `best_checkpoint_path`. -/
structure Best where
  validationLoss : Rat
  checkpointPath : Option Base
  deriving DecidableEq, Repr

def Best.initial : Best := ⟨floatMax, none⟩

/-- The value of a validation loss that was measured. -/
def Loss.measured : Loss → Option Rat
  | .notFinite => none
  | .finite value => if 0 < value then some value else none

/-- One session of the loops that look for the lowest validation loss. -/
def Directory.compareBest (directory : Directory) (best : Best) (session : TrainingSession) :
    Best :=
  match session.finalValidationLoss.measured with
  | none => best
  | some loss =>
    if directory.isSaneCheckpointCandidate session && decide (loss < best.validationLoss) then
      ⟨loss, session.checkpointPath⟩
    else best

/-- The best checkpoint among the sessions of a history, looked for from scratch. -/
def Directory.bestOf (directory : Directory) (history : List TrainingSession) : Best :=
  history.foldl directory.compareBest .initial

/-- `update_best_checkpoint`, for a history of the given size that holds the
session already. -/
def updateBestCheckpoint (symlinks : Bool) (historySize : Nat) (loss : Loss)
    (checkpointPath : Base) (best : Best) : Best :=
  if !symlinks then best
  else
    match loss.measured with
    | none =>
      if best.checkpointPath.isNone then { best with checkpointPath := some checkpointPath }
      else best
    | some value =>
      if historySize ≤ 1 || decide (value < best.validationLoss) then
        ⟨value, some checkpointPath⟩
      else best

/-- One evicted session of `cleanup_old_sessions`. When it held the best
checkpoint, the best of the remaining sessions takes its place. -/
def retireTracking (remaining : List TrainingSession) (state : Directory × Best)
    (session : TrainingSession) : Directory × Best :=
  let directory := state.1.retire session
  (directory,
    if session.checkpointPath == state.2.checkpointPath then directory.bestOf remaining
    else state.2)

/-- The history with the results of the session that ends. -/
def Trainer.finish (trainer : Trainer) (results : Results) : List TrainingSession :=
  updateLast
    (fun session =>
      { session with
        samplesTrained := results.samples
        finalLoss := results.finalLoss
        finalValidationLoss := results.finalValidationLoss
        checkpointPath := some (.checkpoint trainer.currentSessionId) })
    trainer.sessionHistory

/-- `finalize_session`, with what it keeps of the best checkpoint. -/
def finalizeTracking (symlinks : Bool) (maxSessionsToKeep : Nat) (results : Results)
    (directory : Directory) (trainer : Trainer) (best : Best) : Directory × Trainer × Best :=
  let id := trainer.currentSessionId
  let finished := trainer.finish results
  let updated := updateBestCheckpoint symlinks finished.length results.finalValidationLoss
    (.checkpoint id) best
  let old := finished.length - maxSessionsToKeep
  let remaining := finished.drop old
  let cleaned := (finished.take old).foldl (retireTracking remaining)
    (directory.removeModelFiles (some (.best id)), updated)
  (cleaned.1.saveSessionHistory remaining,
    { trainer with sessionHistory := remaining, currentSessionId := id + 1 }, cleaned.2)

/-- The best checkpoint that `init_from_session_history` finds. -/
def constructBest (directory : Directory) (weights : Nat) : Best :=
  if directory.vocabulary then
    let loaded := (Trainer.fresh weights false).loadSessionHistory directory
    directory.bestOf (loaded.takeInterruptedSession directory).1.sessionHistory
  else .initial

/-- The directory and the trainer of a completed pass once its checkpoint is saved. -/
def System.checkpointed (system : System) (trainer : Trainer) (pass : LivePass)
    (restore : RestoreOutcome) (stateWritten : Bool) : Directory × Trainer :=
  let pass := pass.restoreBest system.clock restore
  let base := Base.checkpoint trainer.currentSessionId
  ((system.saveTo pass base stateWritten).directory,
    { trainer with model := pass.weights, loadedCheckpointPath := some base })

/-- A session directory and its process, with the best checkpoint that the
process keeps. -/
structure Tracked where
  system : System
  best : Best

/-- An action, and whether symbolic links are enabled while it is taken. -/
structure TrackedAction where
  action : Action
  symlinks : Bool
  deriving DecidableEq, Repr

namespace Tracked

/-- The best checkpoint after a step. -/
def bestAfter (tracked : Tracked) (label : TrackedAction) : Best :=
  match tracked.system.process, label.action with
  | .gone, .construct => constructBest tracked.system.directory tracked.system.clock
  | .training trainer pass, .complete restore stateWritten results maxSessionsToKeep =>
    let saved := tracked.system.checkpointed trainer pass restore stateWritten
    (finalizeTracking label.symlinks maxSessionsToKeep results saved.1 saved.2
      tracked.best).2.2
  | _, _ => tracked.best

def next (tracked : Tracked) (label : TrackedAction) : Option Tracked :=
  (tracked.system.next label.action).map fun after => ⟨after, tracked.bestAfter label⟩

def initial (vocabulary : Bool) : Tracked := ⟨.initial vocabulary, .initial⟩

def Step (before : Tracked) (label : TrackedAction) (after : Tracked) : Prop :=
  before.next label = some after

end Tracked

/-! ## The tracked bookkeeping is that of the system -/

theorem retireTracking_directory (remaining old : List TrainingSession) :
    ∀ state : Directory × Best,
      (old.foldl (retireTracking remaining) state).1 = old.foldl Directory.retire state.1 := by
  induction old with
  | nil => exact fun _ => rfl
  | cons session rest ih => exact fun state => ih (retireTracking remaining state session)

theorem finalizeTracking_finalizeSession (symlinks : Bool) (maxSessionsToKeep : Nat)
    (results : Results) (directory : Directory) (trainer : Trainer) (best : Best) :
    ((finalizeTracking symlinks maxSessionsToKeep results directory trainer best).1,
        (finalizeTracking symlinks maxSessionsToKeep results directory trainer best).2.1) =
      finalizeSession maxSessionsToKeep results directory trainer := by
  simp only [finalizeTracking, finalizeSession, cleanupOldSessions, retireTracking_directory,
    Trainer.finish]

end Adai.Training
