import Adai.Math.TransitionSystem
import Adai.Training.SessionDirectory

/-! # Runs of trainer processes over one session directory

Trainer processes come one after the other. Each constructs an
`IncrementalTrainer` and runs passes; a pass takes optimizer steps, saves
snapshots, and completes, fails or is paused; and a process may end at any
moment, also in the middle of a pass. A save of a model, a write of the history
and the bookkeeping of a completed pass are one step each.
-/

namespace Adai.Training

/-- A pass under way, inside its `ChatbotTrainer`. -/
structure LivePass where
  /-- The step of the weights. -/
  weights : Nat
  /-- The step the optimizer and the schedule are at. -/
  state : Nat
  /-- The step of the training state the pass began with, if it restored one. -/
  restored : Option Nat
  /-- The step of the copy of the best weights. -/
  bestCopy : Option Nat
  stepped : Bool
  /-- The samples of an auto-save whose history is not written yet. -/
  awaitingHistory : Option Nat
  deriving DecidableEq, Repr

inductive Process where
  | gone
  | idle (trainer : Trainer)
  | training (trainer : Trainer) (pass : LivePass)
  deriving DecidableEq, Repr

/-- A session directory and the process working on it. The last two fields keep
the history of the run: the checkpoint saved last, of the completed passes and
of the passes that ended early after them, and whether a pass of this process
that ended early had moved the weights. -/
structure System where
  directory : Directory
  process : Process
  clock : Nat
  newest : Option Base
  moved : Bool

/-- How loading the copy of the best weights ends: it is loaded, or an exception
leaves the weights as they were or partly overwritten. -/
inductive RestoreOutcome where
  | loads
  | keeps
  | mixes
  deriving DecidableEq, Repr

inductive Action where
  | construct
  | resumeLastSession
  | startPass (readable : Bool)
  | optimizerStep
  | autoSaveModel (samples : Nat) (stateWritten : Bool)
  | autoSaveHistory
  /-- A new best validation loss: its copy, and its snapshot unless that fails. -/
  | improve (snapshot : Option Bool)
  | complete (restore : RestoreOutcome) (stateWritten : Bool) (results : Results)
      (maxSessionsToKeep : Nat)
  /-- The pass fails, before or after the best weights are restored. -/
  | fail (restore : Option RestoreOutcome)
  /-- The pass is paused, and saves its weights unless that fails. -/
  | pause (restore : RestoreOutcome) (samples : Option Nat)
  | ends
  deriving DecidableEq, Repr

/-- The weights after the best copy, if there is one, is loaded back. -/
def LivePass.restoreBest (pass : LivePass) (clock : Nat) (outcome : RestoreOutcome) : LivePass :=
  match pass.bestCopy, outcome with
  | none, _ => pass
  | some best, .loads => { pass with weights := best }
  | some _, .keeps => pass
  | some _, .mixes => { pass with weights := clock, stepped := true }

/-- What a trainer does before its first pass when the vocabulary was missing. -/
def bootstrapVocab (directory : Directory) (weights : Nat) (trainer : Trainer) :
    Directory × Trainer :=
  if trainer.pendingVocabBuild then
    let directory := { directory with vocabulary := true }
    (directory, { trainer.loadSessionHistory directory with
      model := weights, pendingVocabBuild := false })
  else (directory, trainer)

/-- The pass that `train_on_files` starts. -/
def Trainer.beginPass (directory : Directory) (readable : Bool) (trainer : Trainer) : LivePass :=
  let restored := if readable then trainer.loadedCheckpointPath.bind directory.states else none
  ⟨trainer.model, restored.getD trainer.model, restored, none, false, none⟩

/-- The checkpoint that `resume_last_session` loads. -/
def Trainer.resumeCheckpoint (directory : Directory) (trainer : Trainer) : Option Base :=
  match trainer.interruptedResumeCheckpoint with
  | some base => some base
  | none =>
    if (directory.models (.best trainer.currentSessionId)).isSome then
      some (.best trainer.currentSessionId)
    else
      (directory.selectResumeCheckpoint trainer.sessionHistory).or
        (trainer.sessionHistory.getLast?.bind (·.checkpointPath))

namespace System

/-- A new process constructs its trainer. -/
def construct (system : System) : System :=
  let built := constructTrainer system.directory system.clock
  { system with
    directory := built.1
    process := .idle built.2
    clock := system.clock + 1
    moved := false }

/-- `resume_last_session` loads its checkpoint; the pass then starts as usual. -/
def resume (system : System) (trainer : Trainer) : System :=
  { system with
    process := .idle
      (trainer.loadModel system.directory (trainer.resumeCheckpoint system.directory))
    moved := false }

def startPass (system : System) (trainer : Trainer) (readable : Bool) : System :=
  let ready := bootstrapVocab system.directory system.clock trainer
  { system with
    directory := ready.1
    process := .training ready.2.initializeSession (ready.2.beginPass ready.1 readable)
    clock := system.clock + 1 }

def optimizerStep (system : System) (trainer : Trainer) (pass : LivePass) : System :=
  { system with
    process := .training trainer
      { pass with weights := system.clock, state := system.clock, stepped := true }
    clock := system.clock + 1 }

/-- `save_to` of the live trainer, for an auto-save or a best snapshot. -/
def saveTo (system : System) (pass : LivePass) (base : Base) (stateWritten : Bool) : System :=
  { system with
    directory := (system.directory.saveModel base ⟨pass.weights, system.clock⟩).saveTrainingState
      base pass.state stateWritten
    clock := system.clock + 1
    newest := some base }

def autoSaveModel (system : System) (trainer : Trainer) (pass : LivePass) (samples : Nat)
    (stateWritten : Bool) : System :=
  { system.saveTo pass (.autoSave trainer.currentSessionId) stateWritten with
    process := .training trainer { pass with awaitingHistory := some samples } }

def autoSaveHistory (system : System) (trainer : Trainer) (pass : LivePass) (samples : Nat) :
    System :=
  let recorded := trainer.recordAutoSave samples
  { system with
    directory := system.directory.saveSessionHistory recorded.sessionHistory
    process := .training recorded { pass with awaitingHistory := none } }

def improve (system : System) (trainer : Trainer) (pass : LivePass) (snapshot : Option Bool) :
    System :=
  let saved := match snapshot with
    | none => system
    | some stateWritten =>
      system.saveTo pass (.best trainer.currentSessionId) stateWritten
  { saved with
    process := .training trainer { pass with bestCopy := some pass.weights } }

/-- A pass that ran to its end: its checkpoint, its training state, and the
bookkeeping. -/
def complete (system : System) (trainer : Trainer) (pass : LivePass) (restore : RestoreOutcome)
    (stateWritten : Bool) (results : Results) (maxSessionsToKeep : Nat) : System :=
  let pass := pass.restoreBest system.clock restore
  let base := Base.checkpoint trainer.currentSessionId
  let saved := system.saveTo pass base stateWritten
  let finished := finalizeSession maxSessionsToKeep results saved.directory
    { trainer with model := pass.weights, loadedCheckpointPath := some base }
  { saved with
    directory := finished.1
    process := .idle finished.2
    moved := false }

def fail (system : System) (trainer : Trainer) (pass : LivePass)
    (restore : Option RestoreOutcome) : System :=
  let pass := (restore.map (pass.restoreBest system.clock)).getD pass
  { system with
    process := .idle { trainer with model := pass.weights }
    clock := system.clock + 1
    moved := system.moved || pass.stepped }

/-- A paused pass: `perform_auto_save` of the released model, which saves no
training state. -/
def pause (system : System) (trainer : Trainer) (pass : LivePass) (restore : RestoreOutcome)
    (samples : Option Nat) : System :=
  let pass := pass.restoreBest system.clock restore
  let released := { trainer with model := pass.weights }
  let base := Base.autoSave trainer.currentSessionId
  match samples with
  | none =>
    { system with
      process := .idle released
      clock := system.clock + 1
      moved := system.moved || pass.stepped }
  | some samples =>
    let recorded := released.recordAutoSave samples
    { system with
      directory := (system.directory.saveModel base ⟨pass.weights, system.clock⟩).saveSessionHistory
        recorded.sessionHistory
      process := .idle recorded
      clock := system.clock + 1
      newest := some base
      moved := system.moved || pass.stepped }

/-- One step of the system, if the process can take it. -/
def next (system : System) (action : Action) : Option System :=
  match system.process, action with
  | .gone, .construct => some system.construct
  | .idle trainer, .resumeLastSession =>
    if !trainer.pendingVocabBuild &&
        system.directory.checkpointFilesExist (trainer.resumeCheckpoint system.directory) then
      some (system.resume trainer)
    else none
  | .idle trainer, .startPass readable => some (system.startPass trainer readable)
  | .training trainer pass, .autoSaveHistory =>
    match pass.awaitingHistory with
    | none => none
    | some samples => some (system.autoSaveHistory trainer pass samples)
  | .training trainer pass, action =>
    if pass.awaitingHistory.isSome then
      match action with
      | .ends => some { system with process := .gone }
      | _ => none
    else
      match action with
      | .optimizerStep => some (system.optimizerStep trainer pass)
      | .autoSaveModel samples stateWritten =>
        some (system.autoSaveModel trainer pass samples stateWritten)
      | .improve snapshot => some (system.improve trainer pass snapshot)
      | .complete restore stateWritten results maxSessionsToKeep =>
        if 0 < results.samples then
          some (system.complete trainer pass restore stateWritten results maxSessionsToKeep)
        else none
      | .fail restore => some (system.fail trainer pass restore)
      | .pause restore samples => some (system.pause trainer pass restore samples)
      | .ends => some { system with process := .gone }
      | _ => none
  | .idle _, .ends => some { system with process := .gone }
  | _, _ => none

/-- An empty session directory, with or without a vocabulary, and no process. -/
def initial (vocabulary : Bool) : System where
  directory := ⟨fun _ => none, fun _ => none, none, vocabulary⟩
  process := .gone
  clock := 0
  newest := none
  moved := false

/-- The step relation of the system. -/
def Step (before : System) (action : Action) (after : System) : Prop :=
  before.next action = some after

/-- What a step can be, with the process that takes it. -/
inductive Transition : System → Action → System → Prop
  | construct {system : System} (gone : system.process = .gone) :
      Transition system .construct system.construct
  | resume {system : System} {trainer : Trainer} (idle : system.process = .idle trainer)
      (built : trainer.pendingVocabBuild = false)
      (present : system.directory.checkpointFilesExist
        (trainer.resumeCheckpoint system.directory) = true) :
      Transition system .resumeLastSession (system.resume trainer)
  | startPass {system : System} {trainer : Trainer} (readable : Bool)
      (idle : system.process = .idle trainer) :
      Transition system (.startPass readable) (system.startPass trainer readable)
  | optimizerStep {system : System} {trainer : Trainer} {pass : LivePass}
      (live : system.process = .training trainer pass) :
      Transition system .optimizerStep (system.optimizerStep trainer pass)
  | autoSaveModel {system : System} {trainer : Trainer} {pass : LivePass} (samples : Nat)
      (stateWritten : Bool) (live : system.process = .training trainer pass) :
      Transition system (.autoSaveModel samples stateWritten)
        (system.autoSaveModel trainer pass samples stateWritten)
  | autoSaveHistory {system : System} {trainer : Trainer} {pass : LivePass} {samples : Nat}
      (live : system.process = .training trainer pass)
      (awaiting : pass.awaitingHistory = some samples) :
      Transition system .autoSaveHistory (system.autoSaveHistory trainer pass samples)
  | improve {system : System} {trainer : Trainer} {pass : LivePass} (snapshot : Option Bool)
      (live : system.process = .training trainer pass) (ready : pass.awaitingHistory = none) :
      Transition system (.improve snapshot) (system.improve trainer pass snapshot)
  | complete {system : System} {trainer : Trainer} {pass : LivePass} (restore : RestoreOutcome)
      (stateWritten : Bool) (results : Results) (maxSessionsToKeep : Nat)
      (live : system.process = .training trainer pass) (ready : pass.awaitingHistory = none)
      (trained : 0 < results.samples) :
      Transition system (.complete restore stateWritten results maxSessionsToKeep)
        (system.complete trainer pass restore stateWritten results maxSessionsToKeep)
  | fail {system : System} {trainer : Trainer} {pass : LivePass}
      (restore : Option RestoreOutcome) (live : system.process = .training trainer pass)
      (ready : pass.awaitingHistory = none) :
      Transition system (.fail restore) (system.fail trainer pass restore)
  | pause {system : System} {trainer : Trainer} {pass : LivePass} (restore : RestoreOutcome)
      (samples : Option Nat) (live : system.process = .training trainer pass)
      (ready : pass.awaitingHistory = none) :
      Transition system (.pause restore samples) (system.pause trainer pass restore samples)
  | ends {system : System} : Transition system .ends { system with process := .gone }

/-- Every step is one of the transitions. -/
theorem Step.transition {before after : System} {action : Action}
    (taken : Step before action after) : Transition before action after := by
  unfold Step next at taken
  cases process : before.process with
  | gone =>
      cases action <;> simp only [process, reduceCtorEq, Option.some.injEq] at taken
      case construct => exact taken ▸ .construct process
  | idle trainer =>
      cases action <;> simp only [process, reduceCtorEq, Option.some.injEq] at taken
      case resumeLastSession =>
        split at taken
        · rename_i ready
          obtain ⟨built, present⟩ := Bool.and_eq_true_iff.mp ready
          obtain rfl := Option.some.inj taken
          exact .resume process (by simpa using built) present
        · cases taken
      case startPass readable => exact taken ▸ .startPass readable process
      case ends => exact taken ▸ .ends
  | training trainer pass =>
      cases awaiting : pass.awaitingHistory with
      | some samples =>
          cases action <;>
            simp only [process, awaiting, Option.isSome_some, if_true, reduceCtorEq,
              Option.some.injEq] at taken
          case autoSaveHistory => exact taken ▸ .autoSaveHistory process awaiting
          case ends => exact taken ▸ .ends
      | none =>
          cases action <;>
            simp only [process, awaiting, Option.isSome_none, Bool.false_eq_true, if_false,
              reduceCtorEq, Option.some.injEq] at taken
          case optimizerStep => exact taken ▸ .optimizerStep process
          case autoSaveModel samples stateWritten =>
            exact taken ▸ .autoSaveModel samples stateWritten process
          case improve snapshot => exact taken ▸ .improve snapshot process awaiting
          case complete restore stateWritten results maxSessionsToKeep =>
            split at taken
            · rename_i trained
              obtain rfl := Option.some.inj taken
              exact .complete restore stateWritten results maxSessionsToKeep process awaiting
                trained
            · cases taken
          case fail restore => exact taken ▸ .fail restore process awaiting
          case pause restore samples => exact taken ▸ .pause restore samples process awaiting
          case ends => exact taken ▸ .ends

end System

end Adai.Training
