import Adai.Training.KeptSessions

/-! # Retention keeps the right sessions

After every completed pass the history holds its newest sessions, the checkpoints
of those that completed are all there, and the best checkpoint belongs to the
session with the lowest measured validation loss among them. `sessions_retained`
shows this for every run of trainer processes whose passes meet
`RetentionCondition`: with symbolic links disabled, `update_lowestAftercheckpoint`
returns before it records anything, so a pass with a lower loss is missed.
-/

namespace Adai.Training

open TransitionSystem

/-! ## Constructors -/

/-- A constructor goes on with the history that it read, less an interrupted
session at its end. -/
theorem takeInterruptedSession_cases (directory : Directory) (trainer : Trainer) :
    (trainer.takeInterruptedSession directory).1 = trainer ∨
      ∃ last id, trainer.sessionHistory.getLast? = some last ∧
        last.checkpointPath = some (.autoSave id) ∧
        (trainer.takeInterruptedSession directory).1 =
          { trainer with
            currentSessionId := last.sessionId
            sessionHistory := trainer.sessionHistory.dropLast } := by
  unfold Trainer.takeInterruptedSession
  cases found : trainer.sessionHistory.getLast? with
  | none => exact .inl rfl
  | some last =>
      dsimp only
      split
      · rename_i id path
        split
        · exact .inl rfl
        · exact .inr ⟨last, id, rfl, path, rfl⟩
      · exact .inl rfl

/-- Loading weights changes neither the history nor the ids. -/
theorem loadModel_sessionHistory (directory : Directory) (trainer : Trainer)
    (path : Option Base) :
    (trainer.loadModel directory path).sessionHistory = trainer.sessionHistory ∧
      (trainer.loadModel directory path).currentSessionId = trainer.currentSessionId ∧
      (trainer.loadModel directory path).pendingVocabBuild = trainer.pendingVocabBuild := by
  unfold Trainer.loadModel
  split <;> exact ⟨rfl, rfl, rfl⟩

/-- The sessions of a file that a new trainer goes on with. -/
theorem taken_kept {directory : Directory} {trainer : Trainer}
    (inv : KeptInv directory trainer.sessionHistory)
    (upTo : UpTo trainer.currentSessionId trainer.sessionHistory) :
    KeptInv directory (trainer.takeInterruptedSession directory).1.sessionHistory ∧
      UpTo (trainer.takeInterruptedSession directory).1.currentSessionId
        (trainer.takeInterruptedSession directory).1.sessionHistory ∧
      ∀ session ∈ trainer.sessionHistory, session.Finished →
        session ∈ (trainer.takeInterruptedSession directory).1.sessionHistory := by
  rcases takeInterruptedSession_cases directory trainer with same | ⟨last, id, found, path, taken⟩
  · rw [same]
    exact ⟨inv, upTo, fun session member _ => member⟩
  · rw [taken]
    obtain ⟨front, history⟩ := List.getLast?_eq_some_iff.mp found
    have whole := inv
    rw [history] at whole
    simp only [history, List.dropLast_concat]
    refine ⟨whole.sublist (List.sublist_append_left _ _) fun _ _ _ present => present,
      fun session member => ?_, fun session member finished => ?_⟩
    · exact (List.pairwise_append.mp whole.order).2.2 session member last
        (List.mem_singleton_self last)
    · refine (List.mem_append.mp member).resolve_right fun late => ?_
      obtain rfl := List.mem_singleton.mp late
      rw [finished.path] at path
      cases path

theorem initFromSessionHistory_spec (directory : Directory) (trainer : Trainer) :
    (trainer.initFromSessionHistory directory).sessionHistory =
        (trainer.takeInterruptedSession directory).1.sessionHistory ∧
      (trainer.initFromSessionHistory directory).currentSessionId =
        (trainer.takeInterruptedSession directory).1.currentSessionId ∧
      (trainer.initFromSessionHistory directory).pendingVocabBuild =
        trainer.pendingVocabBuild := by
  obtain ⟨history, id, pending⟩ := loadModel_sessionHistory directory
    { (trainer.takeInterruptedSession directory).1 with
      interruptedResumeCheckpoint := (trainer.takeInterruptedSession directory).2 }
    ((trainer.takeInterruptedSession directory).2.or (directory.selectResumeCheckpoint
      (trainer.takeInterruptedSession directory).1.sessionHistory))
  refine ⟨history, id, pending.trans ?_⟩
  rcases takeInterruptedSession_cases directory trainer with same | ⟨_, _, _, _, taken⟩
  · rw [same]
  · rw [taken]

/-- The history on file after cleaning up. -/
theorem cleanupDeadSessions_file {directory : Directory} {trainer : Trainer}
    (kept : KeptInv (cleanupDeadSessions directory trainer).1
      (cleanupDeadSessions directory trainer).2.sessionHistory)
    (sub : (cleanupDeadSessions directory trainer).2.sessionHistory.Sublist
      trainer.sessionHistory)
    (file : KeptInv directory directory.entries)
    (finished : ∀ session ∈ directory.entries, session.Finished →
      session ∈ trainer.sessionHistory) :
    KeptInv (cleanupDeadSessions directory trainer).1
      (cleanupDeadSessions directory trainer).1.entries := by
  by_cases dropped : (cleanupDeadSessions directory trainer).2.sessionHistory.length <
      trainer.sessionHistory.length
  · have saved := cleanupDeadSessions_history directory trainer
    rw [if_pos dropped] at saved
    have entries : (cleanupDeadSessions directory trainer).1.entries =
        (cleanupDeadSessions directory trainer).2.sessionHistory.filter (·.reads) := by
      simp only [Directory.entries, Directory.readSessionHistory, saved, Option.map_some,
        Option.getD_some]
    rw [entries]
    exact kept.filter
  · have same := cleanupDeadSessions_history directory trainer
    rw [if_neg dropped] at same
    rw [entries_of_history same]
    refine file.sublist (.refl _) fun session member done _ => ?_
    have listed := finished session member done
    rw [← sub.eq_of_length_le (Nat.le_of_not_lt dropped)] at listed
    rcases kept.entries session listed with ⟨-, present⟩ | unfinished
    · exact present
    · exact absurd done unfinished.not_finished

theorem constructTrainer_kept {directory : Directory} (weights : Nat)
    (file : KeptInv directory directory.entries)
    (bare : directory.vocabulary = false → directory.history = none) :
    KeptInv (constructTrainer directory weights).1
        (constructTrainer directory weights).1.entries ∧
      (constructTrainer directory weights).2.Kept (constructTrainer directory weights).1
        (constructBest directory weights) := by
  cases vocabulary : directory.vocabulary with
  | false =>
      rw [constructTrainer_without_vocabulary _ vocabulary, constructBest,
        if_neg (by simp [vocabulary])]
      exact ⟨file, .nil _, fun _ member => absurd member List.not_mem_nil, .nil,
        fun _ => ⟨rfl, bare vocabulary⟩, fun impossible => (by cases impossible)⟩
  | true =>
      let loaded : Trainer :=
        { Trainer.fresh weights false with
          sessionHistory := directory.entries, currentSessionId := nextId directory.entries }
      have loadedInv : KeptInv directory loaded.sessionHistory := file
      obtain ⟨inv, upTo, finished⟩ := taken_kept loadedInv (.nextId _)
      let trainer := loaded.initFromSessionHistory directory
      have built : constructTrainer directory weights = cleanupDeadSessions directory trainer :=
        constructTrainer_of_vocabulary weights vocabulary
      have best : constructBest directory weights =
          directory.bestOf (loaded.takeInterruptedSession directory).1.sessionHistory := by
        rw [constructBest, if_pos vocabulary, loadSessionHistory_fresh]
      obtain ⟨sameHistory, sameId, samePending⟩ := initFromSessionHistory_spec directory loaded
      have trainerInv : KeptInv directory trainer.sessionHistory := sameHistory ▸ inv
      obtain ⟨kept, sub, members⟩ := cleanupDeadSessions_kept trainerInv
      rw [built, best]
      refine ⟨cleanupDeadSessions_file kept sub file fun session member done => ?_, kept, ?_, ?_,
        fun pending => ?_, fun _ => (cleanupDeadSessions_vocabulary _ _).trans vocabulary⟩
      · rw [sameHistory]
        exact finished session member done
      · have whole : UpTo trainer.currentSessionId trainer.sessionHistory := by
          rw [sameHistory, sameId]
          exact upTo
        exact whole.sublist sub
      · refine (Directory.bestOf_lowest inv.measures).congr fun session some => ?_
        rw [← sameHistory]
        exact members session some
      · exact Bool.noConfusion (samePending.symm.trans pending)

/-! ## Completed passes -/

/-- What a completed pass leaves of its history and of the directory it was saved
to: the newest sessions, with every file of the checkpoints they name, and the
checkpoint of the lowest measured loss among them. -/
structure Retained (maxSessionsToKeep : Nat) (history : List TrainingSession)
    (directory : Directory) (after : Directory × Trainer × Best) : Prop where
  newest : after.2.1.sessionHistory = history.drop (history.length - maxSessionsToKeep)
  files : ∀ session ∈ after.2.1.sessionHistory, ∀ id,
    session.checkpointPath = some (.checkpoint id) →
      (after.1.models (.checkpoint id)).isSome ∧
        after.1.models (.checkpoint id) = directory.models (.checkpoint id) ∧
        after.1.states (.checkpoint id) = directory.states (.checkpoint id)
  best : ∀ session ∈ after.2.1.sessionHistory, session.finalValidationLoss.measured.isSome →
    ∃ lowest ∈ after.2.1.sessionHistory, ∃ loss,
      lowest.finalValidationLoss.measured = some loss ∧
        after.2.2.checkpointPath = lowest.checkpointPath ∧
        ∀ other ∈ after.2.1.sessionHistory, ∀ value,
          other.finalValidationLoss.measured = some value → loss ≤ value

/-- A loss that `update_lowestAftercheckpoint` does not miss. -/
def Loss.Seen (symlinks : Bool) (best : Best) (loss : Loss) : Prop :=
  ∀ value, loss.measured = some value →
    value < floatMax ∧ (symlinks = false → best.validationLoss ≤ value)

/-- The history that a finished session ends. -/
theorem finish_kept {directory : Directory} {trainer : Trainer} {best : Best}
    (kept : trainer.Kept directory best) (entry : trainer.HasEntry trainer.currentSessionId)
    {results : Results} (trained : 0 < results.samples) {symlinks : Bool}
    (seen : results.finalValidationLoss.Seen symlinks best)
    (present : (directory.models (.checkpoint trainer.currentSessionId)).isSome) :
    KeptInv directory (trainer.finish results) ∧
      UpTo (trainer.currentSessionId + 1) (trainer.finish results) ∧
      (updateBestCheckpoint symlinks (trainer.finish results).length
        results.finalValidationLoss (.checkpoint trainer.currentSessionId) best).Lowest
        (trainer.finish results) := by
  obtain ⟨front, own, history, unfinished, same⟩ := entry
  let ended : TrainingSession :=
    { own with
      samplesTrained := results.samples
      finalLoss := results.finalLoss
      finalValidationLoss := results.finalValidationLoss
      checkpointPath := some (.checkpoint trainer.currentSessionId) }
  have finish : trainer.finish results = front ++ [ended] := by
    rw [Trainer.finish, history, updateLast_concat]
  have finished : ended.Finished :=
    ⟨congrArg (fun id => some (Base.checkpoint id)) same.symm, trained,
      fun loss measured => (seen loss measured).1⟩
  have frontSub : front.Sublist trainer.sessionHistory :=
    history ▸ List.sublist_append_left _ _
  have frontInv : KeptInv directory front :=
    kept.history.sublist frontSub fun _ _ _ there => there
  have frontLowest : best.Lowest front := (history ▸ kept.best).front unfinished.measured
  rw [finish]
  refine ⟨frontInv.snoc (kept.upTo.sublist frontSub) (.inl ⟨finished, ?_⟩) same,
    (kept.upTo.sublist frontSub).succ same, ?_⟩
  · rw [Directory.Present, show ended.sessionId = _ from same]
    exact present
  · rw [List.length_append, List.length_singleton]
    have checkpoint : ended.checkpointPath = some (.checkpoint trainer.currentSessionId) := rfl
    refine updateBestCheckpoint_lowest frontLowest (fun session member some => ?_) checkpoint seen
    rcases frontInv.entries session member with ⟨done, -⟩ | unended
    · simp [done.path]
    · rw [unended.measured] at some
      cases some

/-- Finishing a session. -/
theorem finalizeTracking_retained {directory : Directory} {trainer : Trainer} {best : Best}
    (kept : trainer.Kept directory best) (entry : trainer.HasEntry trainer.currentSessionId)
    {results : Results} (trained : 0 < results.samples) {symlinks : Bool}
    (seen : results.finalValidationLoss.Seen symlinks best)
    (present : (directory.models (.checkpoint trainer.currentSessionId)).isSome)
    (maxSessionsToKeep : Nat) {after : Directory × Trainer × Best}
    (finalized : after =
      finalizeTracking symlinks maxSessionsToKeep results directory trainer best) :
    Retained maxSessionsToKeep (trainer.finish results) directory after ∧
      KeptInv after.1 after.2.1.sessionHistory ∧
      UpTo after.2.1.currentSessionId after.2.1.sessionHistory ∧
      after.2.2.Lowest after.2.1.sessionHistory := by
  obtain ⟨inv, upTo, updated⟩ := finish_kept kept entry trained seen present
  let count := (trainer.finish results).length - maxSessionsToKeep
  let superseded := directory.removeModelFiles (some (.best trainer.currentSessionId))
  have supersededInv : KeptInv superseded (trainer.finish results) :=
    inv.sublist (.refl _) fun session _ _ there => by
      rw [Directory.Present, Directory.removeModelFiles_models_of_ne (by simp)]
      exact there
  have split : KeptInv superseded
      ((trainer.finish results).take count ++ (trainer.finish results).drop count) := by
    rw [List.take_append_drop]
    exact supersededInv
  have remaining := split.sublist (List.sublist_append_right _ _) fun _ _ _ there => there
  have lowest := retireAll_lowest _ superseded _
    (.inl (by rw [List.take_append_drop]; exact updated)) remaining.measures split.outlives
  have directoryAfter : after.1 = (((trainer.finish results).take count).foldl
      Directory.retire superseded).saveSessionHistory
        ((trainer.finish results).drop count) := by
    rw [finalized, finalizeTracking]
    simp only [retireTracking_directory]
    rfl
  have files : ∀ session ∈ (trainer.finish results).drop count, session.Finished →
      after.1.models (.checkpoint session.sessionId) =
          directory.models (.checkpoint session.sessionId) ∧
        after.1.states (.checkpoint session.sessionId) =
          directory.states (.checkpoint session.sessionId) := by
    intro session late finished
    obtain ⟨models, states⟩ := retireAll_checkpoint _ superseded
      fun other early => split.checkpoint_ne early late
    rw [directoryAfter]
    exact ⟨models.trans (Directory.removeModelFiles_models_of_ne (by simp)),
      states.trans (Directory.removeModelFiles_states_of_ne (by simp))⟩
  have history : after.2.1.sessionHistory = (trainer.finish results).drop count := by
    rw [finalized]
    rfl
  have inDirectory : KeptInv directory ((trainer.finish results).drop count) :=
    inv.sublist (List.drop_sublist _ _) fun _ _ _ there => there
  have lowestAfter : after.2.2.Lowest after.2.1.sessionHistory := by
    rw [history, finalized]
    exact lowest
  refine ⟨⟨history, fun session member id path => ?_, fun session member some => ?_⟩, ?_, ?_,
    lowestAfter⟩
  · rw [history] at member
    rcases inDirectory.entries session member with ⟨finished, present⟩ | unfinished
    · obtain rfl : session.sessionId = id := by
        rw [finished.path] at path
        injection path with path
        injection path
      obtain ⟨models, states⟩ := files session member finished
      exact ⟨models ▸ present, models, states⟩
    · exact absurd path (unfinished.not_checkpoint id)
  · obtain ⟨loss, measured⟩ := Option.isSome_iff_exists.mp some
    rcases lowestAfter.attained with none | ⟨holder, there, holderMeasured, path⟩
    · have bounded := ((history ▸ remaining.measures) session member loss measured).1
      exact absurd (none ▸ lowestAfter.below session member loss measured) (not_le.mpr bounded)
    · exact ⟨holder, there, _, holderMeasured, path, lowestAfter.below⟩
  · rw [history]
    refine inDirectory.sublist (.refl _) fun session member finished present => ?_
    rw [Directory.Present, (files session member finished).1]
    exact present
  · rw [history, finalized]
    exact upTo.sublist (List.drop_sublist _ _)

/-! ## Steps -/

/-- The invariant of a process. -/
def Process.Kept (directory : Directory) (best : Best) : Process → Prop
  | .gone => True
  | .idle trainer => trainer.Kept directory best
  | .training trainer _ =>
    trainer.Kept directory best ∧ trainer.pendingVocabBuild = false ∧
      trainer.HasEntry trainer.currentSessionId

structure Tracked.Sound (tracked : Tracked) : Prop where
  file : KeptInv tracked.system.directory tracked.system.directory.entries
  process : tracked.system.process.Kept tracked.system.directory tracked.best
  bare : tracked.system.directory.vocabulary = false → tracked.system.directory.history = none

theorem Trainer.Kept.covers {directory other : Directory} {best : Best} {trainer : Trainer}
    (kept : trainer.Kept directory best) (built : trainer.pendingVocabBuild = false)
    (covers : other.Covers directory) (vocabulary : other.vocabulary = directory.vocabulary) :
    trainer.Kept other best where
  history := kept.history.covers covers
  upTo := kept.upTo
  best := kept.best
  pending pending := Bool.noConfusion (built.symm.trans pending)
  built _ := vocabulary.trans (kept.built built)

/-- New weights leave the bookkeeping as it is. -/
theorem Trainer.Kept.released {directory : Directory} {best : Best} {trainer : Trainer}
    (kept : trainer.Kept directory best) (weights : Nat) :
    Trainer.Kept directory best { trainer with model := weights } :=
  ⟨kept.history, kept.upTo, kept.best, kept.pending, kept.built⟩

theorem Trainer.Kept.loadModel {directory : Directory} {best : Best} {trainer : Trainer}
    (kept : trainer.Kept directory best) (path : Option Base) :
    (trainer.loadModel directory path).Kept directory best := by
  unfold Trainer.loadModel
  split
  · exact kept
  · exact ⟨kept.history, kept.upTo, kept.best, kept.pending, kept.built⟩

/-- An unfinished session has no loss to compare. -/
theorem Trainer.Kept.initializeSession {directory : Directory} {best : Best}
    {trainer : Trainer} (kept : trainer.Kept directory best)
    (built : trainer.pendingVocabBuild = false) :
    trainer.initializeSession.Kept directory best ∧
      trainer.initializeSession.HasEntry trainer.currentSessionId := by
  have unfinished : TrainingSession.Unfinished
      ⟨trainer.currentSessionId, 0, .finite 0, .finite 0, none⟩ := ⟨.inl rfl, rfl, rfl⟩
  refine ⟨⟨kept.history.snoc kept.upTo (.inr unfinished) rfl,
    kept.upTo.snoc_unfinished unfinished rfl, kept.best.snoc_unmeasured unfinished.measured,
    fun pending => ?_, fun _ => kept.built built⟩, trainer.sessionHistory, _, rfl, unfinished,
    rfl⟩
  exact Bool.noConfusion (built.symm.trans pending)

/-- Recording an auto-save changes an unfinished session into another one. -/
theorem Trainer.Kept.recordAutoSave {directory : Directory} {best : Best} {trainer : Trainer}
    (kept : trainer.Kept directory best) (built : trainer.pendingVocabBuild = false)
    (entry : trainer.HasEntry trainer.currentSessionId) (samples : Nat) :
    (trainer.recordAutoSave samples).Kept directory best ∧
      (trainer.recordAutoSave samples).HasEntry trainer.currentSessionId := by
  obtain ⟨front, own, history, unfinished, same⟩ := entry
  let recorded : TrainingSession :=
    { own with
      samplesTrained := samples
      checkpointPath := some (.autoSave trainer.currentSessionId) }
  have after : (trainer.recordAutoSave samples).sessionHistory = front ++ [recorded] := by
    simp only [Trainer.recordAutoSave, history, updateLast_concat, recorded]
  have recordedUnfinished : recorded.Unfinished := ⟨.inr ⟨_, rfl⟩, unfinished.losses⟩
  have sub : front.Sublist trainer.sessionHistory := history ▸ List.sublist_append_left _ _
  have upTo := kept.upTo.sublist sub
  refine ⟨⟨?_, ?_, ?_, fun pending => Bool.noConfusion (built.symm.trans pending),
    fun _ => kept.built built⟩, front, recorded, after, recordedUnfinished, same⟩
  · rw [after]
    exact (kept.history.sublist sub fun _ _ _ there => there).snoc upTo (.inr recordedUnfinished)
      same
  · rw [after]
    exact upTo.snoc_unfinished recordedUnfinished same
  · rw [after]
    exact ((history ▸ kept.best).front unfinished.measured).snoc_unmeasured
      recordedUnfinished.measured

/-- The condition on a step: `update_best_checkpoint` does not miss the loss of a
completed pass. -/
def RetentionCondition (tracked : Tracked) (label : TrackedAction) : Prop :=
  match tracked.system.process, label.action with
  | .training _ _, .complete _ _ results _ =>
    results.finalValidationLoss.Seen label.symlinks tracked.best
  | _, _ => True

/-- Building the vocabulary finds no history to load. -/
theorem bootstrapVocab_kept {system : System} {best : Best} {trainer : Trainer}
    (kept : trainer.Kept system.directory best) :
    (bootstrapVocab system.directory system.clock trainer).1.Covers system.directory ∧
      (bootstrapVocab system.directory system.clock trainer).1.history =
        system.directory.history ∧
      (bootstrapVocab system.directory system.clock trainer).2.Kept
        (bootstrapVocab system.directory system.clock trainer).1 best ∧
      (bootstrapVocab system.directory system.clock trainer).2.pendingVocabBuild = false := by
  unfold bootstrapVocab
  cases pending : trainer.pendingVocabBuild with
  | false => exact ⟨fun _ there => there, rfl, kept, pending⟩
  | true =>
      obtain ⟨noHistory, absent⟩ := kept.pending pending
      have loaded : trainer.loadSessionHistory { system.directory with vocabulary := true } =
          trainer := by
        simp [Trainer.loadSessionHistory, Directory.readSessionHistory, absent]
      simp only [if_true, loaded]
      exact ⟨fun _ there => there, trivial, ⟨kept.history.covers fun _ there => there, kept.upTo,
        kept.best, fun impossible => (by cases impossible), fun _ => rfl⟩, trivial⟩

/-- Saving a snapshot keeps the sessions. -/
theorem saveTo_kept {system : System} {best : Best} {trainer : Trainer} (pass : LivePass)
    (file : KeptInv system.directory system.directory.entries)
    (kept : trainer.Kept system.directory best) (built : trainer.pendingVocabBuild = false)
    (base : Base) (stateWritten : Bool) :
    KeptInv (system.saveTo pass base stateWritten).directory
        (system.saveTo pass base stateWritten).directory.entries ∧
      trainer.Kept (system.saveTo pass base stateWritten).directory best ∧
      ((system.saveTo pass base stateWritten).directory.vocabulary = false →
        (system.saveTo pass base stateWritten).directory.history = none) := by
  have covers := covers_update (saveTo_models system pass base stateWritten)
  have vocabulary := saveTo_vocabulary system pass base stateWritten
  refine ⟨?_, kept.covers built covers vocabulary, fun absent => ?_⟩
  · rw [entries_of_history (saveTo_history ..)]
    exact file.covers covers
  · exact Bool.noConfusion (absent.symm.trans (vocabulary.trans (kept.built built)))

/-- A completed pass: what it retains, and what the next steps need. -/
theorem complete_kept {tracked : Tracked} (sound : tracked.Sound) {trainer : Trainer}
    {pass : LivePass} (live : tracked.system.process = .training trainer pass)
    (restore : RestoreOutcome) (stateWritten : Bool) {results : Results}
    (trained : 0 < results.samples) (maxSessionsToKeep : Nat) {symlinks : Bool}
    (seen : results.finalValidationLoss.Seen symlinks tracked.best) {saved : Directory × Trainer}
    (checkpointed : saved = tracked.system.checkpointed trainer pass restore stateWritten)
    {after : Directory × Trainer × Best}
    (finalized : after = finalizeTracking symlinks maxSessionsToKeep results saved.1 saved.2
      tracked.best) :
    Retained maxSessionsToKeep (trainer.finish results) saved.1 after ∧
      KeptInv after.1 after.1.entries ∧ after.2.1.Kept after.1 after.2.2 ∧
      after.1.vocabulary = true := by
  have process := sound.process
  rw [live] at process
  obtain ⟨kept, built, entry⟩ := process
  obtain ⟨-, savedKept, -⟩ := saveTo_kept (pass.restoreBest tracked.system.clock restore)
    sound.file kept built (.checkpoint trainer.currentSessionId) stateWritten
  subst checkpointed
  have releasedKept : (tracked.system.checkpointed trainer pass restore stateWritten).2.Kept
      (tracked.system.checkpointed trainer pass restore stateWritten).1 tracked.best :=
    ⟨savedKept.history, savedKept.upTo, savedKept.best, savedKept.pending, savedKept.built⟩
  have present : ((tracked.system.checkpointed trainer pass restore stateWritten).1.models
      (.checkpoint trainer.currentSessionId)).isSome := by
    rw [System.checkpointed, saveTo_models, Function.update_self]
    rfl
  obtain ⟨retained, inv, upTo, lowest⟩ := finalizeTracking_retained releasedKept entry trained
    seen present maxSessionsToKeep finalized
  have entries : after.1.entries = after.2.1.sessionHistory.filter (·.reads) := by
    rw [finalized]
    rfl
  have vocabulary : after.1.vocabulary = true := by
    rw [finalized, finalizeTracking]
    simp only [retireTracking_directory]
    exact (retireAll_vocabulary _ _).trans (savedKept.built built)
  refine ⟨retained, entries ▸ inv.filter, ⟨inv, upTo, lowest, fun pending => ?_,
    fun _ => vocabulary⟩, vocabulary⟩
  have same : after.2.1.pendingVocabBuild = trainer.pendingVocabBuild := by
    rw [finalized]
    rfl
  exact Bool.noConfusion (built.symm.trans (same.symm.trans pending))

/-- A completed pass takes its directory and trainer from the tracked bookkeeping. -/
theorem complete_tracking (system : System) (trainer : Trainer) (pass : LivePass)
    (restore : RestoreOutcome) (stateWritten : Bool) (results : Results)
    (maxSessionsToKeep : Nat) (symlinks : Bool) (best : Best) :
    (system.complete trainer pass restore stateWritten results maxSessionsToKeep).directory =
        (finalizeTracking symlinks maxSessionsToKeep results
          (system.checkpointed trainer pass restore stateWritten).1
          (system.checkpointed trainer pass restore stateWritten).2 best).1 ∧
      (system.complete trainer pass restore stateWritten results maxSessionsToKeep).process =
        .idle (finalizeTracking symlinks maxSessionsToKeep results
          (system.checkpointed trainer pass restore stateWritten).1
          (system.checkpointed trainer pass restore stateWritten).2 best).2.1 := by
  have same := finalizeTracking_finalizeSession symlinks maxSessionsToKeep results
    (system.checkpointed trainer pass restore stateWritten).1
    (system.checkpointed trainer pass restore stateWritten).2 best
  exact ⟨(congrArg Prod.fst same).symm, congrArg Process.idle (congrArg Prod.snd same).symm⟩

/-- What a step that meets the condition keeps. -/
theorem Tracked.Step.sound {before after : Tracked} {label : TrackedAction}
    (taken : Restrict Tracked.Step RetentionCondition before label after)
    (sound : before.Sound) : after.Sound := by
  obtain ⟨step, condition⟩ := taken
  obtain ⟨system, stepped, rfl⟩ := Option.map_eq_some_iff.mp step
  obtain ⟨action, symlinks⟩ := label
  have process := sound.process
  cases System.Step.transition stepped with
  | construct gone =>
      simp only [Tracked.bestAfter, gone]
      obtain ⟨file, kept⟩ := constructTrainer_kept before.system.clock sound.file sound.bare
      refine ⟨file, kept, fun absent => ?_⟩
      obtain ⟨vocabulary, same⟩ := constructTrainer_bare absent
      exact same.trans (sound.bare vocabulary)
  | resume idle built present =>
      simp only [Tracked.bestAfter, idle]
      rw [idle] at process
      exact ⟨sound.file, process.loadModel _, sound.bare⟩
  | startPass readable idle =>
      simp only [Tracked.bestAfter, idle]
      rw [idle] at process
      obtain ⟨covers, history, kept, built⟩ := bootstrapVocab_kept process
      obtain ⟨opened, entry⟩ := kept.initializeSession built
      refine ⟨?_, ⟨opened, built, entry⟩, fun absent => ?_⟩
      · have entries := entries_of_history history
        rw [show (before.system.startPass _ readable).directory.entries = _ from entries]
        exact sound.file.covers covers
      · exact Bool.noConfusion (absent.symm.trans (kept.built built))
  | optimizerStep live =>
      simp only [Tracked.bestAfter, live]
      rw [live] at process
      exact ⟨sound.file, process, sound.bare⟩
  | autoSaveModel samples stateWritten live =>
      simp only [Tracked.bestAfter, live]
      rw [live] at process
      obtain ⟨kept, built, entry⟩ := process
      obtain ⟨file, savedKept, bare⟩ := saveTo_kept _ sound.file kept built _ stateWritten
      exact ⟨file, ⟨savedKept, built, entry⟩, bare⟩
  | @autoSaveHistory trainer pass samples live awaiting =>
      simp only [Tracked.bestAfter, live]
      rw [live] at process
      obtain ⟨kept, built, entry⟩ := process
      obtain ⟨recorded, recordedEntry⟩ := kept.recordAutoSave built entry samples
      have covers : (before.system.autoSaveHistory trainer pass samples).directory.Covers
          before.system.directory := fun _ there => there
      exact ⟨recorded.history.filter.covers covers,
        ⟨recorded.covers built covers rfl, built, recordedEntry⟩,
        fun absent => Bool.noConfusion (absent.symm.trans (kept.built built))⟩
  | improve snapshot live ready =>
      simp only [Tracked.bestAfter, live]
      rw [live] at process
      obtain ⟨kept, built, entry⟩ := process
      cases snapshot with
      | none => exact ⟨sound.file, ⟨kept, built, entry⟩, sound.bare⟩
      | some stateWritten =>
          obtain ⟨file, savedKept, bare⟩ := saveTo_kept _ sound.file kept built _ stateWritten
          exact ⟨file, ⟨savedKept, built, entry⟩, bare⟩
  | @complete trainer pass restore stateWritten results maxSessionsToKeep live ready trained =>
      simp only [Tracked.bestAfter, live]
      simp only [RetentionCondition, live] at condition
      obtain ⟨-, file, kept, vocabulary⟩ := complete_kept sound live restore stateWritten trained
        maxSessionsToKeep condition rfl rfl
      obtain ⟨directory, process⟩ := complete_tracking before.system trainer pass restore
        stateWritten results maxSessionsToKeep symlinks before.best
      refine ⟨?_, ?_, fun absent => ?_⟩
      · rw [show (_ : System).directory = _ from directory]
        exact file
      · rw [show (_ : System).directory = _ from directory,
          show (_ : System).process = _ from process]
        exact kept
      · rw [show (_ : System).directory = _ from directory] at absent
        exact Bool.noConfusion (absent.symm.trans vocabulary)
  | fail restore live ready =>
      simp only [Tracked.bestAfter, live]
      rw [live] at process
      exact ⟨sound.file, process.1.released _, sound.bare⟩
  | @pause trainer pass restore samples live ready =>
      simp only [Tracked.bestAfter, live]
      rw [live] at process
      obtain ⟨kept, built, entry⟩ := process
      cases samples with
      | none => exact ⟨sound.file, kept.released _, sound.bare⟩
      | some samples =>
          let restored := pass.restoreBest before.system.clock restore
          obtain ⟨recorded, -⟩ :=
            (kept.released restored.weights).recordAutoSave built entry samples
          have covers : (before.system.pause trainer pass restore
              (some samples)).directory.Covers before.system.directory := by
            have models : (before.system.pause trainer pass restore
                (some samples)).directory.models =
              Function.update before.system.directory.models
                (.autoSave trainer.currentSessionId)
                (some ⟨restored.weights, before.system.clock⟩) := rfl
            exact covers_update models
          exact ⟨recorded.history.filter.covers covers, recorded.covers built covers rfl,
            fun absent => Bool.noConfusion (absent.symm.trans (kept.built built))⟩
  | ends => exact ⟨sound.file, trivial, sound.bare⟩

/-! ## Runs -/

theorem initial_tracked (vocabulary : Bool) : (Tracked.initial vocabulary).Sound :=
  ⟨.nil _, trivial, fun _ => rfl⟩

/-- A completed pass left an idle trainer, and retained the right sessions of the
given history. -/
def Tracked.RetainsOf (after : Tracked) (maxSessionsToKeep : Nat)
    (history : List TrainingSession) (directory : Directory) : Prop :=
  ∃ trainer, after.system.process = .idle trainer ∧
    Retained maxSessionsToKeep history directory
      (after.system.directory, trainer, after.best)

/-- In every run whose steps meet the condition, each completed pass retains the
right sessions. -/
theorem sessions_retained (vocabulary : Bool) (labels : List TrackedAction)
    (before after : Tracked) (trainer : Trainer) (pass : LivePass) (restore : RestoreOutcome)
    (stateWritten : Bool) (results : Results) (maxSessionsToKeep : Nat) (symlinks : Bool)
    (run : Run (Restrict Tracked.Step RetentionCondition) (Tracked.initial vocabulary) labels
      before)
    (live : before.system.process = .training trainer pass)
    (completes : Restrict Tracked.Step RetentionCondition before
      ⟨.complete restore stateWritten results maxSessionsToKeep, symlinks⟩ after) :
    after.RetainsOf maxSessionsToKeep (trainer.finish results)
      (before.system.checkpointed trainer pass restore stateWritten).1 := by
  have sound := run.invariant Tracked.Sound (fun _ _ _ sound taken => Tracked.Step.sound taken sound)
    (initial_tracked vocabulary)
  obtain ⟨step, condition⟩ := completes
  obtain ⟨system, stepped, rfl⟩ := Option.map_eq_some_iff.mp step
  simp only [RetentionCondition, live] at condition
  cases System.Step.transition stepped with
  | @complete trainer' pass' _ _ _ _ live' ready trained =>
      obtain ⟨rfl, rfl⟩ := Process.training.inj (live.symm.trans live')
      obtain ⟨directory, process⟩ := complete_tracking before.system trainer pass restore
        stateWritten results maxSessionsToKeep symlinks before.best
      obtain ⟨retained, -⟩ := complete_kept sound live restore stateWritten trained
        maxSessionsToKeep condition rfl rfl
      refine ⟨_, process, ?_⟩
      simp only [Tracked.bestAfter, live, directory]
      exact retained

/-- The results of a pass with a measured validation loss. -/
def measuredResults : Results := ⟨1, .finite 1, .finite 1⟩

/-- With symbolic links, the first completed pass holds the best checkpoint. -/
theorem sessions_retained_first : ∃ before after trainer pass,
    Run (Restrict Tracked.Step RetentionCondition) (Tracked.initial true)
        [⟨.construct, true⟩, ⟨.startPass true, true⟩] before ∧
      before.system.process = .training trainer pass ∧
      Restrict Tracked.Step RetentionCondition before
        ⟨.complete .keeps true measuredResults 1, true⟩ after ∧
      after.RetainsOf 1 (trainer.finish measuredResults)
        (before.system.checkpointed trainer pass .keeps true).1 := by
  have run : ∃ before,
      Run (Restrict Tracked.Step RetentionCondition) (Tracked.initial true)
        [⟨.construct, true⟩, ⟨.startPass true, true⟩] before ∧
      ∃ trainer pass, before.system.process = .training trainer pass ∧
      ∃ after, Restrict Tracked.Step RetentionCondition before
        ⟨.complete .keeps true measuredResults 1, true⟩ after := by
    refine ⟨_, .cons ⟨rfl, trivial⟩ (.cons ⟨rfl, trivial⟩ (.refl _)), _, _, rfl, _, rfl, ?_⟩
    intro value measured
    obtain rfl : 1 = value := Option.some.inj measured
    refine ⟨by decide +kernel, fun impossible => ?_⟩
    cases impossible
  obtain ⟨before, run, trainer, pass, live, after, completes⟩ := run
  exact ⟨before, after, trainer, pass, run, live, completes,
    sessions_retained true _ before after trainer pass _ _ _ _ _ run live completes⟩

/-- Whether some session has a measured loss but none the best checkpoint. -/
def Tracked.missesBest (tracked : Tracked) : Bool :=
  match tracked.system.process with
  | .idle trainer =>
    (trainer.sessionHistory.any fun session => session.finalValidationLoss.measured.isSome) &&
      !trainer.sessionHistory.any fun session =>
        session.checkpointPath == tracked.best.checkpointPath
  | _ => false

theorem Tracked.not_retainsOf {after : Tracked} (misses : after.missesBest = true)
    {maxSessionsToKeep : Nat} {history : List TrainingSession} {directory : Directory} :
    ¬ after.RetainsOf maxSessionsToKeep history directory := by
  rintro ⟨trainer, process, retained⟩
  simp only [Tracked.missesBest, process, Bool.and_eq_true, Bool.not_eq_true',
    List.any_eq_true, List.any_eq_false] at misses
  obtain ⟨⟨session, member, measured⟩, missing⟩ := misses
  obtain ⟨lowest, there, -, -, path, -⟩ := retained.best session member measured
  have same : after.best.checkpointPath = lowest.checkpointPath := path
  exact missing lowest there (by simp [same])

/-- Without symbolic links, the best checkpoint of a first pass is missed. -/
theorem sessions_retained_fails :
    ¬ ∀ (vocabulary : Bool) (labels : List TrackedAction) (before after : Tracked)
        (trainer : Trainer) (pass : LivePass) (restore : RestoreOutcome) (stateWritten : Bool)
        (results : Results) (maxSessionsToKeep : Nat) (symlinks : Bool),
      Run Tracked.Step (Tracked.initial vocabulary) labels before →
        before.system.process = .training trainer pass → 1 ≤ maxSessionsToKeep →
        Tracked.Step before ⟨.complete restore stateWritten results maxSessionsToKeep, symlinks⟩
          after →
        after.RetainsOf maxSessionsToKeep (trainer.finish results)
          (before.system.checkpointed trainer pass restore stateWritten).1 := by
  intro retains
  have misses : ((execute Tracked.next (Tracked.initial true)
      [⟨.construct, false⟩, ⟨.startPass true, false⟩]).bind
        (·.next ⟨.complete .keeps true measuredResults 1, false⟩)).any Tracked.missesBest =
      true := by decide +kernel
  obtain ⟨after, taken, missed⟩ := (Option.any_eq_true _ _).mp misses
  obtain ⟨before, executed, step⟩ := Option.bind_eq_some_iff.mp taken
  have run := Run.of_execute (fun _ _ _ taken => taken) executed
  obtain ⟨system, stepped, rfl⟩ := Option.map_eq_some_iff.mp step
  cases System.Step.transition stepped with
  | @complete trainer pass _ _ _ _ live ready trained =>
      exact Tracked.not_retainsOf missed (retains true _ before _ trainer pass .keeps true
        measuredResults 1 false run live (Nat.le_refl 1) step)

end Adai.Training
