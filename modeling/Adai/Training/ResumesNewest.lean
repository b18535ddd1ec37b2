import Adai.Training.NewestSnapshot

/-! # Interrupted training resumes from its newest weights

A trainer process that ends early leaves its work in an auto-save and a best
snapshot. `resumes_newest` shows that every constructor loads the checkpoint
saved last, and that cleaning up keeps all its files, in every run whose steps
meet `SnapshotCondition`: completed passes record usable losses and at least one
session is kept, a snapshot of an unfinished pass is recorded in the history
before a new process looks for it, and no auto-save is recorded while the
history still holds the auto-save of an earlier pass of the same process.
-/

namespace Adai.Training

open TransitionSystem

/-! ## Snapshots -/

theorem entries_of_history {directory other : Directory}
    (same : other.history = directory.history) : other.entries = directory.entries := by
  unfold Directory.entries Directory.readSessionHistory
  rw [same]

/-- A directory with the models of another, and perhaps more. -/
def Directory.Covers (larger smaller : Directory) : Prop :=
  ∀ base, (smaller.models base).isSome → (larger.models base).isSome

theorem HistoryInv.covers {directory other : Directory} {next : Nat}
    {history : List TrainingSession} (inv : HistoryInv directory next history)
    (covers : other.Covers directory) : HistoryInv other next history :=
  inv.sublist (.refl _) fun session _ _ present => covers (.checkpoint session.sessionId) present

theorem covers_update {directory other : Directory} {base : Base} {snapshot : Snapshot}
    (models : other.models = Function.update directory.models base (some snapshot)) :
    other.Covers directory := by
  intro other' present
  rw [models]
  by_cases same : other' = base
  · rw [same, Function.update_self]
    rfl
  · rwa [Function.update_of_ne same]

/-- Whatever was saved last, the history ends with the session at the next id if
it ends with an interrupted one. -/
theorem NewestInv.history {directory : Directory} {next : Nat} {newest : Option Base}
    (inv : NewestInv directory next newest) :
    InterruptedTail next directory.entries ∧ (directory.models (.autoSave next)).isSome ∨
      ¬ EndsInterrupted directory.entries := by
  match newest, inv with
  | none, inv =>
      refine .inr ?_
      rw [inv.1]
      exact not_endsInterrupted_nil
  | some (.checkpoint id), inv => exact .inr inv.1.not_endsInterrupted
  | some (.best id), inv => exact inv.2.2
  | some (.autoSave id), inv => exact inv.2.2

/-- A snapshot of the session at the next id becomes the newest. -/
theorem NewestInv.saveSnapshot {directory other : Directory} {next : Nat}
    {newest : Option Base} {base : Base} {weights time : Nat}
    (inv : NewestInv directory next newest) (own : base.SnapshotOf next)
    (models : other.models = Function.update directory.models base (some ⟨weights, time⟩))
    (entries : other.entries = directory.entries) (times : directory.WrittenBefore time) :
    NewestInv other next (some base) := by
  refine (newestInv_snapshot own).mpr ⟨⟨⟨weights, time⟩, ?_, fun other' _ ne older there => ?_⟩, ?_⟩
  · rw [models, Function.update_self]
  · rw [models, Function.update_of_ne ne] at there
    exact times other' older there
  · rw [entries]
    exact inv.history.imp_left fun ⟨tail, auto⟩ => ⟨tail, covers_update models _ auto⟩

/-! ## Auto-saves -/

theorem updateLast_concat (change : TrainingSession → TrainingSession)
    (front : List TrainingSession) (last : TrainingSession) :
    updateLast change (front ++ [last]) = front ++ [change last] := by
  unfold updateLast
  rw [List.getLast?_concat, List.dropLast_concat]

/-- Of other sessions a history without other auto-saves shows the completed
ones. -/
theorem completed_of_reads {directory : Directory} {next : Nat} {front : List TrainingSession}
    (inv : HistoryInv directory next front)
    (others : ∀ session ∈ front, ∀ id, session.checkpointPath ≠ some (.autoSave id)) :
    ∀ session ∈ front.filter (·.reads), session.Completed := by
  intro session member
  obtain ⟨early, reads⟩ := List.mem_filter.mp member
  rcases inv.entries session early with ⟨completed, -⟩ | ⟨unfinished, -⟩
  · exact completed
  · obtain ⟨id, auto⟩ := unfinished.reads_iff.mp reads
    exact absurd auto (others session early id)

/-- Recording an auto-save: what memory and file then hold. -/
theorem recordAutoSave_spec {directory : Directory} {next : Nat} {trainer : Trainer}
    (at_ : trainer.At directory next) (entry : trainer.HasEntry next)
    (alone : trainer.OnlyOwnAutoSave) (samples : Nat) :
    HistoryInv directory next (trainer.recordAutoSave samples).sessionHistory ∧
      (trainer.recordAutoSave samples).HasEntry next ∧
      InterruptedTail next
        ((trainer.recordAutoSave samples).sessionHistory.filter (·.reads)) := by
  obtain ⟨front, own, history, unfinished, same⟩ := entry
  have inv : HistoryInv directory next front :=
    at_.history.sublist (history ▸ List.sublist_append_left _ _) fun _ _ _ present => present
  let recorded : TrainingSession :=
    { own with samplesTrained := samples, checkpointPath := some (.autoSave next) }
  have after : (trainer.recordAutoSave samples).sessionHistory = front ++ [recorded] := by
    simp only [Trainer.recordAutoSave, history, updateLast_concat, at_.id, recorded]
  have recordedUnfinished : recorded.Unfinished := ⟨.inr ⟨next, rfl⟩, unfinished.losses⟩
  have others : ∀ session ∈ front, ∀ id, session.checkpointPath ≠ some (.autoSave id) := by
    intro session member
    refine alone session ?_
    rw [history, List.dropLast_concat]
    exact member
  refine ⟨?_, ⟨front, recorded, after, recordedUnfinished, same⟩, ?_⟩
  · rw [after]
    exact inv.snoc_unfinished recordedUnfinished same
  · refine ⟨front.filter (·.reads), recorded, ?_, rfl, same, completed_of_reads inv others⟩
    have reads : recorded.reads = true := recordedUnfinished.reads_iff.mpr ⟨next, rfl⟩
    rw [after, List.filter_append, List.filter_cons_of_pos reads, List.filter_nil]

/-! ## Completed passes -/

theorem Directory.retire_checkpoint (directory : Directory) {session : TrainingSession} {id : Nat}
    (other : session.checkpointPath ≠ some (.checkpoint id)) :
    (directory.retire session).models (.checkpoint id) = directory.models (.checkpoint id) ∧
      (directory.retire session).states (.checkpoint id) = directory.states (.checkpoint id) := by
  unfold Directory.retire
  split
  · rw [Directory.removeModelFiles_models_of_ne (by simp),
      Directory.removeModelFiles_models_of_ne other,
      Directory.removeModelFiles_states_of_ne (by simp),
      Directory.removeModelFiles_states_of_ne other]
    exact ⟨rfl, rfl⟩
  · exact ⟨Directory.removeModelFiles_models_of_ne other,
      Directory.removeModelFiles_states_of_ne other⟩

theorem retireAll_checkpoint {id : Nat} (old : List TrainingSession) :
    ∀ directory : Directory,
      (∀ session ∈ old, session.checkpointPath ≠ some (.checkpoint id)) →
      (old.foldl Directory.retire directory).models (.checkpoint id) =
          directory.models (.checkpoint id) ∧
        (old.foldl Directory.retire directory).states (.checkpoint id) =
          directory.states (.checkpoint id) := by
  induction old with
  | nil => exact fun _ _ => ⟨rfl, rfl⟩
  | cons session rest ih =>
      intro directory others
      obtain ⟨models, states⟩ := directory.retire_checkpoint
        (others session (List.mem_cons_self ..))
      obtain ⟨restModels, restStates⟩ := ih (directory.retire session)
        fun other member => others other (List.mem_cons_of_mem _ member)
      exact ⟨restModels.trans models, restStates.trans states⟩

/-- Evicting the first sessions of a history keeps what the others name. -/
theorem HistoryInv.evict {directory : Directory} {next : Nat}
    {history : List TrainingSession} (inv : HistoryInv directory next history) (count : Nat) :
    HistoryInv ((history.take count).foldl Directory.retire directory) next
      (history.drop count) := by
  refine inv.sublist (List.drop_sublist _ _) fun session late completed present => ?_
  rw [Directory.Present, (retireAll_checkpoint _ directory ?_).1]
  · exact present
  · intro other early path
    have split := inv.order
    rw [← List.take_append_drop count history, List.pairwise_append] at split
    rcases inv.entries other (List.mem_of_mem_take early) with ⟨done, -⟩ | ⟨unfinished, -⟩
    · have before := split.2.2 other early session late done completed
      rw [done.path] at path
      injection path with path
      injection path with path
      omega
    · rcases unfinished.path with none | ⟨id, auto⟩
      · rw [none] at path
        cases path
      · rw [auto] at path
        cases path

/-- Finishing a session whose checkpoint is in the directory. -/
theorem finalizeSession_spec {directory : Directory} {next : Nat} {trainer : Trainer}
    (id : trainer.currentSessionId = next)
    (inv : HistoryInv directory next trainer.sessionHistory) (entry : trainer.HasEntry next)
    {results : Results} (trained : 0 < results.samples) (usable : results.Usable)
    (present : (directory.models (.checkpoint next)).isSome) {maxSessionsToKeep : Nat}
    (keeps : 1 ≤ maxSessionsToKeep) :
    HistoryInv (finalizeSession maxSessionsToKeep results directory trainer).1 (next + 1)
        (finalizeSession maxSessionsToKeep results directory trainer).2.sessionHistory ∧
      CompletedTail next
        (finalizeSession maxSessionsToKeep results directory trainer).1.entries := by
  obtain ⟨front, own, history, -, same⟩ := entry
  let finished : TrainingSession :=
    { own with
      samplesTrained := results.samples
      finalLoss := results.finalLoss
      finalValidationLoss := results.finalValidationLoss
      checkpointPath := some (.checkpoint next) }
  have completed : finished.Completed := by
    obtain ⟨finite, unmeasured | ⟨value, measured, positive⟩⟩ := usable
    · exact ⟨by rw [same], trained, ⟨finite, congrArg Loss.isFinite unmeasured⟩, .inl unmeasured⟩
    · refine ⟨by rw [same], trained, ⟨finite, congrArg Loss.isFinite measured⟩, .inr ?_⟩
      simpa [TrainingSession.hasValidationLoss, finished, measured] using positive
  have frontInv : HistoryInv directory next front :=
    inv.sublist (history ▸ List.sublist_append_left _ _) fun _ _ _ there => there
  have whole : HistoryInv (directory.removeModelFiles (some (.best next))) (next + 1)
      (front ++ [finished]) := by
    refine (frontInv.snoc_completed completed same ?_).sublist (.refl _) fun session _ _ there => ?_
    · rw [Directory.Present, show finished.sessionId = next from same]
      exact present
    · rw [Directory.Present, Directory.removeModelFiles_models_of_ne (by simp)]
      exact there
  have count : front.length + 1 - maxSessionsToKeep ≤ front.length := by omega
  have drops : (front ++ [finished]).drop (front.length + 1 - maxSessionsToKeep) =
      front.drop (front.length + 1 - maxSessionsToKeep) ++ [finished] :=
    List.drop_append_of_le_length count
  have after : finalizeSession maxSessionsToKeep results directory trainer =
      ((((front ++ [finished]).take (front.length + 1 - maxSessionsToKeep)).foldl
          Directory.retire
          (directory.removeModelFiles (some (.best next)))).saveSessionHistory
            ((front ++ [finished]).drop (front.length + 1 - maxSessionsToKeep)),
        { trainer with
          sessionHistory := (front ++ [finished]).drop (front.length + 1 - maxSessionsToKeep)
          currentSessionId := next + 1 }) := by
    simp only [finalizeSession, cleanupOldSessions, history, updateLast_concat, id,
      List.length_append, List.length_singleton, finished]
  rw [after]
  refine ⟨(whole.evict _).sublist (.refl _) fun _ _ _ there => there, ?_⟩
  rw [entries_saveSessionHistory, drops, List.filter_append,
    List.filter_cons_of_pos completed.reads, List.filter_nil]
  refine ⟨_, finished, rfl, completed, same, fun session member => ?_⟩
  have early := List.mem_of_mem_drop (List.mem_of_mem_filter member)
  rcases frontInv.entries session early with ⟨-, -, before⟩ | ⟨-, upTo⟩
  · exact before.le
  · exact upTo

/-! ## Steps -/

theorem saveTo_models (system : System) (pass : LivePass) (base : Base) (stateWritten : Bool) :
    (system.saveTo pass base stateWritten).directory.models =
      Function.update system.directory.models base (some ⟨pass.weights, system.clock⟩) := by
  simp [System.saveTo, Directory.saveModel]

theorem saveTo_history (system : System) (pass : LivePass) (base : Base)
    (stateWritten : Bool) :
    (system.saveTo pass base stateWritten).directory.history = system.directory.history := by
  simp [System.saveTo, Directory.saveModel]

theorem saveTo_vocabulary (system : System) (pass : LivePass) (base : Base)
    (stateWritten : Bool) :
    (system.saveTo pass base stateWritten).directory.vocabulary =
      system.directory.vocabulary := by
  simp [System.saveTo, Directory.saveModel]

theorem Directory.WrittenBefore.update {directory other : Directory} {time weights : Nat}
    {base : Base} (before : directory.WrittenBefore time)
    (models : other.models = Function.update directory.models base (some ⟨weights, time⟩)) :
    other.WrittenBefore (time + 1) := by
  intro base' snapshot found
  rw [models] at found
  by_cases same : base' = base
  · rw [same, Function.update_self] at found
    exact Option.some.inj found ▸ Nat.lt_succ_self time
  · rw [Function.update_of_ne same] at found
    exact Nat.lt_succ_of_lt (before base' snapshot found)

theorem Directory.WrittenBefore.within {smaller larger : Directory} {time : Nat}
    (before : larger.WrittenBefore time) (within : smaller.Within larger) :
    smaller.WrittenBefore time := by
  intro base snapshot found
  rcases within base with ⟨same, -⟩ | ⟨gone, -⟩
  · exact before base snapshot (same ▸ found)
  · rw [gone] at found
    cases found

theorem Trainer.At.covers {directory other : Directory} {next : Nat} {trainer : Trainer}
    (at_ : trainer.At directory next) (built : trainer.pendingVocabBuild = false)
    (covers : other.Covers directory) (vocabulary : other.vocabulary = directory.vocabulary) :
    trainer.At other next where
  id := at_.id
  history := at_.history.covers covers
  pending pending := by
    rw [built] at pending
    cases pending
  built _ := vocabulary.trans (at_.built built)

/-- A snapshot of the current session is saved during a pass. -/
theorem saveTo_sound {system : System} {next : Nat} (sound : system.Sound next)
    {trainer : Trainer} {pass : LivePass} (live : system.process = .training trainer pass)
    {base : Base} (own : base.SnapshotOf next) (stateWritten : Bool) (later : LivePass)
    (awaiting : later.awaitingHistory.isSome → base = .autoSave next) :
    System.Sound
      { system.saveTo pass base stateWritten with process := .training trainer later } next := by
  have process := sound.process
  rw [live] at process
  obtain ⟨at_, built, entry, -⟩ := process
  have models := saveTo_models system pass base stateWritten
  have entries : (system.saveTo pass base stateWritten).directory.entries =
      system.directory.entries := entries_of_history (saveTo_history ..)
  have vocabulary := saveTo_vocabulary system pass base stateWritten
  refine ⟨?_, ?_, ⟨?_, built, entry, fun some => congrArg Option.some (awaiting some)⟩,
    fun absent => ?_, ?_⟩
  · rw [show (_ : Directory).entries = _ from entries]
    exact sound.file.covers (covers_update models)
  · exact sound.newest.saveSnapshot own models entries sound.times
  · exact at_.covers built (covers_update models) vocabulary
  · have there := at_.built built
    rw [← vocabulary, absent] at there
    cases there
  · exact Directory.WrittenBefore.update sound.times models

theorem System.autoSaveHistory_sound {system : System} {next : Nat} (sound : system.Sound next)
    {trainer : Trainer} {pass : LivePass} (live : system.process = .training trainer pass)
    {samples : Nat} (awaiting : pass.awaitingHistory = some samples)
    (alone : trainer.OnlyOwnAutoSave) :
    (system.autoSaveHistory trainer pass samples).Sound next := by
  have process := sound.process
  rw [live] at process
  obtain ⟨at_, built, entry, saved⟩ := process
  have newest : system.newest = some (.autoSave next) := saved (by rw [awaiting]; rfl)
  have snapshot := sound.newest
  rw [newest, newestInv_snapshot (.inl rfl)] at snapshot
  have auto : (system.directory.models (.autoSave next)).isSome := by
    obtain ⟨written, found, -⟩ := snapshot.newest
    rw [found]
    rfl
  obtain ⟨inv, after, tail⟩ := recordAutoSave_spec at_ entry alone samples
  have covers : (system.autoSaveHistory trainer pass samples).directory.Covers
      system.directory := fun _ there => there
  refine ⟨inv.filter.covers covers, ?_,
    ⟨⟨at_.id, inv.covers covers, fun pending => ?_, at_.built⟩, built, after, ?_⟩,
    fun absent => ?_, sound.times⟩
  · rw [show (system.autoSaveHistory trainer pass samples).newest = _ from newest,
      newestInv_snapshot (.inl rfl)]
    exact ⟨snapshot.newest, .inl ⟨tail, auto⟩⟩
  · exact Bool.noConfusion (built.symm.trans pending)
  · intro impossible
    cases impossible
  · exact Bool.noConfusion (absent.symm.trans (at_.built built))

theorem System.improve_sound {system : System} {next : Nat} (sound : system.Sound next)
    {trainer : Trainer} {pass : LivePass} (live : system.process = .training trainer pass)
    (ready : pass.awaitingHistory = none) (snapshot : Option Bool) :
    (system.improve trainer pass snapshot).Sound next := by
  have process := sound.process
  rw [live] at process
  obtain ⟨at_, built, entry, -⟩ := process
  cases snapshot with
  | none =>
      refine ⟨sound.file, sound.newest, ⟨at_, built, entry, ?_⟩, sound.bare, sound.times⟩
      rw [ready]
      intro impossible
      cases impossible
  | some stateWritten =>
      refine saveTo_sound sound live ?_ stateWritten _ ?_
      · exact .inr (congrArg Base.best at_.id)
      · rw [ready]
        intro impossible
        cases impossible

theorem Trainer.At.snapshotOf {directory : Directory} {next : Nat} {trainer : Trainer}
    (at_ : trainer.At directory next) :
    (Base.autoSave trainer.currentSessionId).SnapshotOf next :=
  .inl (congrArg Base.autoSave at_.id)

/-- A pass that ends early without saving keeps what is on file. -/
theorem ended_sound {system : System} {next : Nat} (sound : system.Sound next)
    {trainer : Trainer} {pass : LivePass} (live : system.process = .training trainer pass)
    (weights : Nat) (moved : Bool) :
    System.Sound
      { system with
        process := .idle { trainer with model := weights }
        clock := system.clock + 1
        moved := moved } next := by
  have process := sound.process
  rw [live] at process
  obtain ⟨at_, -, -, -⟩ := process
  exact ⟨sound.file, sound.newest, ⟨at_.id, at_.history, at_.pending, at_.built⟩, sound.bare,
    fun base snapshot found => Nat.lt_succ_of_lt (sound.times base snapshot found)⟩

theorem System.pause_sound {system : System} {next : Nat} (sound : system.Sound next)
    {trainer : Trainer} {pass : LivePass} (live : system.process = .training trainer pass)
    (restore : RestoreOutcome) (samples : Option Nat)
    (alone : samples.isSome → trainer.OnlyOwnAutoSave) :
    (system.pause trainer pass restore samples).Sound next := by
  cases samples with
  | none => exact ended_sound sound live _ _
  | some samples =>
      have process := sound.process
      rw [live] at process
      obtain ⟨at_, built, entry, -⟩ := process
      let released : Trainer :=
        { trainer with model := (pass.restoreBest system.clock restore).weights }
      have releasedAt : released.At system.directory next :=
        ⟨at_.id, at_.history, at_.pending, at_.built⟩
      obtain ⟨inv, after, tail⟩ := recordAutoSave_spec releasedAt entry (alone rfl) samples
      have own := at_.snapshotOf
      have models : (system.pause trainer pass restore (some samples)).directory.models =
          Function.update system.directory.models (.autoSave trainer.currentSessionId)
            (some ⟨(pass.restoreBest system.clock restore).weights, system.clock⟩) := rfl
      have covers := covers_update models
      have newest : NewestInv (system.directory.saveModel _
          ⟨(pass.restoreBest system.clock restore).weights, system.clock⟩) next _ :=
        sound.newest.saveSnapshot own rfl rfl sound.times
      refine ⟨inv.filter.covers covers, (newestInv_snapshot own).mpr ⟨?_, .inl ⟨tail, ?_⟩⟩,
        ⟨at_.id, inv.covers covers, fun pending => ?_, at_.built⟩, fun absent => ?_,
        Directory.WrittenBefore.update sound.times models⟩
      · exact ((newestInv_snapshot own).mp newest).newest
      · rw [models, ← at_.id, Function.update_self]
        rfl
      · exact Bool.noConfusion (built.symm.trans pending)
      · exact Bool.noConfusion (absent.symm.trans (at_.built built))

theorem retireAll_vocabulary (old : List TrainingSession) : ∀ directory : Directory,
    (old.foldl Directory.retire directory).vocabulary = directory.vocabulary := by
  induction old with
  | nil => exact fun _ => rfl
  | cons session rest ih =>
      intro directory
      rw [List.foldl_cons, ih]
      unfold Directory.retire
      split <;> rfl

theorem System.complete_sound {system : System} {next : Nat} (sound : system.Sound next)
    {trainer : Trainer} {pass : LivePass} (live : system.process = .training trainer pass)
    (restore : RestoreOutcome) (stateWritten : Bool) {results : Results}
    {maxSessionsToKeep : Nat} (trained : 0 < results.samples) (usable : results.Usable)
    (keeps : 1 ≤ maxSessionsToKeep) :
    (system.complete trainer pass restore stateWritten results maxSessionsToKeep).Sound
      (next + 1) := by
  have process := sound.process
  rw [live] at process
  obtain ⟨at_, built, entry, -⟩ := process
  let restored := pass.restoreBest system.clock restore
  let saved := system.saveTo restored (.checkpoint trainer.currentSessionId) stateWritten
  let released : Trainer :=
    { trainer with
      model := restored.weights
      loadedCheckpointPath := some (.checkpoint trainer.currentSessionId) }
  have models := saveTo_models system restored (.checkpoint trainer.currentSessionId) stateWritten
  have present : (saved.directory.models (.checkpoint next)).isSome := by
    rw [models, ← at_.id, Function.update_self]
    rfl
  have inv : HistoryInv saved.directory next released.sessionHistory :=
    at_.history.covers (covers_update models)
  obtain ⟨kept, tail⟩ := finalizeSession_spec at_.id inv entry trained usable present keeps
  have vocabulary : (system.complete trainer pass restore stateWritten results
      maxSessionsToKeep).directory.vocabulary = true := by
    rw [← at_.built built, ← saveTo_vocabulary system restored
      (.checkpoint trainer.currentSessionId) stateWritten]
    exact retireAll_vocabulary _ _
  have within : (system.complete trainer pass restore stateWritten results
      maxSessionsToKeep).directory.Within saved.directory :=
    finalizeSession_within maxSessionsToKeep results saved.directory released
  refine ⟨?_, ⟨?_, ?_⟩, ⟨?_, kept, fun pending => ?_, fun _ => vocabulary⟩,
    fun absent => ?_, (Directory.WrittenBefore.update sound.times models).within within⟩
  · exact kept.filter
  · exact at_.id.symm ▸ tail
  · exact at_.id ▸ Nat.lt_succ_self _
  · exact congrArg (· + 1) at_.id
  · exact Bool.noConfusion (built.symm.trans pending)
  · exact Bool.noConfusion (absent.symm.trans vocabulary)

theorem Trainer.At.snoc {directory : Directory} {next : Nat} {trainer : Trainer}
    (at_ : trainer.At directory next) (built : trainer.pendingVocabBuild = false) :
    trainer.initializeSession.At directory next ∧ trainer.initializeSession.HasEntry next := by
  have unfinished : TrainingSession.Unfinished
      ⟨trainer.currentSessionId, 0, .finite 0, .finite 0, none⟩ := ⟨.inl rfl, rfl, rfl⟩
  refine ⟨⟨at_.id, at_.history.snoc_unfinished unfinished at_.id, fun pending => ?_,
    fun _ => at_.built built⟩, trainer.sessionHistory, _, rfl, unfinished, at_.id⟩
  exact Bool.noConfusion (built.symm.trans pending)

/-- Building the vocabulary finds nothing to resume. -/
theorem bootstrapVocab_spec {system : System} {next : Nat} (sound : system.Sound next)
    {trainer : Trainer} (idle : system.process = .idle trainer) :
    (bootstrapVocab system.directory system.clock trainer).1.models = system.directory.models ∧
      (bootstrapVocab system.directory system.clock trainer).1.history =
        system.directory.history ∧
      (bootstrapVocab system.directory system.clock trainer).2.At
        (bootstrapVocab system.directory system.clock trainer).1 next ∧
      (bootstrapVocab system.directory system.clock trainer).2.pendingVocabBuild = false := by
  have at_ := sound.process
  rw [idle] at at_
  unfold bootstrapVocab
  cases pending : trainer.pendingVocabBuild with
  | false => exact ⟨rfl, rfl, at_, pending⟩
  | true =>
      obtain ⟨noHistory, zero, absent⟩ := at_.pending pending
      have loaded : trainer.loadSessionHistory { system.directory with vocabulary := true } =
          trainer := by
        simp [Trainer.loadSessionHistory, Directory.readSessionHistory, absent]
      simp only [if_true, loaded]
      refine ⟨trivial, trivial, ⟨at_.id, ?_, fun impossible => (by cases impossible),
        fun _ => rfl⟩, trivial⟩
      exact at_.history.covers fun _ there => there

theorem NewestInv.congr {directory other : Directory} {next : Nat} {newest : Option Base}
    (inv : NewestInv directory next newest) (models : other.models = directory.models)
    (entries : other.entries = directory.entries) : NewestInv other next newest := by
  unfold NewestInv Directory.NewestOf at *
  rw [models, entries]
  exact inv

theorem System.startPass_sound {system : System} {next : Nat} (sound : system.Sound next)
    {trainer : Trainer} (idle : system.process = .idle trainer) (readable : Bool) :
    (system.startPass trainer readable).Sound next := by
  obtain ⟨models, history, at_, built⟩ := bootstrapVocab_spec sound idle
  obtain ⟨after, entry⟩ := at_.snoc built
  have entries := entries_of_history history
  have covers : (bootstrapVocab system.directory system.clock trainer).1.Covers
      system.directory := fun base there => by rw [models]; exact there
  refine ⟨?_, sound.newest.congr models entries, ⟨after, built, entry, ?_⟩, fun absent => ?_,
    fun base snapshot found => ?_⟩
  · rw [show (system.startPass trainer readable).directory.entries = _ from entries]
    exact sound.file.covers covers
  · intro impossible
    cases impossible
  · exact Bool.noConfusion (absent.symm.trans (at_.built built))
  · refine Nat.lt_succ_of_lt (sound.times base snapshot ?_)
    rw [← models]
    exact found

/-- What a constructor finds and leaves. -/
theorem System.construct_constructed {system : System} {next : Nat} (sound : system.Sound next)
    (condition : ∀ base, system.newest = some base →
      (∃ id, base = .checkpoint id) ∨ EndsInterrupted system.directory.entries) :
    ∃ later, Constructed system.newest system.directory
      (constructTrainer system.directory system.clock) later := by
  cases vocabulary : system.directory.vocabulary with
  | false =>
      obtain ⟨newest, absent⟩ := sound.bare vocabulary
      have inv := sound.newest
      rw [newest] at inv ⊢
      rw [constructTrainer_without_vocabulary _ vocabulary]
      refine ⟨0, ⟨rfl, fun base impossible => by cases impossible⟩, ?_, inv,
        ⟨rfl, .nil _ _, fun _ => ⟨rfl, rfl, absent⟩, fun impossible => (by cases impossible)⟩⟩
      rw [inv.1]
      exact .nil _ _
  | true =>
      have inv := sound.newest
      cases saved : system.newest with
      | none =>
          rw [saved] at inv
          exact ⟨0, constructTrainer_of_nothing _ vocabulary inv.1 inv.2⟩
      | some base =>
          rw [saved] at inv
          rcases condition base saved with ⟨id, rfl⟩ | interrupted
          · exact ⟨id + 1, constructTrainer_of_completed _ vocabulary sound.file inv.1⟩
          · have own : base.SnapshotOf next := by
              cases base with
              | checkpoint id => exact absurd interrupted inv.1.not_endsInterrupted
              | best id => exact .inr (congrArg Base.best inv.1)
              | autoSave id => exact .inl (congrArg Base.autoSave inv.1)
            obtain ⟨newest, ⟨tail, auto⟩ | none⟩ := (newestInv_snapshot own).mp inv
            · exact ⟨next, constructTrainer_of_interrupted _ vocabulary sound.file tail auto own
                newest⟩
            · exact absurd interrupted none

theorem constructTrainer_within (directory : Directory) (weights : Nat) :
    (constructTrainer directory weights).1.Within directory := by
  unfold constructTrainer
  split
  · exact cleanupDeadSessions_within _ _
  · exact .refl _

theorem constructTrainer_bare {directory : Directory} {weights : Nat}
    (absent : (constructTrainer directory weights).1.vocabulary = false) :
    directory.vocabulary = false ∧
      (constructTrainer directory weights).1.history = directory.history := by
  cases vocabulary : directory.vocabulary with
  | false => exact ⟨rfl, by rw [constructTrainer_without_vocabulary _ vocabulary]⟩
  | true =>
      have kept : (constructTrainer directory weights).1.vocabulary = true := by
        rw [constructTrainer, if_pos vocabulary, cleanupDeadSessions_vocabulary, vocabulary]
      exact Bool.noConfusion (absent.symm.trans kept)

theorem Trainer.At.loadModel {directory : Directory} {next : Nat} {trainer : Trainer}
    (at_ : trainer.At directory next) (path : Option Base) :
    (trainer.loadModel directory path).At directory next := by
  unfold Trainer.loadModel
  split
  · exact at_
  · exact ⟨at_.id, at_.history, at_.pending, at_.built⟩

/-- What a step that meets the condition keeps. -/
theorem System.Transition.sound {before after : System} {action : Action}
    (taken : System.Transition before action after)
    (condition : SnapshotCondition before action) {next : Nat} (sound : before.Sound next) :
    ∃ later, after.Sound later := by
  cases taken with
  | construct gone =>
      simp only [SnapshotCondition, gone] at condition
      obtain ⟨later, built⟩ := System.construct_constructed sound condition
      refine ⟨later, built.file, built.newest, built.trainer, fun absent => ?_, ?_⟩
      · obtain ⟨vocabulary, same⟩ := constructTrainer_bare absent
        obtain ⟨newest, history⟩ := sound.bare vocabulary
        exact ⟨newest, same.trans history⟩
      · have kept := sound.times.within (constructTrainer_within before.directory before.clock)
        exact fun base snapshot found => Nat.lt_succ_of_lt (kept base snapshot found)
  | resume idle built present =>
      have at_ := sound.process
      rw [idle] at at_
      exact ⟨next, sound.file, sound.newest, at_.loadModel _, sound.bare, sound.times⟩
  | startPass readable idle => exact ⟨next, System.startPass_sound sound idle readable⟩
  | optimizerStep live =>
      have process := sound.process
      rw [live] at process
      exact ⟨next, sound.file, sound.newest, process, sound.bare,
        fun base snapshot found => Nat.lt_succ_of_lt (sound.times base snapshot found)⟩
  | autoSaveModel samples stateWritten live =>
      have process := sound.process
      rw [live] at process
      exact ⟨next, saveTo_sound sound live process.1.snapshotOf stateWritten _
        fun _ => congrArg Base.autoSave process.1.id⟩
  | autoSaveHistory live awaiting =>
      simp only [SnapshotCondition, live] at condition
      exact ⟨next, System.autoSaveHistory_sound sound live awaiting condition⟩
  | improve snapshot live ready => exact ⟨next, System.improve_sound sound live ready snapshot⟩
  | complete restore stateWritten results maxSessionsToKeep live ready trained =>
      simp only [SnapshotCondition, live] at condition
      exact ⟨next + 1, System.complete_sound sound live restore stateWritten trained condition.1
        condition.2⟩
  | fail restore live ready => exact ⟨next, ended_sound sound live _ _⟩
  | pause restore samples live ready =>
      simp only [SnapshotCondition, live] at condition
      refine ⟨next, System.pause_sound sound live restore samples fun saved => ?_⟩
      obtain ⟨count, rfl⟩ := Option.isSome_iff_exists.mp saved
      exact condition
  | ends => exact ⟨next, sound.file, sound.newest, trivial, sound.bare, sound.times⟩

/-! ## Runs -/

theorem initial_sound (vocabulary : Bool) : (System.initial vocabulary).Sound 0 where
  file := .nil _ _
  newest := ⟨rfl, fun _ => rfl⟩
  process := trivial
  bare _ := ⟨rfl, rfl⟩
  times base snapshot found := by cases found

/-- A trainer was constructed that holds the checkpoint saved last, and every file
of it is still there. -/
def System.ResumedNewest (before after : System) : Prop :=
  ∃ trainer, after.process = .idle trainer ∧
    Resumes before.newest before.directory (after.directory, trainer)

theorem System.Sound.step {before after : System} {action : Action}
    (sound : ∃ next, before.Sound next)
    (taken : Restrict System.Step SnapshotCondition before action after) :
    ∃ next, after.Sound next := by
  obtain ⟨next, sound⟩ := sound
  exact taken.1.transition.sound taken.2 sound

/-- A pass that completes, and a second one that auto-saves before the process
crashes. -/
def crashedRun : List Action :=
  [.construct, .startPass true, .optimizerStep,
    .complete .keeps true ⟨1, .finite 1, .finite 1⟩ 50,
    .startPass true, .optimizerStep, .autoSaveModel 1 true, .autoSaveHistory, .ends]

/-- Whether a constructor loaded something else, or files of the checkpoint saved
last are gone. -/
def System.missesNewest (before after : System) : Bool :=
  match after.process with
  | .idle trainer =>
    trainer.loadedCheckpointPath != before.newest ||
      before.newest.any fun base =>
        after.directory.models base != before.directory.models base
  | _ => true

theorem System.not_resumedNewest {before after : System}
    (misses : before.missesNewest after = true) : ¬ before.ResumedNewest after := by
  rintro ⟨trainer, process, resumes⟩
  have loaded : trainer.loadedCheckpointPath = before.newest := resumes.loaded
  simp only [System.missesNewest, process, loaded, bne_self_eq_false, Bool.false_or] at misses
  obtain ⟨base, newest, differs⟩ := (Option.any_eq_true _ _).mp misses
  obtain ⟨snapshot, found, -, kept, -⟩ := resumes.kept base newest
  have same : after.directory.models base = some snapshot := kept
  simp [found, same] at differs

/-- A pass that diverges. -/
def divergedRun : List Action :=
  [.construct, .startPass true, .optimizerStep,
    .complete .keeps true ⟨1, .notFinite, .notFinite⟩ 50, .ends]

/-- A pass after which no session is to be kept. -/
def noneKeptRun : List Action :=
  [.construct, .startPass true, .optimizerStep,
    .complete .keeps true ⟨1, .finite 1, .finite 1⟩ 0, .ends]

/-- A pass whose auto-save is not recorded yet when the process crashes. -/
def unrecordedRun : List Action :=
  [.construct, .startPass true, .optimizerStep, .autoSaveModel 1 true, .ends]

/-- Two passes of one process, both paused. -/
def pausedTwiceRun : List Action :=
  [.construct, .startPass true, .optimizerStep, .pause .keeps (some 1),
    .startPass true, .optimizerStep, .pause .keeps (some 1), .ends]

/-- The next constructor after the run does not resume from the checkpoint saved
last, or deletes it. -/
def EndsMissing (actions : List Action) : Prop :=
  ∃ before after, Run System.Step (System.initial true) actions before ∧
    System.Step before .construct after ∧ ¬ before.ResumedNewest after

end Adai.Training
