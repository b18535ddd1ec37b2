import Adai.Training.SessionHistory

/-! # What a constructor loads

The invariant of a session directory (`System.Sound`) ties the checkpoint saved
last to the history and to the ids counted from it. Under it a constructor loads
that checkpoint and keeps its files: nothing saved yet
(`constructTrainer_of_nothing`), the checkpoint of a completed pass
(`constructTrainer_of_completed`), or the newest snapshot of an interrupted one
(`constructTrainer_of_interrupted`).
-/

namespace Adai.Training

open TransitionSystem

/-! ## The condition -/

/-- The history that a new process reads. -/
def Directory.entries (directory : Directory) : List TrainingSession :=
  directory.readSessionHistory.getD []

/-- The history ends with the entry of an interrupted session. -/
def EndsInterrupted (history : List TrainingSession) : Prop :=
  ∃ last id, history.getLast? = some last ∧ last.checkpointPath = some (.autoSave id)

/-- Losses that a completed pass can be resumed with. -/
def Results.Usable (results : Results) : Prop :=
  results.finalLoss.isFinite = true ∧
    (results.finalValidationLoss = kNoValidationLoss ∨
      ∃ value, results.finalValidationLoss = .finite value ∧ 0 < value)

/-- Of the entries in memory, only the current session's may have an auto-save. -/
def Trainer.OnlyOwnAutoSave (trainer : Trainer) : Prop :=
  ∀ session ∈ trainer.sessionHistory.dropLast,
    ∀ id, session.checkpointPath ≠ some (.autoSave id)

/-- The condition on a step. -/
def SnapshotCondition (system : System) (action : Action) : Prop :=
  match system.process, action with
  | .gone, .construct =>
    ∀ base, system.newest = some base →
      (∃ id, base = .checkpoint id) ∨ EndsInterrupted system.directory.entries
  | .training trainer _, .autoSaveHistory => trainer.OnlyOwnAutoSave
  | .training trainer _, .pause _ (some _) => trainer.OnlyOwnAutoSave
  | .training _ _, .complete _ _ results maxSessionsToKeep =>
    results.Usable ∧ 1 ≤ maxSessionsToKeep
  | _, _ => True

/-! ## The invariant -/

/-- The history ends with a completed session, the latest one. -/
def CompletedTail (id : Nat) (history : List TrainingSession) : Prop :=
  ∃ front last, history = front ++ [last] ∧ last.Completed ∧ last.sessionId = id ∧
    ∀ session ∈ front, session.sessionId ≤ id

/-- The history ends with an interrupted session, after completed ones. -/
def InterruptedTail (id : Nat) (history : List TrainingSession) : Prop :=
  ∃ front last, history = front ++ [last] ∧ last.checkpointPath = some (.autoSave id) ∧
    last.sessionId = id ∧ ∀ session ∈ front, session.Completed

/-- A snapshot is the newest of its session. -/
def Directory.NewestOf (directory : Directory) (id : Nat) (base : Base) : Prop :=
  ∃ snapshot, directory.models base = some snapshot ∧
    ∀ other, other = .autoSave id ∨ other = .best id → other ≠ base →
      ∀ older, directory.models other = some older → older.time < snapshot.time

/-- What the history says of the checkpoint saved last: a completed one is its
last entry; a snapshot is the newest of the session at the next id, which is the
last entry once an auto-save of it has been recorded. -/
def NewestInv (directory : Directory) (next : Nat) (newest : Option Base) : Prop :=
  match newest with
  | none => directory.entries = [] ∧ ∀ base, directory.models base = none
  | some (.checkpoint id) => CompletedTail id directory.entries ∧ id < next
  | some base =>
    base.id = next ∧ directory.NewestOf next base ∧
      (InterruptedTail next directory.entries ∧ (directory.models (.autoSave next)).isSome ∨
        ¬ EndsInterrupted directory.entries)

/-- The trainer goes on at the next id. -/
structure Trainer.At (directory : Directory) (next : Nat) (trainer : Trainer) : Prop where
  id : trainer.currentSessionId = next
  history : HistoryInv directory next trainer.sessionHistory
  pending : trainer.pendingVocabBuild = true →
    trainer.sessionHistory = [] ∧ trainer.currentSessionId = 0 ∧ directory.history = none
  built : trainer.pendingVocabBuild = false → directory.vocabulary = true

/-- A pass under way has the last entry. -/
def Trainer.HasEntry (next : Nat) (trainer : Trainer) : Prop :=
  ∃ front own, trainer.sessionHistory = front ++ [own] ∧ own.Unfinished ∧
    own.sessionId = next

def Process.At (directory : Directory) (next : Nat) (newest : Option Base) : Process → Prop
  | .gone => True
  | .idle trainer => trainer.At directory next
  | .training trainer pass =>
    trainer.At directory next ∧ trainer.pendingVocabBuild = false ∧ trainer.HasEntry next ∧
      (pass.awaitingHistory.isSome → newest = some (.autoSave next))

/-- The write times of a directory lie before a time. -/
def Directory.WrittenBefore (directory : Directory) (time : Nat) : Prop :=
  ∀ base snapshot, directory.models base = some snapshot → snapshot.time < time

/-- The invariant of the system. -/
structure System.Sound (system : System) (next : Nat) : Prop where
  file : HistoryInv system.directory next system.directory.entries
  newest : NewestInv system.directory next system.newest
  process : system.process.At system.directory next system.newest
  bare : system.directory.vocabulary = false →
    system.newest = none ∧ system.directory.history = none
  times : system.directory.WrittenBefore system.clock

/-! ## Histories on file -/

theorem entries_saveSessionHistory (directory : Directory) (history : List TrainingSession) :
    (directory.saveSessionHistory history).entries = history.filter (·.reads) := rfl

theorem CompletedTail.not_endsInterrupted {id : Nat} {history : List TrainingSession}
    (tail : CompletedTail id history) : ¬ EndsInterrupted history := by
  obtain ⟨front, last, rfl, completed, -, -⟩ := tail
  rintro ⟨other, auto, found, path⟩
  rw [List.getLast?_concat] at found
  obtain rfl := Option.some.inj found
  rw [completed.path] at path
  cases path

theorem not_endsInterrupted_nil : ¬ EndsInterrupted [] := by
  rintro ⟨last, id, found, -⟩
  cases found

/-! ## Cleaning up -/

theorem cleanupDeadSessions_trainer (directory : Directory) (trainer : Trainer) :
    (cleanupDeadSessions directory trainer).2 =
      { trainer with
        sessionHistory :=
          ((directory.removeWhere (directory.isDead trainer)).dropBroken
            trainer.sessionHistory).2 } := rfl

/-- A checkpoint that the history names is not dead. -/
theorem isDead_checkpoint {directory : Directory} {trainer : Trainer}
    {session : TrainingSession} (member : session ∈ trainer.sessionHistory)
    (path : session.checkpointPath = some (.checkpoint session.sessionId))
    (present : directory.Present session) :
    directory.isDead trainer (.checkpoint session.sessionId) = false := by
  unfold Directory.isDead
  have some : (directory.models (.checkpoint session.sessionId)).isNone = false := by
    cases found : directory.models (.checkpoint session.sessionId) with
    | none => simp [Directory.Present, found] at present
    | some snapshot => rfl
  rw [some]
  have known : (trainer.sessionHistory.any fun other =>
      other.checkpointPath == Option.some (Base.checkpoint session.sessionId)) = true :=
    List.any_eq_true.mpr ⟨session, member, by simp [path]⟩
  simp [known]

theorem removeWhere_of_not_dead {directory : Directory} {dead : Base → Bool} {base : Base}
    (alive : dead base = false) :
    (directory.removeWhere dead).models base = directory.models base ∧
      (directory.removeWhere dead).states base = directory.states base := by
  simp [Directory.removeWhere, alive]

/-- The history is one of the cleaned directory too. -/
theorem HistoryInv.removeDead {directory : Directory} {next : Nat} {trainer : Trainer}
    (inv : HistoryInv directory next trainer.sessionHistory) :
    HistoryInv (directory.removeWhere (directory.isDead trainer)) next
      trainer.sessionHistory :=
  inv.sublist (.refl _) fun session member completed present => by
    rw [Directory.Present,
      (removeWhere_of_not_dead (isDead_checkpoint member completed.path present)).1]
    exact present

/-- What cleaning up keeps. -/
structure Cleaned (directory : Directory) (trainer : Trainer) (next : Nat)
    (after : Directory × Trainer) : Prop where
  history : HistoryInv after.1 next after.2.sessionHistory
  members : ∀ session, session ∈ after.2.sessionHistory ↔
    session ∈ trainer.sessionHistory ∧ session.Completed
  sublist : after.2.sessionHistory.Sublist trainer.sessionHistory
  files : ∀ base, directory.isDead trainer base = false →
    (∀ session ∈ trainer.sessionHistory, session.Unfinished →
      session.checkpointPath ≠ some base) →
    after.1.models base = directory.models base ∧ after.1.states base = directory.states base
  saved : after.1.history =
    if after.2.sessionHistory.length < trainer.sessionHistory.length then
      some after.2.sessionHistory
    else directory.history
  vocabulary : after.1.vocabulary = directory.vocabulary

theorem dropBroken_rest (history : List TrainingSession) : ∀ directory : Directory,
    (directory.dropBroken history).1.history = directory.history ∧
      (directory.dropBroken history).1.vocabulary = directory.vocabulary := by
  induction history with
  | nil => exact fun _ => ⟨rfl, rfl⟩
  | cons session rest ih =>
      intro directory
      unfold Directory.dropBroken
      split
      · exact ih directory
      · exact ih (directory.removeModelFiles session.checkpointPath)

/-- Saving the history changes no checkpoint. -/
theorem cleanupDeadSessions_files (directory : Directory) (trainer : Trainer) (base : Base) :
    (cleanupDeadSessions directory trainer).1.models base =
        ((directory.removeWhere (directory.isDead trainer)).dropBroken
          trainer.sessionHistory).1.models base ∧
      (cleanupDeadSessions directory trainer).1.states base =
        ((directory.removeWhere (directory.isDead trainer)).dropBroken
          trainer.sessionHistory).1.states base := by
  unfold cleanupDeadSessions
  dsimp only
  split <;> exact ⟨rfl, rfl⟩

/-- The history is saved again if a session was dropped. -/
theorem cleanupDeadSessions_history (directory : Directory) (trainer : Trainer) :
    (cleanupDeadSessions directory trainer).1.history =
      if (cleanupDeadSessions directory trainer).2.sessionHistory.length <
          trainer.sessionHistory.length then
        some (cleanupDeadSessions directory trainer).2.sessionHistory
      else directory.history := by
  have same := (dropBroken_rest trainer.sessionHistory
    (directory.removeWhere (directory.isDead trainer))).1
  rw [cleanupDeadSessions_trainer]
  unfold cleanupDeadSessions
  dsimp only
  split
  · rfl
  · exact same

theorem cleanupDeadSessions_vocabulary (directory : Directory) (trainer : Trainer) :
    (cleanupDeadSessions directory trainer).1.vocabulary = directory.vocabulary := by
  have same := (dropBroken_rest trainer.sessionHistory
    (directory.removeWhere (directory.isDead trainer))).2
  unfold cleanupDeadSessions
  dsimp only
  split <;> exact same

theorem cleanupDeadSessions_cleaned {directory : Directory} {trainer : Trainer} {next : Nat}
    (inv : HistoryInv directory next trainer.sessionHistory) :
    Cleaned directory trainer next (cleanupDeadSessions directory trainer) := by
  obtain ⟨members, sublist, files⟩ := dropBroken_spec trainer.sessionHistory
    (directory.removeWhere (directory.isDead trainer)) inv.removeDead
  have models := fun base => (cleanupDeadSessions_files directory trainer base).1
  have states := fun base => (cleanupDeadSessions_files directory trainer base).2
  refine ⟨?_, members, sublist, ?_, cleanupDeadSessions_history directory trainer,
    cleanupDeadSessions_vocabulary directory trainer⟩
  · refine inv.removeDead.sublist sublist fun session member completed present => ?_
    rw [Directory.Present, models, (files _ fun other _ unfinished => ?_).1]
    · exact present
    · rcases unfinished.path with none | ⟨id, auto⟩
      · simp [none]
      · simp [auto]
  · intro base alive away
    obtain ⟨keptModels, keptStates⟩ := removeWhere_of_not_dead alive
    obtain ⟨sameModels, sameStates⟩ := files base away
    exact ⟨(models base).trans (sameModels.trans keptModels),
      (states base).trans (sameStates.trans keptStates)⟩

/-- A trainer whose sessions all completed keeps them. -/
theorem cleanupDeadSessions_of_completed {directory : Directory} {trainer : Trainer}
    {next : Nat} (inv : HistoryInv directory next trainer.sessionHistory)
    (completed : ∀ session ∈ trainer.sessionHistory, session.Completed) :
    (cleanupDeadSessions directory trainer).2 = trainer := by
  rw [cleanupDeadSessions_trainer, dropBroken_of_completed]
  intro session member
  refine ⟨completed session member, ?_⟩
  rcases inv.removeDead.entries session member with ⟨-, present, -⟩ | ⟨unfinished, -⟩
  · exact present
  · exact absurd (completed session member) unfinished.not_completed

/-- Of the sessions that a reader accepts, an unfinished one has an auto-save. -/
theorem HistoryInv.filter {directory : Directory} {next : Nat} {history : List TrainingSession}
    (inv : HistoryInv directory next history) :
    HistoryInv directory next (history.filter (·.reads)) :=
  inv.sublist List.filter_sublist fun _ _ _ present => present

theorem filter_reads_of_completed {history : List TrainingSession}
    (completed : ∀ session ∈ history, session.Completed) :
    history.filter (·.reads) = history :=
  List.filter_eq_self.mpr fun session member => (completed session member).reads

/-- The history that cleaning up leaves in memory is the one it leaves on file,
if that held the same sessions before. -/
theorem Cleaned.entries {directory : Directory} {trainer : Trainer} {next : Nat}
    {after : Directory × Trainer} (cleaned : Cleaned directory trainer next after)
    (loaded : trainer.sessionHistory = directory.entries) :
    after.1.entries = after.2.sessionHistory := by
  unfold Directory.entries Directory.readSessionHistory
  rw [cleaned.saved]
  split
  · exact filter_reads_of_completed fun session member => ((cleaned.members session).mp member).2
  · rename_i whole
    rw [cleaned.sublist.eq_of_length_le (Nat.le_of_not_lt whole), loaded]
    rfl

theorem CompletedTail.of_sublist {directory : Directory} {next id : Nat}
    {history kept : List TrainingSession} (inv : HistoryInv directory next history)
    (tail : CompletedTail id history) (sub : kept.Sublist history)
    (members : ∀ session, session ∈ kept ↔ session ∈ history ∧ session.Completed) :
    CompletedTail id kept := by
  obtain ⟨front, last, rfl, completed, same, ids⟩ := tail
  obtain ⟨front', back, rfl, frontSub, backSub⟩ := List.sublist_append_iff.mp sub
  have last_mem : last ∈ front' ++ back := (members last).mpr ⟨by simp, completed⟩
  have last_not_mem : last ∉ front' := by
    intro member
    have before := (List.pairwise_append.mp inv.order).2.2 last (frontSub.subset member) last
      (List.mem_singleton_self last) completed completed
    exact Nat.lt_irrefl _ before
  have back_eq : back = [last] := by
    refine backSub.eq_of_length_le ?_
    have present := (List.mem_append.mp last_mem).resolve_left last_not_mem
    exact List.length_pos_of_mem present
  exact ⟨front', last, by rw [back_eq], completed, same,
    fun session member => ids session (frontSub.subset member)⟩

/-! ## What a constructor loads -/

/-- The id after those of a history. -/
def nextId (history : List TrainingSession) : Nat :=
  history.foldl
    (fun current session =>
      if current ≤ session.sessionId then session.sessionId + 1 else current) 0

theorem loadSessionHistory_fresh (directory : Directory) (weights : Nat) :
    (Trainer.fresh weights false).loadSessionHistory directory =
      { Trainer.fresh weights false with
        sessionHistory := directory.entries, currentSessionId := nextId directory.entries } := by
  unfold Trainer.loadSessionHistory Directory.entries
  cases directory.readSessionHistory <;> rfl

theorem Directory.newestOf_of_newestOf {directory : Directory} {id : Nat} {base : Base}
    (newest : directory.NewestOf id base) (own : base = .autoSave id ∨ base = .best id) :
    directory.newestOf (.autoSave id) (.best id) = some base := by
  obtain ⟨snapshot, found, others⟩ := newest
  unfold Directory.newestOf
  rcases own with rfl | rfl
  · rw [found]
    cases best : directory.models (.best id) with
    | none => rfl
    | some older =>
        have before := others (.best id) (.inr rfl) (by simp) older best
        exact if_neg (Nat.lt_asymm before)
  · rw [found]
    cases auto : directory.models (.autoSave id) with
    | none => rfl
    | some older => exact if_pos (others (.autoSave id) (.inl rfl) (by simp) older auto)

theorem takeInterruptedSession_of_not {directory : Directory} {trainer : Trainer}
    (tail : ¬ EndsInterrupted trainer.sessionHistory) :
    trainer.takeInterruptedSession directory = (trainer, none) := by
  unfold Trainer.takeInterruptedSession
  cases found : trainer.sessionHistory.getLast? with
  | none => rfl
  | some last =>
      dsimp only
      split
      · rename_i id path
        exact absurd ⟨last, id, found, path⟩ tail
      · rfl

theorem takeInterruptedSession_of_newest {directory : Directory} {trainer : Trainer}
    {front : List TrainingSession} {last : TrainingSession} {id : Nat} {base : Base}
    (history : trainer.sessionHistory = front ++ [last])
    (path : last.checkpointPath = some (.autoSave id)) (same : last.sessionId = id)
    (newest : directory.NewestOf id base) (own : base = .autoSave id ∨ base = .best id) :
    trainer.takeInterruptedSession directory =
      ({ trainer with currentSessionId := id, sessionHistory := front }, some base) := by
  unfold Trainer.takeInterruptedSession
  rw [history, List.getLast?_concat, List.dropLast_concat]
  simp only [path, same, Directory.newestOf_of_newestOf newest own]

theorem selectResumeCheckpoint_of_completed {directory : Directory}
    {front : List TrainingSession} {last : TrainingSession} (completed : last.Completed)
    (present : directory.Present last) :
    directory.selectResumeCheckpoint (front ++ [last]) =
      some (.checkpoint last.sessionId) := by
  unfold Directory.selectResumeCheckpoint
  rw [List.reverse_append, List.reverse_singleton, List.singleton_append,
    List.find?_cons_of_pos (completed.sane present)]
  exact completed.path

theorem loadModel_of_models {directory : Directory} {base : Base} {snapshot : Snapshot}
    (found : directory.models base = some snapshot) (trainer : Trainer) :
    trainer.loadModel directory (some base) =
      { trainer with model := snapshot.weights, loadedCheckpointPath := some base } := by
  simp [Trainer.loadModel, found]

/-- The checkpoint a constructor loads, with what cleaning up leaves of it. -/
structure Resumes (newest : Option Base) (directory : Directory)
    (built : Directory × Trainer) : Prop where
  loaded : built.2.loadedCheckpointPath = newest
  kept : ∀ base, newest = some base → ∃ snapshot,
    directory.models base = some snapshot ∧ built.2.model = snapshot.weights ∧
      built.1.models base = some snapshot ∧ built.1.states base = directory.states base

/-- What the next steps need of a constructed trainer. -/
structure Constructed (newest : Option Base) (directory : Directory)
    (built : Directory × Trainer) (next : Nat) : Prop where
  resumes : Resumes newest directory built
  file : HistoryInv built.1 next built.1.entries
  newest : NewestInv built.1 next newest
  trainer : built.2.At built.1 next

theorem constructTrainer_of_vocabulary {directory : Directory} (weights : Nat)
    (vocabulary : directory.vocabulary = true) :
    constructTrainer directory weights = cleanupDeadSessions directory
      ({ Trainer.fresh weights false with
          sessionHistory := directory.entries,
          currentSessionId := nextId directory.entries }.initFromSessionHistory directory) := by
  rw [constructTrainer, if_pos vocabulary, loadSessionHistory_fresh]

theorem constructTrainer_without_vocabulary {directory : Directory} (weights : Nat)
    (vocabulary : directory.vocabulary = false) :
    constructTrainer directory weights = (directory, .fresh weights true) := by
  simp [constructTrainer, vocabulary]

/-- With nothing saved yet, nothing is loaded. -/
theorem constructTrainer_of_nothing {directory : Directory} (weights : Nat)
    (vocabulary : directory.vocabulary = true) (entries : directory.entries = [])
    (models : ∀ base, directory.models base = none) :
    Constructed none directory (constructTrainer directory weights) 0 := by
  have built : constructTrainer directory weights =
      cleanupDeadSessions directory (.fresh weights false) := by
    rw [constructTrainer_of_vocabulary weights vocabulary, entries]
    rfl
  have nothing : HistoryInv directory 0 (Trainer.fresh weights false).sessionHistory := .nil _ _
  have cleaned := cleanupDeadSessions_cleaned nothing
  rw [built]
  have noEntries : (cleanupDeadSessions directory (.fresh weights false)).1.entries = [] := by
    rw [cleaned.entries entries.symm]
    exact List.sublist_nil.mp cleaned.sublist
  refine ⟨⟨rfl, fun base impossible => by cases impossible⟩, ?_, ⟨noEntries, fun base => ?_⟩, ?_⟩
  · rw [noEntries]
    exact .nil _ _
  · rcases cleanupDeadSessions_within directory (.fresh weights false) base with
      ⟨same, -⟩ | ⟨gone, -⟩
    · exact same.trans (models base)
    · exact gone
  · exact ⟨rfl, cleaned.history, fun impossible => (by cases impossible),
      fun _ => cleaned.vocabulary.trans vocabulary⟩

/-- After a completed pass, its checkpoint is loaded. -/
theorem constructTrainer_of_completed {directory : Directory} (weights : Nat) {next id : Nat}
    (vocabulary : directory.vocabulary = true) (file : HistoryInv directory next directory.entries)
    (tail : CompletedTail id directory.entries) :
    Constructed (some (.checkpoint id)) directory (constructTrainer directory weights)
      (id + 1) := by
  obtain ⟨front, last, history, completed, same, ids⟩ := tail
  have last_mem : last ∈ directory.entries := history ▸ List.mem_append_right _ (by simp)
  have present : directory.Present last := by
    rcases file.entries last last_mem with ⟨-, present, -⟩ | ⟨unfinished, -⟩
    · exact present
    · exact absurd completed unfinished.not_completed
  obtain ⟨snapshot, found⟩ := Option.isSome_iff_exists.mp present
  rw [same] at found
  have inv : HistoryInv directory (id + 1) directory.entries := by
    refine ⟨fun session member => ?_, file.order⟩
    have before : session.sessionId ≤ id := by
      rw [history] at member
      rcases List.mem_append.mp member with early | late
      · exact ids session early
      · exact (List.mem_singleton.mp late ▸ same).le
    rcases file.entries session member with ⟨done, there, -⟩ | ⟨unfinished, -⟩
    · exact .inl ⟨done, there, Nat.lt_succ_of_le before⟩
    · exact .inr ⟨unfinished, Nat.le_succ_of_le before⟩
  let trainer : Trainer :=
    { Trainer.fresh snapshot.weights false with
      sessionHistory := directory.entries
      currentSessionId := id + 1
      loadedCheckpointPath := some (.checkpoint id) }
  have built : constructTrainer directory weights = cleanupDeadSessions directory trainer := by
    rw [constructTrainer_of_vocabulary weights vocabulary, Trainer.initFromSessionHistory,
      takeInterruptedSession_of_not]
    · have number : nextId directory.entries = id + 1 := by
        rw [history, ← same]
        exact nextId_of_last fun session member => (ids session member).trans same.ge
      have chosen : directory.selectResumeCheckpoint directory.entries =
          some (.checkpoint id) := by
        rw [history, ← same]
        exact selectResumeCheckpoint_of_completed completed present
      simp only [Option.none_or, chosen, loadModel_of_models found, number]
      rfl
    · exact CompletedTail.not_endsInterrupted ⟨front, last, history, completed, same, ids⟩
  have loaded : HistoryInv directory (id + 1) trainer.sessionHistory := inv
  have cleaned := cleanupDeadSessions_cleaned loaded
  rw [built]
  have entries := cleaned.entries rfl
  have alive : directory.isDead trainer (.checkpoint id) = false := by
    rw [← same]
    exact isDead_checkpoint last_mem completed.path present
  obtain ⟨models, states⟩ := cleaned.files (.checkpoint id) alive
    fun session _ unfinished path => by
      rcases unfinished.path with none | ⟨auto, autoPath⟩
      · rw [none] at path
        cases path
      · rw [autoPath] at path
        cases path
  refine ⟨⟨rfl, fun base own => ?_⟩, ?_, ⟨?_, Nat.lt_succ_self id⟩, ?_⟩
  · obtain rfl := Option.some.inj own
    exact ⟨snapshot, found, rfl, models.trans found, states⟩
  · rw [entries]
    exact cleaned.history
  · rw [entries]
    exact CompletedTail.of_sublist inv ⟨front, last, history, completed, same, ids⟩
      cleaned.sublist cleaned.members
  · exact ⟨rfl, cleaned.history, fun impossible => (by cases impossible),
      fun _ => cleaned.vocabulary.trans vocabulary⟩

/-- A snapshot of the session at an id. -/
def Base.SnapshotOf (id : Nat) (base : Base) : Prop :=
  base = .autoSave id ∨ base = .best id

/-- What `NewestInv` says of a snapshot. -/
structure SnapshotInv (directory : Directory) (next : Nat) (base : Base) : Prop where
  newest : directory.NewestOf next base
  history : InterruptedTail next directory.entries ∧
      (directory.models (.autoSave next)).isSome ∨
    ¬ EndsInterrupted directory.entries

theorem newestInv_snapshot {directory : Directory} {next : Nat} {base : Base}
    (own : base.SnapshotOf next) :
    NewestInv directory next (some base) ↔ SnapshotInv directory next base := by
  rcases own with rfl | rfl
  all_goals
    constructor
    · rintro ⟨-, newest, history⟩
      exact ⟨newest, history⟩
    · rintro ⟨newest, history⟩
      exact ⟨rfl, newest, history⟩

/-- The newest of a session stays so in a smaller directory that keeps it. -/
theorem Directory.NewestOf.within {smaller larger : Directory} {id : Nat} {base : Base}
    (newest : larger.NewestOf id base) (within : smaller.Within larger)
    (kept : smaller.models base = larger.models base) : smaller.NewestOf id base := by
  obtain ⟨snapshot, found, others⟩ := newest
  refine ⟨snapshot, kept.trans found, fun other own ne older there => ?_⟩
  rcases within other with ⟨same, -⟩ | ⟨gone, -⟩
  · exact others other own ne older (same ▸ there)
  · rw [gone] at there
    cases there

/-- A snapshot of the current session is not dead. -/
theorem isDead_snapshot {directory : Directory} {trainer : Trainer} {base : Base}
    (own : base.SnapshotOf trainer.currentSessionId)
    (present : (directory.models base).isSome) : directory.isDead trainer base = false := by
  have some : (directory.models base).isNone = false := by
    simpa using present
  unfold Directory.isDead
  rw [some]
  rcases own with rfl | rfl
  all_goals simp

/-- After an interrupted pass, the newest snapshot of it is loaded. -/
theorem constructTrainer_of_interrupted {directory : Directory} (weights : Nat) {next : Nat}
    {base : Base} (vocabulary : directory.vocabulary = true)
    (file : HistoryInv directory next directory.entries)
    (tail : InterruptedTail next directory.entries)
    (auto : (directory.models (.autoSave next)).isSome) (own : base.SnapshotOf next)
    (newest : directory.NewestOf next base) :
    Constructed (some base) directory (constructTrainer directory weights) next := by
  obtain ⟨front, last, history, path, same, completed⟩ := tail
  obtain ⟨snapshot, found, others⟩ := newest
  have inv : HistoryInv directory next front :=
    file.sublist (history ▸ List.sublist_append_left _ _) fun _ _ _ present => present
  let trainer : Trainer :=
    { Trainer.fresh snapshot.weights false with
      sessionHistory := front
      currentSessionId := next
      loadedCheckpointPath := some base
      interruptedResumeCheckpoint := some base }
  have built : constructTrainer directory weights = cleanupDeadSessions directory trainer := by
    rw [constructTrainer_of_vocabulary weights vocabulary, Trainer.initFromSessionHistory,
      takeInterruptedSession_of_newest history path same ⟨snapshot, found, others⟩ own]
    simp only [Option.some_or, loadModel_of_models found]
    rfl
  have loaded : HistoryInv directory next trainer.sessionHistory := inv
  have cleaned := cleanupDeadSessions_cleaned loaded
  have kept := cleanupDeadSessions_of_completed loaded completed
  have keptInv := cleaned.history
  rw [kept] at keptInv
  rw [built]
  have files : ∀ other : Base, other.SnapshotOf next → (directory.models other).isSome →
      (cleanupDeadSessions directory trainer).1.models other = directory.models other ∧
        (cleanupDeadSessions directory trainer).1.states other = directory.states other :=
    fun other ofNext present =>
      cleaned.files other (isDead_snapshot ofNext present) fun session member unfinished =>
        absurd (completed session member) unfinished.not_completed
  have baseFiles := files base own (by rw [found]; rfl)
  have sameHistory : (cleanupDeadSessions directory trainer).1.history = directory.history := by
    rw [cleaned.saved, kept, if_neg (Nat.lt_irrefl _)]
  have entries : (cleanupDeadSessions directory trainer).1.entries = directory.entries := by
    unfold Directory.entries Directory.readSessionHistory
    rw [sameHistory]
  refine ⟨⟨?_, fun other ofBase => ?_⟩, ?_, (newestInv_snapshot own).mpr ⟨?_, .inl ⟨?_, ?_⟩⟩, ?_⟩
  · rw [kept]
  · obtain rfl := Option.some.inj ofBase
    exact ⟨snapshot, found, by rw [kept]; rfl, baseFiles.1.trans found, baseFiles.2⟩
  · rw [entries]
    refine file.sublist (.refl _) fun session member done _ => ?_
    have early : session ∈ front := by
      rw [history] at member
      refine (List.mem_append.mp member).resolve_right fun late => ?_
      obtain rfl := List.mem_singleton.mp late
      rw [done.path] at path
      cases path
    rcases cleaned.history.entries session ((cleaned.members session).mpr ⟨early, done⟩) with
      ⟨-, present, -⟩ | ⟨unfinished, -⟩
    · exact present
    · exact absurd done unfinished.not_completed
  · exact Directory.NewestOf.within ⟨snapshot, found, others⟩
      (cleanupDeadSessions_within directory trainer) baseFiles.1
  · rw [entries]
    exact ⟨front, last, history, path, same, completed⟩
  · rw [(files (.autoSave next) (.inl rfl) auto).1]
    exact auto
  · rw [kept]
    exact ⟨rfl, keptInv, fun impossible => (by cases impossible),
      fun _ => cleaned.vocabulary.trans vocabulary⟩

end Adai.Training
