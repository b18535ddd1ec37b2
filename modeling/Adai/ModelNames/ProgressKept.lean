import Adai.ModelNames.RecordSteps

/-! # Training progress

The progress that a run has reported is live in the model's record until the run
ends, and is then in the training history: as an incomplete entry if the run was
superseded, else as the entry of its candidate transition. This holds in every run in
which a retired model with live progress is revived under its own run id or none, and
no progress report is empty (`progress_kept`). Revived under another id, the record
loses its progress (`progress_kept_fails`).

A run is followed together with the progress that was accepted last (`follow`).
-/

namespace Adai.ModelNames

open Tables TransitionSystem

/-- The call reports progress of a run of the model. -/
def reports (name runId : String) : Call → Bool
  | .progressUpdate name' body => name' = name && body.runId = runId
  | _ => false

/-- The service and the progress of the run that was accepted last. -/
def follow (name runId : String) (state : ModelNameService × Progress) (label : Env × Call) :
    ModelNameService × Progress :=
  ((handle label.1 label.2 state.1).2,
    if reports name runId label.2 && (handle label.1 label.2 state.1).1.accepted then
      (((handle label.1 label.2 state.1).2.models.lookup name).map ModelRecord.progress).getD state.2
    else state.2)

def Followed (name runId : String) (state : ModelNameService × Progress) (label : Env × Call)
    (state' : ModelNameService × Progress) : Prop :=
  follow name runId state label = state'

/-- The epoch or the session says that something was reported. -/
def Progress.Live (p : Progress) : Prop := 0 < p.epoch ∨ p.sessionId ≠ ""

/-- What an accepted call must meet: a retired model with live progress is revived under
its own run id or none, and a report leaves live progress. -/
def ProgressArchived (s : ModelNameService) (label : Env × Call) : Prop :=
  (handle label.1 label.2 s).1.accepted = true →
    match label.2 with
    | .stateTransition name body => ∀ r, s.models.lookup name = some r →
        body.state = "candidate" → r.state = .retired → r.progress.Live →
          body.runId = "" ∨ body.runId = r.runId
    | .progressUpdate name body => ∀ r, s.models.lookup name = some r →
        0 < body.epoch.getD r.progress.epoch ∨ body.sessionId ≠ ""
    | _ => True

/-- The model is deleted. -/
def Deletes (name : String) (s : ModelNameService) (label : Env × Call) : Prop :=
  label.2 = .delete name ∧ (handle label.1 label.2 s).1.accepted = true

/-- The entry is that of a superseded run with this progress. -/
structure TrainingHistoryEntry.Records (h : TrainingHistoryEntry) (p : Progress) : Prop where
  incomplete : h.incomplete = true
  session : h.metricsSessionKey = p.sessionId
  epochs : h.epochs = p.epoch
  loss : h.finalLoss = p.loss

/-- The record shows the run's last progress, or an entry after the first `k` records
that progress or is the summary of the run's candidate transition. -/
def ModelRecord.Shows (runId : String) (k : Nat) (last : Progress) (r : ModelRecord) : Prop :=
  (r.runId = runId ∧ r.progress = last) ∨
    ∃ h ∈ r.trainingHistory.drop k, h.runId = runId ∧ (h.Records last ∨ h.incomplete = false)

/-- What is kept along a run: progress is live while the run is in training or retired. -/
structure ModelRecord.Keeps (runId : String) (k : Nat) (last : Progress) (r : ModelRecord) :
    Prop where
  earlier : k ≤ r.trainingHistory.length
  shown : (r.runId = runId ∧ r.progress = last ∧ (r.state = .training ∨ r.state = .retired) ∧
      last.Live) ∨
    ∃ h ∈ r.trainingHistory.drop k, h.runId = runId ∧ (h.Records last ∨ h.incomplete = false)

variable {runId : String} {k : Nat} {last : Progress}

theorem ModelRecord.Keeps.shows {r : ModelRecord} (keeps : r.Keeps runId k last) :
    r.Shows runId k last :=
  keeps.shown.imp_left fun live => ⟨live.1, live.2.1⟩

/-- Entries that are appended leave what is in the history. -/
theorem mem_drop_append {r : ModelRecord} {h : TrainingHistoryEntry}
    {entries : List TrainingHistoryEntry} (earlier : k ≤ r.trainingHistory.length) :
    h ∈ (r.trainingHistory ++ entries).drop k ↔
      h ∈ r.trainingHistory.drop k ∨ h ∈ entries := by
  rw [List.drop_append_of_le_length earlier, List.mem_append]

theorem exists_archivedProgress {r : ModelRecord} (env : Env) (training : r.state = .training)
    (live : r.progress.Live) :
    ∃ h, archivedProgress env r = [h] ∧ h.runId = r.runId ∧ h.Records r.progress :=
  ⟨_, if_pos ⟨training, live⟩, rfl, rfl, rfl, rfl, rfl⟩

/-- A start archives live progress. -/
theorem ModelRecord.Keeps.start {env : Env} {body : TransitionBody} {r : ModelRecord}
    (keeps : r.Keeps runId k last) (may : MayStart r) :
    (startTraining env body r).Keeps runId k last := by
  obtain ⟨earlier, shown⟩ := keeps
  refine ⟨?_, .inr ?_⟩
  · rw [startTraining, List.length_append]
    exact Nat.le_add_right_of_le earlier
  · rcases shown with ⟨run, progress, state, live⟩ | ⟨h, member, entry⟩
    · have training : r.state = .training := by
        rcases state with training | retired
        · exact training
        · rcases may with state | state | state <;> cases retired.symm.trans state
      obtain ⟨h, archived, owner, records⟩ :=
        exists_archivedProgress env training (progress ▸ live)
      refine ⟨h, (mem_drop_append earlier).mpr (.inr ?_), owner.trans run, .inl (progress ▸ records)⟩
      rw [archived]
      exact List.mem_singleton_self h
    · exact ⟨h, (mem_drop_append earlier).mpr (.inl member), entry⟩

/-- A candidate transition appends the run's summary. -/
theorem ModelRecord.Keeps.candidate {env : Env} {body : TransitionBody} {r : ModelRecord}
    (keeps : r.Keeps runId k last) (some_ : runId ≠ "") (may : MayBecomeCandidate body r)
    (revived : r.state = .retired → r.progress.Live → body.runId = "" ∨ body.runId = r.runId) :
    (becomeCandidate env body r).Keeps runId k last := by
  obtain ⟨earlier, shown⟩ := keeps
  refine ⟨?_, .inr ?_⟩
  · rw [becomeCandidate, List.length_append]
    exact Nat.le_add_right_of_le earlier
  · rcases shown with ⟨run, progress, state, live⟩ | ⟨h, member, entry⟩
    · have named : body.runId = "" ∨ body.runId = r.runId := by
        rcases may with ⟨training, -, owner⟩ | initializing | retired
        · exact .inr owner
        · rcases state with state | state <;> cases initializing.symm.trans state
        · exact revived retired (progress ▸ live)
      have own : (candidateEntry env body r).runId = runId := by
        rw [← run, candidateEntry]
        dsimp only
        split
        · rfl
        · rename_i other
          exact named.resolve_left other
      refine ⟨candidateEntry env body r, (mem_drop_append earlier).mpr (.inr ?_), own, .inr rfl⟩
      rw [if_neg (own ▸ some_)]
      exact List.mem_singleton_self _
    · exact ⟨h, (mem_drop_append earlier).mpr (.inl member), entry⟩

/-- Any change of the record but a report of the run. -/
theorem ModelRecord.Keeps.changes {env : Env} {name : String} {call : Call} {r r' : ModelRecord}
    {s : ModelNameService} (keeps : r.Keeps runId k last) (some_ : runId ≠ "")
    (found : s.models.lookup name = some r) (changes : Changes env name call r r')
    (archived : ProgressArchived s (env, call)) (other : reports name runId call = false)
    (accepted : (handle env call s).1.accepted = true) : r'.Keeps runId k last := by
  cases changes with
  | start target may => exact keeps.start may
  | candidate target may => exact keeps.candidate some_ may (archived accepted r found target)
  | retire target may =>
      exact ⟨keeps.earlier, keeps.shown.imp_left fun live => ⟨live.1, live.2.1, .inr rfl, live.2.2.2⟩⟩
  | progress state owner =>
      refine ⟨keeps.earlier, .inr (keeps.shown.resolve_left fun live => ?_)⟩
      simp [reports, owner.2.trans live.1] at other
  | runGroup => exact ⟨keeps.earlier, keeps.shown⟩
  | link => exact ⟨keeps.earlier, keeps.shown⟩
  | promote state =>
      refine ⟨keeps.earlier, .inr (keeps.shown.resolve_left fun live => ?_)⟩
      rcases live.2.2.1 with state' | state' <;> cases state.symm.trans state'
  | supersede state =>
      refine ⟨keeps.earlier, .inr (keeps.shown.resolve_left fun live => ?_)⟩
      rcases live.2.2.1 with state' | state' <;> cases state.symm.trans state'

/-- A report of the run. -/
theorem ModelRecord.Keeps.report {env : Env} {body : ProgressBody} {r : ModelRecord}
    (earlier : k ≤ r.trainingHistory.length) (training : r.state = .training)
    (owner : r.runId = runId) (live : 0 < body.epoch.getD r.progress.epoch ∨ body.sessionId ≠ "") :
    (progressed env body r).Keeps runId k (progressed env body r).progress :=
  ⟨earlier, .inl ⟨owner, rfl, .inl training, live⟩⟩

/-- The model's record keeps what the run has reported. -/
def Kept (name runId : String) (k : Nat) (state : ModelNameService × Progress) : Prop :=
  ∃ r, state.1.models.lookup name = some r ∧ r.Keeps runId k state.2

/-- One step that does not delete the model. -/
theorem Kept.step {name : String} {state state' : ModelNameService × Progress}
    {label : Env × Call} (some_ : runId ≠ "") (kept : Kept name runId k state)
    (taken : Followed name runId state label state') (archived : ProgressArchived state.1 label)
    (registered : ¬ Deletes name state.1 label) : Kept name runId k state' := by
  obtain ⟨s, last⟩ := state
  obtain ⟨env, call⟩ := label
  obtain ⟨r, found, keeps⟩ := kept
  subst taken
  rw [follow]
  dsimp only at found keeps ⊢
  by_cases accepted : (handle env call s).1.accepted = true
  · cases other : reports name runId call with
    | true =>
        cases call with
        | progressUpdate name' body =>
            obtain ⟨rfl, owner⟩ : name' = name ∧ body.runId = runId := by
              simpa [reports] using other
            obtain ⟨r', found', training, -, same, result⟩ := handle_progressUpdate accepted
            obtain rfl := Option.some.inj (found.symm.trans found')
            refine ⟨progressed env body r, ?_, ?_⟩
            · rw [result, AList.lookup_insert]
            · rw [accepted, result, AList.lookup_insert]
              exact ModelRecord.Keeps.report keeps.earlier training (same.symm.trans owner)
                (archived accepted r found)
        | _ => cases other
    | false =>
        rw [Bool.false_and, if_neg Bool.false_ne_true]
        obtain same | ⟨r', found', changes⟩ | ⟨deleted, -, -⟩ := lookup_handle found call
        · exact ⟨r, same, keeps⟩
        · exact ⟨r', found', keeps.changes some_ found changes archived other accepted⟩
        · exact (registered ⟨deleted, accepted⟩).elim
  · rw [Bool.not_eq_true] at accepted
    rw [handle_of_refused accepted, accepted, Bool.and_false, if_neg Bool.false_ne_true]
    exact ⟨r, found, keeps⟩

/-- **Progress is kept.** After an accepted report with a positive epoch, in every run
whose steps meet the condition and until the model is deleted, the record shows the
run's last progress, or an entry made since then holds it or is the run's summary. -/
theorem progress_kept {name : String} {env : Env} {body : ProgressBody} {s s' : ModelNameService}
    {r : ModelRecord} {labels : List (Env × Call)} (found : s.models.lookup name = some r)
    (accepted : (handle env (.progressUpdate name body) s).1.accepted = true)
    (epoch : 0 < body.epoch.getD r.progress.epoch)
    (run : Run (Restrict (Followed name body.runId) fun state label =>
        ProgressArchived state.1 label ∧ ¬ Deletes name state.1 label)
      ((handle env (.progressUpdate name body) s).2, (progressed env body r).progress) labels
      (s', last)) :
    ∃ r', s'.models.lookup name = some r' ∧ r'.Shows body.runId r.trainingHistory.length last := by
  obtain ⟨r₀, found₀, training, some_, same, result⟩ := handle_progressUpdate accepted
  obtain rfl := Option.some.inj (found.symm.trans found₀)
  have start : Kept name body.runId r.trainingHistory.length
      ((handle env (.progressUpdate name body) s).2, (progressed env body r).progress) := by
    refine ⟨progressed env body r, ?_, ?_⟩
    · rw [result, AList.lookup_insert]
    · exact ModelRecord.Keeps.report le_rfl training same.symm (.inl epoch)
  obtain ⟨r', found', keeps⟩ := run.invariant (Kept name body.runId r.trainingHistory.length)
    (fun _ _ _ before taken => before.step some_ taken.1 taken.2.1 taken.2.2) start
  exact ⟨r', found', keeps.shows⟩

def evening : Env := ⟨"2026-11-03T20:00:00Z", "8e0f"⟩

/-- A model in its first run. -/
def inTraining : ModelNameService :=
  serve {} [(evening, .register { modelName := "m1" }),
    (evening, .stateTransition "m1" { state := "training" })]

def fifthEpoch : ProgressBody := { runId := "run-01", sessionId := "session-03", epoch := some 5 }

def firstRun : ModelRecord :=
  startTraining evening { state := "training" } (newRecord evening { modelName := "m1" } .chatbot)

theorem progress_kept_retrain :
    ∃ r, (serve inTraining [(evening, .progressUpdate "m1" fifthEpoch),
        (evening, .stateTransition "m1" { state := "training", newRun := true })]).models.lookup
          "m1" = some r ∧
      r.Shows "run-01" 0 { sessionId := "session-03", epoch := 5, updatedUtc := evening.utcNow } := by
  have found : inTraining.models.lookup "m1" = some firstRun := rfl
  have reported : (handle evening (.progressUpdate "m1" fifthEpoch) inTraining).1.accepted = true := by
    decide
  have run : Run (Restrict (Followed "m1" fifthEpoch.runId) fun state label =>
      ProgressArchived state.1 label ∧ ¬ Deletes "m1" state.1 label)
      ((handle evening (.progressUpdate "m1" fifthEpoch) inTraining).2,
        (progressed evening fifthEpoch firstRun).progress)
      [(evening, .stateTransition "m1" { state := "training", newRun := true })]
      (serve inTraining [(evening, .progressUpdate "m1" fifthEpoch),
          (evening, .stateTransition "m1" { state := "training", newRun := true })],
        (progressed evening fifthEpoch firstRun).progress) :=
    .cons ⟨rfl, fun _ r _ target => absurd target (by decide), fun deletes => nomatch deletes.1⟩
      (.refl _)
  exact progress_kept found reported (by decide) run

/-- Retired and revived under another run id, the model has lost its progress. -/
theorem progress_kept_fails :
    (handle evening (.progressUpdate "m1" fifthEpoch) inTraining).1.accepted = true ∧
      ¬ ∃ r, (serve inTraining [(evening, .progressUpdate "m1" fifthEpoch),
          (evening, .stateTransition "m1" { state := "retired" }),
          (evening, .stateTransition "m1" { state := "candidate", runId := "run-00" })]).models.lookup
            "m1" = some r ∧
        r.Shows "run-01" 0 { sessionId := "session-03", epoch := 5, updatedUtc := evening.utcNow } := by
  refine ⟨by decide, ?_⟩
  rintro ⟨r, found, shows⟩
  cases found
  rcases shows with live | ⟨h, member, owner, -⟩
  · exact absurd live.1 (by decide)
  · cases List.mem_singleton.mp member
    exact absurd owner (by decide)

end Adai.ModelNames
