import Adai.ModelNames.RecordSteps

/-! # Superseded training runs

An accepted transition to training gives its trainer a run id (`Starts`). Where each
later start asks for a new run, run ids are not given twice, and what the trainer of
an earlier start sends is refused (`superseded_run_refused`), provided a retired model
is not revived under an earlier run's id and no trained model is deleted
(`RunsRenewed`). A start that continues a run shares the run's id with the start
before it (`superseded_run_refused_fails`).
-/

namespace Adai.ModelNames

open Tables TransitionSystem

/-! ## Run ids -/

theorem ofDigitChars_zeroPad2 (n : Nat) : Nat.ofDigitChars 10 (zeroPad2 n).toList 0 = n := by
  have digits : (toString n).toList = Nat.toDigits 10 n := by
    rw [Nat.toString_eq_repr, Nat.toList_repr]
  rw [zeroPad2]
  split
  · rw [String.toList_append, digits, Nat.ofDigitChars_append]
    exact Nat.ofDigitChars_ten_toDigits
  · rw [digits, Nat.ofDigitChars_ten_toDigits]

/-- Different runs have different names. -/
theorem runName_injective {m n : Nat} (same : runName m = runName n) : m = n := by
  have padded : zeroPad2 m = zeroPad2 n := (String.append_right_inj _).mp same
  rw [← ofDigitChars_zeroPad2 m, padded, ofDigitChars_zeroPad2]

/-! ## Starts and what their trainers send -/

/-- An accepted transition to training, and the run id that the reply gives. -/
structure Starts (env : Env) (name : String) (body : TransitionBody) (s : ModelNameService)
    (runId : String) : Prop where
  target : body.state = "training"
  given : ∃ r, (handle env (.stateTransition name body) s).1 = .record r ∧ r.runId = runId

/-- A progress update or candidate transition with the run id of a start. -/
def SentBy (name runId : String) : Call → Prop
  | .progressUpdate name' body => name' = name ∧ body.runId = runId
  | .stateTransition name' body => name' = name ∧ body.state = "candidate" ∧ body.runId = runId
  | _ => False

theorem Starts.cases {env : Env} {name : String} {body : TransitionBody} {s : ModelNameService}
    {runId : String} (starts : Starts env name body s runId) :
    ∃ r, s.models.lookup name = some r ∧ MayStart r ∧
      (handle env (.stateTransition name body) s).2 =
        { s with models := s.models.insert name (startTraining env body r) } ∧
      runId = runName (nextRunNumber r body.newRun) := by
  obtain ⟨r', reply, rfl⟩ := starts.given
  obtain ⟨r, r'', found, changes, same⟩ := handle_stateTransition (s := s) (by rw [reply]; rfl)
  rw [same] at reply ⊢
  cases reply
  cases changes with
  | start target may => exact ⟨r, found, may, rfl, rfl⟩
  | candidate target may => exact absurd (starts.target.symm.trans target) (by decide)
  | retire target may => exact absurd (starts.target.symm.trans target) (by decide)

/-! ## Runs in which each start is a new run -/

/-- What an accepted call must meet: a start of a model that was trained before asks
for a new run; a retired model is not revived under the id of one of its earlier runs;
a model that was trained is not deleted. -/
def RunsRenewed (s : ModelNameService) (label : Env × Call) : Prop :=
  (handle label.1 label.2 s).1.accepted = true →
    match label.2 with
    | .stateTransition name body => ∀ r, s.models.lookup name = some r →
        (body.state = "training" → r.currentRunNumber ≠ 0 → body.newRun = true) ∧
        (body.state = "candidate" → r.state = .retired →
          ∀ k, 0 < k → k < r.currentRunNumber → body.runId ≠ runName k)
    | .delete name => ∀ r, s.models.lookup name = some r → r.currentRunNumber = 0
    | _ => True

/-- At least `n` runs have been started, and the one in training has the latest number. -/
structure ModelRecord.Trained (n : Nat) (r : ModelRecord) : Prop where
  started : n ≤ r.currentRunNumber
  known : r.state ≠ .initializing
  latest : r.state = .training → r.runId = runName r.currentRunNumber

def Trained (name : String) (n : Nat) (s : ModelNameService) : Prop :=
  ∃ r, s.models.lookup name = some r ∧ r.Trained n

theorem le_nextRunNumber (r : ModelRecord) (newRun : Bool) :
    r.currentRunNumber ≤ nextRunNumber r newRun := by
  rw [nextRunNumber]
  split
  · omega
  · split <;> omega

theorem nextRunNumber_pos (r : ModelRecord) (newRun : Bool) : 0 < nextRunNumber r newRun := by
  rw [nextRunNumber]
  split
  · exact Nat.one_pos
  · split <;> omega

theorem ModelRecord.Trained.changes {env : Env} {name : String} {call : Call} {r r' : ModelRecord}
    {n : Nat} (trained : r.Trained n) (changes : Changes env name call r r') : r'.Trained n := by
  obtain ⟨started, known, latest⟩ := trained
  cases changes with
  | start target may => exact ⟨Nat.le_trans started (le_nextRunNumber _ _), nofun, fun _ => rfl⟩
  | candidate target may => exact ⟨started, nofun, nofun⟩
  | retire target may => exact ⟨started, nofun, nofun⟩
  | progress state owner => exact ⟨started, known, latest⟩
  | runGroup => exact ⟨started, known, latest⟩
  | link => exact ⟨started, known, latest⟩
  | promote state => exact ⟨started, nofun, nofun⟩
  | supersede state => exact ⟨started, nofun, nofun⟩

/-- One step. -/
theorem Trained.step {s s' : ModelNameService} {label : Env × Call} {name : String} {n : Nat}
    (positive : 0 < n) (trained : Trained name n s) (taken : Restrict Step RunsRenewed s label s') :
    Trained name n s' := by
  obtain ⟨rfl, renewed⟩ := taken
  obtain ⟨r, found, trained⟩ := trained
  obtain kept | ⟨r', found', changes⟩ | ⟨deleted, accepted, -⟩ := lookup_handle found label.2
  · exact ⟨r, kept, trained⟩
  · exact ⟨r', found', trained.changes changes⟩
  · have condition := renewed accepted
    rw [deleted] at condition
    have untrained := condition r found
    have started := trained.started
    omega

theorem Trained.run {s s' : ModelNameService} {labels : List (Env × Call)} {name : String}
    {n : Nat} (positive : 0 < n) (trained : Trained name n s)
    (run : Run (Restrict Step RunsRenewed) s labels s') : Trained name n s' :=
  run.invariant (Trained name n) (fun _ _ _ before taken => before.step positive taken) trained

/-- After a start the model's latest run is the one that was started. -/
theorem Starts.trained {env : Env} {name : String} {body : TransitionBody} {s : ModelNameService}
    {runId : String} (starts : Starts env name body s runId) :
    ∃ n, 0 < n ∧ runId = runName n ∧ Trained name n (handle env (.stateTransition name body) s).2 := by
  obtain ⟨r, found, may, same, rfl⟩ := starts.cases
  refine ⟨_, nextRunNumber_pos r body.newRun, rfl, startTraining env body r, ?_, le_rfl,
    nofun, fun _ => rfl⟩
  rw [same, AList.lookup_insert]

/-- A start that asks for a new run moves past every run before it. -/
theorem Trained.restart {env : Env} {name : String} {body : TransitionBody} {s : ModelNameService}
    {runId : String} {n : Nat} (positive : 0 < n) (trained : Trained name n s)
    (starts : Starts env name body s runId)
    (renewed : RunsRenewed s (env, .stateTransition name body)) :
    Trained name (n + 1) (handle env (.stateTransition name body) s).2 := by
  obtain ⟨r', found', started, known, latest⟩ := trained
  obtain ⟨r, found, may, same, -⟩ := starts.cases
  obtain rfl := Option.some.inj (found.symm.trans found')
  have accepted : (handle env (.stateTransition name body) s).1.accepted = true := by
    obtain ⟨r'', reply, -⟩ := starts.given
    rw [reply]
    rfl
  have newRun := (renewed accepted r found).1 starts.target (by omega)
  have next : nextRunNumber r body.newRun = r.currentRunNumber + 1 := by
    rw [nextRunNumber, if_neg (by omega), if_pos newRun]
  refine ⟨startTraining env body r, ?_, ?_, nofun, fun _ => rfl⟩
  · rw [same, AList.lookup_insert]
  · change n + 1 ≤ nextRunNumber r body.newRun
    omega

/-- What carries the id of an earlier run is refused. -/
theorem Trained.refuses {env : Env} {name : String} {call : Call} {s : ModelNameService} {n : Nat}
    (positive : 0 < n) (trained : Trained name (n + 1) s) (sent : SentBy name (runName n) call)
    (renewed : RunsRenewed s (env, call)) : (handle env call s).1.accepted = false := by
  obtain ⟨r, found, started, known, latest⟩ := trained
  by_contra accepted
  rw [Bool.not_eq_false] at accepted
  have other : r.state = .training → runName n ≠ r.runId := by
    intro training same
    rw [latest training] at same
    have equal := runName_injective same
    omega
  cases call with
  | progressUpdate name' body =>
      obtain ⟨rfl, owner⟩ := sent
      obtain ⟨r', found', training, -, same, -⟩ := handle_progressUpdate accepted
      obtain rfl := Option.some.inj (found.symm.trans found')
      exact other training (owner.symm.trans same)
  | stateTransition name' body =>
      obtain ⟨rfl, target, owner⟩ := sent
      obtain ⟨r', r'', found', changes, -⟩ := handle_stateTransition accepted
      obtain rfl := Option.some.inj (found.symm.trans found')
      cases changes with
      | start target' may => exact absurd (target.symm.trans target') (by decide)
      | retire target' may => exact absurd (target.symm.trans target') (by decide)
      | candidate target' may =>
          rcases may with ⟨training, -, same⟩ | initializing | retired
          · exact other training (owner.symm.trans same)
          · exact known initializing
          · exact (renewed accepted r found).2 target retired n positive (by omega) owner
  | register body => exact sent
  | updateRunGroup name' runGroup => exact sent
  | linkWorldModel name' body => exact sent
  | delete name' => exact sent
  | promote role name' => exact sent

/-- **A superseded run is refused.** Two starts of one model, from any state on and in
any run whose steps meet the condition: nothing that the trainer of the first one
sends after the second one is accepted. -/
theorem superseded_run_refused {name : String} {env₁ env₂ env : Env} {call : Call}
    {body₁ body₂ : TransitionBody} {s₁ s₂ s₃ : ModelNameService} {runId₁ runId₂ : String}
    {between after : List (Env × Call)}
    (first : Starts env₁ name body₁ s₁ runId₁)
    (running : Run (Restrict Step RunsRenewed)
      (handle env₁ (.stateTransition name body₁) s₁).2 between s₂)
    (second : Starts env₂ name body₂ s₂ runId₂)
    (renewed : RunsRenewed s₂ (env₂, .stateTransition name body₂))
    (later : Run (Restrict Step RunsRenewed)
      (handle env₂ (.stateTransition name body₂) s₂).2 after s₃)
    (sent : SentBy name runId₁ call) (condition : RunsRenewed s₃ (env, call)) :
    (handle env call s₃).1.accepted = false := by
  obtain ⟨n, positive, rfl, trained⟩ := first.trained
  have restarted := (trained.run positive running).restart positive second renewed
  exact (restarted.run (Nat.succ_pos n) later).refuses positive sent condition

def morning : Env := ⟨"2026-11-03T08:00:00Z", "5d1c"⟩

/-- A model that has been registered and started once. -/
def startedOnce : ModelNameService :=
  serve {} [(morning, .register { modelName := "m1" }),
    (morning, .stateTransition "m1" { state := "training" })]

theorem starts_first : Starts morning "m1" { state := "training" }
    (serve {} [(morning, .register { modelName := "m1" })]) "run-01" :=
  ⟨rfl, _, rfl, by decide⟩

theorem starts_second (newRun : Bool) : Starts morning "m1"
    { state := "training", newRun := newRun } startedOnce (if newRun then "run-02" else "run-01") :=
  ⟨rfl, _, rfl, by cases newRun <;> decide⟩

theorem superseded_run_refused_retrain :
    (handle morning (.progressUpdate "m1" { runId := "run-01", epoch := some 3 })
      (handle morning (.stateTransition "m1" { state := "training", newRun := true })
        startedOnce).2).1.accepted = false :=
  superseded_run_refused starts_first (.refl _) (starts_second true)
    (fun _ _ _ => ⟨fun _ _ => rfl, fun target => absurd target (by decide)⟩) (.refl _)
    ⟨rfl, rfl⟩ (fun _ => trivial)

/-- The second start continues the run, and the first trainer's update is accepted. -/
theorem superseded_run_refused_fails :
    Starts morning "m1" { state := "training" }
        (serve {} [(morning, .register { modelName := "m1" })]) "run-01" ∧
      Starts morning "m1" { state := "training" } startedOnce "run-01" ∧
      SentBy "m1" "run-01" (.progressUpdate "m1" { runId := "run-01", epoch := some 3 }) ∧
      (handle morning (.progressUpdate "m1" { runId := "run-01", epoch := some 3 })
        (handle morning (.stateTransition "m1" { state := "training" })
          startedOnce).2).1.accepted = true :=
  ⟨⟨rfl, _, rfl, by decide⟩, ⟨rfl, _, rfl, by decide⟩, ⟨rfl, rfl⟩, by decide⟩

end Adai.ModelNames
