import Adai.Math.TransitionSystem
import Adai.ModelNames.ModelNameService

/-! # What a call does to one record

For a registered model, a call leaves its record as it is, changes it in one of the
ways of `Changes`, or deletes it (`lookup_handle`). An accepted transition or progress
update changes the record it names (`handle_stateTransition`,
`handle_progressUpdate`).
-/

namespace Adai.ModelNames

open Tables TransitionSystem

/-- The service's steps. -/
def Step (s : ModelNameService) (label : Env × Call) (s' : ModelNameService) : Prop :=
  (handle label.1 label.2 s).2 = s'

theorem run_serve (s : ModelNameService) (calls : List (Env × Call)) :
    Run Step s calls (serve s calls) := by
  induction calls generalizing s with
  | nil => exact .refl s
  | cons call rest ih => exact .cons rfl (ih _)

/-- A run that is in training can become a candidate for the trainer that owns it; a
model that is new or retired can for anyone. -/
def MayBecomeCandidate (body : TransitionBody) (r : ModelRecord) : Prop :=
  (r.state = .training ∧ body.runId ≠ "" ∧ body.runId = r.runId) ∨
    r.state = .initializing ∨ r.state = .retired

def MayStart (r : ModelRecord) : Prop :=
  r.state = .initializing ∨ r.state = .candidate ∨ r.state = .training

/-- The ways in which a call changes the record under a name. -/
inductive Changes (env : Env) (name : String) : Call → ModelRecord → ModelRecord → Prop
  | start {body : TransitionBody} {r : ModelRecord} (target : body.state = "training")
      (may : MayStart r) : Changes env name (.stateTransition name body) r (startTraining env body r)
  | candidate {body : TransitionBody} {r : ModelRecord} (target : body.state = "candidate")
      (may : MayBecomeCandidate body r) :
      Changes env name (.stateTransition name body) r (becomeCandidate env body r)
  | retire {body : TransitionBody} {r : ModelRecord} (target : body.state = "retired")
      (may : r.state ≠ .retired) : Changes env name (.stateTransition name body) r
        { r with state := .retired, updatedUtc := env.utcNow }
  | progress {body : ProgressBody} {r : ModelRecord} (state : r.state = .training)
      (owner : body.runId ≠ "" ∧ body.runId = r.runId) :
      Changes env name (.progressUpdate name body) r (progressed env body r)
  | runGroup {runGroup : String} {r : ModelRecord} :
      Changes env name (.updateRunGroup name runGroup) r
        { r with runGroup := runGroup, updatedUtc := env.utcNow }
  | link {body : LinkBody} {r : ModelRecord} {connection : ModelConnection} :
      Changes env name (.linkWorldModel name body) r
        { r with connection := connection, updatedUtc := env.utcNow }
  | promote {role : String} {r : ModelRecord} (state : r.state = .candidate) :
      Changes env name (.promote role name) r
        { r with state := .production, role := role, updatedUtc := env.utcNow }
  | supersede {role other : String} {r : ModelRecord} (state : r.state = .production) :
      Changes env name (.promote role other) r
        { r with state := .retired, updatedUtc := env.utcNow }

theorem transition_cases {env : Env} {body : TransitionBody} {r r' : ModelRecord} {reply : Reply}
    (changed : transition env body r = .ok (reply, r')) (name : String) :
    reply = .record r' ∧ Changes env name (.stateTransition name body) r r' := by
  rw [transition] at changed
  split at changed
  · rename_i target
    split at changed
    · rename_i may
      cases changed
      exact ⟨rfl, .start target may⟩
    · cases changed
  · split at changed
    · rename_i target
      split at changed
      · rename_i may
        split at changed
        · cases changed
        · rename_i owner
          cases changed
          refine ⟨rfl, .candidate target ?_⟩
          rcases may with training | later
          · have owns := not_or.mp fun wrong => owner ⟨training, wrong⟩
            exact .inl ⟨training, owns.1, not_not.mp owns.2⟩
          · exact .inr later
      · cases changed
    · split at changed
      · rename_i target
        split at changed
        · rename_i may
          cases changed
          exact ⟨rfl, .retire target may⟩
        · cases changed
      · cases changed

theorem updateProgress_cases {env : Env} {body : ProgressBody} {r r' : ModelRecord}
    {reply : Reply} (changed : updateProgress env body r = .ok (reply, r')) :
    r.state = .training ∧ body.runId ≠ "" ∧ body.runId = r.runId ∧ r' = progressed env body r := by
  rw [updateProgress] at changed
  split at changed
  · cases changed
  · rename_i training
    split at changed
    · cases changed
    · rename_i owner
      cases changed
      obtain ⟨some_, same⟩ := not_or.mp owner
      exact ⟨not_not.mp training, some_, not_not.mp same, rfl⟩

theorem linkWorldModel_cases {env : Env} {models : Table String ModelRecord} {body : LinkBody}
    {r r' : ModelRecord} {reply : Reply}
    (changed : linkWorldModel env models body r = .ok (reply, r')) (name : String) :
    reply = .linked body.connection.worldModelName ∧
      Changes env name (.linkWorldModel name body) r r' := by
  rw [linkWorldModel] at changed
  dsimp only at changed
  split at changed
  · cases changed
  · split at changed
    · rename_i empty
      cases changed
      exact ⟨by rw [empty], .link⟩
    · split at changed
      · cases changed
      · cases changed
        exact ⟨rfl, .link⟩

/-- An accepted transition finds a record, changes it and returns it. -/
theorem handle_stateTransition {env : Env} {name : String} {body : TransitionBody}
    {s : ModelNameService}
    (accepted : (handle env (.stateTransition name body) s).1.accepted = true) :
    ∃ r r', s.models.lookup name = some r ∧ Changes env name (.stateTransition name body) r r' ∧
      handle env (.stateTransition name body) s =
        (.record r', { s with models := s.models.insert name r' }) := by
  rw [handle, handleStateTransition] at accepted ⊢
  split at accepted
  · cases accepted
  · rename_i some_
    obtain ⟨_, same⟩ | ⟨r, reply, r', found, changed, same⟩ :=
      withModel_cases name (transition env body) s
    · rw [same] at accepted
      cases accepted
    · obtain ⟨rfl, changes⟩ := transition_cases changed name
      exact ⟨r, r', found, changes, by rw [if_neg some_, same]⟩

theorem handle_progressUpdate {env : Env} {name : String} {body : ProgressBody}
    {s : ModelNameService}
    (accepted : (handle env (.progressUpdate name body) s).1.accepted = true) :
    ∃ r, s.models.lookup name = some r ∧ r.state = .training ∧ body.runId ≠ "" ∧
      body.runId = r.runId ∧ (handle env (.progressUpdate name body) s).2 =
        { s with models := s.models.insert name (progressed env body r) } := by
  rw [handle, handleProgressUpdate] at accepted ⊢
  obtain ⟨_, same⟩ | ⟨r, reply, r', found, changed, same⟩ :=
    withModel_cases name (updateProgress env body) s
  · rw [same] at accepted
    cases accepted
  · obtain ⟨training, some_, owner, rfl⟩ := updateProgress_cases changed
    exact ⟨r, found, training, some_, owner, by rw [same]⟩

/-- A refused change leaves everything as it is. -/
theorem withModel_of_refused {name : String}
    {change : ModelRecord → Except Refusal (Reply × ModelRecord)} {s : ModelNameService}
    (changes : ∀ r reply r', change r = .ok (reply, r') → reply.accepted = true)
    (refused : (withModel name change s).1.accepted = false) : (withModel name change s).2 = s := by
  obtain ⟨_, same⟩ | ⟨r, reply, r', found, changed, same⟩ := withModel_cases name change s
  · rw [same]
  · rw [same, changes r reply r' changed] at refused
    cases refused

/-- A change through `withModel`, seen from any record. -/
theorem lookup_withModel {env : Env} {call : Call} {name : String}
    {change : ModelRecord → Except Refusal (Reply × ModelRecord)} {s : ModelNameService}
    (changes : ∀ r reply r', change r = .ok (reply, r') → Changes env name call r r')
    {other : String} {r : ModelRecord} (found : s.models.lookup other = some r) :
    (withModel name change s).2.models.lookup other = some r ∨
      ∃ r', (withModel name change s).2.models.lookup other = some r' ∧
        Changes env other call r r' := by
  obtain ⟨_, same⟩ | ⟨r₀, reply, r', found₀, changed, same⟩ := withModel_cases name change s
  · rw [same]
    exact .inl found
  · rw [same, lookup_insert_eq]
    by_cases here : other = name
    · subst here
      obtain rfl := Option.some.inj (found.symm.trans found₀)
      rw [if_pos rfl]
      exact .inr ⟨r', rfl, changes r reply r' changed⟩
    · rw [if_neg here]
      exact .inl found

/-- The previous production model is retired, any other model is kept. -/
theorem lookup_retirePrevious_of_found {env : Env} {role modelName name : String}
    {s : ModelNameService} {r : ModelRecord} (found : s.models.lookup name = some r) :
    (retirePrevious env (previousProduction role modelName s) s.models).lookup name = some r ∨
      ∃ r', (retirePrevious env (previousProduction role modelName s) s.models).lookup name =
        some r' ∧ Changes env name (.promote role modelName) r r' := by
  cases previous : previousProduction role modelName s with
  | none => exact .inl found
  | some entry =>
      obtain ⟨p, before⟩ := entry
      obtain ⟨-, -, found', production⟩ := previousProduction_some previous
      rw [retirePrevious, lookup_insert_eq]
      by_cases here : name = p
      · subst here
        obtain rfl := Option.some.inj (found.symm.trans found')
        rw [if_pos rfl]
        exact .inr ⟨_, rfl, .supersede production⟩
      · rw [if_neg here]
        exact .inl found

/-- **One call and one record**: untouched, changed, or deleted. -/
theorem lookup_handle {env : Env} {s : ModelNameService} {name : String} {r : ModelRecord}
    (found : s.models.lookup name = some r) (call : Call) :
    (handle env call s).2.models.lookup name = some r ∨
      (∃ r', (handle env call s).2.models.lookup name = some r' ∧ Changes env name call r r') ∨
      (call = .delete name ∧ (handle env call s).1.accepted = true ∧
        (r.state = .initializing ∨ r.state = .retired)) := by
  cases call with
  | register body =>
      obtain ⟨_, same⟩ | ⟨kind, some_, fresh, same⟩ := handleRegister_cases env body s
      · rw [handle, same]
        exact .inl found
      · rw [handle, same, lookup_insert_eq, if_neg]
        · exact .inl found
        · rintro rfl
          exact fresh (mem_of_lookup found)
  | stateTransition other body =>
      rw [handle, handleStateTransition]
      split
      · exact .inl found
      · refine (lookup_withModel (fun r reply r' changed => ?_) found).imp_right .inl
        exact (transition_cases changed other).2
  | progressUpdate other body =>
      refine (lookup_withModel (fun r reply r' changed => ?_) found).imp_right .inl
      obtain ⟨training, some_, owner, rfl⟩ := updateProgress_cases changed
      exact .progress training ⟨some_, owner⟩
  | updateRunGroup other runGroup =>
      refine (lookup_withModel (fun r reply r' changed => ?_) found).imp_right .inl
      cases changed
      exact .runGroup
  | linkWorldModel other body =>
      refine (lookup_withModel (fun r reply r' changed => ?_) found).imp_right .inl
      exact (linkWorldModel_cases changed other).2
  | delete other =>
      obtain ⟨_, same⟩ | ⟨r', found', state, same⟩ := handleDelete_cases other s
      · rw [handle, same]
        exact .inl found
      · rw [handle, same, lookup_erase_eq]
        by_cases here : name = other
        · subst here
          obtain rfl := Option.some.inj (found.symm.trans found')
          exact .inr (.inr ⟨rfl, rfl, state⟩)
        · rw [if_neg here]
          exact .inl found
  | promote role other =>
      obtain ⟨_, same⟩ | ⟨r', found', state, some_, same⟩ :=
        handlePromote_cases env role other s
      · rw [handle, same]
        exact .inl found
      · rw [handle, same, lookup_insert_eq]
        by_cases here : name = other
        · subst here
          obtain rfl := Option.some.inj (found.symm.trans found')
          rw [if_pos rfl]
          exact .inr (.inl ⟨_, rfl, .promote state⟩)
        · rw [if_neg here]
          exact (lookup_retirePrevious_of_found found).imp_right .inl

/-- **A refused call changes nothing.** -/
theorem handle_of_refused {env : Env} {call : Call} {s : ModelNameService}
    (refused : (handle env call s).1.accepted = false) : (handle env call s).2 = s := by
  cases call with
  | register body =>
      rw [handle] at refused ⊢
      obtain ⟨_, same⟩ | ⟨kind, some_, fresh, same⟩ := handleRegister_cases env body s
      · rw [same]
      · rw [same] at refused
        cases refused
  | stateTransition name body =>
      rw [handle, handleStateTransition] at refused ⊢
      split at refused
      · rename_i empty
        rw [if_pos empty]
      · rename_i some_
        rw [if_neg some_]
        refine withModel_of_refused (fun r reply r' changed => ?_) refused
        rw [(transition_cases changed name).1]
        rfl
  | progressUpdate name body =>
      refine withModel_of_refused (fun r reply r' changed => ?_) refused
      rw [updateProgress] at changed
      split at changed
      · cases changed
      · split at changed <;> cases changed
        rfl
  | updateRunGroup name runGroup =>
      refine withModel_of_refused (fun r reply r' changed => ?_) refused
      cases changed
      rfl
  | linkWorldModel name body =>
      refine withModel_of_refused (fun r reply r' changed => ?_) refused
      rw [(linkWorldModel_cases changed name).1]
      rfl
  | delete name =>
      rw [handle] at refused ⊢
      obtain ⟨_, same⟩ | ⟨r, found, state, same⟩ := handleDelete_cases name s
      · rw [same]
      · rw [same] at refused
        cases refused
  | promote role name =>
      rw [handle] at refused ⊢
      obtain ⟨_, same⟩ | ⟨r, found, state, some_, same⟩ := handlePromote_cases env role name s
      · rw [same]
      · rw [same] at refused
        cases refused

end Adai.ModelNames
