import Adai.ModelNames.RecordSteps

/-! # Production roles

A model in production is the one that the role map names for its role, so no role has
two (`production_roles_exclusive`). Every handler keeps this (`exclusive_handle`): the
previous production model of a role is the one that promotion retires, and a model
that leaves the map leaves no role behind.
-/

namespace Adai.ModelNames

open Tables TransitionSystem

/-- Models in production are mapped by their role, and the role map names models that
are registered. -/
structure Exclusive (s : ModelNameService) : Prop where
  mapped : ∀ name r, s.models.lookup name = some r → r.state = .production →
    s.roles.lookup r.role = some name
  registered : ∀ role name, s.roles.lookup role = some name → name ∈ s.models
  named : "" ∉ s.models

theorem exclusive_empty : Exclusive {} where
  mapped name r found := by simp at found
  registered role name mapped := by simp at mapped
  named := AList.notMem_empty ""

/-- The change puts no model into production and keeps the role. -/
def KeepsProduction (change : ModelRecord → Except Refusal (Reply × ModelRecord)) : Prop :=
  ∀ r reply r', change r = .ok (reply, r') →
    r'.role = r.role ∧ (r'.state = .production → r.state = .production)

/-- Only a promotion puts a model into production or gives it a role. -/
theorem Changes.keepsProduction {env : Env} {name : String} {call : Call} {r r' : ModelRecord}
    (changes : Changes env name call r r') (other : ∀ role model, call ≠ .promote role model) :
    r'.role = r.role ∧ (r'.state = .production → r.state = .production) := by
  cases changes with
  | start | candidate | retire => exact ⟨rfl, nofun⟩
  | progress | runGroup | link => exact ⟨rfl, id⟩
  | promote | supersede => exact absurd rfl (other _ _)

theorem keepsProduction_of_changes {env : Env} {name : String} (call : Call)
    {change : ModelRecord → Except Refusal (Reply × ModelRecord)}
    (other : ∀ role model, call ≠ .promote role model)
    (changes : ∀ r reply r', change r = .ok (reply, r') → Changes env name call r r') :
    KeepsProduction change :=
  fun r reply r' changed => (changes r reply r' changed).keepsProduction other

theorem exclusive_withModel {s : ModelNameService} (exclusive : Exclusive s) (name : String)
    {change : ModelRecord → Except Refusal (Reply × ModelRecord)} (keeps : KeepsProduction change) :
    Exclusive (withModel name change s).2 := by
  obtain ⟨_, same⟩ | ⟨r, reply, r', found, changed, same⟩ := withModel_cases name change s
  · rw [same]
    exact exclusive
  · obtain ⟨role, state⟩ := keeps r reply r' changed
    rw [same]
    constructor
    · intro other record found' production
      rw [lookup_insert_eq] at found'
      split at found'
      · rename_i here
        obtain rfl := Option.some.inj found'
        rw [role, here]
        exact exclusive.mapped name r found (state production)
      · exact exclusive.mapped other record found' production
    · intro role' other mapped
      exact (AList.mem_insert _).mpr (.inr (exclusive.registered role' other mapped))
    · intro member
      rcases (AList.mem_insert _).mp member with rfl | member
      · exact exclusive.named (mem_of_lookup found)
      · exact exclusive.named member

theorem exclusive_register {s : ModelNameService} (exclusive : Exclusive s) (env : Env)
    (body : RegisterBody) : Exclusive (handleRegister env body s).2 := by
  obtain ⟨_, same⟩ | ⟨kind, some_, fresh, same⟩ := handleRegister_cases env body s
  · rw [same]
    exact exclusive
  · rw [same]
    constructor
    · intro name r found production
      rw [lookup_insert_eq] at found
      split at found
      · obtain rfl := Option.some.inj found
        cases production
      · exact exclusive.mapped name r found production
    · intro role name mapped
      exact (AList.mem_insert _).mpr (.inr (exclusive.registered role name mapped))
    · intro member
      exact exclusive.named (((AList.mem_insert _).mp member).resolve_left (Ne.symm some_))

theorem exclusive_delete {s : ModelNameService} (exclusive : Exclusive s) (name : String) :
    Exclusive (handleDelete name s).2 := by
  obtain ⟨_, same⟩ | ⟨r, found, state, same⟩ := handleDelete_cases name s
  · rw [same]
    exact exclusive
  · rw [same]
    constructor
    · intro other record found' production
      rw [lookup_erase_eq] at found'
      split at found'
      · cases found'
      · rename_i different
        have mapped := exclusive.mapped other record found' production
        rw [lookup_dropValue, mapped, Option.filter_some, if_pos (decide_eq_true different)]
    · intro role other mapped
      rw [lookup_dropValue, Option.filter_eq_some_iff] at mapped
      exact AList.mem_erase.mpr ⟨of_decide_eq_true mapped.2, exclusive.registered role other mapped.1⟩
    · intro member
      exact exclusive.named (AList.mem_erase.mp member).2

/-- What is still in production after the previous production model was retired does
not have the role. -/
theorem lookup_retirePrevious {env : Env} {role modelName : String} {s : ModelNameService}
    {name : String} {r : ModelRecord} (some_ : name ≠ "") (other : name ≠ modelName)
    (found : (retirePrevious env (previousProduction role modelName s) s.models).lookup name = some r)
    (production : r.state = .production) :
    s.models.lookup name = some r ∧ s.roles.lookup role ≠ some name := by
  cases previous : previousProduction role modelName s with
  | none =>
      rw [previous] at found
      refine ⟨found, fun mapped => ?_⟩
      rw [previousProduction, mapped] at previous
      change s.models.lookup name = some r at found
      simp [some_, other, found, production] at previous
  | some entry =>
      obtain ⟨p, before⟩ := entry
      obtain ⟨mapped, -, -, -⟩ := previousProduction_some previous
      rw [previous, retirePrevious, lookup_insert_eq] at found
      split at found
      · obtain rfl := Option.some.inj found
        cases production
      · rename_i different
        refine ⟨found, fun mapped' => different ?_⟩
        exact Option.some.inj (mapped'.symm.trans mapped)

theorem mem_retirePrevious {env : Env} {role modelName : String} {s : ModelNameService}
    {name : String} :
    name ∈ retirePrevious env (previousProduction role modelName s) s.models ↔ name ∈ s.models := by
  cases previous : previousProduction role modelName s with
  | none => exact Iff.rfl
  | some entry =>
      obtain ⟨p, before⟩ := entry
      obtain ⟨-, -, found, -⟩ := previousProduction_some previous
      refine (AList.mem_insert _).trans ⟨?_, Or.inr⟩
      rintro (rfl | member)
      · exact mem_of_lookup found
      · exact member

theorem exclusive_promote {s : ModelNameService} (exclusive : Exclusive s) (env : Env)
    (role modelName : String) : Exclusive (handlePromote env role modelName s).2 := by
  obtain ⟨_, same⟩ | ⟨r, found, state, some_, same⟩ :=
    handlePromote_cases env role modelName s
  · rw [same]
    exact exclusive
  · rw [same]
    constructor
    · intro name record found' production
      rw [lookup_insert_eq] at found'
      split at found'
      · rename_i here
        obtain rfl := Option.some.inj found'
        rw [here, AList.lookup_insert]
      · rename_i other
        have member := mem_retirePrevious.mp (mem_of_lookup found')
        have named : name ≠ "" := fun empty => exclusive.named (empty ▸ member)
        obtain ⟨before, free⟩ := lookup_retirePrevious named other found' production
        have mapped := exclusive.mapped name record before production
        rw [lookup_insert_eq, if_neg, mapped]
        rintro rfl
        exact free mapped
    · intro role' name mapped
      rw [lookup_insert_eq] at mapped
      refine (AList.mem_insert _).mpr ?_
      split at mapped
      · exact .inl (Option.some.inj mapped).symm
      · exact .inr (mem_retirePrevious.mpr (exclusive.registered role' name mapped))
    · intro member
      rcases (AList.mem_insert _).mp member with rfl | member
      · exact some_ rfl
      · exact exclusive.named (mem_retirePrevious.mp member)

/-- One call of any handler. -/
theorem exclusive_handle {s : ModelNameService} (exclusive : Exclusive s) (env : Env)
    (call : Call) : Exclusive (handle env call s).2 := by
  cases call with
  | register body => exact exclusive_register exclusive env body
  | stateTransition name body =>
      rw [handle, handleStateTransition]
      split
      · exact exclusive
      · apply exclusive_withModel exclusive name
        refine @keepsProduction_of_changes env name (.stateTransition name body) _ ?_ ?_
        · intro role model same
          cases same
        · intro r reply r' changed
          exact (transition_cases changed name).2
  | progressUpdate name body =>
      apply exclusive_withModel exclusive name
      refine @keepsProduction_of_changes env name (.progressUpdate name body) _ ?_ ?_
      · intro role model same
        cases same
      · intro r reply r' changed
        obtain ⟨training, some_, owner, rfl⟩ := updateProgress_cases changed
        exact .progress training ⟨some_, owner⟩
  | updateRunGroup name runGroup =>
      apply exclusive_withModel exclusive name
      intro r reply r' changed
      cases changed
      exact ⟨rfl, id⟩
  | linkWorldModel name body =>
      apply exclusive_withModel exclusive name
      refine @keepsProduction_of_changes env name (.linkWorldModel name body) _ ?_ ?_
      · intro role model same
        cases same
      · intro r reply r' changed
        exact (linkWorldModel_cases changed name).2
  | delete name => exact exclusive_delete exclusive name
  | promote role modelName => exact exclusive_promote exclusive env role modelName

theorem exclusive_serve {s : ModelNameService} (exclusive : Exclusive s)
    (calls : List (Env × Call)) : Exclusive (serve s calls) := by
  apply (run_serve s calls).invariant Exclusive _ exclusive
  rintro first label last kept rfl
  exact exclusive_handle kept label.1 label.2

/-- A model in training or production is not deleted. -/
theorem lookup_delete_of_held {s : ModelNameService} {name : String} {r : ModelRecord}
    (found : s.models.lookup name = some r) (held : r.state = .training ∨ r.state = .production)
    (other : String) : (handleDelete other s).2.models.lookup name = some r := by
  obtain ⟨_, same⟩ | ⟨r', found', state, same⟩ := handleDelete_cases other s
  · rw [same]
    exact found
  · rw [same, lookup_erase_eq, if_neg]
    · exact found
    · rintro rfl
      rw [found] at found'
      obtain rfl := Option.some.inj found'
      rcases held with held | held <;> rcases state with state | state <;>
        cases held.symm.trans state

/-- **Production roles are exclusive** after any sequence of calls. -/
theorem production_roles_exclusive (calls : List (Env × Call)) :
    (∀ role first second r r', (serve {} calls).models.lookup first = some r →
      (serve {} calls).models.lookup second = some r' → r.state = .production →
      r'.state = .production → r.role = role → r'.role = role → first = second) ∧
    (∀ name r, (serve {} calls).models.lookup name = some r → r.state = .production →
      (serve {} calls).roles.lookup r.role = some name) ∧
    (∀ role name, (serve {} calls).roles.lookup role = some name →
      name ∈ (serve {} calls).models) ∧
    ∀ name r, (serve {} calls).models.lookup name = some r →
      r.state = .training ∨ r.state = .production → ∀ other,
        (handleDelete other (serve {} calls)).2.models.lookup name = some r := by
  have exclusive := exclusive_serve exclusive_empty calls
  refine ⟨?_, exclusive.mapped, exclusive.registered, fun name r found held =>
    lookup_delete_of_held found held⟩
  rintro role first second r r' found found' production production' rfl same
  have mapped := exclusive.mapped first r found production
  have mapped' := exclusive.mapped second r' found' production'
  rw [same, mapped] at mapped'
  exact Option.some.inj mapped'

end Adai.ModelNames
