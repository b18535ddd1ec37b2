import Mathlib.Data.List.Basic

/-! # Attempts that leave effects behind

An attempt changes a state, leaves a list of effects, and either returns a value
or ends by throwing; what it did before it threw stays done. Attempts compose
with the usual `do` notation, and a handler takes over where the attempt it
guards throws (`Attempts.Attempt.guarded`). A property of every effect passes
through the composition (`Attempts.Attempt.Leaves`), so what an attempt can
leave behind is read off its parts.
-/

namespace Attempts

variable {State Effect α β : Type}

/-- How an attempt ended: the state and effects it leaves, and its value unless
it threw. -/
structure Ended (State Effect α : Type) where
  state : State
  effects : List Effect
  result : Option α

/-- A computation that may throw, with the effects it leaves either way. -/
def Attempt (State Effect α : Type) : Type := State → Ended State Effect α

/-- An ended attempt with the rest of the computation run on its value. -/
def Ended.followedBy (first : Ended State Effect α) (rest : α → Attempt State Effect β) :
    Ended State Effect β :=
  match first.result with
  | none => ⟨first.state, first.effects, none⟩
  | some value =>
    ⟨(rest value first.state).state, first.effects ++ (rest value first.state).effects,
      (rest value first.state).result⟩

instance : Monad (Attempt State Effect) where
  pure value := fun state => ⟨state, [], some value⟩
  bind first rest := fun state => (first state).followedBy rest

namespace Attempt

/-- The attempt that throws at once. -/
def throw : Attempt State Effect α := fun state => ⟨state, [], none⟩

/-- The state as it is now. -/
def current : Attempt State Effect State := fun state => ⟨state, [], some state⟩

/-- Replaces the state. -/
def become (next : State → State) : Attempt State Effect Unit := fun state =>
  ⟨next state, [], some ()⟩

/-- Leaves one effect. -/
def leave (effect : Effect) : Attempt State Effect Unit := fun state =>
  ⟨state, [effect], some ()⟩

/-- An attempt whose exception, if it throws, is handled. -/
def guarded (body handler : Attempt State Effect α) : Attempt State Effect α := fun state =>
  match (body state).result with
  | some _ => body state
  | none =>
    ⟨(handler (body state).state).state,
      (body state).effects ++ (handler (body state).state).effects,
      (handler (body state).state).result⟩

@[simp] theorem pure_apply (value : α) (state : State) :
    (pure value : Attempt State Effect α) state = ⟨state, [], some value⟩ := rfl

@[simp] theorem bind_apply (first : Attempt State Effect α) (rest : α → Attempt State Effect β)
    (state : State) : (first >>= rest) state = (first state).followedBy rest := rfl

@[simp] theorem throw_apply (state : State) :
    (throw : Attempt State Effect α) state = ⟨state, [], none⟩ := rfl

@[simp] theorem current_apply (state : State) :
    (current : Attempt State Effect State) state = ⟨state, [], some state⟩ := rfl

@[simp] theorem become_apply (next : State → State) (state : State) :
    (become next : Attempt State Effect Unit) state = ⟨next state, [], some ()⟩ := rfl

@[simp] theorem leave_apply (effect : Effect) (state : State) :
    leave effect state = ⟨state, [effect], some ()⟩ := rfl

@[simp] theorem followedBy_returned (state : State) (effects : List Effect) (value : α)
    (rest : α → Attempt State Effect β) :
    (Ended.mk state effects (some value)).followedBy rest =
      ⟨(rest value state).state, effects ++ (rest value state).effects,
        (rest value state).result⟩ := rfl

@[simp] theorem followedBy_threw (state : State) (effects : List Effect)
    (rest : α → Attempt State Effect β) :
    (Ended.mk state effects (none : Option α)).followedBy rest = ⟨state, effects, none⟩ := rfl

theorem followedBy_of_returned {first : Ended State Effect α} {rest : α → Attempt State Effect β}
    {value : α} (returned : first.result = some value) :
    first.followedBy rest =
      ⟨(rest value first.state).state, first.effects ++ (rest value first.state).effects,
        (rest value first.state).result⟩ := by
  simp only [Ended.followedBy, returned]

/-- A composition whose first part returns goes on from the state that part left. -/
theorem bind_of_returned {first : Attempt State Effect α} {rest : α → Attempt State Effect β}
    {state : State} {value : α} (returned : (first state).result = some value) :
    (first >>= rest) state =
      ⟨(rest value (first state).state).state,
        (first state).effects ++ (rest value (first state).state).effects,
        (rest value (first state).state).result⟩ :=
  followedBy_of_returned returned

/-- A composition whose first part throws ends there. -/
theorem bind_of_threw {first : Attempt State Effect α} {rest : α → Attempt State Effect β}
    {state : State} (threw : (first state).result = none) :
    (first >>= rest) state = ⟨(first state).state, (first state).effects, none⟩ := by
  simp only [bind_apply, Ended.followedBy, threw]

theorem guarded_of_returned {body : Attempt State Effect α} (handler : Attempt State Effect α)
    {state : State} (value : α) (returned : (body state).result = some value) :
    guarded body handler state = body state := by
  simp only [guarded, returned]

theorem guarded_of_threw {body : Attempt State Effect α} (handler : Attempt State Effect α)
    {state : State} (threw : (body state).result = none) :
    (guarded body handler state).result = (handler (body state).state).result := by
  simp only [guarded, threw]

/-- Every effect the attempt leaves, from any state, is of the allowed kind. -/
def Leaves (Allowed : Effect → Prop) (attempt : Attempt State Effect α) : Prop :=
  ∀ state, ∀ effect ∈ (attempt state).effects, Allowed effect

theorem Leaves.pure {Allowed : Effect → Prop} (value : α) :
    Leaves Allowed (pure value : Attempt State Effect α) := by
  intro state effect member
  cases member

theorem Leaves.bind {Allowed : Effect → Prop} {first : Attempt State Effect α}
    {rest : α → Attempt State Effect β} (before : Leaves Allowed first)
    (after : ∀ value, Leaves Allowed (rest value)) : Leaves Allowed (first >>= rest) := by
  intro state effect member
  cases returned : (first state).result with
  | none =>
      rw [bind_of_threw returned] at member
      exact before state effect member
  | some value =>
      rw [bind_of_returned returned] at member
      rcases List.mem_append.mp member with early | late
      · exact before state effect early
      · exact after value _ effect late

theorem Leaves.guarded {Allowed : Effect → Prop} {body handler : Attempt State Effect α}
    (inside : Leaves Allowed body) (handled : Leaves Allowed handler) :
    Leaves Allowed (guarded body handler) := by
  intro state effect member
  unfold Attempt.guarded at member
  cases returned : (body state).result with
  | none =>
      rw [returned] at member
      rcases List.mem_append.mp member with early | late
      · exact inside state effect early
      · exact handled _ effect late
  | some value =>
      rw [returned] at member
      exact inside state effect member

/-- An attempt guarded by a handler that returns always returns. -/
theorem guarded_returns {body handler : Attempt State Effect α}
    (handled : ∀ state, (handler state).result.isSome) (state : State) :
    ((guarded body handler) state).result.isSome := by
  unfold guarded
  cases returned : (body state).result with
  | none => exact handled _
  | some value =>
      rw [returned]
      rfl

/-- From every state the attempt returns, and its value has the property. -/
def Yields (Holds : α → Prop) (attempt : Attempt State Effect α) : Prop :=
  ∀ state, ∃ value, (attempt state).result = some value ∧ Holds value

/-- From every state the attempt throws. -/
def Throws (attempt : Attempt State Effect α) : Prop :=
  ∀ state, (attempt state).result = none

theorem Yields.pure {Holds : α → Prop} {value : α} (holds : Holds value) :
    Yields Holds (pure value : Attempt State Effect α) :=
  fun _ => ⟨value, rfl, holds⟩

theorem Yields.bind {first : Attempt State Effect α} {rest : α → Attempt State Effect β}
    {Before : α → Prop} {After : β → Prop} (before : Yields Before first)
    (after : ∀ value, Before value → Yields After (rest value)) :
    Yields After (first >>= rest) := by
  intro state
  obtain ⟨value, returned, holds⟩ := before state
  rw [bind_of_returned returned]
  exact after value holds _

theorem Throws.bind {first : Attempt State Effect α} (rest : α → Attempt State Effect β)
    (threw : Throws first) : Throws (first >>= rest) := by
  intro state
  rw [bind_of_threw (threw state)]

theorem Yields.guarded {body : Attempt State Effect α} {Holds : α → Prop}
    (handler : Attempt State Effect α) (inside : Yields Holds body) :
    Yields Holds (guarded body handler) := by
  intro state
  obtain ⟨value, returned, holds⟩ := inside state
  exact ⟨value, by simp only [Attempt.guarded, returned], holds⟩

theorem Throws.guarded {body handler : Attempt State Effect α} {Holds : α → Prop}
    (threw : Throws body) (handled : Yields Holds handler) :
    Yields Holds (Attempt.guarded body handler) := by
  intro state
  obtain ⟨value, returned, holds⟩ := handled (body state).state
  exact ⟨value, by simp only [Attempt.guarded, threw state, returned], holds⟩

end Attempt

end Attempts
