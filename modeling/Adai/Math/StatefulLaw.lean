import Mathlib.Control.Basic
import Mathlib.Tactic.Choose

/-! # Computations that follow a law

A computation with a state and errors, over a monad of draws, follows a law from a
state when it never fails there and its value is drawn from the law, whatever
becomes of the state. Following composes (`StatefulLaw.Follows.bind`), and a step
that draws nothing leaves no trace (`StatefulLaw.Follows.step`). What remains at the
end is the law of the value (`StatefulLaw.Follows.map_fst`).
-/

namespace StatefulLaw

variable {M : Type → Type} [Monad M] {σ ε α β : Type}

/-- From the state, the value is good and drawn from the law. -/
def Follows (Good : α → Prop) (x : ExceptT ε (StateT σ M) α) (s : σ) (law : M α) : Prop :=
  ∃ joint : M ({a : α // Good a} × σ),
    x.run.run s = (fun p => (Except.ok p.1.1, p.2)) <$> joint ∧ (fun p => p.1.1) <$> joint = law

/-- A draw that leaves the state alone. -/
def draw (x : M α) : ExceptT ε (StateT σ M) α := ExceptT.lift (StateT.lift x)

variable [LawfulMonad M]

omit [LawfulMonad M] in
theorem run_bind (x : ExceptT ε (StateT σ M) α) (f : α → ExceptT ε (StateT σ M) β) (s : σ) :
    (x >>= f).run.run s = x.run.run s >>= fun p =>
      match p.1 with
      | .ok a => (f a).run.run p.2
      | .error e => pure (.error e, p.2) := by
  rw [ExceptT.run_bind, StateT.run_bind]
  congr 1
  funext p
  obtain ⟨r, s'⟩ := p
  cases r <;> rfl

theorem run_draw (m : M α) (s : σ) :
    (draw m : ExceptT ε (StateT σ M) α).run.run s = (fun a => (.ok a, s)) <$> m := by
  rw [draw, ExceptT.run_lift, StateT.run_map, StateT.run_lift, map_bind, ← bind_pure_comp]
  simp only [map_pure]

/-- A computation with one outcome. -/
def Runs (x : ExceptT ε (StateT σ M) α) (s : σ) (a : α) (s' : σ) : Prop :=
  x.run.run s = Pure.pure (.ok a, s')

namespace Runs

variable {x : ExceptT ε (StateT σ M) α} {s s' s'' : σ} {a : α}

omit [LawfulMonad M] in
theorem pure (a : α) (s : σ) : Runs (pure a : ExceptT ε (StateT σ M) α) s a s := rfl

theorem bind {f : α → ExceptT ε (StateT σ M) β} {b : β} (first : Runs x s a s')
    (later : Runs (f a) s' b s'') : Runs (x >>= f) s b s'' := by
  rw [Runs, run_bind, first, pure_bind]
  exact later

theorem get (s : σ) : Runs (MonadState.get : ExceptT ε (StateT σ M) σ) s s s := by
  have lifted : (MonadState.get : ExceptT ε (StateT σ M) σ) = ExceptT.lift MonadState.get := rfl
  rw [Runs, lifted, ExceptT.run_lift, StateT.run_map, StateT.run_get, map_pure]

theorem modified (f : σ → σ) (s : σ) :
    Runs (modify f : ExceptT ε (StateT σ M) PUnit) s ⟨⟩ (f s) := by
  have lifted : (modify f : ExceptT ε (StateT σ M) PUnit) =
      ExceptT.lift (modify f) := rfl
  rw [Runs, lifted, ExceptT.run_lift, StateT.run_map, StateT.run_modify, map_pure]

end Runs

namespace Follows

variable {Good Good' : α → Prop} {Good₂ : β → Prop} {x : ExceptT ε (StateT σ M) α} {s s' : σ}
  {law : M α}

theorem pure (a : α) (good : Good a) :
    Follows Good (pure a : ExceptT ε (StateT σ M) α) s (Pure.pure a) := by
  refine ⟨Pure.pure (⟨a, good⟩, s), ?_, ?_⟩
  · rw [map_pure]
    rfl
  · rw [map_pure]

/-- A step with one outcome. -/
theorem step {a : α} {f : α → ExceptT ε (StateT σ M) β} {law₂ : M β}
    (here : Runs x s a s') (later : Follows Good₂ (f a) s' law₂) :
    Follows Good₂ (x >>= f) s law₂ := by
  obtain ⟨joint, run, value⟩ := later
  refine ⟨joint, ?_, value⟩
  rw [run_bind, here, pure_bind]
  exact run

/-- A draw of which only some values come out, from the same state whatever is
drawn. -/
theorem draw_map_bind {γ : Type} (m : M γ) (h : γ → α) {f : α → ExceptT ε (StateT σ M) β}
    {law₂ : α → M β} (later : ∀ c, Follows Good₂ (f (h c)) s (law₂ (h c))) :
    Follows Good₂ (draw (h <$> m) >>= f) s (h <$> m >>= law₂) := by
  choose joint run value using later
  refine ⟨m >>= joint, ?_, ?_⟩
  · rw [run_bind, run_draw, Functor.map_map, bind_map_left, map_bind]
    exact bind_congr run
  · rw [map_bind, bind_map_left]
    exact bind_congr value

theorem draw_bind (m : M α) {f : α → ExceptT ε (StateT σ M) β} {law₂ : α → M β}
    (later : ∀ a, Follows Good₂ (f a) s (law₂ a)) :
    Follows Good₂ (draw m >>= f) s (m >>= law₂) := by
  have same := draw_map_bind m id later
  rwa [id_map] at same

/-- One computation after another. -/
theorem bind {f : α → ExceptT ε (StateT σ M) β} {law₂ : α → M β} (first : Follows Good x s law)
    (later : ∀ a s', Good a → Follows Good₂ (f a) s' (law₂ a)) :
    Follows Good₂ (x >>= f) s (law >>= law₂) := by
  obtain ⟨joint, run, value⟩ := first
  have each : ∀ p : {a : α // Good a} × σ, Follows Good₂ (f p.1.1) p.2 (law₂ p.1.1) :=
    fun p => later p.1.1 p.2 p.1.2
  choose joint₂ run₂ value₂ using each
  refine ⟨joint >>= joint₂, ?_, ?_⟩
  · rw [run_bind, run, bind_map_left, map_bind]
    exact bind_congr run₂
  · rw [map_bind, ← value, bind_map_left]
    exact bind_congr value₂

/-- A function of the value. -/
theorem map {f : α → β} (follows : Follows Good x s law) (good : ∀ a, Good a → Good₂ (f a)) :
    Follows Good₂ (x >>= fun a => Pure.pure (f a)) s (f <$> law) := by
  rw [← bind_pure_comp]
  exact follows.bind fun a s' holds => Follows.pure (f a) (good a holds)

/-- The value of a run has the law. -/
theorem map_fst (follows : Follows Good x s law) :
    Prod.fst <$> x.run.run s = Except.ok <$> law := by
  obtain ⟨joint, run, rfl⟩ := follows
  rw [run, Functor.map_map, Functor.map_map]

end Follows

end StatefulLaw
