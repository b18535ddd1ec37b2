import Mathlib.Data.List.Basic

/-! # Labelled runs and their invariants

A run of a labelled step relation is a list of labels together with the states
it passes through. A property kept by every step is kept by every run
(`TransitionSystem.Run.invariant`). A restricted system takes only the steps
that meet a condition (`TransitionSystem.Restrict`), so a statement about its
runs is a statement about the runs all of whose steps meet that condition.

A property of the past of a run is stated on the labels alone: at some label `start` held,
of that label and of what came before it, and every label since then satisfies `kept`
(`PastTime.Since`). One more step begins it (`PastTime.Since.now`) or keeps it
(`PastTime.Since.later`). A property of a state and of the past that led to it is kept by a
run when it is kept by every step (`TransitionSystem.Run.history`).
-/

namespace TransitionSystem

variable {State Label : Type*} {step : State → Label → State → Prop}

/-- A finite run: the labels of successive steps from one state to another. -/
inductive Run (step : State → Label → State → Prop) : State → List Label → State → Prop
  | refl (state : State) : Run step state [] state
  | cons {first middle last : State} {label : Label} {labels : List Label} :
      step first label middle → Run step middle labels last →
        Run step first (label :: labels) last

theorem Run.append {first middle last : State} {front back : List Label}
    (before : Run step first front middle) (after : Run step middle back last) :
    Run step first (front ++ back) last := by
  induction before with
  | refl => exact after
  | cons head _ ih => exact .cons head (ih after)

theorem Run.snoc {first middle last : State} {labels : List Label} {label : Label}
    (before : Run step first labels middle) (taken : step middle label last) :
    Run step first (labels ++ [label]) last :=
  before.append (.cons taken (.refl last))

/-- A property that every step keeps is kept by every run. -/
theorem Run.invariant (Holds : State → Prop)
    (kept : ∀ first label last, Holds first → step first label last → Holds last)
    {first last : State} {labels : List Label} (run : Run step first labels last)
    (start : Holds first) : Holds last := by
  induction run with
  | refl => exact start
  | cons taken _ ih => exact ih (kept _ _ _ start taken)

/-- A run is a run of every system that takes its steps. -/
theorem Run.imp {other : State → Label → State → Prop}
    (steps : ∀ first label last, step first label last → other first label last)
    {first last : State} {labels : List Label} (run : Run step first labels last) :
    Run other first labels last := by
  induction run with
  | refl => exact .refl _
  | cons head _ ih => exact .cons (steps _ _ _ head) ih

/-- The system that takes only the steps meeting a condition on the state
before the step and its label. -/
def Restrict (step : State → Label → State → Prop) (condition : State → Label → Prop) :
    State → Label → State → Prop :=
  fun first label last => step first label last ∧ condition first label

theorem Run.of_restrict {condition : State → Label → Prop} {first last : State}
    {labels : List Label} (run : Run (Restrict step condition) first labels last) :
    Run step first labels last :=
  run.imp fun _ _ _ restricted => restricted.1

/-- The run of a list of labels in a system whose steps are computed, if no step
of it is refused. -/
def execute (next : State → Label → Option State) (first : State) : List Label → Option State
  | [] => some first
  | label :: labels => (next first label).bind fun middle => execute next middle labels

theorem Run.of_execute {next : State → Label → Option State}
    (steps : ∀ before label after, next before label = some after → step before label after)
    {first last : State} {labels : List Label}
    (executed : execute next first labels = some last) : Run step first labels last := by
  induction labels generalizing first with
  | nil =>
      obtain rfl := Option.some.inj executed
      exact .refl _
  | cons label labels ih =>
      obtain ⟨middle, taken, rest⟩ := Option.bind_eq_some_iff.mp executed
      exact .cons (steps _ _ _ taken) (ih rest)

/-- A property of a state and of the labels taken so far that every step keeps is
kept by every run. -/
theorem Run.history (Holds : List Label → State → Prop)
    (kept : ∀ past first label last, Holds past first → step first label last →
      Holds (past ++ [label]) last)
    {first last : State} {labels : List Label} (run : Run step first labels last)
    (start : Holds [] first) : Holds labels last := by
  suffices extended : ∀ past, Holds past first → Holds (past ++ labels) last from
    extended [] start
  clear start
  induction run with
  | refl =>
      intro past holds
      rw [List.append_nil]
      exact holds
  | cons taken _ ih =>
      intro past holds
      have further := ih _ (kept past _ _ _ holds taken)
      rwa [List.append_assoc, List.singleton_append] at further

end TransitionSystem

namespace PastTime

variable {Label : Type*} {start : List Label → Label → Prop} {kept : Label → Prop}
  {past : List Label} {label : Label}

def Since (start : List Label → Label → Prop) (kept : Label → Prop) (past : List Label) : Prop :=
  ∃ early first late, past = early ++ first :: late ∧ start early first ∧ ∀ l ∈ late, kept l

/-- Some label met the condition. -/
def Once (condition : Label → Prop) (past : List Label) : Prop := ∃ l ∈ past, condition l

theorem Since.now (holds : start past label) : Since start kept (past ++ [label]) := by
  refine ⟨past, label, [], rfl, holds, ?_⟩
  intro l member
  cases member

theorem Since.later (since : Since start kept past) (keeps : kept label) :
    Since start kept (past ++ [label]) := by
  obtain ⟨early, first, late, rfl, holds, since⟩ := since
  refine ⟨early, first, late ++ [label], ?_, holds, ?_⟩
  · rw [List.append_assoc, List.cons_append]
  · intro l member
    rcases List.mem_append.mp member with earlier | last
    · exact since l earlier
    · rw [List.mem_singleton.mp last]
      exact keeps

theorem Once.now {condition : Label → Prop} (holds : condition label) :
    Once condition (past ++ [label]) :=
  ⟨label, List.mem_append_right _ (List.mem_singleton.mpr rfl), holds⟩

theorem Once.later {condition : Label → Prop} (once : Once condition past) :
    Once condition (past ++ [label]) := by
  obtain ⟨l, member, holds⟩ := once
  exact ⟨l, List.mem_append_left _ member, holds⟩

end PastTime
