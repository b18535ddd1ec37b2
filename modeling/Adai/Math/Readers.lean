import Mathlib.Data.List.Basic
import Mathlib.Data.Nat.Basic

/-! # Readers of a stream

A reader takes a value off the front of a list of items, or fails. It reads a
value from a piece of input when it does so whatever follows the piece
(`Readers.Reads`), so what one reader reads is put in front of what the next one
reads (`Readers.Reads.bind`). A loop runs its round until the round gives a
result; a derivation of its rounds (`Readers.Rounds`) is what the loop reads
(`Readers.Rounds.reads`), where every round but the last one takes something off
the input.

Of a reader that succeeds one knows which piece it took and what the piece says of the
value (`Readers.Accepts`); of a loop, that it is made of such rounds
(`Readers.Accepts.untilDone`). A loop whose rounds take something off the input ends on
every input (`Readers.ends_untilDone`): the fuel is never what stops it.

That a loop ends is a derivation of its steps (`Loops.Ends`), in which no fuel occurs. A loop
whose steps decrease a measure ends, with the outcome that it has with fuel
(`Loops.ends_run`).
-/

namespace Loops

variable {σ ρ : Type*}

/-- The loop ends in the state's outcome. -/
inductive Ends (step : σ → Option (σ ⊕ ρ)) : σ → Option ρ → Prop
  | refused {state : σ} (refuses : step state = none) : Ends step state none
  | finished {state : σ} {result : ρ} (last : step state = some (.inr result)) :
      Ends step state (some result)
  | more {state state' : σ} {outcome : Option ρ} (first : step state = some (.inl state'))
      (later : Ends step state' outcome) : Ends step state outcome

/-- The loop with so many steps at most. -/
def run (step : σ → Option (σ ⊕ ρ)) : Nat → σ → Option ρ
  | 0, _ => none
  | fuel + 1, state =>
      match step state with
      | none => none
      | some (.inr result) => some result
      | some (.inl state') => run step fuel state'

/-- Every step but the last decreases the measure. -/
def Decreases (step : σ → Option (σ ⊕ ρ)) (measure : σ → Nat) : Prop :=
  ∀ state state', step state = some (.inl state') → measure state' < measure state

/-- **Termination.** With a measure that decreases the loop ends, and fuel above it
does not matter. -/
theorem ends_run {step : σ → Option (σ ⊕ ρ)} {measure : σ → Nat}
    (decreases : Decreases step measure) {fuel : Nat} {state : σ} (enough : measure state < fuel) :
    Ends step state (run step fuel state) := by
  induction fuel generalizing state with
  | zero => exact absurd enough (Nat.not_lt_zero _)
  | succ fuel ih =>
      rw [run]
      cases taken : step state with
      | none => exact .refused taken
      | some outcome =>
          cases outcome with
          | inl state' =>
              have less := decreases state state' taken
              exact .more taken (ih (Nat.lt_of_lt_of_le less (Nat.le_of_lt_succ enough)))
          | inr result => exact .finished taken

end Loops

namespace Readers

abbrev Reader (σ α : Type) := StateT (List σ) Option α

variable {σ α β γ : Type}

/-- The reader takes the piece off any input that begins with it. -/
def Reads (read : Reader σ α) (piece : List σ) (value : α) : Prop :=
  ∀ rest, read (piece ++ rest) = some (value, rest)

theorem reads_pure (value : α) : Reads (pure value : Reader σ α) [] value :=
  fun _ => rfl

theorem Reads.bind {first : Reader σ α} {next : α → Reader σ β} {front back : List σ} {a : α}
    {b : β} (before : Reads first front a) (after : Reads (next a) back b) :
    Reads (first >>= next) (front ++ back) b := by
  intro rest
  rw [List.append_assoc]
  change (first (front ++ (back ++ rest))).bind (fun p => next p.1 p.2) = some (b, rest)
  rw [before, Option.bind_some]
  exact after rest

theorem bind_of_read {first : Reader σ α} {next : α → Reader σ β} {input rest : List σ} {a : α}
    (read : first input = some (a, rest)) : (first >>= next) input = next a rest := by
  change (first input).bind (fun p => next p.1 p.2) = next a rest
  rw [read, Option.bind_some]

/-- What follows reads nothing more. -/
theorem Reads.bind_nil {first : Reader σ α} {next : α → Reader σ β} {piece : List σ} {a : α} {b : β}
    (before : Reads first piece a) (after : Reads (next a) [] b) :
    Reads (first >>= next) piece b := by
  have both := before.bind after
  rwa [List.append_nil] at both

theorem Reads.map {read : Reader σ α} {piece : List σ} {value : α} (reads : Reads read piece value)
    (f : α → β) : Reads (f <$> read) piece (f value) := by
  intro rest
  change (read (piece ++ rest)).bind (fun p => some (f p.1, p.2)) = some (f value, rest)
  rw [reads, Option.bind_some]

/-! ## Items -/

def next : Reader σ σ
  | [] => none
  | item :: rest => some (item, rest)

theorem reads_next (item : σ) : Reads next [item] item :=
  fun _ => rfl

/-- The next items, if there are as many. -/
def takeMany (count : Nat) : Reader σ (List σ) := fun input =>
  if input.length < count then none else some (input.take count, input.drop count)

theorem reads_takeMany (items : List σ) : Reads (takeMany items.length) items items := by
  intro rest
  have enough : ¬ (items ++ rest).length < items.length := by
    rw [List.length_append]
    omega
  rw [takeMany, if_neg enough, List.take_left, List.drop_left]

/-- The same reader a number of times. -/
def times (read : Reader σ α) : Nat → Reader σ (List α)
  | 0 => pure []
  | count + 1 => do
      let first ← read
      let later ← times read count
      return first :: later

theorem length_of_times {read : Reader σ α} {count : Nat} {input rest : List σ} {values : List α}
    (done : times read count input = some (values, rest)) : values.length = count := by
  induction count generalizing input values rest with
  | zero =>
      obtain ⟨rfl, rfl⟩ := Prod.mk.inj (Option.some.inj done)
      rfl
  | succ count ih =>
      obtain ⟨⟨first, middle⟩, -, more⟩ := Option.bind_eq_some_iff.mp done
      obtain ⟨⟨later, last⟩, others, same⟩ := Option.bind_eq_some_iff.mp more
      obtain ⟨rfl, rfl⟩ := Prod.mk.inj (Option.some.inj same)
      rw [List.length_cons, ih others]

theorem reads_times {read : Reader σ α} {pieces : List (List σ)} {values : List α}
    (each : List.Forall₂ (Reads read) pieces values) :
    Reads (times read values.length) pieces.flatten values := by
  induction each with
  | nil => exact reads_pure []
  | cons first _ ih => exact first.bind (ih.bind_nil (reads_pure _))

/-! ## Loops -/

/-- A round gives the state of the next round or the result. -/
def loop (round : β → Reader σ (β ⊕ γ)) : Nat → β → Reader σ γ
  | 0, _ => failure
  | fuel + 1, state => do
      match ← round state with
      | .inl state' => loop round fuel state'
      | .inr result => return result

/-- The loop, with fuel for every item of the input. -/
def untilDone (round : β → Reader σ (β ⊕ γ)) (state : β) : Reader σ γ :=
  fun input => loop round (input.length + 1) state input

/-- The rounds of a loop over a piece of input. -/
inductive Rounds (round : β → Reader σ (β ⊕ γ)) : β → List σ → γ → Prop
  | stop {state : β} {piece : List σ} {result : γ}
      (last : Reads (round state) piece (.inr result)) : Rounds round state piece result
  | more {state state' : β} {front back : List σ} {result : γ}
      (first : Reads (round state) front (.inl state')) (takes : front ≠ [])
      (later : Rounds round state' back result) : Rounds round state (front ++ back) result

theorem Rounds.loop {round : β → Reader σ (β ⊕ γ)} {state : β} {piece : List σ} {result : γ}
    (rounds : Rounds round state piece result) {fuel : Nat} (enough : piece.length < fuel) :
    Reads (loop round fuel state) piece result := by
  induction rounds generalizing fuel with
  | stop last =>
      obtain ⟨fuel, rfl⟩ := Nat.exists_eq_succ_of_ne_zero (Nat.ne_zero_of_lt enough)
      exact last.bind_nil (reads_pure _)
  | more first takes later ih =>
      obtain ⟨fuel, rfl⟩ := Nat.exists_eq_succ_of_ne_zero (Nat.ne_zero_of_lt enough)
      refine first.bind (ih ?_)
      have nonempty := List.length_pos_iff.mpr takes
      rw [List.length_append] at enough
      omega

/-- **Loops.** A loop reads what its rounds read. -/
theorem Rounds.reads {round : β → Reader σ (β ⊕ γ)} {state : β} {piece : List σ} {result : γ}
    (rounds : Rounds round state piece result) : Reads (untilDone round state) piece result := by
  intro rest
  apply rounds.loop
  rw [List.length_append]
  omega

/-! ## What a reader takes -/

/-- A value is read from a piece in front of the rest, which it holds of. -/
def Accepts (read : Reader σ α) (holds : List σ → α → Prop) : Prop :=
  ∀ input value rest, read input = some (value, rest) →
    ∃ piece, input = piece ++ rest ∧ holds piece value

theorem bind_eq_some {first : Reader σ α} {next : α → Reader σ β} {input rest : List σ} {b : β} :
    (first >>= next) input = some (b, rest) ↔
      ∃ a middle, first input = some (a, middle) ∧ next a middle = some (b, rest) := by
  change (first input).bind (fun p => next p.1 p.2) = some (b, rest) ↔ _
  rw [Option.bind_eq_some_iff]
  constructor
  · intro read
    obtain ⟨⟨a, middle⟩, before, after⟩ := read
    exact ⟨a, middle, before, after⟩
  · intro read
    obtain ⟨a, middle, before, after⟩ := read
    exact ⟨(a, middle), before, after⟩

theorem accepts_pure (value : α) :
    Accepts (pure value : Reader σ α) fun piece value' => piece = [] ∧ value' = value := by
  intro input value' rest read
  obtain ⟨rfl, rfl⟩ := Prod.mk.inj (Option.some.inj read)
  exact ⟨[], rfl, rfl, rfl⟩

theorem accepts_failure (holds : List σ → α → Prop) : Accepts (failure : Reader σ α) holds := by
  intro input value rest read
  cases read

theorem accepts_next : Accepts (next : Reader σ σ) fun piece item => piece = [item] := by
  intro input item rest read
  cases input with
  | nil => cases read
  | cons first others =>
      obtain ⟨rfl, rfl⟩ := Prod.mk.inj (Option.some.inj read)
      exact ⟨[first], rfl, rfl⟩

theorem accepts_takeMany (count : Nat) : Accepts (takeMany count : Reader σ (List σ))
    fun piece items => piece = items ∧ items.length = count := by
  intro input items rest read
  unfold takeMany at read
  split at read
  · cases read
  · rename_i enough
    obtain ⟨rfl, rfl⟩ := Prod.mk.inj (Option.some.inj read)
    refine ⟨_, (List.take_append_drop count input).symm, rfl, ?_⟩
    rw [List.length_take]
    omega

namespace Accepts

variable {read : Reader σ α} {holds : List σ → α → Prop}

theorem imp {weaker : List σ → α → Prop} (accepts : Accepts read holds)
    (implies : ∀ piece value, holds piece value → weaker piece value) : Accepts read weaker := by
  intro input value rest done
  obtain ⟨piece, split, known⟩ := accepts input value rest done
  exact ⟨piece, split, implies piece value known⟩

theorem bind {next : α → Reader σ β} {later : α → List σ → β → Prop}
    (before : Accepts read holds) (after : ∀ a, Accepts (next a) (later a)) :
    Accepts (read >>= next) fun piece b =>
      ∃ front a back, piece = front ++ back ∧ holds front a ∧ later a back b := by
  intro input b rest done
  obtain ⟨a, middle, first, second⟩ := bind_eq_some.mp done
  obtain ⟨front, rfl, known⟩ := before _ _ _ first
  obtain ⟨back, rfl, known'⟩ := after a _ _ _ second
  exact ⟨front ++ back, (List.append_assoc ..).symm, front, a, back, rfl, known, known'⟩

theorem map (accepts : Accepts read holds) (f : α → β) :
    Accepts (f <$> read) fun piece b => ∃ a, holds piece a ∧ b = f a := by
  intro input b rest done
  obtain ⟨⟨a, middle⟩, first, same⟩ := Option.bind_eq_some_iff.mp
    (show (read input).bind (fun p => some (f p.1, p.2)) = some (b, rest) from done)
  obtain ⟨rfl, rfl⟩ := Prod.mk.inj (Option.some.inj same)
  obtain ⟨piece, split, known⟩ := accepts _ _ _ first
  exact ⟨piece, split, a, known, rfl⟩

end Accepts

/-- The reader takes so many items at least, all of them from the input. -/
def Consumes (read : Reader σ α) (least : Nat) : Prop :=
  Accepts read fun piece _ => least ≤ piece.length

theorem consumes_pure (value : α) : Consumes (pure value : Reader σ α) 0 :=
  (accepts_pure value).imp fun _ _ _ => Nat.zero_le _

theorem consumes_failure (least : Nat) : Consumes (failure : Reader σ α) least :=
  accepts_failure _

theorem consumes_next : Consumes (next : Reader σ σ) 1 := by
  refine accepts_next.imp fun piece item one => ?_
  rw [one]
  exact Nat.le_refl 1

theorem consumes_takeMany (count : Nat) : Consumes (takeMany count : Reader σ (List σ)) count := by
  refine (accepts_takeMany count).imp fun piece items known => ?_
  rw [known.1]
  exact Nat.le_of_eq known.2.symm

namespace Consumes

variable {read : Reader σ α} {least : Nat}

theorem mono (consumes : Consumes read least) {fewer : Nat} (le : fewer ≤ least) :
    Consumes read fewer :=
  Accepts.imp consumes fun _ _ taken => Nat.le_trans le taken

theorem bind {next : α → Reader σ β} {more : Nat} (before : Consumes read least)
    (after : ∀ a, Consumes (next a) more) : Consumes (read >>= next) (least + more) := by
  refine (Accepts.bind before after).imp fun piece b split => ?_
  obtain ⟨front, a, back, rfl, taken, taken'⟩ := split
  rw [List.length_append]
  omega

/-- What comes first takes enough. -/
theorem bind_left {next : α → Reader σ β} (before : Consumes read least)
    (after : ∀ a, Consumes (next a) 0) : Consumes (read >>= next) least :=
  before.bind after

theorem map (consumes : Consumes read least) (f : α → β) : Consumes (f <$> read) least := by
  refine (Accepts.map consumes f).imp fun piece b taken => ?_
  obtain ⟨_, taken, _⟩ := taken
  exact taken

theorem ite {condition : Prop} [Decidable condition] {other : Reader σ α}
    (first : Consumes read least) (second : Consumes other least) :
    Consumes (if condition then read else other) least := by
  split
  · exact first
  · exact second

theorem times (consumes : Consumes read least) (count : Nat) :
    Consumes (times read count) (count * least) := by
  induction count with
  | zero =>
      rw [Nat.zero_mul]
      exact consumes_pure _
  | succ count ih =>
      rw [Nat.succ_mul, Nat.add_comm (count * least)]
      exact consumes.bind fun first => ih.bind_left fun later => consumes_pure _

/-- A loop takes at least what its first round takes. -/
theorem untilDone {round : β → Reader σ (β ⊕ γ)} (each : ∀ state, Consumes (round state) least)
    (state : β) : Consumes (untilDone round state) least := by
  have rounds (fuel : Nat) : ∀ state, Consumes (loop round fuel state) least := by
    induction fuel with
    | zero => exact fun state => consumes_failure least
    | succ fuel ih =>
        intro state
        refine (each state).bind_left fun outcome => ?_
        cases outcome with
        | inl state' => exact (ih state').mono (Nat.zero_le _)
        | inr result => exact consumes_pure result
  exact fun input => rounds (input.length + 1) state input

end Consumes

/-- Rounds that end with a result, by what each of them holds of. -/
inductive Steps (holds : β → List σ → β ⊕ γ → Prop) : β → List σ → γ → Prop
  | stop {state : β} {piece : List σ} {result : γ} (last : holds state piece (.inr result)) :
      Steps holds state piece result
  | more {state state' : β} {front back : List σ} {result : γ}
      (first : holds state front (.inl state')) (later : Steps holds state' back result) :
      Steps holds state (front ++ back) result

theorem Accepts.loop {round : β → Reader σ (β ⊕ γ)} {holds : β → List σ → β ⊕ γ → Prop}
    (each : ∀ state, Accepts (round state) (holds state)) (fuel : Nat) (state : β) :
    Accepts (loop round fuel state) (Steps holds state) := by
  induction fuel generalizing state with
  | zero => exact accepts_failure _
  | succ fuel ih =>
      intro input result rest done
      obtain ⟨outcome, middle, first, second⟩ := bind_eq_some.mp done
      obtain ⟨front, rfl, known⟩ := each state _ _ _ first
      cases outcome with
      | inl state' =>
          obtain ⟨back, rfl, later⟩ := ih state' _ _ _ second
          exact ⟨front ++ back, (List.append_assoc ..).symm, .more known later⟩
      | inr last =>
          obtain ⟨rfl, rfl⟩ := Prod.mk.inj (Option.some.inj second)
          exact ⟨front, rfl, .stop known⟩

theorem Accepts.untilDone {round : β → Reader σ (β ⊕ γ)} {holds : β → List σ → β ⊕ γ → Prop}
    (each : ∀ state, Accepts (round state) (holds state)) (state : β) :
    Accepts (untilDone round state) (Steps holds state) :=
  fun input => Accepts.loop each (input.length + 1) state input

/-! ## Loops without fuel -/

/-- A round as a step on the state and the input that is left. -/
def stepOf (round : β → Reader σ (β ⊕ γ)) (s : β × List σ) :
    Option ((β × List σ) ⊕ (γ × List σ)) :=
  (round s.1 s.2).map fun read =>
    match read.1 with
    | .inl state' => .inl (state', read.2)
    | .inr result => .inr (result, read.2)

/-- The loop ends on the input with the outcome. -/
def Ends (round : β → Reader σ (β ⊕ γ)) (state : β) (input : List σ)
    (outcome : Option (γ × List σ)) : Prop :=
  Loops.Ends (stepOf round) (state, input) outcome

theorem loop_eq_run (round : β → Reader σ (β ⊕ γ)) (fuel : Nat) (state : β) (input : List σ) :
    loop round fuel state input = Loops.run (stepOf round) fuel (state, input) := by
  induction fuel generalizing state input with
  | zero => rfl
  | succ fuel ih =>
      rw [Loops.run, stepOf]
      cases read : round state input with
      | none =>
          change (round state input).bind _ = none
          rw [read, Option.bind_none]
      | some outcome =>
          obtain ⟨outcome, rest⟩ := outcome
          rw [show loop round (fuel + 1) state input = _ from bind_of_read read]
          cases outcome with
          | inl state' => exact ih state' rest
          | inr result => rfl

/-- Every round that is not the last takes something off the input. -/
def Progresses (round : β → Reader σ (β ⊕ γ)) : Prop :=
  Loops.Decreases (stepOf round) fun s => s.2.length

theorem progresses_of_accepts {round : β → Reader σ (β ⊕ γ)}
    (each : ∀ state, Accepts (round state) fun piece outcome =>
      outcome.isLeft = true → piece ≠ []) : Progresses round := by
  intro s s' continues
  obtain ⟨⟨outcome, rest⟩, read, same⟩ := Option.map_eq_some_iff.mp continues
  cases outcome with
  | inr result => cases same
  | inl state' =>
      obtain rfl := Sum.inl.inj same
      obtain ⟨piece, split, some_⟩ := each s.1 _ _ _ read
      have positive := List.length_pos_iff.mpr (some_ rfl)
      change rest.length < s.2.length
      rw [split, List.length_append]
      omega

theorem Consumes.progresses {round : β → Reader σ (β ⊕ γ)}
    (each : ∀ state, Consumes (round state) 1) : Progresses round :=
  progresses_of_accepts fun state =>
    Accepts.imp (each state) fun _ _ taken _ => List.length_pos_iff.mp taken

/-- **Termination.** A loop that progresses ends, as the loop with fuel says. -/
theorem ends_untilDone {round : β → Reader σ (β ⊕ γ)} (progresses : Progresses round)
    (state : β) (input : List σ) : Ends round state input (untilDone round state input) := by
  rw [untilDone, loop_eq_run]
  exact Loops.ends_run progresses (Nat.lt_succ_self _)

/-! ## Two pieces read alike -/

/-- On every input that begins with the piece, the reader takes it or refuses. -/
def Gives (read : Reader σ α) (piece : List σ) (outcome : Option α) : Prop :=
  ∀ rest, read (piece ++ rest) = outcome.map fun value => (value, rest)

/-- The pieces give the same, whatever follows them. -/
def Alike (read : Reader σ α) (piece piece' : List σ) : Prop :=
  ∃ outcome, Gives read piece outcome ∧ Gives read piece' outcome

theorem Gives.bind {first : Reader σ α} {next : α → Reader σ β} {front back : List σ}
    {outcome : Option α} {later : α → Option β} (before : Gives first front outcome)
    (after : ∀ a, outcome = some a → Gives (next a) back (later a)) :
    Gives (first >>= next) (front ++ back) (outcome.bind later) := by
  intro rest
  rw [List.append_assoc]
  change (first (front ++ (back ++ rest))).bind (fun p => next p.1 p.2) = _
  rw [before]
  cases outcome with
  | none => rfl
  | some a => exact after a rfl rest

/-- A round that goes on, if it does not refuse, and the rounds after it. -/
theorem Gives.loop {round : β → Reader σ (β ⊕ γ)} {fuel : Nat} {state : β} {front back : List σ}
    {outcome : Option β} {later : β → Option γ}
    (first : Gives (round state) front (outcome.map .inl))
    (after : ∀ s, outcome = some s → Gives (loop round fuel s) back (later s)) :
    Gives (loop round (fuel + 1) state) (front ++ back) (outcome.bind later) := by
  intro rest
  have read := first (back ++ rest)
  rw [List.append_assoc]
  cases outcome with
  | none =>
      change (round state (front ++ (back ++ rest))).bind _ = none
      rw [read]
      rfl
  | some s => exact (bind_of_read read).trans (after s rfl rest)

theorem Reads.alike {read : Reader σ α} {piece piece' : List σ} {value : α}
    (reads : Reads read piece value) (reads' : Reads read piece' value) : Alike read piece piece' :=
  ⟨some value, reads, reads'⟩

theorem alike_pure (value : α) : Alike (pure value : Reader σ α) [] [] :=
  (reads_pure value).alike (reads_pure value)

theorem alike_failure (piece piece' : List σ) : Alike (failure : Reader σ α) piece piece' :=
  ⟨none, fun _ => rfl, fun _ => rfl⟩

namespace Alike

variable {read : Reader σ α} {next : α → Reader σ β} {front front' back back' : List σ}

theorem bind (before : Alike read front front') (after : ∀ a, Alike (next a) back back') :
    Alike (read >>= next) (front ++ back) (front' ++ back') := by
  obtain ⟨outcome, first, first'⟩ := before
  have later (a : α) : Gives (next a) back (after a).choose ∧ Gives (next a) back' (after a).choose :=
    (after a).choose_spec
  exact ⟨_, first.bind fun a _ => (later a).1, first'.bind fun a _ => (later a).2⟩

/-- What follows takes nothing. -/
theorem bind_nil (before : Alike read front front') (after : ∀ a, Alike (next a) [] []) :
    Alike (read >>= next) front front' := by
  have both := before.bind after
  rwa [List.append_nil, List.append_nil] at both

theorem map (alike : Alike read front front') (f : α → β) : Alike (f <$> read) front front' := by
  obtain ⟨outcome, gives, gives'⟩ := alike
  refine ⟨outcome.map f, fun rest => ?_, fun rest => ?_⟩
  · change (read (front ++ rest)).bind (fun p => some (f p.1, p.2)) = _
    rw [gives]
    cases outcome <;> rfl
  · change (read (front' ++ rest)).bind (fun p => some (f p.1, p.2)) = _
    rw [gives']
    cases outcome <;> rfl

theorem times {pieces pieces' : List (List σ)} (each : List.Forall₂ (Alike read) pieces pieces') :
    Alike (times read pieces.length) pieces.flatten pieces'.flatten := by
  induction each with
  | nil => exact alike_pure []
  | cons first _ ih => exact first.bind fun a => ih.bind_nil fun later => alike_pure _

end Alike

end Readers
