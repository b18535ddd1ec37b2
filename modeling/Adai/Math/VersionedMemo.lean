import Adai.Math.Tables

/-! # Memo tables for versions of a state

A function of a state and an input is memoised in tables, each kept under the number
of the version of the state that it was filled for. A number stands for one state from
the moment it is issued (`VersionedMemo.Stands`): a state that changes takes the next
number, and a copy keeps the number of its original. So a table whose results are
those of the state its number stands for (`VersionedMemo.Sound`) serves every owner of
the number, and asking it changes no result (`VersionedMemo.Sound.memoise`). There are
only so many tables, of which the one used least recently makes room, and only so
many results in each.
-/

namespace VersionedMemo

open Tables

variable {σ κ ρ : Type*}

/-! ## Numbers and what they stand for -/

/-- The number was issued, for this state. -/
def Stands (meaning : Nat → σ) (issued number : Nat) (state : σ) : Prop :=
  number < issued ∧ meaning number = state

/-- Numbers were issued; those issued before keep their meaning. -/
structure Extends (meaning : Nat → σ) (issued : Nat) (meaning' : Nat → σ) (issued' : Nat) : Prop where
  more : issued ≤ issued'
  kept : ∀ number < issued, meaning' number = meaning number

theorem Extends.refl (meaning : Nat → σ) (issued : Nat) : Extends meaning issued meaning issued :=
  ⟨Nat.le_refl _, fun _ _ => rfl⟩

/-- Of the numbers that are issued one is for a new state; the others go unused. -/
theorem Extends.issue (meaning : Nat → σ) {issued number issued' : Nat} (state : σ)
    (fresh : issued ≤ number) (below : number < issued') :
    Extends meaning issued (Function.update meaning number state) issued' := by
  refine ⟨by omega, fun earlier before => ?_⟩
  apply Function.update_of_ne
  omega

theorem Stands.mono {meaning meaning' : Nat → σ} {issued issued' number : Nat} {state : σ}
    (stands : Stands meaning issued number state)
    (later : Extends meaning issued meaning' issued') : Stands meaning' issued' number state :=
  ⟨Nat.lt_of_lt_of_le stands.1 later.more, (later.kept number stands.1).trans stands.2⟩

/-! ## Tables -/

/-- Tables by number, the one used last at the end. -/
abbrev Caches (κ ρ : Type*) := List (Nat × Table κ ρ)

variable [DecidableEq κ]

/-- The other tables and that of the number, which may be new. -/
def select (capacity number : Nat) (caches : Caches κ ρ) : Caches κ ρ × Table κ ρ :=
  match caches.find? fun entry => entry.1 = number with
  | some entry => (caches.eraseP fun entry => entry.1 = number, entry.2)
  | none => (if capacity ≤ caches.length then caches.tail else caches, ∅)

/-- The function's result at an input, from the table of the number if it is there. -/
def memoise (f : κ → ρ) (capacity room number : Nat) (caches : Caches κ ρ) (input : κ) :
    ρ × Caches κ ρ :=
  let (others, table) := select capacity number caches
  match table.lookup input with
  | some result => (result, others ++ [(number, table)])
  | none =>
      let table := if room ≤ size table then ∅ else table
      (f input, others ++ [(number, table.insert input (f input))])

/-- The results in the table are the function's. -/
def Agrees (f : κ → ρ) (table : Table κ ρ) : Prop :=
  ∀ input result, table.lookup input = some result → result = f input

theorem Agrees.empty (f : κ → ρ) : Agrees f ∅ := by
  intro input result found
  rw [AList.lookup_empty] at found
  cases found

theorem Agrees.insert {f : κ → ρ} {table : Table κ ρ} (agrees : Agrees f table) (input : κ) :
    Agrees f (table.insert input (f input)) := by
  intro other result found
  rw [lookup_insert_eq] at found
  by_cases same : other = input
  · rw [if_pos same] at found
    rw [same]
    exact (Option.some.inj found).symm
  · rw [if_neg same] at found
    exact agrees other result found

/-- Each table has results of the state its number stands for. -/
def Sound (f : σ → κ → ρ) (meaning : Nat → σ) (issued : Nat) (caches : Caches κ ρ) : Prop :=
  ∀ entry ∈ caches, entry.1 < issued ∧ Agrees (f (meaning entry.1)) entry.2

namespace Sound

variable {f : σ → κ → ρ} {meaning meaning' : Nat → σ} {issued issued' : Nat} {caches : Caches κ ρ}

theorem nil (f : σ → κ → ρ) (meaning : Nat → σ) (issued : Nat) :
    Sound f meaning issued ([] : Caches κ ρ) := by
  intro entry member
  cases member

theorem mono (sound : Sound f meaning issued caches)
    (later : Extends meaning issued meaning' issued') : Sound f meaning' issued' caches := by
  intro entry member
  obtain ⟨below, agrees⟩ := sound entry member
  refine ⟨Nat.lt_of_lt_of_le below later.more, ?_⟩
  rwa [later.kept entry.1 below]

theorem select (sound : Sound f meaning issued caches) (capacity number : Nat) :
    Sound f meaning issued (select capacity number caches).1 ∧
      Agrees (f (meaning number)) (VersionedMemo.select capacity number caches).2 := by
  unfold VersionedMemo.select
  cases found : caches.find? fun entry => entry.1 = number with
  | some entry =>
      have same : entry.1 = number := by simpa using List.find?_some found
      refine ⟨fun other member => sound other (List.mem_of_mem_eraseP member), ?_⟩
      rw [← same]
      exact (sound entry (List.mem_of_find?_eq_some found)).2
  | none =>
      refine ⟨fun other member => ?_, .empty _⟩
      dsimp only at member
      split at member
      · exact sound other (List.mem_of_mem_tail member)
      · exact sound other member

/-- **Memoising.** With the number of its state, the function's result is what it is
without tables, and the tables stay sound. -/
theorem memoise (sound : Sound f meaning issued caches) {number : Nat} {state : σ}
    (stands : Stands meaning issued number state) (capacity room : Nat) (input : κ) :
    (memoise (f state) capacity room number caches input).1 = f state input ∧
      Sound f meaning issued
        (VersionedMemo.memoise (f state) capacity room number caches input).2 := by
  obtain ⟨below, rfl⟩ := stands
  obtain ⟨others, agrees⟩ := sound.select capacity number
  have appended {table : Table κ ρ} (right : Agrees (f (meaning number)) table) :
      Sound f meaning issued ((VersionedMemo.select capacity number caches).1 ++ [(number, table)]) := by
    intro entry member
    rcases List.mem_append.mp member with other | last
    · exact others entry other
    · rw [List.mem_singleton.mp last]
      exact ⟨below, right⟩
  unfold VersionedMemo.memoise
  dsimp only
  cases found : (VersionedMemo.select capacity number caches).2.lookup input with
  | some result => exact ⟨agrees input result found, appended agrees⟩
  | none =>
      refine ⟨rfl, appended (Agrees.insert ?_ input)⟩
      split
      · exact .empty _
      · exact agrees

end Sound

end VersionedMemo
