import Mathlib.Data.List.Basic

/-! # Texts cut between their units

A unit is a symbol that starts one, followed by symbols that continue it. A text of units
may be cut wherever the next symbol does not continue a unit, since no unit is split there
(`Synchronized.split`). Positions are moved to such a place backwards
(`Synchronized.boundary`) or forwards, past what continues.
-/

namespace Synchronized

variable {α : Type} {continues : α → Bool}

/-- A symbol that starts a unit, and symbols that continue it. -/
inductive IsUnit (continues : α → Bool) : List α → Prop
  | mk {lead : α} {rest : List α} (starts : continues lead = false)
      (others : ∀ symbol ∈ rest, continues symbol = true) : IsUnit continues (lead :: rest)

/-- The text does not go on inside a unit. -/
def Starts (continues : α → Bool) (text : List α) : Prop :=
  ∀ symbol ∈ text.head?, continues symbol = false

theorem starts_nil : Starts continues [] := by
  intro symbol member
  cases member

theorem IsUnit.starts {unit : List α} (isUnit : IsUnit continues unit) (rest : List α) :
    Starts continues (unit ++ rest) := by
  obtain ⟨starts, -⟩ := isUnit
  intro symbol first
  obtain rfl := Option.some.inj first
  exact starts

/-- A text is cut between two of its units. -/
theorem split {units : List (List α)} (areUnits : ∀ unit ∈ units, IsUnit continues unit)
    {front back : List α} (spells : units.flatten = front ++ back) (starts : Starts continues back) :
    ∃ before after, units = before ++ after ∧ front = before.flatten ∧ back = after.flatten := by
  induction units generalizing front with
  | nil =>
      obtain ⟨rfl, rfl⟩ := List.append_eq_nil_iff.mp spells.symm
      exact ⟨[], [], rfl, rfl, rfl⟩
  | cons unit units ih =>
      have others : ∀ other ∈ units, IsUnit continues other := fun other member =>
        areUnits other (List.mem_cons_of_mem _ member)
      rw [List.flatten_cons] at spells
      rcases List.append_eq_append_iff.mp spells with ⟨later, rfl, rest⟩ | ⟨inside, cut, rfl⟩
      · obtain ⟨before, after, rfl, rfl, rfl⟩ := ih others rest
        exact ⟨unit :: before, after, rfl, rfl, rfl⟩
      · cases front with
        | nil => exact ⟨[], unit :: units, rfl, rfl, by rw [List.flatten_cons, cut]; rfl⟩
        | cons lead front =>
            cases inside with
            | nil =>
                rw [List.append_nil] at cut
                exact ⟨[unit], units, rfl, by rw [cut]; simp, rfl⟩
            | cons symbol inside =>
                -- here the cut would be in front of a symbol that continues the unit
                obtain ⟨-, continued⟩ := cut ▸ areUnits unit List.mem_cons_self
                have stops := starts symbol rfl
                rw [continued symbol (by simp)] at stops
                cases stops

/-! ## Moving a position out of a unit -/

/-- The last position from `pos` back where no unit goes on. -/
def boundary (continues : α → Bool) (text : List α) : ℕ → ℕ
  | 0 => 0
  | pos + 1 =>
      if (text[pos + 1]?).any continues then boundary continues text pos else pos + 1

theorem boundary_le (text : List α) (pos : ℕ) : boundary continues text pos ≤ pos := by
  induction pos with
  | zero => exact Nat.le_refl 0
  | succ pos ih =>
      rw [boundary]
      split
      · exact Nat.le_succ_of_le ih
      · exact Nat.le_refl _

/-- Nothing is cut off in front of the boundary, or no unit goes on there. -/
theorem boundary_starts (text : List α) (pos : ℕ) :
    boundary continues text pos = 0 ∨
      Starts continues (text.drop (boundary continues text pos)) := by
  induction pos with
  | zero => exact .inl rfl
  | succ pos ih =>
      rw [boundary]
      by_cases inside : (text[pos + 1]?).any continues = true
      · rw [if_pos inside]
        exact ih
      · rw [if_neg inside]
        refine .inr fun symbol member => ?_
        rw [List.head?_drop, Option.mem_def] at member
        rw [member] at inside
        simpa using inside

/-- No unit goes on at the position. -/
def IsBoundary (continues : α → Bool) (text : List α) (pos : ℕ) : Prop :=
  pos = 0 ∨ Starts continues (text.drop pos)

theorem length_isBoundary (text : List α) : IsBoundary continues text text.length := by
  refine .inr ?_
  rw [List.drop_length]
  exact starts_nil

theorem boundary_isBoundary (text : List α) (pos : ℕ) :
    IsBoundary continues text (boundary continues text pos) :=
  boundary_starts text pos

/-- No boundary is passed over. -/
theorem le_boundary {text : List α} {k pos : ℕ} (isBoundary : IsBoundary continues text k)
    (before : k ≤ pos) : k ≤ boundary continues text pos := by
  induction pos with
  | zero => exact before
  | succ pos ih =>
      rw [boundary]
      rcases Nat.lt_or_eq_of_le before with earlier | rfl
      · split
        · exact ih (Nat.le_of_lt_succ earlier)
        · exact before
      · rcases isBoundary with zero | starts
        · cases zero
        · have outside : ¬ (text[pos + 1]?).any continues = true := by
            intro inside
            obtain ⟨symbol, is, continued⟩ := (Option.any_eq_true _ _).mp inside
            rw [starts symbol (by rw [List.head?_drop]; exact is)] at continued
            cases continued
          exact Nat.le_of_eq (if_neg outside).symm

theorem boundary_mono (text : List α) {k k' : ℕ} (le : k ≤ k') :
    boundary continues text k ≤ boundary continues text k' :=
  le_boundary (boundary_isBoundary text k) (Nat.le_trans (boundary_le text k) le)

theorem starts_dropWhile (text : List α) : Starts continues (text.dropWhile continues) := by
  intro symbol member
  have stops := List.head?_dropWhile_not continues text
  rw [Option.mem_def.mp member] at stops
  exact stops

/-- The first position from `pos` on where no unit goes on. -/
def nextBoundary (continues : α → Bool) (text : List α) (pos : ℕ) : ℕ :=
  pos + ((text.drop pos).takeWhile continues).length

theorem drop_nextBoundary (text : List α) (pos : ℕ) :
    text.drop (nextBoundary continues text pos) = (text.drop pos).dropWhile continues := by
  have split : (text.drop pos).takeWhile continues ++ (text.drop pos).dropWhile continues =
      text.drop pos := List.takeWhile_append_dropWhile
  unfold nextBoundary
  rw [← List.drop_drop]
  generalize (text.drop pos).takeWhile continues = front at split ⊢
  generalize (text.drop pos).dropWhile continues = back at split ⊢
  rw [← split, List.drop_left]

theorem nextBoundary_isBoundary (text : List α) (pos : ℕ) :
    IsBoundary continues text (nextBoundary continues text pos) := by
  refine .inr ?_
  rw [drop_nextBoundary]
  exact starts_dropWhile _

theorem le_nextBoundary (text : List α) (pos : ℕ) : pos ≤ nextBoundary continues text pos :=
  Nat.le_add_right ..

theorem nextBoundary_le_length {text : List α} {pos : ℕ} (inside : pos ≤ text.length) :
    nextBoundary continues text pos ≤ text.length := by
  have size := (List.takeWhile_sublist continues (l := text.drop pos)).length_le
  rw [List.length_drop] at size
  unfold nextBoundary
  omega

/-- No boundary is passed over. -/
theorem nextBoundary_le {text : List α} {pos k : ℕ} (positive : 0 < k)
    (isBoundary : IsBoundary continues text k) (after : pos ≤ k) :
    nextBoundary continues text pos ≤ k := by
  refine Nat.le_of_not_lt fun passed => ?_
  unfold nextBoundary at passed
  have starts := isBoundary.resolve_left (Nat.ne_of_gt positive)
  have inside : k - pos < ((text.drop pos).takeWhile continues).length := by omega
  have member := List.getElem_mem inside
  have continued := List.all_eq_true.mp List.all_takeWhile _ member
  have front : ((text.drop pos).takeWhile continues)[k - pos]? = (text.drop pos)[k - pos]? := by
    conv_rhs => rw [← List.takeWhile_append_dropWhile (p := continues) (l := text.drop pos)]
    rw [List.getElem?_append_left inside]
  rw [List.getElem?_eq_getElem inside, List.getElem?_drop, Nat.add_sub_cancel' after] at front
  have stops := starts _ (by rw [List.head?_drop]; exact front.symm)
  rw [continued] at stops
  cases stops

theorem nextBoundary_mono {text : List α} {pos pos' : ℕ} (le : pos ≤ pos') (positive : 0 < pos') :
    nextBoundary continues text pos ≤ nextBoundary continues text pos' :=
  nextBoundary_le (Nat.lt_of_lt_of_le positive (le_nextBoundary text pos'))
    (nextBoundary_isBoundary text pos') (Nat.le_trans le (le_nextBoundary text pos'))

end Synchronized
