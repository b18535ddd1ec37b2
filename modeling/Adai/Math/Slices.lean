import Mathlib.Data.List.Basic

/-! # Serving a source in slices

A source is a sequence of portions, each of any number of items. It is served in
slices: a slice starts at a cursor, gives as many items as its budget, and leaves the
cursor behind the last portion it touched. What is read from a cursor on may depend on
the cursor. The slices of every sequence of budgets compose to the whole exactly when
no portion has two items and reading from behind a portion that gave an item goes on as
the reading from the start does (`compose_iff_steady`).
-/

namespace Slices

variable {α : Type*}

/-- The items of the portions, each with the number of its portion. -/
def label (first : Nat) : List (List α) → List (Nat × α)
  | [] => []
  | portion :: portions => portion.map (first, ·) ++ label (first + 1) portions

/-- The number of portions that are touched before a budget is used up. -/
def taken (budget : Nat) : List (List α) → Nat
  | [] => 0
  | portion :: portions =>
      if budget = 0 then 0 else taken (budget - portion.length) portions + 1

theorem label_append (first : Nat) (front back : List (List α)) :
    label first (front ++ back) = label first front ++ label (first + front.length) back := by
  induction front generalizing first with
  | nil => rfl
  | cons portion front hypothesis =>
    rw [List.cons_append, label, label, hypothesis, List.append_assoc, List.length_cons,
      Nat.add_assoc, Nat.add_comm 1]

@[simp] theorem length_label (first : Nat) (portions : List (List α)) :
    (label first portions).length = portions.flatten.length := by
  induction portions generalizing first with
  | nil => rfl
  | cons portion portions hypothesis =>
    rw [label, List.length_append, List.length_map, hypothesis, List.flatten_cons,
      List.length_append]

theorem le_of_mem_label {first : Nat} {portions : List (List α)} {item : Nat × α}
    (member : item ∈ label first portions) : first ≤ item.1 := by
  induction portions generalizing first with
  | nil => cases member
  | cons portion portions hypothesis =>
    obtain here | later := List.mem_append.mp member
    · obtain ⟨_, _, rfl⟩ := List.mem_map.mp here
      exact Nat.le_refl first
    · exact Nat.le_of_succ_le (hypothesis later)

/-- The labels tell the portions apart. -/
theorem label_injective {first : Nat} {portions others : List (List α)}
    (lengths : portions.length = others.length)
    (same : label first portions = label first others) : portions = others := by
  have head (first : Nat) (portion : List α) (rest : List (List α)) :
      (label first (portion :: rest)).filter (fun item => item.1 = first) =
        portion.map (first, ·) := by
    have later : ∀ item ∈ label (first + 1) rest, ¬item.1 = first := by
      intro item member equal
      have above := le_of_mem_label member
      omega
    rw [label, List.filter_append, List.filter_eq_self.mpr (by simp),
      List.filter_eq_nil_iff.mpr (by simpa using later), List.append_nil]
  induction portions generalizing first others with
  | nil => exact (List.eq_nil_of_length_eq_zero lengths.symm).symm
  | cons portion portions hypothesis =>
    cases others with
    | nil => cases lengths
    | cons other others =>
      have heads := congrArg (List.filter fun item => item.1 = first) same
      rw [head, head] at heads
      have equal : portion = other :=
        List.map_injective_iff.mpr (fun _ _ pair => (Prod.mk.inj pair).2) heads
      subst equal
      rw [hypothesis (Nat.succ.inj lengths) (List.append_cancel_left same)]

@[simp] theorem taken_zero (portions : List (List α)) : taken 0 portions = 0 := by
  cases portions <;> rfl

/-- A budget that reaches beyond the front is spent on what follows. -/
theorem taken_append (front rest : List (List α)) {budget : Nat} (more : 0 < budget) :
    taken (front.flatten.length + budget) (front ++ rest) = front.length + taken budget rest := by
  induction front with
  | nil => simp
  | cons portion front hypothesis =>
    have spent : (portion :: front).flatten.length + budget - portion.length =
        front.flatten.length + budget := by
      rw [List.flatten_cons, List.length_append]
      omega
    rw [List.cons_append, taken, if_neg (by omega), spent, hypothesis, List.length_cons]
    omega

/-- When no portion has two items, a slice ends with the portion of its last item. -/
theorem exists_slice {portions : List (List α)} (single : ∀ portion ∈ portions, portion.length ≤ 1)
    {budget : Nat} (enough : budget ≤ portions.flatten.length) (first : Nat) :
    ∃ front back, portions = front ++ back ∧ taken budget portions = front.length ∧
      (label first portions).take budget = label first front ∧
      (budget ≠ 0 → ∃ earlier portion, front = earlier ++ [portion] ∧ portion ≠ []) := by
  induction portions generalizing first budget with
  | nil =>
    obtain rfl := Nat.le_zero.mp enough
    exact ⟨[], [], rfl, rfl, rfl, fun positive => absurd rfl positive⟩
  | cons portion portions hypothesis =>
    by_cases none_ : budget = 0
    · exact ⟨[], portion :: portions, rfl, by simp [taken, none_], by simp [none_, label],
        fun positive => absurd none_ positive⟩
    have one := single portion List.mem_cons_self
    rw [List.flatten_cons, List.length_append] at enough
    obtain ⟨front, back, split, reached, read, last⟩ :=
      hypothesis (fun other member => single other (List.mem_cons_of_mem _ member))
        (show budget - portion.length ≤ portions.flatten.length by omega) (first + 1)
    refine ⟨portion :: front, back, by rw [split, List.cons_append], ?_, ?_, fun _ => ?_⟩
    · rw [taken, if_neg none_, reached, List.length_cons]
    · rw [label, label, List.take_append, List.length_map, read,
        List.take_of_length_le (by rw [List.length_map]; omega)]
    · by_cases left : budget - portion.length = 0
      · have some_ : portion ≠ [] := by
          intro empty
          rw [empty] at left
          exact none_ left
        have ended : front = [] := by
          rw [left, taken_zero] at reached
          exact List.eq_nil_of_length_eq_zero reached.symm
        exact ⟨[], portion, by rw [ended]; rfl, some_⟩
      · obtain ⟨earlier, final, ends, some_⟩ := last left
        exact ⟨portion :: earlier, final, by rw [ends, List.cons_append], some_⟩

/-! ## Slices of a source -/

section Source

-- what is read from each cursor on, portion by portion
variable (reads : Nat → List (List α))

/-- All that is left from a cursor on. -/
def output (cursor : Nat) : List (Nat × α) := label cursor (reads cursor)

/-- The items of consecutive slices and the cursor behind them. -/
def served (cursor : Nat) : List Nat → List (Nat × α) × Nat
  | [] => ([], cursor)
  | budget :: budgets =>
      let (items, last) := served (cursor + taken budget (reads cursor)) budgets
      ((output reads cursor).take budget ++ items, last)

/-- No slice asks for more than what is left. -/
def Lasts (cursor : Nat) : List Nat → Prop
  | [] => True
  | budget :: budgets =>
      budget ≤ (output reads cursor).length ∧
        Lasts (cursor + taken budget (reads cursor)) budgets

/-- Slices of any budgets and what they leave are the whole, item by item. -/
def Compose : Prop :=
  ∀ budgets, Lasts reads 0 budgets →
    (served reads 0 budgets).1 ++ output reads (served reads 0 budgets).2 = output reads 0

/-- No portion has two items, and from behind a portion with an item the source reads on as
it does from the start. -/
def Steady : Prop :=
  (∀ portion ∈ reads 0, portion.length ≤ 1) ∧
    ∀ front portion back, reads 0 = front ++ portion :: back → portion ≠ [] →
      reads (front.length + 1) = back

variable {reads}

theorem served_of_steady (steady : Steady reads) {cursor : Nat}
    (reached : ∃ front, reads 0 = front ++ reads cursor ∧ front.length = cursor)
    {budgets : List Nat} (lasts : Lasts reads cursor budgets) :
    (served reads cursor budgets).1 ++ output reads (served reads cursor budgets).2 =
      output reads cursor := by
  induction budgets generalizing cursor with
  | nil => rfl
  | cons budget budgets hypothesis =>
    obtain ⟨enough, lasts⟩ := lasts
    obtain ⟨before, start, position⟩ := reached
    have single : ∀ portion ∈ reads cursor, portion.length ≤ 1 := fun portion member =>
      steady.1 portion (start ▸ List.mem_append_right before member)
    rw [output, length_label] at enough
    obtain ⟨front, back, split, touched, read, last⟩ := exists_slice single enough cursor
    have next : reads (cursor + front.length) = back := by
      by_cases none_ : budget = 0
      · rw [none_, taken_zero] at touched
        rw [List.eq_nil_of_length_eq_zero touched.symm] at split ⊢
        exact split
      · obtain ⟨earlier, portion, ends, some_⟩ := last none_
        have whole : reads 0 = (before ++ earlier) ++ portion :: back := by
          rw [start, split, ends]
          simp
        rw [← steady.2 (before ++ earlier) portion back whole some_, ends, List.length_append,
          List.length_append, position]
        rfl
    have arrived : ∃ earlier, reads 0 = earlier ++ reads (cursor + front.length) ∧
        earlier.length = cursor + front.length :=
      ⟨before ++ front, by rw [start, next, split, List.append_assoc],
        by rw [List.length_append, position]⟩
    have continued := hypothesis arrived (touched ▸ lasts)
    rw [served, touched]
    calc (output reads cursor).take budget ++ (served reads (cursor + front.length) budgets).1 ++
          output reads (served reads (cursor + front.length) budgets).2
        = label cursor front ++ output reads (cursor + front.length) := by
          rw [List.append_assoc, continued, output, read]
      _ = output reads cursor := by
          rw [output, next, output, split, label_append]

/-- Every portion that a slice cut or ended at shows what composing needs. -/
theorem steady_of_compose {total : Nat} (lengths : ∀ cursor, (reads cursor).length = total - cursor)
    (compose : Compose reads) : Steady reads := by
  -- the slice that ends with the first item of a portion
  have cut (front : List (List α)) (item : α) (rest : List α) (back : List (List α))
      (whole : reads 0 = front ++ (item :: rest) :: back) :
      output reads (front.length + 1) =
        rest.map (front.length, ·) ++ label (front.length + 1) back := by
    have all : output reads 0 = label 0 front ++ (front.length, item) ::
        (rest.map (front.length, ·) ++ label (front.length + 1) back) := by
      rw [output, whole, label_append, Nat.zero_add, label, List.map_cons, List.cons_append]
    have touched : taken (front.flatten.length + 1) (reads 0) = front.length + 1 := by
      rw [whole, taken_append front _ Nat.one_pos]
      simp [taken]
    have composed := compose [front.flatten.length + 1]
      ⟨by rw [all]; simp, trivial⟩
    simp only [served, touched, Nat.zero_add, List.append_nil] at composed
    have taken_ : (output reads 0).take (front.flatten.length + 1) =
        label 0 front ++ [(front.length, item)] := by
      rw [all, List.take_append, length_label, List.take_of_length_le (by simp)]
      simp
    rw [taken_, all, List.append_assoc] at composed
    exact (List.cons.inj (List.append_cancel_left composed)).2
  have single : ∀ portion ∈ reads 0, portion.length ≤ 1 := by
    intro portion member
    obtain ⟨front, back, whole⟩ := List.append_of_mem member
    match portion with
    | [] => exact Nat.zero_le 1
    | [_] => exact Nat.le_refl 1
    | item :: second :: rest =>
      have skipped : (front.length, second) ∈ output reads (front.length + 1) := by
        rw [cut front item (second :: rest) back whole]
        exact List.mem_append_left _ List.mem_cons_self
      exact absurd (le_of_mem_label skipped) (Nat.not_succ_le_self _)
  refine ⟨single, fun front portion back whole some_ => ?_⟩
  have one := single portion (by rw [whole]; simp)
  obtain ⟨item, rfl⟩ : ∃ item, portion = [item] :=
    List.length_eq_one_iff.mp (Nat.le_antisymm one (List.length_pos_of_ne_nil some_))
  apply label_injective _ (cut front item [] back whole)
  have sizes := congrArg List.length whole
  rw [lengths, List.length_append, List.length_cons] at sizes
  rw [lengths]
  omega

theorem compose_iff_steady {total : Nat}
    (lengths : ∀ cursor, (reads cursor).length = total - cursor) :
    Compose reads ↔ Steady reads :=
  ⟨steady_of_compose lengths, fun steady _ lasts => served_of_steady steady ⟨[], rfl, rfl⟩ lasts⟩

end Source

end Slices
