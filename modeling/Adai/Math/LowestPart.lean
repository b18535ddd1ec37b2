import Mathlib.Data.List.Sort
import Mathlib.Order.Basic

/-! # The part of lowest rank

A list is parted so that nothing in the rest ranks below the part. Which elements are in a
part of given length is decided by the ranks, however the list is ordered, if different
elements have different ranks (`lowest_perm`). A partial sort (`NthElement`) parts a list so.
-/

namespace LowestPart

section Unique

variable {α β : Type} [LinearOrder β] {rank : α → β} {part rest part' rest' : List α}

open Classical in
/-- One of two parts of the same list has an element more often, and the rest of it less often. -/
theorem mem_rest_of_count_lt {a : α} (same : (part ++ rest).Perm (part' ++ rest'))
    (more : part'.count a < part.count a) : a ∈ part ∧ a ∈ rest' := by
  have total := same.count_eq a
  rw [List.count_append, List.count_append] at total
  exact ⟨List.count_pos_iff.mp (by omega), List.count_pos_iff.mp (by omega)⟩

open Classical in
theorem exists_count_lt (length : part.length = part'.length) (different : ¬ part.Perm part') :
    ∃ a, part'.count a < part.count a := by
  by_contra none
  push Not at none
  have inside : part.Subperm part' := List.subperm_ext_iff.mpr fun a _ => none a
  exact different (inside.perm_of_length_le length.ge)

/-- Two lowest parts of one length have the same elements. -/
theorem lowest_perm (same : (part ++ rest).Perm (part' ++ rest'))
    (length : part.length = part'.length) (lower : ∀ x ∈ part, ∀ y ∈ rest, rank x ≤ rank y)
    (lower' : ∀ x ∈ part', ∀ y ∈ rest', rank x ≤ rank y)
    (distinct : ∀ x ∈ part ++ rest, ∀ y ∈ part ++ rest, rank x = rank y → x = y) :
    part.Perm part' := by
  classical
  by_contra different
  obtain ⟨a, more⟩ := exists_count_lt length different
  obtain ⟨b, fewer⟩ := exists_count_lt length.symm fun perm => different perm.symm
  obtain ⟨aPart, aRest'⟩ := mem_rest_of_count_lt same more
  obtain ⟨bPart', bRest⟩ := mem_rest_of_count_lt same.symm fewer
  have equal : a = b := distinct a (List.mem_append_left _ aPart) b (List.mem_append_right _ bRest)
    ((lower a aPart b bRest).antisymm (lower' b bPart' a aRest'))
  subst equal
  exact absurd more (Nat.lt_asymm fewer)

end Unique

/-- A list reordered after a map is a map of the list reordered. -/
theorem exists_perm_map {α β : Type} (f : α → β) {l : List α} {m : List β}
    (perm : m.Perm (l.map f)) : ∃ l' : List α, l'.Perm l ∧ m = l'.map f := by
  generalize mapped : l.map f = l₁ at perm
  induction perm generalizing l with
  | nil => exact ⟨l, .refl l, mapped.symm⟩
  | cons x _ ih =>
      obtain ⟨a, l, rfl, rfl, tail⟩ := List.map_eq_cons_iff.mp mapped
      obtain ⟨l', perm, rfl⟩ := ih tail
      exact ⟨a :: l', perm.cons a, rfl⟩
  | swap x y rest =>
      obtain ⟨a, l, rfl, rfl, tail⟩ := List.map_eq_cons_iff.mp mapped
      obtain ⟨b, l, rfl, rfl, rfl⟩ := List.map_eq_cons_iff.mp tail
      exact ⟨b :: a :: l, .swap a b l, rfl⟩
  | trans _ _ ih ih' =>
      obtain ⟨l', perm, rfl⟩ := ih' mapped
      obtain ⟨l'', perm', rfl⟩ := ih rfl
      exact ⟨l'', perm'.trans perm, rfl⟩

/-! ## Partial sorts -/

/-- A list is reordered so that the element at a position is neither below those in front of it
nor above those behind it. -/
structure NthElement (α : Type) [LinearOrder α] where
  run : List α → ℕ → List α
  perm : ∀ l n, (run l n).Perm l
  before_le : ∀ l n, ∀ x ∈ (run l n).take n, ∀ y ∈ (run l n)[n]?, x ≤ y
  le_after : ∀ l n, ∀ y ∈ (run l n)[n]?, ∀ z ∈ (run l n).drop (n + 1), y ≤ z

variable {α : Type} [LinearOrder α]

theorem NthElement.take_le_drop (nth : NthElement α) (l : List α) (n : ℕ) :
    ∀ x ∈ (nth.run l n).take (n + 1), ∀ z ∈ (nth.run l n).drop (n + 1), x ≤ z := by
  intro x inFront z behind
  have inside : n < (nth.run l n).length := by
    have size := List.length_pos_of_mem behind
    rw [List.length_drop] at size
    omega
  have atPosition := List.getElem?_eq_getElem inside
  rw [List.take_succ_eq_append_getElem inside] at inFront
  rcases List.mem_append.mp inFront with before | is
  · exact (nth.before_le l n x before _ atPosition).trans (nth.le_after l n _ atPosition z behind)
  · rw [List.mem_singleton.mp is]
    exact nth.le_after l n _ atPosition z behind

/-- A full sort is one. -/
def NthElement.sorted (α : Type) [LinearOrder α] : NthElement α where
  run l _ := l.insertionSort (· ≤ ·)
  perm l _ := List.perm_insertionSort _ l
  before_le l n x before y atPosition := by
    have sorted := List.pairwise_insertionSort (· ≤ ·) l
    rw [← List.take_append_drop n (l.insertionSort (· ≤ ·)), List.pairwise_append] at sorted
    refine sorted.2.2 x before y ?_
    rw [List.drop_eq_getElem?_toList_append, Option.mem_def.mp atPosition]
    simp
  le_after l n y atPosition z behind := by
    have sorted := List.pairwise_insertionSort (· ≤ ·) l
    rw [← List.take_append_drop (n + 1) (l.insertionSort (· ≤ ·)), List.pairwise_append] at sorted
    refine sorted.2.2 y ?_ z behind
    rw [List.take_add_one, Option.mem_def.mp atPosition]
    simp

end LowestPart
