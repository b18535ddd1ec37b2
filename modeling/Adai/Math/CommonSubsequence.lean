import Mathlib.Data.List.Basic

/-! # The longest common subsequence

The length of a longest common subsequence of two lists (`IsLongest`), and how it grows with
the last symbol of each: a symbol shared by both ends lengthens it by one, and of two
different last symbols one is not needed.
-/

namespace CommonSubsequence

variable {α : Type} {a b l : List α} {n m : ℕ}

/-- A common subsequence has the length, and none is longer. -/
def IsLongest (a b : List α) (n : ℕ) : Prop :=
  (∃ l : List α, l.Sublist a ∧ l.Sublist b ∧ l.length = n) ∧
    ∀ l : List α, l.Sublist a → l.Sublist b → l.length ≤ n

theorem IsLongest.symm (longest : IsLongest a b n) : IsLongest b a n := by
  obtain ⟨⟨l, inLeft, inRight, size⟩, most⟩ := longest
  exact ⟨⟨l, inRight, inLeft, size⟩, fun l inLeft inRight => most l inRight inLeft⟩

theorem IsLongest.unique (first : IsLongest a b n) (second : IsLongest a b m) : n = m := by
  obtain ⟨⟨l, inLeft, inRight, rfl⟩, most⟩ := first
  obtain ⟨⟨l', inLeft', inRight', rfl⟩, most'⟩ := second
  exact Nat.le_antisymm (most' l inLeft inRight) (most l' inLeft' inRight')

theorem IsLongest.le_left (longest : IsLongest a b n) : n ≤ a.length := by
  obtain ⟨⟨l, inLeft, -, rfl⟩, -⟩ := longest
  exact inLeft.length_le

theorem IsLongest.le_right (longest : IsLongest a b n) : n ≤ b.length :=
  longest.symm.le_left

/-- All of both lists is common to them only if they are the same. -/
theorem IsLongest.eq_of_length (longest : IsLongest a b n) (left : n = a.length)
    (right : n = b.length) : a = b := by
  obtain ⟨⟨l, inLeft, inRight, size⟩, -⟩ := longest
  rw [← inLeft.eq_of_length (size.trans left), ← inRight.eq_of_length (size.trans right)]

theorem isLongest_self (a : List α) : IsLongest a a a.length :=
  ⟨⟨a, .refl a, .refl a, rfl⟩, fun _ inside _ => inside.length_le⟩

theorem isLongest_nil (a : List α) : IsLongest a [] 0 := by
  refine ⟨⟨[], List.nil_sublist a, List.Sublist.slnil, rfl⟩, fun l _ inside => ?_⟩
  rw [List.sublist_nil.mp inside]
  exact Nat.le_refl 0

theorem nil_isLongest (b : List α) : IsLongest [] b 0 :=
  (isLongest_nil b).symm

/-- A subsequence uses the last symbol or not. -/
theorem sublist_concat_iff {x : α} :
    l.Sublist (a ++ [x]) ↔ l.Sublist a ∨ ∃ front, l = front ++ [x] ∧ front.Sublist a := by
  rw [List.sublist_append_iff]
  constructor
  · rintro ⟨front, back, rfl, inside, last⟩
    rcases List.sublist_singleton.mp last with rfl | rfl
    · exact .inl (by rwa [List.append_nil])
    · exact .inr ⟨front, rfl, inside⟩
  · rintro (inside | ⟨front, rfl, inside⟩)
    · exact ⟨l, [], (List.append_nil l).symm, inside, List.nil_sublist _⟩
    · exact ⟨front, [x], rfl, inside, .refl _⟩

/-- A last symbol that both lists share. -/
theorem IsLongest.concat_same (longest : IsLongest a b n) (x : α) :
    IsLongest (a ++ [x]) (b ++ [x]) (n + 1) := by
  obtain ⟨⟨l, inLeft, inRight, size⟩, most⟩ := longest
  refine ⟨⟨l ++ [x], inLeft.append_right [x], inRight.append_right [x], by simp [size]⟩, ?_⟩
  intro l inLeft inRight
  rcases sublist_concat_iff.mp inLeft with unused | ⟨front, rfl, used⟩
  · rcases sublist_concat_iff.mp inRight with unused' | ⟨front, rfl, used'⟩
    · exact Nat.le_succ_of_le (most l unused unused')
    · rw [List.length_append, List.length_singleton]
      have inside := (List.sublist_append_left front [x]).trans unused
      exact Nat.succ_le_succ (most front inside used')
  · rw [List.length_append, List.length_singleton]
    refine Nat.succ_le_succ (most front used ?_)
    rcases sublist_concat_iff.mp inRight with unused' | ⟨other, same, used'⟩
    · exact (List.sublist_append_left front [x]).trans unused'
    · exact List.append_cancel_right same ▸ used'

/-- Of two different last symbols one is not used. -/
theorem IsLongest.concat_ne {x y : α} (different : x ≠ y) (left : IsLongest a (b ++ [y]) n)
    (right : IsLongest (a ++ [x]) b m) : IsLongest (a ++ [x]) (b ++ [y]) (max n m) := by
  refine ⟨?_, fun l inLeft inRight => ?_⟩
  · rcases Nat.le_total n m with least | least
    · obtain ⟨l, inLeft, inRight, size⟩ := right.1
      exact ⟨l, inLeft, inRight.trans (List.sublist_append_left b [y]),
        size.trans (Nat.max_eq_right least).symm⟩
    · obtain ⟨l, inLeft, inRight, size⟩ := left.1
      exact ⟨l, inLeft.trans (List.sublist_append_left a [x]), inRight,
        size.trans (Nat.max_eq_left least).symm⟩
  · rcases sublist_concat_iff.mp inLeft with unused | ⟨front, rfl, -⟩
    · exact Nat.le_trans (left.2 l unused inRight) (Nat.le_max_left ..)
    · rcases sublist_concat_iff.mp inRight with unused | ⟨other, same, -⟩
      · exact Nat.le_trans (right.2 _ inLeft unused) (Nat.le_max_right ..)
      · have last := (List.append_inj' same rfl).2
        exact absurd (List.singleton_inj.mp last) different

end CommonSubsequence
