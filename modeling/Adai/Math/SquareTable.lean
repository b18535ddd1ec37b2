import Mathlib.Algebra.Order.Ring.Defs
import Mathlib.Data.List.Basic

/-! # Square tables

A square matrix as a list of rows that grows by a row and a column and loses any of them.
An affinity is symmetric and nonnegative, with zeros on the diagonal; it stays one when
the table grows or shrinks, is scaled, or has one pair of entries raised
(`SquareTable.Affinity.bump`).
-/

namespace SquareTable

/-- The entry, with 0 outside of the table. -/
def entry {K : Type*} [Zero K] (table : List (List K)) (i j : ℕ) : K :=
  (table[i]?.bind fun row => row[j]?).getD 0

structure IsSquare {K : Type*} (table : List (List K)) (n : ℕ) : Prop where
  rows : table.length = n
  columns : ∀ row ∈ table, row.length = n

/-! ## Operations -/

/-- The table without row and column `k`. -/
def erase {K : Type*} (k : ℕ) (table : List (List K)) : List (List K) :=
  (table.eraseIdx k).map fun row => row.eraseIdx k

/-- The table with a column and a row of zeros behind it; `n` is its new size. -/
def grow {K : Type*} [Zero K] (n : ℕ) (table : List (List K)) : List (List K) :=
  table.map (fun row => row ++ [0]) ++ [List.replicate n 0]

def scale {K : Type*} [Mul K] (factor : K) (table : List (List K)) : List (List K) :=
  table.map fun row => row.map fun v => v * factor

def addAt {K : Type*} [Add K] (a b : ℕ) (c : K) (table : List (List K)) : List (List K) :=
  table.modify a fun row => row.modify b fun v => v + c

/-- Both entries of the pair are raised. -/
def bump {K : Type*} [Add K] (a b : ℕ) (c : K) (table : List (List K)) : List (List K) :=
  addAt b a c (addAt a b c table)

section Size

variable {K : Type*} {table : List (List K)} {n k : ℕ}

theorem IsSquare.erase (square : IsSquare table (n + 1)) (inside : k < n + 1) :
    IsSquare (erase k table) n where
  rows := by
    rw [SquareTable.erase, List.length_map, List.length_eraseIdx_of_lt (by rwa [square.rows]),
      square.rows, Nat.add_sub_cancel]
  columns row member := by
    obtain ⟨old, before, rfl⟩ := List.mem_map.mp member
    have width := square.columns old (List.mem_of_mem_eraseIdx before)
    rw [List.length_eraseIdx_of_lt (by rwa [width]), width, Nat.add_sub_cancel]

theorem IsSquare.grow [Zero K] (square : IsSquare table n) : IsSquare (grow (n + 1) table) (n + 1) where
  rows := by
    rw [SquareTable.grow, List.length_append, List.length_map, square.rows, List.length_singleton]
  columns row member := by
    rcases List.mem_append.mp member with old | new
    · obtain ⟨before, inside, rfl⟩ := List.mem_map.mp old
      rw [List.length_append, square.columns before inside, List.length_singleton]
    · rw [List.mem_singleton.mp new, List.length_replicate]

theorem IsSquare.scale [Mul K] (square : IsSquare table n) (factor : K) :
    IsSquare (scale factor table) n where
  rows := by rw [SquareTable.scale, List.length_map, square.rows]
  columns row member := by
    obtain ⟨old, before, rfl⟩ := List.mem_map.mp member
    rw [List.length_map, square.columns old before]

theorem IsSquare.addAt [Add K] (square : IsSquare table n) (a b : ℕ) (c : K) :
    IsSquare (addAt a b c table) n where
  rows := by rw [SquareTable.addAt, List.length_modify, square.rows]
  columns row member := by
    obtain ⟨i, inside, rfl⟩ := List.mem_iff_getElem.mp member
    rw [SquareTable.addAt, List.length_modify] at inside
    have width := square.columns table[i] (List.getElem_mem inside)
    by_cases same : a = i
    · simp [SquareTable.addAt, same, width]
    · simp [SquareTable.addAt, same, width]

theorem IsSquare.bump [Add K] (square : IsSquare table n) (a b : ℕ) (c : K) :
    IsSquare (bump a b c table) n :=
  (square.addAt a b c).addAt b a c

end Size

/-! ## Entries -/

section Entries

variable {K : Type*} {table : List (List K)}

/-- The index before the erased one was taken out. -/
def skip (k i : ℕ) : ℕ := if i < k then i else i + 1

theorem getElem?_eraseIdx_skip {α : Type*} (xs : List α) (k i : ℕ) :
    (xs.eraseIdx k)[i]? = xs[skip k i]? := by
  rw [List.getElem?_eraseIdx, skip]
  split
  · rfl
  · rfl

theorem entry_erase [Zero K] (k i j : ℕ) :
    entry (erase k table) i j = entry table (skip k i) (skip k j) := by
  rw [entry, erase, List.getElem?_map, getElem?_eraseIdx_skip, Option.bind_map, entry]
  refine congrArg (fun read => (Option.bind table[skip k i]? read).getD 0) (funext fun row => ?_)
  exact getElem?_eraseIdx_skip row k j

theorem getElem?_append_zero [Zero K] (row : List K) (j : ℕ) :
    (row ++ [0])[j]?.getD 0 = row[j]?.getD 0 := by
  rw [List.getElem?_append]
  split
  · rfl
  · rename_i beyond
    rw [List.getElem?_eq_none (not_lt.mp beyond)]
    cases j - row.length with
    | zero => rfl
    | succ _ => rfl

theorem entry_grow [Zero K] (n i j : ℕ) : entry (grow n table) i j = entry table i j := by
  rw [entry, grow, List.getElem?_append, List.length_map, entry]
  split
  · rename_i inside
    rw [List.getElem?_map, List.getElem?_eq_getElem inside]
    exact getElem?_append_zero _ j
  · rename_i beyond
    rw [List.getElem?_eq_none (not_lt.mp beyond)]
    cases i - table.length with
    | zero =>
        change (List.replicate n (0 : K))[j]?.getD 0 = 0
        rw [List.getElem?_replicate]
        split
        · rfl
        · rfl
    | succ _ => rfl

theorem entry_scale [MulZeroClass K] (factor : K) (i j : ℕ) :
    entry (scale factor table) i j = entry table i j * factor := by
  rw [entry, scale, List.getElem?_map, entry]
  cases table[i]? with
  | none => exact (zero_mul factor).symm
  | some row =>
      change (row.map fun v => v * factor)[j]?.getD 0 = row[j]?.getD 0 * factor
      rw [List.getElem?_map]
      cases row[j]? with
      | none => exact (zero_mul factor).symm
      | some v => rfl

theorem entry_addAt [AddZeroClass K] {n a b : ℕ} (square : IsSquare table n) (rowInside : a < n)
    (columnInside : b < n) (c : K) (i j : ℕ) :
    entry (addAt a b c table) i j = entry table i j + if a = i ∧ b = j then c else 0 := by
  rw [entry, addAt, entry]
  by_cases isRow : a = i
  · subst isRow
    have inTable : a < table.length := by rwa [square.rows]
    have inRow : b < table[a].length := by rwa [square.columns table[a] (List.getElem_mem _)]
    rw [List.getElem?_modify_eq, List.getElem?_eq_getElem inTable]
    change (table[a].modify b fun v => v + c)[j]?.getD 0 = table[a][j]?.getD 0 + _
    by_cases isColumn : b = j
    · subst isColumn
      rw [List.getElem?_modify_eq, if_pos ⟨rfl, rfl⟩, List.getElem?_eq_getElem inRow]
      rfl
    · rw [List.getElem?_modify_ne _ _ isColumn, if_neg (fun both => isColumn both.2), add_zero]
  · rw [List.getElem?_modify_ne _ _ isRow, if_neg (fun both => isRow both.1), add_zero]

theorem entry_bump [AddZeroClass K] {n a b : ℕ} (square : IsSquare table n) (inside : a < n)
    (inside' : b < n) (c : K) (i j : ℕ) :
    entry (bump a b c table) i j =
      entry table i j + (if a = i ∧ b = j then c else 0) + if b = i ∧ a = j then c else 0 := by
  rw [bump, entry_addAt (square.addAt a b c) inside' inside, entry_addAt square inside inside']

end Entries

/-! ## Affinities -/

section Affinities

variable {K : Type*} [Semiring K] [PartialOrder K] [IsOrderedRing K]

structure Affinity (table : List (List K)) : Prop where
  symmetric : ∀ i j, entry table i j = entry table j i
  diagonal : ∀ i, entry table i i = 0
  nonneg : ∀ i j, 0 ≤ entry table i j

variable {table : List (List K)}

omit [IsOrderedRing K] in
theorem affinity_nil : Affinity ([] : List (List K)) :=
  ⟨fun _ _ => rfl, fun _ => rfl, fun _ _ => le_refl _⟩

omit [IsOrderedRing K] in
theorem Affinity.erase (affinity : Affinity table) (k : ℕ) : Affinity (erase k table) where
  symmetric i j := by rw [entry_erase, entry_erase, affinity.symmetric]
  diagonal i := by rw [entry_erase, affinity.diagonal]
  nonneg i j := by
    rw [entry_erase]
    exact affinity.nonneg _ _

omit [IsOrderedRing K] in
theorem Affinity.grow (affinity : Affinity table) (n : ℕ) : Affinity (grow n table) where
  symmetric i j := by rw [entry_grow, entry_grow, affinity.symmetric]
  diagonal i := by rw [entry_grow, affinity.diagonal]
  nonneg i j := by
    rw [entry_grow]
    exact affinity.nonneg _ _

theorem Affinity.scale (affinity : Affinity table) {factor : K} (nonneg : 0 ≤ factor) :
    Affinity (scale factor table) where
  symmetric i j := by rw [entry_scale, entry_scale, affinity.symmetric]
  diagonal i := by rw [entry_scale, affinity.diagonal, zero_mul]
  nonneg i j := by
    rw [entry_scale]
    exact mul_nonneg (affinity.nonneg i j) nonneg

theorem Affinity.bump (affinity : Affinity table) {n a b : ℕ} (square : IsSquare table n)
    (apart : a < b) (inside : b < n) {c : K} (nonneg : 0 ≤ c) : Affinity (bump a b c table) where
  symmetric i j := by
    rw [entry_bump square (apart.trans inside) inside, entry_bump square (apart.trans inside) inside,
      affinity.symmetric j i, add_right_comm]
    simp only [and_comm]
  diagonal i := by
    have notBoth (both : a = i ∧ b = i) : False := apart.ne (both.1.trans both.2.symm)
    rw [entry_bump square (apart.trans inside) inside, affinity.diagonal, if_neg notBoth,
      if_neg (fun both => notBoth both.symm), add_zero, add_zero]
  nonneg i j := by
    have raised (p : Prop) [Decidable p] : 0 ≤ if p then c else 0 := by
      split
      · exact nonneg
      · exact le_refl _
    rw [entry_bump square (apart.trans inside) inside]
    exact add_nonneg (add_nonneg (affinity.nonneg i j) (raised _)) (raised _)

end Affinities

end SquareTable
