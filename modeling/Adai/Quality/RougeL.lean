import Adai.Math.CommonSubsequence
import Mathlib.Algebra.Order.Field.Basic
import Mathlib.Data.List.Zip
import Mathlib.Tactic.FieldSimp
import Mathlib.Tactic.Linarith
import Mathlib.Tactic.Ring

/-! # ROUGE-L

`GenerationQualityEvaluator` scores a hypothesis by its longest common subsequence with the
reference. `lcs_length` fills a table of which it keeps two rows; its last cell is the length
of a longest common subsequence of the two lists, and the score of a corpus is the mean of
what follows from it for each pair (`rouge_l_exact`).
-/

namespace Adai.Quality

open CommonSubsequence

variable {Token : Type}

/-! ## The table -/

/-- The row above and the one that is filled. -/
structure Rows where
  prev : List Nat
  curr : List Nat
  deriving DecidableEq, Repr

section Table

variable [DecidableEq Token]

def fillCell (x : Token) (b : List Token) (prev curr : List Nat) (j : Nat) : List Nat :=
  curr.set j (if b[j - 1]? = some x then prev.getD (j - 1) 0 + 1
    else max (prev.getD j 0) (curr.getD (j - 1) 0))

def fillRow (x : Token) (b : List Token) (prev curr : List Nat) : List Nat :=
  (List.range' 1 b.length).foldl (fillCell x b prev) curr

/-- The filled row is the one above the next, whose cells are cleared. -/
def nextRows (b : List Token) (rows : Rows) (x : Token) : Rows where
  prev := fillRow x b rows.prev rows.curr
  curr := List.replicate rows.prev.length 0

def lcsLength (a b : List Token) : Nat :=
  if a.length = 0 ∨ b.length = 0 then 0
  else
    let zeros := List.replicate (b.length + 1) 0
    (a.foldl (nextRows b) ⟨zeros, zeros⟩).prev.getD b.length 0

end Table

/-- The cells up to `j` count for what is read of `a` and the starts of `b`. -/
structure Filled (a b : List Token) (row : List Nat) (j : Nat) : Prop where
  size : row.length = b.length + 1
  cells : ∀ i ≤ j, IsLongest a (b.take i) (row.getD i 0)

theorem filled_zero (a b : List Token) {row : List Nat}
    (zeros : row = List.replicate (b.length + 1) 0) : Filled a b row 0 := by
  subst zeros
  refine ⟨List.length_replicate, fun i least => ?_⟩
  obtain rfl := Nat.le_zero.mp least
  exact isLongest_nil a

theorem filled_nil (b : List Token) :
    Filled [] b (List.replicate (b.length + 1) 0) b.length := by
  refine ⟨List.length_replicate, fun i inside => ?_⟩
  have zero : (List.replicate (b.length + 1) 0).getD i 0 = 0 := by
    rw [List.getD_eq_getElem?_getD, List.getElem?_replicate, if_pos (by omega), Option.getD_some]
  exact zero.symm ▸ nil_isLongest _

variable [DecidableEq Token]

theorem Filled.fillCell {a b : List Token} {x : Token} {prev curr : List Nat} {j : Nat}
    (above : Filled a b prev b.length) (left : Filled (a ++ [x]) b curr j) (inside : j < b.length) :
    Filled (a ++ [x]) b (fillCell x b prev curr (j + 1)) (j + 1) := by
  refine ⟨(List.length_set ..).trans left.size, fun i within => ?_⟩
  unfold Quality.fillCell
  have size := left.size
  rcases Nat.lt_or_eq_of_le within with earlier | rfl
  · rw [List.getD_eq_getElem?_getD, List.getElem?_set_ne (by omega), ← List.getD_eq_getElem?_getD]
    exact left.cells i (by omega)
  · rw [List.getD_eq_getElem?_getD, List.getElem?_set_self (by omega), Option.getD_some,
      Nat.add_sub_cancel, List.take_succ_eq_append_getElem inside, List.getElem?_eq_getElem inside]
    split
    · rename_i same
      obtain rfl := Option.some.inj same
      exact (above.cells j inside.le).concat_same _
    · rename_i different
      refine IsLongest.concat_ne (fun same => different (congrArg some same.symm)) ?_
        (left.cells j le_rfl)
      rw [← List.take_succ_eq_append_getElem inside]
      exact above.cells (j + 1) inside

theorem Filled.fillRow {a b : List Token} {x : Token} {prev curr : List Nat}
    (above : Filled a b prev b.length) (cleared : Filled (a ++ [x]) b curr 0) :
    Filled (a ++ [x]) b (fillRow x b prev curr) b.length := by
  have upTo (j : Nat) (inside : j ≤ b.length) : Filled (a ++ [x]) b
      ((List.range' 1 j).foldl (Quality.fillCell x b prev) curr) j := by
    induction j with
    | zero => exact cleared
    | succ j ih =>
        rw [List.range'_1_concat, List.foldl_append, Nat.add_comm 1 j]
        exact above.fillCell (ih (by omega)) inside
  exact upTo b.length le_rfl

/-- The rows after reading a list. -/
theorem filled_foldl (b read a : List Token) (rows : Rows) (above : Filled read b rows.prev b.length)
    (cleared : rows.curr = List.replicate (b.length + 1) 0) :
    Filled (read ++ a) b (a.foldl (nextRows b) rows).prev b.length := by
  induction a generalizing read rows with
  | nil => exact (List.append_nil read).symm ▸ above
  | cons x a ih =>
      have next := ih (read ++ [x]) (nextRows b rows x)
        (above.fillRow (filled_zero _ b cleared)) (congrArg (List.replicate · 0) above.size)
      rwa [List.append_assoc] at next

theorem lcsLength_isLongest (a b : List Token) : IsLongest a b (lcsLength a b) := by
  unfold lcsLength
  split
  · rename_i empty
    rcases empty with none | none
    · rw [List.length_eq_zero_iff.mp none]
      exact nil_isLongest b
    · rw [List.length_eq_zero_iff.mp none]
      exact isLongest_nil a
  · have last := (filled_foldl b [] a ⟨_, _⟩ (filled_nil b) rfl).cells b.length le_rfl
    rwa [List.take_length] at last

/-! ## The score -/

variable {K : Type} [Field K] [LinearOrder K]

/-- The score of one pair. -/
def rougeL (ref hyp : List Token) : K :=
  let lcs : K := lcsLength ref hyp
  let prec : K := if hyp = [] then 0 else lcs / hyp.length
  let rec_ : K := if ref = [] then 0 else lcs / ref.length
  if prec + rec_ > 0 then ((2 : ℕ) : K) * prec * rec_ / (prec + rec_) else 0

def computeCorpusRougeL (refs hyps : List (List Token)) : K :=
  let totalF1 := (refs.zip hyps).foldl (fun total pair => total + rougeL pair.1 pair.2) (0 : K)
  if refs = [] then 0 else totalF1 / refs.length

variable [IsStrictOrderedRing K]

/-- The share of the two lists that is common to them. -/
theorem rougeL_eq (ref hyp : List Token) :
    (rougeL ref hyp : K) = 2 * lcsLength ref hyp / (ref.length + hyp.length) := by
  have longest := lcsLength_isLongest ref hyp
  have left := longest.le_left
  have right := longest.le_right
  unfold rougeL
  generalize lcsLength ref hyp = n at left right ⊢
  rcases Nat.eq_zero_or_pos n with rfl | positive
  · simp
  · have refs : (0 : K) < ref.length := by
      exact_mod_cast positive.trans_le left
    have hyps : (0 : K) < hyp.length := by
      exact_mod_cast positive.trans_le right
    have common : (0 : K) < n := by exact_mod_cast positive
    have someRef : ref ≠ [] := List.length_pos_iff.mp (positive.trans_le left)
    have someHyp : hyp ≠ [] := List.length_pos_iff.mp (positive.trans_le right)
    dsimp only
    rw [if_neg someHyp, if_neg someRef, if_pos (by positivity), Nat.cast_ofNat]
    field_simp

theorem rougeL_symm (ref hyp : List Token) : (rougeL hyp ref : K) = rougeL ref hyp := by
  rw [rougeL_eq, rougeL_eq, (lcsLength_isLongest hyp ref).unique (lcsLength_isLongest ref hyp).symm,
    add_comm]

theorem rougeL_nonneg (ref hyp : List Token) : 0 ≤ (rougeL ref hyp : K) := by
  rw [rougeL_eq]
  positivity

theorem rougeL_le_one (ref hyp : List Token) : (rougeL ref hyp : K) ≤ 1 := by
  have left : (lcsLength ref hyp : K) ≤ ref.length := by
    exact_mod_cast (lcsLength_isLongest ref hyp).le_left
  have right : (lcsLength ref hyp : K) ≤ hyp.length := by
    exact_mod_cast (lcsLength_isLongest ref hyp).le_right
  rw [rougeL_eq]
  exact div_le_one_of_le₀ (by linarith) (by positivity)

theorem rougeL_eq_one_iff (ref hyp : List Token) :
    (rougeL ref hyp : K) = 1 ↔ ref = hyp ∧ ref ≠ [] := by
  have longest := lcsLength_isLongest ref hyp
  rw [rougeL_eq]
  constructor
  · intro full
    have nonzero : (ref.length + hyp.length : K) ≠ 0 := by
      intro zero
      rw [zero, div_zero] at full
      exact zero_ne_one full
    rw [div_eq_one_iff_eq nonzero] at full
    have total : 2 * lcsLength ref hyp = ref.length + hyp.length := by exact_mod_cast full
    have some_ : ref.length + hyp.length ≠ 0 := by exact_mod_cast nonzero
    have left := longest.le_left
    have right := longest.le_right
    refine ⟨longest.eq_of_length (by omega) (by omega), ?_⟩
    rintro rfl
    simp only [List.length_nil] at left total some_
    omega
  · rintro ⟨rfl, some_⟩
    have positive : (0 : K) < ref.length := by exact_mod_cast List.length_pos_iff.mpr some_
    rw [longest.unique (isLongest_self ref), ← two_mul]
    exact div_self (by positivity)

/-- A total of shares of one is between none and all of them, and all only if each is one. -/
theorem total_bounds {α : Type} (share : α → K) (members : List α) (total : K)
    (nonneg : ∀ x ∈ members, 0 ≤ share x) (most : ∀ x ∈ members, share x ≤ 1) :
    let sum := members.foldl (fun total x => total + share x) total
    total ≤ sum ∧ sum ≤ total + members.length ∧
      (sum = total + members.length ↔ ∀ x ∈ members, share x = 1) := by
  induction members generalizing total with
  | nil => simp
  | cons x members ih =>
      obtain ⟨first, nonneg⟩ := List.forall_mem_cons.mp nonneg
      obtain ⟨atMost, most⟩ := List.forall_mem_cons.mp most
      obtain ⟨least, greatest, full⟩ := ih (total + share x) nonneg most
      rw [List.forall_mem_cons, ← full, List.foldl_cons, List.length_cons, Nat.cast_add, Nat.cast_one]
      generalize members.foldl _ (total + share x) = sum at least greatest ⊢
      refine ⟨by linarith, by linarith, fun all => ⟨by linarith, by linarith⟩, ?_⟩
      rintro ⟨one, rest⟩
      linarith

section Corpus

variable {refs hyps : List (List Token)}

theorem computeCorpusRougeL_bounds (equallyLong : refs.length = hyps.length) :
    0 ≤ (computeCorpusRougeL refs hyps : K) ∧ (computeCorpusRougeL refs hyps : K) ≤ 1 ∧
      ((computeCorpusRougeL refs hyps : K) = 1 ↔
        refs ≠ [] ∧ ∀ pair ∈ refs.zip hyps, pair.1 = pair.2 ∧ pair.1 ≠ []) := by
  obtain ⟨least, greatest, full⟩ := total_bounds
    (fun pair : List Token × List Token => (rougeL pair.1 pair.2 : K)) (refs.zip hyps) 0
    (fun pair _ => rougeL_nonneg _ _) (fun pair _ => rougeL_le_one _ _)
  rw [List.length_zip, ← equallyLong, Nat.min_self, zero_add] at greatest full
  simp only [rougeL_eq_one_iff] at full
  unfold computeCorpusRougeL
  dsimp only
  split
  · rename_i none
    exact ⟨le_rfl, zero_le_one, fun one => absurd one zero_ne_one, fun some_ => absurd none some_.1⟩
  · rename_i some_
    have positive : (0 : K) < refs.length := by exact_mod_cast List.length_pos_iff.mpr some_
    refine ⟨div_nonneg least positive.le, div_le_one_of_le₀ greatest positive.le, ?_⟩
    rw [div_eq_one_iff_eq positive.ne', full]
    exact ⟨fun all => ⟨some_, all⟩, fun all => all.2⟩

theorem computeCorpusRougeL_symm (equallyLong : refs.length = hyps.length) :
    (computeCorpusRougeL hyps refs : K) = computeCorpusRougeL refs hyps := by
  have totals : ∀ total : K, (hyps.zip refs).foldl
      (fun total pair => total + rougeL pair.1 pair.2) total =
        (refs.zip hyps).foldl (fun total pair => total + rougeL pair.1 pair.2) total := by
    intro total
    rw [← List.zip_swap, List.foldl_map]
    simp only [Prod.fst_swap, Prod.snd_swap, rougeL_symm]
  unfold computeCorpusRougeL
  rw [totals, equallyLong]
  refine if_congr ?_ rfl rfl
  rw [← List.length_eq_zero_iff, ← List.length_eq_zero_iff, equallyLong]

end Corpus

variable (K) in
/-- `lcs_length` is the length of a longest common subsequence, whichever list comes first,
and at most that of the shorter one. The score of two equally long lists is between 0 and 1,
whichever comes first, and 1 exactly if there is a pair and each pair is of equal lists that
are not empty. -/
theorem rouge_l_exact (a b : List Token) {refs hyps : List (List Token)}
    (equallyLong : refs.length = hyps.length) :
    (((∃ l : List Token, l.Sublist a ∧ l.Sublist b ∧ l.length = lcsLength a b) ∧
        ∀ l : List Token, l.Sublist a → l.Sublist b → l.length ≤ lcsLength a b) ∧
      lcsLength b a = lcsLength a b ∧ lcsLength a b ≤ min a.length b.length) ∧
      (0 ≤ (computeCorpusRougeL refs hyps : K) ∧ (computeCorpusRougeL refs hyps : K) ≤ 1) ∧
        (computeCorpusRougeL hyps refs : K) = computeCorpusRougeL refs hyps ∧
          ((computeCorpusRougeL refs hyps : K) = 1 ↔
            refs ≠ [] ∧ ∀ pair ∈ refs.zip hyps, pair.1 = pair.2 ∧ pair.1 ≠ []) := by
  have longest := lcsLength_isLongest a b
  obtain ⟨nonneg, atMost, one⟩ := computeCorpusRougeL_bounds (K := K) equallyLong
  exact ⟨⟨longest, (lcsLength_isLongest b a).unique longest.symm,
    le_min longest.le_left longest.le_right⟩, ⟨nonneg, atMost⟩,
      computeCorpusRougeL_symm equallyLong, one⟩

theorem rouge_l_exact_pair :
    [[1, 2, 3]].length = [[2, 1, 3]].length ∧ lcsLength [1, 2, 3] [2, 1, 3] = 2 ∧
      (computeCorpusRougeL [[1, 2, 3]] [[2, 1, 3]] : ℚ) ≠ 1 := by
  have equallyLong : [[1, 2, 3]].length = [[2, 1, 3]].length := rfl
  refine ⟨equallyLong, by decide, fun one => ?_⟩
  have equal := (rouge_l_exact ℚ [1] [1] equallyLong).2.2.2.mp one
  exact absurd (equal.2 ([1, 2, 3], [2, 1, 3]) (by decide)).1 (by decide)

end Adai.Quality
