import Mathlib.Data.Nat.Basic

/-! # Bisection

Halving an interval finds the first index that satisfies a test, when the test
holds of every index behind one that satisfies it. The end of the interval is
returned untested, so it need not satisfy the test
(`Bisection.search_fits`, `Bisection.search_first`).
-/

namespace Bisection

/-- The halving loop; `fuel` is at least the length of the interval. -/
def loop (fits : Nat → Bool) : Nat → Nat → Nat → Nat
  | 0, low, _ => low
  | fuel + 1, low, high =>
      if low < high then
        if fits (low + (high - low) / 2) then loop fits fuel low (low + (high - low) / 2)
        else loop fits fuel (low + (high - low) / 2 + 1) high
      else low

def search (fits : Nat → Bool) (size : Nat) : Nat := loop fits size 0 size

/-- The indices that the halving loop tests, in order. -/
def loopProbes (fits : Nat → Bool) : Nat → Nat → Nat → List Nat
  | 0, _, _ => []
  | fuel + 1, low, high =>
      if low < high then
        (low + (high - low) / 2) ::
          if fits (low + (high - low) / 2) then loopProbes fits fuel low (low + (high - low) / 2)
          else loopProbes fits fuel (low + (high - low) / 2 + 1) high
      else []

def probes (fits : Nat → Bool) (size : Nat) : List Nat := loopProbes fits size 0 size

section Loop

variable {fits : Nat → Bool} {size fuel low high : Nat}

/-- The upper end stays within the interval and satisfies the test once it has moved. -/
theorem loop_fits (enough : high - low ≤ fuel) (ordered : low ≤ high) (inside : high ≤ size)
    (end_ : high < size → fits high = true) :
    loop fits fuel low high ≤ size ∧
      (loop fits fuel low high < size → fits (loop fits fuel low high) = true) := by
  induction fuel generalizing low high with
  | zero =>
      obtain rfl : low = high := by omega
      exact ⟨inside, end_⟩
  | succ fuel ih =>
      unfold loop
      by_cases open_ : low < high
      · rw [if_pos open_]
        by_cases middle : fits (low + (high - low) / 2) = true
        · rw [if_pos middle]
          apply ih
          · omega
          · omega
          · omega
          · exact fun _ => middle
        · rw [if_neg middle]
          apply ih
          · omega
          · omega
          · exact inside
          · exact end_
      · rw [if_neg open_]
        obtain rfl : low = high := by omega
        exact ⟨inside, end_⟩

/-- No index below the answer satisfies a test that holds of everything behind one
that satisfies it. -/
theorem loop_first (monotone : ∀ i j, i ≤ j → fits i = true → fits j = true)
    (below : ∀ i < low, fits i = false) : ∀ i < loop fits fuel low high, fits i = false := by
  induction fuel generalizing low high with
  | zero => exact below
  | succ fuel ih =>
      unfold loop
      by_cases open_ : low < high
      · rw [if_pos open_]
        by_cases middle : fits (low + (high - low) / 2) = true
        · rw [if_pos middle]
          exact ih below
        · rw [if_neg middle]
          apply ih
          intro i bound
          by_contra fitting
          apply middle
          exact monotone i _ (by omega) (by simpa using fitting)
      · rw [if_neg open_]
        exact below

/-- The search does not go beyond an index behind which everything satisfies the test. -/
theorem loop_le {first : Nat} (behind : ∀ i, first ≤ i → i < size → fits i = true)
    (below : low ≤ first) (inside : high ≤ size) : loop fits fuel low high ≤ first := by
  induction fuel generalizing low high with
  | zero => exact below
  | succ fuel ih =>
      unfold loop
      by_cases open_ : low < high
      · rw [if_pos open_]
        by_cases middle : fits (low + (high - low) / 2) = true
        · rw [if_pos middle]
          exact ih below (by omega)
        · rw [if_neg middle]
          apply ih _ inside
          by_contra beyond
          exact middle (behind _ (by omega) (by omega))
      · rw [if_neg open_]
        exact below

end Loop

theorem search_fits (fits : Nat → Bool) (size : Nat) :
    search fits size ≤ size ∧ (search fits size < size → fits (search fits size) = true) :=
  loop_fits (Nat.le_refl _) (Nat.zero_le _) (Nat.le_refl _) fun bound =>
    absurd bound (Nat.lt_irrefl _)

theorem search_first {fits : Nat → Bool} (size : Nat)
    (monotone : ∀ i j, i ≤ j → fits i = true → fits j = true) :
    ∀ i < search fits size, fits i = false :=
  loop_first monotone fun _ bound => absurd bound (Nat.not_lt_zero _)

theorem search_le {fits : Nat → Bool} {size first : Nat}
    (behind : ∀ i, first ≤ i → i < size → fits i = true) : search fits size ≤ first :=
  loop_le behind (Nat.zero_le _) (Nat.le_refl _)

end Bisection
