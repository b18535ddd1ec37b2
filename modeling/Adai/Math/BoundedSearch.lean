import Mathlib.Order.Lattice
import Mathlib.Data.List.Basic

/-! # Searches that stop early

A search works in rounds. Each round finds some results and leaves a state to search
further; what is left when the rounds run out is found too. A stopping rule may end the
search before, with what it has found. The answer is the first of the best results.

A rule is exact if it stops only when every result still to come is at most as good as
one that is already there (`BoundedSearch.Exact`): then the search with the rule gives the
answer of the search without it (`BoundedSearch.run_eq_of_exact`).
-/

namespace BoundedSearch

/-! ## The first of the best -/

section Best

variable {β K : Type} [LinearOrder K] (score : β → K)

/-- The first of the best of `best` and a list behind it. -/
def firstBestFrom (best : β) : List β → β
  | [] => best
  | x :: rest => if score best < score x then firstBestFrom x rest else firstBestFrom best rest

def firstBest : List β → Option β
  | [] => none
  | x :: rest => some (firstBestFrom score x rest)

theorem firstBestFrom_append (best : β) (front back : List β) :
    firstBestFrom score best (front ++ back) =
      firstBestFrom score (firstBestFrom score best front) back := by
  induction front generalizing best with
  | nil => rfl
  | cons x front ih =>
      by_cases better : score best < score x
      · simp only [List.cons_append, firstBestFrom, better, ↓reduceIte, ih]
      · simp only [List.cons_append, firstBestFrom, better, ↓reduceIte, ih]

theorem firstBestFrom_of_le {best : β} {rest : List β} (worse : ∀ x ∈ rest, score x ≤ score best) :
    firstBestFrom score best rest = best := by
  induction rest with
  | nil => rfl
  | cons x rest ih =>
      rw [firstBestFrom, if_neg (not_lt.mpr (worse x List.mem_cons_self))]
      exact ih fun y member => worse y (List.mem_cons_of_mem _ member)

theorem score_le_firstBestFrom (best : β) (rest : List β) :
    ∀ x ∈ best :: rest, score x ≤ score (firstBestFrom score best rest) := by
  induction rest generalizing best with
  | nil =>
      intro x member
      rw [List.mem_singleton.mp member]
      exact le_refl _
  | cons y rest ih =>
      intro x member
      rw [firstBestFrom]
      by_cases better : score best < score y
      · rw [if_pos better]
        rcases List.mem_cons.mp member with rfl | later
        · exact better.le.trans (ih y y List.mem_cons_self)
        · exact ih y x later
      · rw [if_neg better]
        rcases List.mem_cons.mp member with rfl | later
        · exact ih x x List.mem_cons_self
        · rcases List.mem_cons.mp later with rfl | later
          · exact (not_lt.mp better).trans (ih best best List.mem_cons_self)
          · exact ih best x (List.mem_cons_of_mem _ later)

theorem firstBestFrom_mem (best : β) (rest : List β) :
    firstBestFrom score best rest ∈ best :: rest := by
  induction rest generalizing best with
  | nil => exact List.mem_cons_self
  | cons x rest ih =>
      rw [firstBestFrom]
      split
      · exact List.mem_cons_of_mem _ (ih x)
      · rcases List.mem_cons.mp (ih best) with same | later
        · rw [same]
          exact List.mem_cons_self
        · exact List.mem_cons_of_mem _ (List.mem_cons_of_mem _ later)

/-- The best of a list is in it, and no element is better. -/
theorem firstBest_spec {found : List β} {best : β} (is : firstBest score found = some best) :
    best ∈ found ∧ ∀ x ∈ found, score x ≤ score best := by
  cases found with
  | nil => cases is
  | cons x rest =>
      cases is
      exact ⟨firstBestFrom_mem score x rest, score_le_firstBestFrom score x rest⟩

/-- What is no better than some element does not count behind it. -/
theorem firstBest_append_of_le {found extra : List β} {witness : β} (member : witness ∈ found)
    (worse : ∀ x ∈ extra, score x ≤ score witness) :
    firstBest score (found ++ extra) = firstBest score found := by
  cases found with
  | nil => cases member
  | cons x rest =>
      have best := score_le_firstBestFrom score x rest witness member
      rw [List.cons_append, firstBest, firstBest, firstBestFrom_append,
        firstBestFrom_of_le score fun y extra => (worse y extra).trans best]

end Best

/-! ## Rounds -/

/-- `round n` is the round behind `n` others: what it finds and the state it leaves. A
state may have `ended`, with nothing to search; what is left of any other is its `rest`. -/
structure Search (S β ε : Type) where
  round : Nat → S → Except ε (List β × S)
  ended : S → Bool
  rest : S → List β

section Runs

variable {S β ε : Type} (search : Search S β ε)

/-- What a search finds in so many more rounds; `stop` ends it after a round. -/
def run (stop : List β → S → Bool) : Nat → Nat → List β → S → Except ε (List β)
  | 0, _, found, state => .ok (found ++ search.rest state)
  | rounds + 1, n, found, state =>
      match search.round n state with
      | .error error => .error error
      | .ok (new, next) =>
          if search.ended next then .ok (found ++ new)
          else if stop (found ++ new) next then .ok (found ++ new)
          else run stop rounds (n + 1) (found ++ new) next

/-- The states that the rounds start from. -/
inductive Reached (stop : List β → S → Bool) (found₀ : List β) (start : S) :
    Nat → List β → S → Prop
  | start : Reached stop found₀ start 0 found₀ start
  | next {n : Nat} {found new : List β} {state next : S}
      (before : Reached stop found₀ start n found state)
      (round : search.round n state = .ok (new, next)) (more : search.ended next = false)
      (goes : stop (found ++ new) next = false) :
      Reached stop found₀ start (n + 1) (found ++ new) next

variable {search}

/-- The rule for runs: what holds at the start and is kept by the rounds that are taken
holds of all that is found. -/
theorem run_induction {stop : List β → S → Bool} {rounds : Nat} {found₀ all : List β} {start : S}
    {Inv : Nat → List β → S → Prop} {Good : List β → Prop}
    (holds : Inv 0 found₀ start)
    (keeps : ∀ n found state new next, Reached search stop found₀ start n found state →
      n < rounds → Inv n found state → search.round n state = .ok (new, next) →
        (search.ended next = true → Good (found ++ new)) ∧
        (search.ended next = false → Inv (n + 1) (found ++ new) next ∧
          (stop (found ++ new) next = true → Good (found ++ new))))
    (closes : ∀ found state, Inv rounds found state → Good (found ++ search.rest state))
    (returned : run search stop rounds 0 found₀ start = .ok all) : Good all := by
  have runs : ∀ left n found state, n + left = rounds →
      Reached search stop found₀ start n found state → Inv n found state →
      run search stop left n found state = .ok all → Good all := by
    intro left
    induction left with
    | zero =>
        intro n found state sum _ inv returned
        cases returned
        subst sum
        exact closes found state inv
    | succ left ih =>
        intro n found state sum reached inv returned
        rw [run] at returned
        cases round : search.round n state with
        | error error =>
            rw [round] at returned
            cases returned
        | ok outcome =>
            obtain ⟨new, next⟩ := outcome
            obtain ⟨ends, goes⟩ := keeps n found state new next reached (by omega) inv round
            rw [round] at returned
            simp only at returned
            by_cases ended : search.ended next = true
            · rw [if_pos ended] at returned
              cases returned
              exact ends ended
            · obtain ⟨inv, stops⟩ := goes (Bool.eq_false_iff.mpr ended)
              rw [if_neg ended] at returned
              by_cases rule : stop (found ++ new) next = true
              · rw [if_pos rule] at returned
                cases returned
                exact stops rule
              · rw [if_neg rule] at returned
                exact ih (n + 1) _ next (by omega)
                  (reached.next round (Bool.eq_false_iff.mpr ended) (Bool.eq_false_iff.mpr rule))
                  inv returned
  exact runs rounds 0 found₀ start (Nat.zero_add _) .start holds returned

/-! ## Stopping early -/

variable {K : Type} [LinearOrder K]

variable (search) in
/-- A rule that stops only when some result is at least as good as all still to come. `Beaten k`
is what keeps the results of a state and of those behind it from being better than `k`. -/
structure Exact (score : β → K) (stop : List β → S → Bool) (Inv : Nat → S → Prop)
    (Beaten : K → Nat → S → Prop) : Prop where
  inv_round : ∀ {n state new next}, Inv n state → search.round n state = .ok (new, next) →
    search.ended next = false → Inv (n + 1) next
  stop_beaten : ∀ {n found state}, Inv n state → stop found state = true →
    ∃ best ∈ found, Beaten (score best) n state
  beaten_round : ∀ {k n state new next}, Inv n state → Beaten k n state →
    search.round n state = .ok (new, next) →
      (∀ x ∈ new, score x ≤ k) ∧ (search.ended next = false → Beaten k (n + 1) next)
  beaten_rest : ∀ {k n state}, Inv n state → Beaten k n state →
    ∀ x ∈ search.rest state, score x ≤ k

variable {score : β → K} {stop : List β → S → Bool} {Inv : Nat → S → Prop}
  {Beaten : K → Nat → S → Prop}

/-- Without the rule. -/
def never : List β → S → Bool := fun _ _ => false

/-- All that is found behind a beaten state is no better. -/
theorem run_of_beaten (exact : Exact search score stop Inv Beaten) {k : K} {rounds n : Nat}
    {found all : List β} {state : S} (inv : Inv n state) (beaten : Beaten k n state)
    (returned : run search never rounds n found state = .ok all) :
    ∃ extra, all = found ++ extra ∧ ∀ x ∈ extra, score x ≤ k := by
  induction rounds generalizing n found state with
  | zero =>
      cases returned
      exact ⟨_, rfl, exact.beaten_rest inv beaten⟩
  | succ rounds ih =>
      rw [run] at returned
      cases round : search.round n state with
      | error error =>
          rw [round] at returned
          cases returned
      | ok outcome =>
          obtain ⟨new, next⟩ := outcome
          obtain ⟨worse, still⟩ := exact.beaten_round inv beaten round
          rw [round] at returned
          simp only [never, Bool.false_eq_true, ↓reduceIte] at returned
          by_cases ended : search.ended next = true
          · rw [if_pos ended] at returned
            cases returned
            exact ⟨new, rfl, worse⟩
          · rw [if_neg ended] at returned
            have more := Bool.eq_false_iff.mpr ended
            obtain ⟨extra, rfl, later⟩ := ih (exact.inv_round inv round more) (still more) returned
            refine ⟨new ++ extra, List.append_assoc .., ?_⟩
            intro x member
            rcases List.mem_append.mp member with here | behind
            · exact worse x here
            · exact later x behind

/-- **Stopping early.** With an exact rule a search answers as without it, and it fails
only as it would without. -/
theorem run_eq_of_exact (exact : Exact search score stop Inv Beaten) (rounds : Nat) {n : Nat}
    (found : List β) {state : S} (inv : Inv n state) :
    (∀ all, run search never rounds n found state = .ok all →
      ∃ short, run search stop rounds n found state = .ok short ∧
        firstBest score short = firstBest score all) ∧
      ∀ error, run search stop rounds n found state = .error error →
        run search never rounds n found state = .error error := by
  induction rounds generalizing n found state with
  | zero => exact ⟨fun all returned => ⟨all, returned, rfl⟩, fun error failed => failed⟩
  | succ rounds ih =>
      cases round : search.round n state with
      | error error => simp [run, round]
      | ok outcome =>
          obtain ⟨new, next⟩ := outcome
          by_cases ended : search.ended next = true
          · simp [run, round, ended]
          · have more := Bool.eq_false_iff.mpr ended
            have later := ih (found ++ new) (exact.inv_round inv round more)
            by_cases rule : stop (found ++ new) next = true
            · obtain ⟨best, member, beaten⟩ :=
                exact.stop_beaten (exact.inv_round inv round more) rule
              constructor
              · intro all returned
                refine ⟨found ++ new, by simp [run, round, ended, rule], ?_⟩
                simp only [run, round, ended, never, Bool.false_eq_true, ↓reduceIte] at returned
                obtain ⟨extra, rfl, worse⟩ :=
                  run_of_beaten exact (exact.inv_round inv round more) beaten returned
                exact (firstBest_append_of_le score member worse).symm
              · intro error failed
                simp [run, round, ended, rule] at failed
            · simpa [run, round, ended, rule, never] using later

end Runs

end BoundedSearch
