import Mathlib.Data.List.Infix

/-! # Backtracking patterns

Regular expressions as ECMAScript matches them: a pattern tries its alternatives
in order and a greedy repetition its longest run first. A pattern maps a string to
the list of remainders it can leave, the preferred one first. The first remainder
is the match; `Backtracking.Pattern.findAll` lists the matches one after the other
and `Backtracking.Pattern.replaceAll` replaces them. Both are for patterns that
match no empty string.
-/

namespace Backtracking

inductive Pattern (α : Type*)
  | one (p : α → Bool)
  | seq (a b : Pattern α)
  | alt (a b : Pattern α)
  | opt (a : Pattern α)
  | star (a : Pattern α)
  | notAhead (a : Pattern α)

/-- As many further rounds as match, longest first; an empty round ends it. -/
def repeatGreedy {α : Type*} (step : List α → List (List α)) : Nat → List α → List (List α)
  | 0, s => [s]
  | fuel + 1, s =>
      ((step s).filter fun r => r.length < s.length).flatMap (repeatGreedy step fuel) ++ [s]

namespace Pattern

variable {α : Type*}

/-- What is left of the string after a match, in order of preference. -/
def remainders : Pattern α → List α → List (List α)
  | one _, [] => []
  | one p, c :: rest => if p c then [rest] else []
  | seq a b, s => (a.remainders s).flatMap b.remainders
  | alt a b, s => a.remainders s ++ b.remainders s
  | opt a, s => a.remainders s ++ [s]
  | star a, s => repeatGreedy a.remainders s.length s
  | notAhead a, s => if (a.remainders s).isEmpty then [s] else []

/-- One or more, as many as there are. -/
def plus (a : Pattern α) : Pattern α := seq a (star a)

/-- The symbols of a string one after the other. -/
def literal [DecidableEq α] (first : α) (rest : List α) : Pattern α :=
  rest.foldl (fun a c => seq a (one fun d => d = c)) (one fun d => d = first)

/-- The alternatives in order; the last one is given apart. -/
def anyOf (alternatives : List (Pattern α)) (last : Pattern α) : Pattern α :=
  alternatives.foldr alt last

/-- The preferred match at the front of the string. -/
def first (r : Pattern α) (s : List α) : Option (List α) := (r.remainders s).head?

/-- The preferred matches, from left to right. -/
def findFrom (r : Pattern α) : Nat → List α → List (List α)
  | 0, _ => []
  | _ + 1, [] => []
  | fuel + 1, c :: rest =>
      match r.first (c :: rest) with
      | none => findFrom r fuel rest
      | some remainder =>
          (c :: rest).take ((c :: rest).length - remainder.length) :: findFrom r fuel remainder

def findAll (r : Pattern α) (s : List α) : List (List α) := r.findFrom s.length s

/-- Every match is replaced by a fixed string. -/
def replaceFrom (r : Pattern α) (by_ : List α) : Nat → List α → List α
  | 0, s => s
  | _ + 1, [] => []
  | fuel + 1, c :: rest =>
      match r.first (c :: rest) with
      | none => c :: replaceFrom r by_ fuel rest
      | some remainder => by_ ++ replaceFrom r by_ fuel remainder

def replaceAll (r : Pattern α) (by_ : List α) (s : List α) : List α :=
  r.replaceFrom by_ s.length s

section Remainders

variable (a b : Pattern α) (s : List α)

@[simp] theorem remainders_one_nil (p : α → Bool) : (one p).remainders [] = [] := rfl

@[simp] theorem remainders_one_cons (p : α → Bool) (c : α) :
    (one p).remainders (c :: s) = if p c then [s] else [] := rfl

@[simp] theorem remainders_seq :
    (seq a b).remainders s = (a.remainders s).flatMap b.remainders := rfl

@[simp] theorem remainders_alt : (alt a b).remainders s = a.remainders s ++ b.remainders s := rfl

@[simp] theorem remainders_star :
    (star a).remainders s = repeatGreedy a.remainders s.length s := rfl

@[simp] theorem remainders_notAhead :
    (notAhead a).remainders s = if (a.remainders s).isEmpty then [s] else [] := rfl

end Remainders

theorem repeatGreedy_succ (step : List α → List (List α)) (fuel : Nat) (s : List α) :
    repeatGreedy step (fuel + 1) s =
      ((step s).filter fun r => r.length < s.length).flatMap (repeatGreedy step fuel) ++ [s] := rfl

/-! ## What a match spells -/

/-- The strings a pattern admits, whatever follows. -/
inductive Admits : Pattern α → List α → Prop
  | one {p : α → Bool} {c : α} : p c = true → Admits (one p) [c]
  | seq {a b : Pattern α} {x y : List α} : Admits a x → Admits b y → Admits (seq a b) (x ++ y)
  | altLeft {a b : Pattern α} {x : List α} : Admits a x → Admits (alt a b) x
  | altRight {a b : Pattern α} {x : List α} : Admits b x → Admits (alt a b) x
  | optNone {a : Pattern α} : Admits (opt a) []
  | optSome {a : Pattern α} {x : List α} : Admits a x → Admits (opt a) x
  | starNil {a : Pattern α} : Admits (star a) []
  | starCons {a : Pattern α} {x y : List α} : Admits a x → Admits (star a) y →
      Admits (star a) (x ++ y)
  | notAhead {a : Pattern α} : Admits (notAhead a) []

theorem admits_of_repeatGreedy {a : Pattern α}
    (sound : ∀ s r, r ∈ a.remainders s → ∃ u, s = u ++ r ∧ Admits a u) (fuel : Nat) {s r : List α}
    (left : r ∈ repeatGreedy a.remainders fuel s) : ∃ u, s = u ++ r ∧ Admits (star a) u := by
  induction fuel generalizing s with
  | zero =>
      obtain rfl := List.mem_singleton.mp left
      exact ⟨[], rfl, .starNil⟩
  | succ fuel ih =>
      rcases List.mem_append.mp left with further | stop
      · obtain ⟨middle, round, later⟩ := List.mem_flatMap.mp further
        obtain ⟨x, rfl, front⟩ := sound s middle (List.mem_filter.mp round).1
        obtain ⟨y, rfl, back⟩ := ih later
        exact ⟨x ++ y, (List.append_assoc x y r).symm, .starCons front back⟩
      · obtain rfl := List.mem_singleton.mp stop
        exact ⟨[], rfl, .starNil⟩

/-- A remainder leaves off a front part that the pattern admits. -/
theorem admits_of_mem_remainders (a : Pattern α) {s r : List α} (left : r ∈ a.remainders s) :
    ∃ u, s = u ++ r ∧ Admits a u := by
  induction a generalizing s r with
  | one p =>
      cases s with
      | nil => cases left
      | cons c rest =>
          rw [remainders_one_cons] at left
          split at left
          · obtain rfl := List.mem_singleton.mp left
            exact ⟨[c], rfl, .one ‹_›⟩
          · cases left
  | seq a b iha ihb =>
      obtain ⟨middle, front, back⟩ := List.mem_flatMap.mp left
      obtain ⟨x, rfl, first⟩ := iha front
      obtain ⟨y, rfl, second⟩ := ihb back
      exact ⟨x ++ y, (List.append_assoc x y r).symm, .seq first second⟩
  | alt a b iha ihb =>
      rcases List.mem_append.mp left with first | second
      · obtain ⟨u, rfl, admits⟩ := iha first
        exact ⟨u, rfl, .altLeft admits⟩
      · obtain ⟨u, rfl, admits⟩ := ihb second
        exact ⟨u, rfl, .altRight admits⟩
  | opt a ih =>
      rcases List.mem_append.mp left with some | none
      · obtain ⟨u, rfl, admits⟩ := ih some
        exact ⟨u, rfl, .optSome admits⟩
      · obtain rfl := List.mem_singleton.mp none
        exact ⟨[], rfl, .optNone⟩
  | star a ih => exact admits_of_repeatGreedy (fun s r member => ih member) s.length left
  | notAhead a _ =>
      rw [remainders_notAhead] at left
      split at left
      · obtain rfl := List.mem_singleton.mp left
        exact ⟨[], rfl, .notAhead⟩
      · cases left

theorem first_admits {a : Pattern α} {s r : List α} (found : a.first s = some r) :
    ∃ u, s = u ++ r ∧ Admits a u :=
  a.admits_of_mem_remainders (List.mem_of_mem_head? found)

/-! ## Classes -/

theorem admits_one_iff {p : α → Bool} {u : List α} :
    Admits (one p) u ↔ ∃ c, p c = true ∧ u = [c] := by
  constructor
  · intro admits
    cases admits with
    | one holds => exact ⟨_, holds, rfl⟩
  · rintro ⟨c, holds, rfl⟩
    exact .one holds

/-- A repeated class admits strings of its symbols only. -/
theorem all_of_admits_star {p : α → Bool} {u : List α} (admits : Admits (star (one p)) u) :
    ∀ c ∈ u, p c = true := by
  generalize repeated : star (one p) = a at admits
  induction admits with
  | starNil => simp
  | starCons front _ _ ih =>
      obtain rfl : one p = _ := star.inj repeated
      obtain ⟨c, holds, rfl⟩ := admits_one_iff.mp front
      intro d member
      rcases List.mem_cons.mp member with rfl | later
      · exact holds
      · exact ih rfl d later
  | _ => cases repeated

theorem all_of_admits_plus {p : α → Bool} {u : List α} (admits : Admits (plus (one p)) u) :
    u ≠ [] ∧ ∀ c ∈ u, p c = true := by
  cases admits with
  | seq front back =>
      obtain ⟨c, holds, rfl⟩ := admits_one_iff.mp front
      refine ⟨by simp, fun d member => ?_⟩
      rcases List.mem_cons.mp member with rfl | later
      · exact holds
      · exact all_of_admits_star back d later

/-- A repeated class prefers the longest run. -/
theorem first_star_one (p : α → Bool) (fuel : Nat) {s : List α} (enough : s.length ≤ fuel) :
    (repeatGreedy (one p).remainders fuel s).head? = some (s.dropWhile p) := by
  induction fuel generalizing s with
  | zero =>
      obtain rfl : s = [] := List.eq_nil_of_length_eq_zero (Nat.le_zero.mp enough)
      rfl
  | succ fuel ih =>
      cases s with
      | nil => rfl
      | cons c rest =>
          have shorter : rest.length ≤ fuel := Nat.le_of_succ_le_succ enough
          by_cases holds : p c = true
          · simp [repeatGreedy_succ, holds, ih shorter]
          · simp [repeatGreedy_succ, holds]

theorem first_plus_one (p : α → Bool) (c : α) (rest : List α) :
    (plus (one p)).first (c :: rest) = if p c then some (rest.dropWhile p) else none := by
  unfold first plus
  by_cases holds : p c = true
  · simp [holds, first_star_one p rest.length (Nat.le_refl _)]
  · simp [holds]

/-- The first of several alternatives that matches. -/
theorem first_anyOf {alternatives : List (Pattern α)} {last : Pattern α} {s r : List α}
    (found : (anyOf alternatives last).first s = some r) :
    ∃ a ∈ alternatives ++ [last], a.first s = some r := by
  induction alternatives with
  | nil => exact ⟨last, by simp, found⟩
  | cons a rest ih =>
      unfold anyOf first at found
      rw [List.foldr_cons, remainders_alt, List.head?_append] at found
      cases here : (a.remainders s).head? with
      | some r' =>
          rw [here] at found
          exact ⟨a, by simp, here.trans found⟩
      | none =>
          rw [here] at found
          obtain ⟨b, member, matched⟩ := ih found
          exact ⟨b, List.mem_cons_of_mem _ member, matched⟩

theorem first_anyOf_isSome {alternatives : List (Pattern α)} {last a : Pattern α} {s : List α}
    (member : a ∈ alternatives ++ [last]) (matches_ : (a.first s).isSome = true) :
    ((anyOf alternatives last).first s).isSome = true := by
  induction alternatives with
  | nil =>
      obtain rfl := List.mem_singleton.mp member
      exact matches_
  | cons b rest ih =>
      unfold anyOf first
      rw [List.foldr_cons, remainders_alt, List.head?_append]
      rcases List.mem_cons.mp member with rfl | later
      · obtain ⟨r, found⟩ := Option.isSome_iff_exists.mp matches_
        rw [show (a.remainders s).head? = some r from found]
        rfl
      · cases here : (b.remainders s).head? with
        | some r => rfl
        | none => exact ih later

/-- What is matched in sequence starts from a remainder of the first part. -/
theorem first_seq {a b : Pattern α} {s r : List α} (found : (seq a b).first s = some r) :
    ∃ middle ∈ a.remainders s, b.first middle = some r := by
  rw [first, remainders_seq, List.head?_flatMap] at found
  exact List.exists_of_findSome?_eq_some found

theorem first_seq_isSome {a b : Pattern α} {s middle : List α} (member : middle ∈ a.remainders s)
    (matches_ : (b.first middle).isSome = true) : ((seq a b).first s).isSome = true := by
  rw [first, remainders_seq, List.head?_flatMap, List.findSome?_isSome_iff]
  exact ⟨middle, member, matches_⟩

/-- One optional symbol, then the longest run of a class. -/
theorem first_opt_plus {p q : α → Bool} {s r : List α}
    (found : (seq (opt (one p)) (plus (one q))).first s = some r) :
    ∃ front run, s = front ++ run ++ r ∧ (front = [] ∨ ∃ c, p c = true ∧ front = [c]) ∧
      run ≠ [] ∧ (∀ c ∈ run, q c = true) ∧ ∀ c ∈ r.head?, q c = false := by
  obtain ⟨middle, member, matched⟩ := first_seq found
  obtain ⟨run, rfl, nonempty, all, stops⟩ : ∃ run, middle = run ++ r ∧ run ≠ [] ∧
      (∀ c ∈ run, q c = true) ∧ ∀ c ∈ r.head?, q c = false := by
    cases middle with
    | nil => cases matched
    | cons c rest =>
        rw [first_plus_one] at matched
        split at matched
        · rename_i holds
          obtain rfl := Option.some.inj matched
          refine ⟨c :: rest.takeWhile q, by simp, by simp, ?_, ?_⟩
          · intro d member
            rcases List.mem_cons.mp member with rfl | later
            · exact holds
            · exact List.all_eq_true.mp List.all_takeWhile d later
          · intro d member
            have stops := List.head?_dropWhile_not q rest
            rwa [Option.mem_def.mp member] at stops
        · cases matched
  rcases List.mem_append.mp member with one_ | none
  · obtain ⟨front, rfl, admits⟩ := (one p).admits_of_mem_remainders one_
    obtain ⟨c, holds, rfl⟩ := admits_one_iff.mp admits
    exact ⟨[c], run, by simp, .inr ⟨c, holds, rfl⟩, nonempty, all, stops⟩
  · obtain rfl := List.mem_singleton.mp none
    exact ⟨[], run, by simp, .inl rfl, nonempty, all, stops⟩

/-- A literal admits itself only. -/
theorem eq_of_admits_literal [DecidableEq α] {c : α} {rest u : List α}
    (admits : Admits (literal c rest) u) : u = c :: rest := by
  suffices grown : ∀ a : Pattern α,
      Admits (rest.foldl (fun a c => seq a (one fun d => d = c)) a) u →
        ∃ x, Admits a x ∧ u = x ++ rest by
    obtain ⟨x, front, rfl⟩ := grown _ admits
    obtain ⟨d, same, rfl⟩ := admits_one_iff.mp front
    rw [of_decide_eq_true same]
    rfl
  clear admits
  induction rest with
  | nil => exact fun a admits => ⟨u, admits, (List.append_nil u).symm⟩
  | cons d rest ih =>
      intro a admits
      obtain ⟨y, both, rfl⟩ := ih _ admits
      cases both with
      | seq front back =>
          obtain ⟨e, same, rfl⟩ := admits_one_iff.mp back
          obtain rfl := of_decide_eq_true same
          exact ⟨_, front, by simp⟩

/-! ## Finding and replacing -/

/-- When every nonempty string of a kind has a match at its front and leaves a
string of the kind, the matches are all of them such. -/
theorem of_mem_findAll {r : Pattern α} {Kept Good : List α → Prop}
    (matched : ∀ s, Kept s → s ≠ [] → ∃ u rest, s = u ++ rest ∧ r.first s = some rest ∧
      Good u ∧ Kept rest) {s m : List α} (kept : Kept s) (member : m ∈ r.findAll s) : Good m := by
  suffices all : ∀ fuel s, Kept s → ∀ m ∈ r.findFrom fuel s, Good m from
    all s.length s kept m member
  intro fuel
  induction fuel with
  | zero => simp [findFrom]
  | succ fuel ih =>
      intro s kept m member
      cases s with
      | nil => cases member
      | cons c tail =>
          obtain ⟨u, rest, split, found, good, kept'⟩ := matched (c :: tail) kept (by simp)
          simp only [findFrom, found] at member
          rcases List.mem_cons.mp member with rfl | later
          · rw [split]
            simpa using good
          · exact ih rest kept' m later

theorem findAll_ne_nil {r : Pattern α} {s : List α} (nonempty : s ≠ [])
    (matches_ : (r.first s).isSome = true) : r.findAll s ≠ [] := by
  cases s with
  | nil => exact (nonempty rfl).elim
  | cons c rest =>
      obtain ⟨remainder, found⟩ := Option.isSome_iff_exists.mp matches_
      simp [findAll, findFrom, found]

/-- A pattern that matches wherever there is something passes over nothing. -/
theorem flatten_findAll {r : Pattern α}
    (matches_ : ∀ s : List α, s ≠ [] → (r.first s).isSome = true)
    (shorter : ∀ s rest : List α, r.first s = some rest → ∃ u, s = u ++ rest ∧ u ≠ [])
    (s : List α) : (r.findAll s).flatten = s := by
  suffices all : ∀ fuel s, s.length ≤ fuel → (r.findFrom fuel s).flatten = s from
    all s.length s (Nat.le_refl _)
  intro fuel
  induction fuel with
  | zero =>
      intro s enough
      obtain rfl : s = [] := List.eq_nil_of_length_eq_zero (Nat.le_zero.mp enough)
      rfl
  | succ fuel ih =>
      intro s enough
      cases s with
      | nil => rfl
      | cons c tail =>
          obtain ⟨rest, found⟩ := Option.isSome_iff_exists.mp (matches_ (c :: tail) (by simp))
          obtain ⟨u, split, something⟩ := shorter _ _ found
          have left : rest.length ≤ fuel := by
            have lengths := congrArg List.length split
            have some_ := List.length_pos_of_ne_nil something
            rw [List.length_append, List.length_cons] at lengths
            rw [List.length_cons] at enough
            omega
          simp only [findFrom, found, List.flatten_cons, ih rest left]
          rw [split, List.length_append, Nat.add_sub_cancel, List.take_left]

section Replace

variable {p : α → Bool} {by_ : List α}

theorem replaceFrom_plus_one (fuel : Nat) (c : α) (rest : List α) :
    (plus (one p)).replaceFrom by_ (fuel + 1) (c :: rest) =
      if p c then by_ ++ (plus (one p)).replaceFrom by_ fuel (rest.dropWhile p)
      else c :: (plus (one p)).replaceFrom by_ fuel rest := by
  rw [replaceFrom, first_plus_one]
  by_cases holds : p c = true <;> simp [holds]

/-- What is left are the symbols that are not replaced, and the replacements. -/
theorem mem_replaceAll_plus {s : List α} {c : α}
    (member : c ∈ (plus (one p)).replaceAll by_ s) : c ∈ by_ ∨ c ∈ s := by
  suffices all : ∀ fuel s, c ∈ (plus (one p)).replaceFrom by_ fuel s → c ∈ by_ ∨ c ∈ s from
    all s.length s member
  intro fuel
  induction fuel with
  | zero => exact fun s member => .inr member
  | succ fuel ih =>
      intro s member
      cases s with
      | nil => exact .inr member
      | cons d rest =>
          rw [replaceFrom_plus_one] at member
          split at member
          · rcases List.mem_append.mp member with now | later
            · exact .inl now
            · rcases ih _ later with now | left
              · exact .inl now
              · exact .inr (List.mem_cons_of_mem _ ((List.dropWhile_sublist p).subset left))
          · rcases List.mem_cons.mp member with rfl | later
            · exact .inr List.mem_cons_self
            · exact (ih rest later).imp_right (List.mem_cons_of_mem _)

/-- Replacing a class by symbols of the class leaves the others as they are. -/
theorem filter_replaceAll_plus (inside : ∀ c ∈ by_, p c = true) (s : List α) :
    ((plus (one p)).replaceAll by_ s).filter (fun c => !p c) = s.filter (fun c => !p c) := by
  have none : by_.filter (fun c => !p c) = [] :=
    List.filter_eq_nil_iff.mpr fun c member => by simp [inside c member]
  have run (rest : List α) : (rest.dropWhile p).filter (fun c => !p c) =
      rest.filter (fun c => !p c) := by
    have front : (rest.takeWhile p).filter (fun c => !p c) = [] :=
      List.filter_eq_nil_iff.mpr fun c member => by
        simp [List.all_eq_true.mp List.all_takeWhile c member]
    conv_rhs => rw [← @List.takeWhile_append_dropWhile _ p rest]
    rw [List.filter_append, front, List.nil_append]
  suffices all : ∀ fuel s, ((plus (one p)).replaceFrom by_ fuel s).filter (fun c => !p c) =
      s.filter (fun c => !p c) from all s.length s
  intro fuel
  induction fuel with
  | zero => exact fun s => rfl
  | succ fuel ih =>
      intro s
      cases s with
      | nil => rfl
      | cons c rest =>
          rw [replaceFrom_plus_one]
          by_cases holds : p c = true
          · rw [if_pos holds, List.filter_append, none, List.nil_append, ih, run]
            simp [holds]
          · rw [if_neg holds, List.filter_cons, List.filter_cons, ih]

theorem replaceAll_plus_ne_nil {s : List α} (nonempty : s ≠ []) (something : by_ ≠ []) :
    (plus (one p)).replaceAll by_ s ≠ [] := by
  cases s with
  | nil => exact (nonempty rfl).elim
  | cons c rest =>
      rw [replaceAll, List.length_cons, replaceFrom_plus_one]
      split
      · simp [something]
      · simp

/-- Nothing is replaced where the class does not occur. -/
theorem replaceFrom_plus_of_none {s : List α} (none : ∀ c ∈ s, p c = false) (fuel : Nat) :
    (plus (one p)).replaceFrom by_ fuel s = s := by
  induction fuel generalizing s with
  | zero => rfl
  | succ fuel ih =>
      cases s with
      | nil => rfl
      | cons c rest =>
          rw [replaceFrom_plus_one, none c List.mem_cons_self,
            ih fun d member => none d (List.mem_cons_of_mem _ member)]
          rfl

end Replace

end Pattern

end Backtracking
