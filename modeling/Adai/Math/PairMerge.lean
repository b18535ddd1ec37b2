import Mathlib.Data.List.Flatten
import Mathlib.Data.List.Infix
import Mathlib.Data.List.Induction
import Mathlib.Data.List.Nodup

/-! # Merging adjacent pairs of tokens

A word is a list of tokens, a token a list of symbols. Merging a pair replaces
its adjacent occurrences, from left to right, by one token. Words are *coherent*
when two factors that spell the same symbols are the same tokens; merging keeps
this (`PairMerge.Coherent.mergePair`), and a merged string is afterwards a single
token wherever it occurs (`PairMerge.whole_of_merged`). So merges that are each
taken from the words of that moment never produce one string twice
(`PairMerge.Learning.nodup`).

Coherence to begin with comes from the tokens being words of a prefix code
(`PairMerge.PrefixCode.coherent`).
-/

namespace PairMerge

variable {β : Type*}

/-! ## Prefix codes -/

/-- Nonempty strings none of which begins another. -/
structure PrefixCode (Atom : List β → Prop) : Prop where
  ne_nil : ∀ u, Atom u → u ≠ []
  unique : ∀ u v x y, Atom u → Atom v → u ++ x = v ++ y → u = v

/-- A string has at most one spelling in a prefix code. -/
theorem PrefixCode.flatten_injective {Atom : List β → Prop} (code : PrefixCode Atom)
    {f g : List (List β)} (left : ∀ u ∈ f, Atom u) (right : ∀ u ∈ g, Atom u)
    (same : f.flatten = g.flatten) : f = g := by
  induction f generalizing g with
  | nil =>
      cases g with
      | nil => rfl
      | cons v g =>
          have empty : v = [] := (List.append_eq_nil_iff.mp same.symm).1
          exact (code.ne_nil v (right v List.mem_cons_self) empty).elim
  | cons u f ih =>
      cases g with
      | nil =>
          have empty : u = [] := (List.append_eq_nil_iff.mp same).1
          exact (code.ne_nil u (left u List.mem_cons_self) empty).elim
      | cons v g =>
          rw [List.flatten_cons, List.flatten_cons] at same
          obtain rfl := code.unique u v _ _ (left u List.mem_cons_self)
            (right v List.mem_cons_self) same
          rw [ih (fun w member => left w (List.mem_cons_of_mem _ member))
            (fun w member => right w (List.mem_cons_of_mem _ member))
            (List.append_cancel_left same)]

/-! ## Factors -/

/-- Consecutive tokens of one of the words. -/
def IsFactor (words : List (List (List β))) (f : List (List β)) : Prop :=
  ∃ w ∈ words, f <:+: w

/-- Factors that spell the same symbols are the same tokens. -/
def Coherent (words : List (List (List β))) : Prop :=
  ∀ f g, IsFactor words f → IsFactor words g → f.flatten = g.flatten → f = g

/-- The string is a single token wherever it is spelled. -/
def Whole (words : List (List (List β))) (t : List β) : Prop :=
  ∀ f, IsFactor words f → f.flatten = t → f = [t]

theorem PrefixCode.coherent {Atom : List β → Prop} (code : PrefixCode Atom)
    {words : List (List (List β))} (units : ∀ w ∈ words, ∀ u ∈ w, Atom u) : Coherent words := by
  rintro f g ⟨w, member, inside⟩ ⟨w', member', inside'⟩ same
  exact code.flatten_injective (fun u listed => units w member u (inside.subset listed))
    (fun u listed => units w' member' u (inside'.subset listed)) same

/-! ## One merge -/

section Merge

variable [DecidableEq β] (first second : List β)

/-- Replace the adjacent occurrences of the pair, from left to right. -/
def mergePair : List (List β) → List (List β)
  | [] => []
  | [t] => [t]
  | t :: u :: rest =>
      if t = first ∧ u = second then (first ++ second) :: mergePair rest
      else t :: mergePair (u :: rest)

@[simp] theorem mergePair_nil : mergePair first second [] = [] := rfl

@[simp] theorem mergePair_singleton (t : List β) : mergePair first second [t] = [t] := rfl

@[simp] theorem mergePair_pair : mergePair first second [first, second] = [first ++ second] :=
  if_pos ⟨rfl, rfl⟩

theorem mergePair_hit (rest : List (List β)) :
    mergePair first second (first :: second :: rest) =
      (first ++ second) :: mergePair first second rest :=
  if_pos ⟨rfl, rfl⟩

theorem mergePair_miss {t u : List β} (other : ¬ (t = first ∧ u = second))
    (rest : List (List β)) :
    mergePair first second (t :: u :: rest) = t :: mergePair first second (u :: rest) :=
  if_neg other

@[simp] theorem flatten_mergePair (w : List (List β)) :
    (mergePair first second w).flatten = w.flatten := by
  fun_induction mergePair first second w with
  | case1 => rfl
  | case2 t => rfl
  | case3 t u rest hit ih =>
      obtain ⟨rfl, rfl⟩ := hit
      simp [ih]
  | case4 t u rest miss ih => simp [ih]

theorem length_mergePair_le (w : List (List β)) :
    (mergePair first second w).length ≤ w.length := by
  fun_induction mergePair first second w with
  | case1 => exact Nat.le_refl _
  | case2 t => exact Nat.le_refl _
  | case3 t u rest hit ih =>
      simp only [List.length_cons]
      omega
  | case4 t u rest miss ih =>
      simp only [List.length_cons] at ih ⊢
      omega

/-- Every token after a merge was there before, or is the merged one. -/
theorem mem_mergePair {w : List (List β)} {t : List β} (member : t ∈ mergePair first second w) :
    t ∈ w ∨ t = first ++ second := by
  fun_induction mergePair first second w with
  | case1 => exact .inl member
  | case2 u => exact .inl member
  | case3 u v rest hit ih =>
      rcases List.mem_cons.mp member with merged | later
      · exact .inr merged
      · rcases ih later with before | merged
        · exact .inl (List.mem_cons_of_mem _ (List.mem_cons_of_mem _ before))
        · exact .inr merged
  | case4 u v rest miss ih =>
      rcases List.mem_cons.mp member with rfl | later
      · exact .inl List.mem_cons_self
      · rcases ih later with before | merged
        · exact .inl (List.mem_cons_of_mem _ before)
        · exact .inr merged

theorem mergePair_cons_of_miss {t u : List β} {rest p q : List (List β)}
    (other : ¬ (t = first ∧ u = second)) (split : u :: rest = p ++ q) :
    mergePair first second (t :: p) = t :: mergePair first second p := by
  cases p with
  | nil => rfl
  | cons u' p =>
      obtain rfl : u = u' := (List.cons.inj split).1
      exact mergePair_miss first second other p

/-- A cut of the merged word comes from a cut of the word. -/
theorem mergePair_eq_append {w x y : List (List β)} (cut : mergePair first second w = x ++ y) :
    ∃ u v, w = u ++ v ∧ mergePair first second u = x ∧ mergePair first second v = y := by
  induction w using mergePair.induct first second generalizing x with
  | case1 =>
      obtain ⟨rfl, rfl⟩ := List.append_eq_nil_iff.mp cut.symm
      exact ⟨[], [], rfl, rfl, rfl⟩
  | case2 t =>
      cases x with
      | nil => exact ⟨[], [t], rfl, rfl, cut⟩
      | cons c x =>
          obtain ⟨rfl, nothing⟩ := List.cons.inj cut
          obtain ⟨rfl, rfl⟩ := List.append_eq_nil_iff.mp nothing.symm
          exact ⟨[t], [], rfl, rfl, rfl⟩
  | case3 t u rest hit ih =>
      obtain ⟨rfl, rfl⟩ := hit
      cases x with
      | nil => exact ⟨[], t :: u :: rest, rfl, rfl, cut⟩
      | cons c x =>
          rw [mergePair_hit, List.cons_append] at cut
          obtain ⟨rfl, later⟩ := List.cons.inj cut
          obtain ⟨p, q, rfl, front, back⟩ := ih later
          exact ⟨t :: u :: p, q, rfl, by rw [mergePair_hit, front], back⟩
  | case4 t u rest miss ih =>
      cases x with
      | nil => exact ⟨[], t :: u :: rest, rfl, rfl, cut⟩
      | cons c x =>
          rw [mergePair_miss first second miss, List.cons_append] at cut
          obtain ⟨rfl, later⟩ := List.cons.inj cut
          obtain ⟨p, q, split, front, back⟩ := ih later
          refine ⟨t :: p, q, by rw [split]; rfl, ?_, back⟩
          rw [mergePair_cons_of_miss first second miss split, front]

/-- A factor of the merged word is the merge of a factor of the word. -/
theorem infix_mergePair {w f : List (List β)} (inside : f <:+: mergePair first second w) :
    ∃ g, g <:+: w ∧ mergePair first second g = f := by
  obtain ⟨x, y, split⟩ := inside
  obtain ⟨u, v, rfl, front, _⟩ := mergePair_eq_append first second split.symm
  obtain ⟨p, q, rfl, _, middle⟩ := mergePair_eq_append first second front
  exact ⟨q, ⟨p, v, rfl⟩, middle⟩

variable {first second}

theorem IsFactor.of_mergePair {words : List (List (List β))} {f : List (List β)}
    (factor : IsFactor (words.map (mergePair first second)) f) :
    ∃ g, IsFactor words g ∧ mergePair first second g = f := by
  obtain ⟨_, member, inside⟩ := factor
  obtain ⟨w, listed, rfl⟩ := List.mem_map.mp member
  obtain ⟨g, within, merged⟩ := infix_mergePair first second inside
  exact ⟨g, ⟨w, listed, within⟩, merged⟩

/-- Merging keeps words coherent. -/
theorem Coherent.mergePair {words : List (List (List β))} (coherent : Coherent words) :
    Coherent (words.map (mergePair first second)) := by
  intro f g left right same
  obtain ⟨f', factor, rfl⟩ := left.of_mergePair
  obtain ⟨g', factor', rfl⟩ := right.of_mergePair
  rw [flatten_mergePair, flatten_mergePair] at same
  rw [coherent f' g' factor factor' same]

/-- A string that is a single token stays one. -/
theorem Whole.mergePair {words : List (List (List β))} {t : List β} (whole : Whole words t) :
    Whole (words.map (mergePair first second)) t := by
  intro f factor spells
  obtain ⟨g, factor', rfl⟩ := factor.of_mergePair
  rw [flatten_mergePair] at spells
  rw [whole g factor' spells, mergePair_singleton]

/-- Merging a pair that occurs makes its string a single token everywhere. -/
theorem whole_of_merged {words : List (List (List β))} (coherent : Coherent words)
    (occurs : IsFactor words [first, second]) :
    Whole (words.map (PairMerge.mergePair first second)) (first ++ second) := by
  intro f factor spells
  obtain ⟨g, factor', rfl⟩ := factor.of_mergePair
  rw [flatten_mergePair] at spells
  obtain rfl := coherent g [first, second] factor' occurs (by simpa using spells)
  exact mergePair_pair first second

/-! ## Learning merges -/

/-- The merges were taken one after the other from pairs that occurred in the
words of that moment; `words` is what they make of `start`. -/
inductive Learning (start : List (List (List β))) :
    List (List β × List β) → List (List (List β)) → Prop
  | nil : Learning start [] start
  | snoc {merges : List (List β × List β)} {words : List (List (List β))} {a b : List β} :
      Learning start merges words → IsFactor words [a, b] →
        Learning start (merges ++ [(a, b)]) (words.map (PairMerge.mergePair a b))

/-- The string that a merge produces. -/
def product (m : List β × List β) : List β := m.1 ++ m.2

namespace Learning

variable {start words : List (List (List β))} {merges : List (List β × List β)}

theorem coherent (learned : Learning start merges words) (coherent : Coherent start) :
    Coherent words := by
  induction learned with
  | nil => exact coherent
  | snoc _ _ ih => exact ih.mergePair

/-- Every merged string is a single token. -/
theorem whole (learned : Learning start merges words) (start_coherent : Coherent start) :
    ∀ m ∈ merges, Whole words (product m) := by
  induction learned with
  | nil => simp
  | snoc earlier occurs ih =>
      intro m member
      rcases List.mem_append.mp member with before | now
      · exact (ih m before).mergePair
      · obtain rfl := List.mem_singleton.mp now
        exact whole_of_merged (earlier.coherent start_coherent) occurs

/-- The pair merged next spells a string that no merge has produced. -/
theorem fresh (learned : Learning start merges words) (start_coherent : Coherent start)
    {a b : List β} (occurs : IsFactor words [a, b]) : ∀ m ∈ merges, product m ≠ a ++ b := by
  intro m member same
  have single := learned.whole start_coherent m member [a, b] occurs (by simp [same])
  cases single

/-- **Distinct products.** No two merges produce the same string. -/
theorem nodup (learned : Learning start merges words) (start_coherent : Coherent start) :
    (merges.map product).Nodup := by
  induction learned with
  | nil => exact List.nodup_nil
  | @snoc merges words a b earlier occurs ih =>
      rw [List.map_append, List.nodup_append]
      refine ⟨ih, List.nodup_singleton _, ?_⟩
      rintro s member s' single rfl
      obtain ⟨m, listed, rfl⟩ := List.mem_map.mp member
      obtain same : product m = a ++ b := by simpa [product] using single
      exact earlier.fresh start_coherent occurs m listed same

/-- Every factor of the merged words is spelled by a factor of the words at the
start, with at least as many tokens. -/
theorem lift (learned : Learning start merges words) {f : List (List β)}
    (factor : IsFactor words f) :
    ∃ g, IsFactor start g ∧ g.flatten = f.flatten ∧ f.length ≤ g.length := by
  induction learned generalizing f with
  | nil => exact ⟨f, factor, rfl, Nat.le_refl _⟩
  | @snoc merges words a b _ _ ih =>
      obtain ⟨g, factor', rfl⟩ := factor.of_mergePair
      obtain ⟨h, base, spells, longer⟩ := ih factor'
      refine ⟨h, base, by rw [spells, flatten_mergePair], ?_⟩
      exact Nat.le_trans (length_mergePair_le a b g) longer

/-- A merge was taken from a factor of two tokens or more at the start. -/
theorem product_lift (learned : Learning start merges words) {m : List β × List β}
    (member : m ∈ merges) :
    ∃ g, IsFactor start g ∧ g.flatten = product m ∧ 2 ≤ g.length := by
  induction learned with
  | nil => cases member
  | @snoc merges words a b earlier occurs ih =>
      rcases List.mem_append.mp member with before | now
      · exact ih before
      · obtain rfl := List.mem_singleton.mp now
        obtain ⟨g, base, spells, longer⟩ := earlier.lift occurs
        exact ⟨g, base, by simpa [product] using spells, longer⟩

/-- Tokens that are not empty stay so, and so do the parts of every merge. -/
theorem ne_nil (learned : Learning start merges words) (nonempty : ∀ w ∈ start, ∀ u ∈ w, u ≠ []) :
    (∀ w ∈ words, ∀ u ∈ w, u ≠ []) ∧ ∀ m ∈ merges, m.1 ≠ [] ∧ m.2 ≠ [] := by
  induction learned with
  | nil => exact ⟨nonempty, by simp⟩
  | @snoc merges words a b _ occurs ih =>
      obtain ⟨tokens, parts⟩ := ih
      obtain ⟨w, listed, inside⟩ := occurs
      have first : a ≠ [] := tokens w listed a (inside.subset (by simp))
      have second : b ≠ [] := tokens w listed b (inside.subset (by simp))
      constructor
      · intro v member u within
        obtain ⟨w', listed', rfl⟩ := List.mem_map.mp member
        rcases mem_mergePair a b within with before | rfl
        · exact tokens w' listed' u before
        · simp [first]
      · intro m member
        rcases List.mem_append.mp member with before | now
        · exact parts m before
        · rw [List.mem_singleton.mp now]
          exact ⟨first, second⟩

end Learning

/-! ## Applying merges -/

/-- Apply merges one after the other to a word. -/
def mergeAll (merges : List (List β × List β)) (w : List (List β)) : List (List β) :=
  merges.foldl (fun w m => PairMerge.mergePair m.1 m.2 w) w

@[simp] theorem flatten_mergeAll (merges : List (List β × List β)) (w : List (List β)) :
    (mergeAll merges w).flatten = w.flatten := by
  unfold mergeAll
  induction merges generalizing w with
  | nil => rfl
  | cons m merges ih => rw [List.foldl_cons, ih, flatten_mergePair]

/-- A token left after all merges was there before, or is a merge's product. -/
theorem mem_mergeAll {merges : List (List β × List β)} {w : List (List β)} {t : List β}
    (member : t ∈ mergeAll merges w) : t ∈ w ∨ t ∈ merges.map product := by
  unfold mergeAll at member
  induction merges generalizing w with
  | nil => exact .inl member
  | cons m merges ih =>
      rcases ih member with before | later
      · rcases mem_mergePair m.1 m.2 before with listed | rfl
        · exact .inl listed
        · exact .inr List.mem_cons_self
      · exact .inr (List.mem_cons_of_mem _ later)

end Merge

end PairMerge
