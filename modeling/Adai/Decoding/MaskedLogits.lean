import Mathlib.Algebra.Order.BigOperators.Group.List
import Mathlib.Algebra.Order.Field.Basic
import Adai.Decoding.TextGenerator

/-! # Choosing from masked logits

What a strategy can choose when stop tokens are masked with negative infinity. The largest
logit is never a masked one (`Adai.Decoding.TextGenerator.argmax_spec`), a masked one has
weight zero (`Adai.Decoding.TextGenerator.softmax_of_largest`), and a filter gives each
logit that it drops the value `-1e9`, the masked ones too
(`Adai.Decoding.TextGenerator.applyTopK_kept`, `Adai.Decoding.TextGenerator.applyTopP_kept`).
-/

namespace Adai.Decoding.TextGenerator

/-! ## The largest value -/

section Order

variable {K : Type} [LinearOrder K]

theorem eq_of_not_less {a b : Score K} (left : a.usable = true) (right : b.usable = true)
    (up : a.less b = false) (down : b.less a = false) : a = b := by
  cases a <;> cases b <;> simp_all [Score.usable, Score.less]
  exact le_antisymm down up

theorem not_less_of_less {a b c : Score K} (up : a.less b = true) (other : a.less c = false) :
    b.less c = false := by
  cases a <;> cases b <;> cases c <;> simp_all [Score.less]
  exact other.trans up.le

/-- A NaN, or a value that none of the list is above. -/
def Tops (value : Score K) (logits : Logits K) : Prop :=
  value = .nan ∨ ∀ v ∈ logits, value.less v = false

theorem maxElementFrom_spec (front rest : Logits K) {best : Nat} {value : Score K}
    (at_ : front[best]? = some value) (tops : Tops value front) :
    ∃ v, (front ++ rest)[maxElementFrom best value front.length rest]? = some v ∧
      Tops v (front ++ rest) := by
  induction rest generalizing front best value with
  | nil =>
      rw [List.append_nil]
      exact ⟨value, at_, tops⟩
  | cons v rest ih =>
      have split : front ++ v :: rest = (front ++ [v]) ++ rest := by simp
      have size : front.length + 1 = (front ++ [v]).length := by simp
      rw [maxElementFrom, split, size]
      by_cases better : value.less v = true
      · rw [if_pos better]
        apply ih
        · simp
        · right
          intro x member
          rcases List.mem_append.mp member with before | here
          · rcases tops with nan | below
            · rw [nan] at better
              cases better
            · exact not_less_of_less better (below x before)
          · rw [List.mem_singleton.mp here]
            cases v <;> simp [Score.less]
      · rw [if_neg better]
        apply ih
        · rw [List.getElem?_append_left (List.getElem?_eq_some_iff.mp at_).1]
          exact at_
        · refine tops.imp_right fun below x member => ?_
          rcases List.mem_append.mp member with before | here
          · exact below x before
          · rw [List.mem_singleton.mp here]
            exact Bool.eq_false_iff.mpr better

/-- `argmax` is the index of a top value. -/
theorem argmax_spec {logits : Logits K} (some_ : logits ≠ []) :
    ∃ (i : Nat) (v : Score K), argmax logits = i ∧ logits[i]? = some v ∧ Tops v logits := by
  cases logits with
  | nil => exact absurd rfl some_
  | cons first rest =>
      have start : Tops first [first] := by
        right
        intro v member
        rw [List.mem_singleton.mp member]
        cases first <;> simp [Score.less]
      obtain ⟨v, at_, tops⟩ := maxElementFrom_spec [first] rest List.getElem?_cons_zero start
      exact ⟨_, v, rfl, at_, tops⟩

/-- The largest of logits that are numbers or negative infinity. -/
structure IsLargest (top : K) (logits : Logits K) : Prop where
  mem : .finite top ∈ logits
  usable : ∀ v ∈ logits, v.usable = true
  above : ∀ v ∈ logits, (Score.finite top).less v = false

theorem exists_isLargest {logits : Logits K} (usable : ∀ v ∈ logits, v.usable = true)
    {a : K} (some_ : .finite a ∈ logits) : ∃ top, IsLargest top logits := by
  obtain ⟨i, v, -, at_, tops⟩ := argmax_spec (List.ne_nil_of_mem some_)
  have member := List.mem_of_getElem? at_
  have number := usable v member
  cases v with
  | nan => cases number
  | posInf => cases number
  | negInf =>
      rcases tops with nan | below
      · cases nan
      · exact absurd (below _ some_) (by simp [Score.less])
  | finite top =>
      rcases tops with nan | below
      · cases nan
      · exact ⟨top, member, usable, below⟩

theorem IsLargest.eq_of_tops {top : K} {logits : Logits K} (largest : IsLargest top logits)
    {v : Score K} (member : v ∈ logits) (tops : Tops v logits) : v = .finite top := by
  rcases tops with nan | below
  · have number := largest.usable v member
    rw [nan] at number
    cases number
  · exact eq_of_not_less (largest.usable v member) rfl (below _ largest.mem)
      (largest.above v member)

/-- `std::max` over the row finds the largest. -/
theorem IsLargest.foldl_max {top : K} {first : Score K} {rest : Logits K}
    (largest : IsLargest top (first :: rest)) : rest.foldl Score.max first = .finite top := by
  induction rest generalizing first with
  | nil => exact (List.mem_singleton.mp largest.mem).symm
  | cons v rest ih =>
      obtain ⟨mem, usable, above⟩ := largest
      have sub : ∀ x ∈ Score.max first v :: rest, x ∈ first :: v :: rest := by
        intro x member
        rcases List.mem_cons.mp member with rfl | later
        · unfold Score.max
          split
          · exact List.mem_cons_of_mem _ List.mem_cons_self
          · exact List.mem_cons_self
        · exact List.mem_cons_of_mem _ (List.mem_cons_of_mem _ later)
      refine ih ⟨?_, fun x member => usable x (sub x member), fun x member => above x (sub x member)⟩
      rcases List.mem_cons.mp mem with is | later
      · have keeps : first.less v = false :=
          is ▸ above v (List.mem_cons_of_mem _ List.mem_cons_self)
        rw [Score.max, keeps, is]
        exact List.mem_cons_self
      · rcases List.mem_cons.mp later with is | later
        · by_cases better : first.less v = true
          · rw [Score.max, if_pos better, is]
            exact List.mem_cons_self
          · have same := eq_of_not_less (usable first List.mem_cons_self) (is ▸ rfl)
              (Bool.eq_false_iff.mpr better) (is ▸ above first List.mem_cons_self)
            rw [Score.max, if_neg better, same, is]
            exact List.mem_cons_self
        · exact List.mem_cons_of_mem _ later

end Order

/-! ## Heads of sorted lists -/

section Heads

variable {σ K β : Type} [Field K] [LinearOrder K] (lib : Library σ K) (key : β → Score K)
  {items rest : List β} {head : β} (numbers : ∀ item ∈ items, key item ≠ .nan)

include numbers

theorem sort_head (sorted : lib.sort key items = head :: rest) :
    ∀ item ∈ items, (key head).less (key item) = false := by
  intro item member
  have pairs := lib.sort_sorted key items numbers
  have listed := (lib.sort_perm key items).mem_iff.mpr member
  rw [sorted] at pairs listed
  rcases List.mem_cons.mp listed with rfl | later
  · cases key item <;> simp [Score.less]
  · exact (List.pairwise_cons.mp pairs).1 item later

theorem partialSort_head {count : Nat} (some_ : 0 < count)
    (sorted : lib.partialSort count key items = head :: rest) :
    ∀ item ∈ items, (key head).less (key item) = false := by
  intro item member
  have listed := (lib.partialSort_perm count key items).mem_iff.mpr member
  have order := lib.partialSort_sorted count key items numbers 0
  rw [sorted] at listed order
  rcases List.mem_cons.mp listed with rfl | later
  · cases key item <;> simp [Score.less]
  · obtain ⟨j, at_⟩ := List.mem_iff_getElem?.mp later
    exact order (j + 1) some_ (Nat.succ_pos j) head rfl item (by simpa using at_)

end Heads

/-! ## Weights -/

section Weights

variable {σ K : Type} [Field K] [LinearOrder K] [IsStrictOrderedRing K]

/-- What the functions on numbers are known by. -/
structure Library.Lawful (lib : Library σ K) : Prop where
  exp_nonneg : ∀ x, 0 ≤ lib.exp x
  exp_lt : ∀ x, x < 0 → lib.exp x < lib.exp 0
  log_one : lib.log 1 = 0
  log_lt : ∀ x y, 0 < x → x < y → lib.log x < lib.log y
  pow_pos : ∀ x a, 0 < x → 0 < lib.pow x a

theorem Library.Lawful.exp_zero_pos {lib : Library σ K} (lawful : lib.Lawful) : 0 < lib.exp 0 :=
  (lawful.exp_nonneg (-1)).trans_lt (lawful.exp_lt (-1) neg_one_lt_zero)

/-- The weight of a value relative to the largest. -/
def weight (lib : Library σ K) (top : K) : Score K → K
  | .finite a => lib.exp (a - top)
  | _ => 0

omit [LinearOrder K] [IsStrictOrderedRing K] in
theorem foldl_add_finite (terms : List K) (start : K) :
    (terms.map Score.finite).foldl Score.add (.finite start) = .finite (start + terms.sum) := by
  induction terms generalizing start with
  | nil => simp
  | cons term terms ih =>
      rw [List.map_cons, List.foldl_cons, List.sum_cons, ← add_assoc]
      exact ih (start + term)

/-- The probabilities of logits that have a largest one. -/
theorem softmax_of_largest {lib : Library σ K} (lawful : lib.Lawful) {top : K} {logits : Logits K}
    (largest : IsLargest top logits) :
    ∃ sum, 0 < sum ∧ softmax lib logits = logits.map fun v => .finite (weight lib top v / sum) := by
  have weights : logits.map (fun v => expScore lib (v.sub (.finite top))) =
      (logits.map (weight lib top)).map Score.finite := by
    rw [List.map_map]
    apply List.map_congr_left
    intro v member
    have number := largest.usable v member
    cases v with
    | nan => cases number
    | posInf => cases number
    | negInf => rfl
    | finite a =>
        change Score.finite (lib.exp (a + -top)) = .finite (lib.exp (a - top))
        rw [sub_eq_add_neg]
  have nonneg : ∀ w ∈ logits.map (weight lib top), 0 ≤ w := by
    intro w member
    obtain ⟨v, -, rfl⟩ := List.mem_map.mp member
    cases v with
    | finite a => exact lawful.exp_nonneg _
    | _ => exact le_refl _
  have positive : 0 < (logits.map (weight lib top)).sum := by
    have listed : weight lib top (.finite top) ∈ logits.map (weight lib top) :=
      List.mem_map_of_mem largest.mem
    refine lt_of_lt_of_le ?_ (List.single_le_sum nonneg _ listed)
    change 0 < lib.exp (top - top)
    rw [sub_self]
    exact lawful.exp_zero_pos
  refine ⟨_, positive, ?_⟩
  cases logits with
  | nil => cases largest.mem
  | cons first rest =>
      simp only [softmax]
      rw [largest.foldl_max, weights, foldl_add_finite, zero_add]
      simp only [if_pos positive, List.map_map]
      apply List.map_congr_left
      intro v _
      exact if_neg positive.ne'

end Weights

/-! ## Masks and penalties -/

section Masks

variable {K : Type} (config : GenerationConfig K)

theorem getElem?_set_stop (logits : Logits K) (stop : Int) (i : Nat) :
    (if 0 ≤ stop then logits.set stop.toNat .negInf else logits)[i]? =
      logits[i]?.map fun v => if (i : Int) = stop then .negInf else v := by
  by_cases named : 0 ≤ stop
  · rw [if_pos named, List.getElem?_set]
    by_cases same : stop.toNat = i
    · have is : (i : Int) = stop := by omega
      rw [if_pos same, same]
      by_cases inside : i < logits.length
      · simp [inside, is]
      · simp [inside]
    · have other : (i : Int) ≠ stop := by omega
      simp [same, other]
  · have other : (i : Int) ≠ stop := by omega
    simp [named, other]

/-- The mask sets the stop tokens of the vocabulary to negative infinity. -/
theorem getElem?_maskStops (logits : Logits K) (i : Nat) :
    (maskStops config logits)[i]? =
      logits[i]?.map fun v => if isStopToken config i = true then .negInf else v := by
  simp only [maskStops, List.foldl_cons, List.foldl_nil, getElem?_set_stop, Option.map_map]
  congr 1
  funext v
  by_cases eos : (i : Int) = config.eosTokenId
  · by_cases pad : (i : Int) = config.padTokenId <;> simp [isStopToken, eos]
  · by_cases pad : (i : Int) = config.padTokenId <;> simp [isStopToken, eos, pad]

theorem length_maskStops (logits : Logits K) :
    (maskStops config logits).length = logits.length := by
  simp only [maskStops, List.foldl_cons, List.foldl_nil]
  split <;> split <;> simp

end Masks

/-! ## Choosing -/

section Choosing

variable {σ K : Type} [LinearOrder K] {config : GenerationConfig K}

/-- The largest logit goes on, if the stop tokens are not on top. -/
theorem argmax_goesOn {logits : Logits K} (some_ : logits ≠ [])
    (below : ∀ (i : Nat) v, logits[i]? = some v → isStopToken config i = true → ¬ Tops v logits) :
    isStopToken config (argmax logits) = false := by
  obtain ⟨i, v, is, at_, tops⟩ := argmax_spec some_
  rw [is]
  by_cases stop : isStopToken config i = true
  · exact absurd tops (below i v at_ stop)
  · exact Bool.eq_false_iff.mpr stop

/-- A sample goes on, if the stop tokens have no weight. -/
theorem sampleToken_goesOn [Field K] [IsStrictOrderedRing K] {lib : Library σ K} (lawful : lib.Lawful)
    {top : K} {logits : Logits K} (largest : IsLargest top logits)
    (quiet : ∀ (i : Nat) v, logits[i]? = some v → isStopToken config i = true →
      weight lib top v = 0) (s : σ) :
    isStopToken config (sampleToken lib logits s).1 = false := by
  obtain ⟨sum, positive, weights⟩ := softmax_of_largest lawful largest
  have numbers : ∀ p ∈ softmax lib logits, ∃ w, p = .finite w ∧ 0 ≤ w := by
    intro p member
    rw [weights] at member
    obtain ⟨v, -, rfl⟩ := List.mem_map.mp member
    refine ⟨_, rfl, div_nonneg ?_ positive.le⟩
    cases v with
    | finite a => exact lawful.exp_nonneg _
    | _ => exact le_refl _
  have some_ : ∃ w, 0 < w ∧ Score.finite w ∈ softmax lib logits := by
    refine ⟨weight lib top (.finite top) / sum, div_pos ?_ positive, ?_⟩
    · change 0 < lib.exp (top - top)
      rw [sub_self]
      exact lawful.exp_zero_pos
    · rw [weights]
      exact List.mem_map_of_mem (f := fun v => Score.finite (weight lib top v / sum)) largest.mem
  obtain ⟨w, chosen, at_⟩ := lib.sample_positive (softmax lib logits) s numbers some_
  rw [weights, List.getElem?_map] at at_
  obtain ⟨v, value, is⟩ := Option.map_eq_some_iff.mp at_
  change isStopToken config ((lib.sample (softmax lib logits) s).1 : Int) = false
  rw [weights]
  by_cases stop : isStopToken config ((lib.sample
      (logits.map fun v => .finite (weight lib top v / sum)) s).1 : Int) = true
  · rw [quiet _ v value stop, zero_div] at is
    injection is with is
    exact absurd is chosen.ne
  · exact Bool.eq_false_iff.mpr stop

end Choosing

/-! ## Filters -/

section Filters

/-- A value that is kept stays when others are. -/
theorem getElem?_set_of_kept {α : Type} {logits filtered : List α}
    (size : filtered.length = logits.length) {i j : Nat} {v w : α} (at_ : logits[i]? = some v) (here : logits[j]? = some w)
    (kept : filtered[i]? = some v ∨ i = j) : (filtered.set j w)[i]? = some v := by
  rw [List.getElem?_set]
  by_cases same : j = i
  · subst same
    have inside : j < filtered.length := size ▸ (List.getElem?_eq_some_iff.mp at_).1
    rw [if_pos rfl, if_pos inside, ← here, at_]
  · rw [if_neg same]
    exact kept.resolve_right fun eq => same eq.symm

variable {σ K : Type} [Field K]

/-- Each value is kept or dropped. -/
def Filtered (logits filtered : Logits K) : Prop :=
  filtered.length = logits.length ∧
    ∀ (i : Nat) v, filtered[i]? = some v → logits[i]? = some v ∨ v = dropped

theorem filtered_refl (logits : Logits K) : Filtered logits logits :=
  ⟨rfl, fun _ _ => .inl⟩

theorem filtered_replicate (logits : Logits K) :
    Filtered logits (List.replicate logits.length dropped) :=
  ⟨List.length_replicate, fun _ _ at_ =>
    .inr (List.eq_of_mem_replicate (List.mem_of_getElem? at_))⟩

theorem Filtered.trans {logits between filtered : Logits K} (first : Filtered logits between)
    (second : Filtered between filtered) : Filtered logits filtered := by
  refine ⟨second.1.trans first.1, fun i v at_ => ?_⟩
  rcases second.2 i v at_ with before | drop
  · exact first.2 i v before
  · exact .inr drop

theorem Filtered.set {logits filtered : Logits K} (kept : Filtered logits filtered) {i : Nat}
    {v : Score K} (at_ : logits[i]? = some v) : Filtered logits (filtered.set i v) := by
  refine ⟨by rw [List.length_set, kept.1], fun j w value => ?_⟩
  rw [List.getElem?_set] at value
  split at value
  · rename_i same
    split at value
    · exact .inl (by rw [← same, at_, value])
    · cases value
  · exact kept.2 j w value

theorem foldl_set_filtered {logits : Logits K} (taken : List (Score K × Nat))
    (listed : ∀ item ∈ taken, logits[item.2]? = some item.1) {filtered : Logits K}
    (kept : Filtered logits filtered) :
    Filtered logits (taken.foldl (fun filtered item => filtered.set item.2 item.1) filtered) ∧
      ∀ (i : Nat) v, logits[i]? = some v → filtered[i]? = some v ∨ (v, i) ∈ taken →
        (taken.foldl (fun filtered item => filtered.set item.2 item.1) filtered)[i]? = some v := by
  induction taken generalizing filtered with
  | nil => exact ⟨kept, fun _ _ _ either => either.resolve_right List.not_mem_nil⟩
  | cons item taken ih =>
      have here := listed item List.mem_cons_self
      obtain ⟨whole, stays⟩ := ih (fun other member => listed other (List.mem_cons_of_mem _ member))
        (kept.set here)
      refine ⟨whole, fun i v at_ either => stays i v at_ ?_⟩
      rcases either with before | member
      · exact .inl (getElem?_set_of_kept kept.1 at_ here (.inl before))
      · rcases List.mem_cons.mp member with is | later
        · rw [← is]
          exact .inl (getElem?_set_of_kept kept.1 at_ at_ (.inr rfl))
        · exact .inr later

variable [LinearOrder K]

/-- The largest value is still the largest, if it is kept and above what is dropped. -/
theorem IsLargest.filtered {top : K} {logits filtered : Logits K} (largest : IsLargest top logits)
    (kept : Filtered logits filtered) (floor : (dropped : Score K).less (.finite top) = true)
    (mem : .finite top ∈ filtered) : IsLargest top filtered := by
  have values : ∀ v ∈ filtered, v ∈ logits ∨ v = dropped := by
    intro v member
    obtain ⟨i, at_⟩ := List.mem_iff_getElem?.mp member
    exact (kept.2 i v at_).imp_left List.mem_of_getElem?
  refine ⟨mem, fun v member => ?_, fun v member => ?_⟩
  · rcases values v member with before | rfl
    · exact largest.usable v before
    · rfl
  · rcases values v member with before | rfl
    · exact largest.above v before
    · simp only [dropped, Score.less, decide_eq_true_eq] at floor
      simp only [dropped, Score.less, decide_eq_false_iff_not, not_lt]
      exact floor.le

/-- Top-k keeps the largest value. -/
theorem applyTopK_kept (lib : Library σ K) {top : K} {logits : Logits K}
    (largest : IsLargest top logits) (floor : (dropped : Score K).less (.finite top) = true)
    (k : Int) :
    Filtered logits (applyTopK lib logits k) ∧ IsLargest top (applyTopK lib logits k) := by
  unfold applyTopK
  split
  · exact ⟨filtered_refl logits, largest⟩
  · rename_i active
    have perm := lib.partialSort_perm k.toNat Prod.fst logits.zipIdx
    have listed : ∀ item ∈ lib.partialSort k.toNat Prod.fst logits.zipIdx,
        logits[item.2]? = some item.1 := fun item member =>
      List.mem_zipIdx_iff_getElem?.mp (perm.mem_iff.mp member)
    obtain ⟨whole, stays⟩ := foldl_set_filtered _
      (fun item member => listed item (List.mem_of_mem_take member)) (filtered_replicate logits)
    refine ⟨whole, largest.filtered whole floor ?_⟩
    -- The first of the sorted values is the largest.
    obtain ⟨positive, -⟩ := not_or.mp active
    have some_ : 0 < k.toNat := by omega
    obtain ⟨j, at_⟩ := List.mem_iff_getElem?.mp largest.mem
    have mem := perm.mem_iff.mpr (List.mem_zipIdx_iff_getElem? (x := (.finite top, j)).mpr at_)
    cases sorted : lib.partialSort k.toNat Prod.fst logits.zipIdx with
    | nil =>
        rw [sorted] at mem
        cases mem
    | cons head rest =>
        have here := listed head (by rw [sorted]; exact List.mem_cons_self)
        have numbers : ∀ item ∈ logits.zipIdx, item.1 ≠ .nan := by
          intro item member nan
          have number := largest.usable _ (List.mem_of_getElem? (List.mem_zipIdx_iff_getElem?.mp member))
          rw [nan] at number
          cases number
        have first := partialSort_head lib Prod.fst numbers some_ sorted
        have is : head.1 = .finite top := by
          apply largest.eq_of_tops (List.mem_of_getElem? here)
          right
          intro v member
          obtain ⟨i, value⟩ := List.mem_iff_getElem?.mp member
          exact first (v, i) (List.mem_zipIdx_iff_getElem?.mpr value)
        apply List.mem_of_getElem? (i := head.2)
        rw [← sorted, ← is]
        refine stays head.2 head.1 here (.inr ?_)
        rw [sorted, ← Nat.succ_pred_eq_of_pos some_, List.take_succ_cons]
        exact List.mem_cons_self

/-- What the nucleus keeps stays, and its first token is kept. -/
theorem keepNucleus_kept {logits : Logits K} (p : K) (items : List (Score K × Nat))
    (inside : ∀ item ∈ items, item.2 < logits.length) (cumsum : Score K) {filtered : Logits K}
    (kept : Filtered logits filtered) :
    Filtered logits (keepNucleus logits p cumsum filtered items) ∧
      ∀ (i : Nat) v, logits[i]? = some v → filtered[i]? = some v ∨ items.head?.map Prod.snd = some i →
        (keepNucleus logits p cumsum filtered items)[i]? = some v := by
  induction items generalizing cumsum filtered with
  | nil => exact ⟨kept, fun _ _ _ either => either.resolve_right (by simp)⟩
  | cons item rest ih =>
      obtain ⟨prob, index⟩ := item
      have here : logits[index]? = some (logits.getD index .nan) := by
        have bound := inside (prob, index) List.mem_cons_self
        rw [List.getD_eq_getElem?_getD, List.getElem?_eq_getElem bound]
        rfl
      have stays (i : Nat) (v : Score K) (at_ : logits[i]? = some v)
          (either : filtered[i]? = some v ∨ ((prob, index) :: rest).head?.map Prod.snd = some i) :
          (filtered.set index (logits.getD index .nan))[i]? = some v :=
        getElem?_set_of_kept kept.1 at_ here (either.imp_right fun same => by simpa using same.symm)
      rw [keepNucleus]
      by_cases full : (cumsum.add prob).atLeast p = true
      · simp only [full, ↓reduceIte]
        exact ⟨kept.set here, stays⟩
      · simp only [full, Bool.false_eq_true, ↓reduceIte]
        obtain ⟨whole, later⟩ := ih (fun other member => inside other (List.mem_cons_of_mem _ member))
          _ (kept.set here)
        exact ⟨whole, fun i v at_ either => later i v at_ (.inl (stays i v at_ either))⟩

/-- Nucleus sampling keeps the largest value. -/
theorem applyTopP_kept [IsStrictOrderedRing K] {lib : Library σ K} (lawful : lib.Lawful) {top : K}
    {logits : Logits K} (largest : IsLargest top logits)
    (floor : (dropped : Score K).less (.finite top) = true) (p : K) :
    Filtered logits (applyTopP lib logits p) ∧ IsLargest top (applyTopP lib logits p) := by
  unfold applyTopP
  split
  · exact ⟨filtered_refl logits, largest⟩
  split
  · exact applyTopK_kept lib largest floor 1
  obtain ⟨sum, positive, weights⟩ := softmax_of_largest lawful largest
  have perm := lib.sort_perm Prod.fst (softmax lib logits).zipIdx
  have values : ∀ item ∈ (softmax lib logits).zipIdx, ∃ v, logits[item.2]? = some v ∧
      item.1 = .finite (weight lib top v / sum) := by
    intro item member
    have at_ := List.mem_zipIdx_iff_getElem?.mp member
    rw [weights, List.getElem?_map] at at_
    obtain ⟨v, value, is⟩ := Option.map_eq_some_iff.mp at_
    exact ⟨v, value, is.symm⟩
  have inside : ∀ item ∈ lib.sort Prod.fst (softmax lib logits).zipIdx,
      item.2 < logits.length := by
    intro item member
    obtain ⟨v, value, _⟩ := values item (perm.mem_iff.mp member)
    exact (List.getElem?_eq_some_iff.mp value).1
  obtain ⟨whole, stays⟩ := keepNucleus_kept p _ inside (.finite 0)
    (filtered_replicate logits)
  refine ⟨whole, largest.filtered whole floor ?_⟩
  -- The most likely token has the largest logit.
  obtain ⟨j, at_⟩ := List.mem_iff_getElem?.mp largest.mem
  have topItem : (Score.finite (weight lib top (.finite top) / sum), j) ∈
      (softmax lib logits).zipIdx := by
    rw [List.mem_zipIdx_iff_getElem?, weights, List.getElem?_map, at_]
    rfl
  cases sorted : lib.sort Prod.fst (softmax lib logits).zipIdx with
  | nil =>
      have mem := perm.mem_iff.mpr topItem
      rw [sorted] at mem
      cases mem
  | cons head rest =>
      have numbers : ∀ item ∈ (softmax lib logits).zipIdx, item.1 ≠ .nan := by
        intro item member
        obtain ⟨v, -, is⟩ := values item member
        rw [is]
        intro same
        cases same
      have first := sort_head lib Prod.fst numbers sorted _ topItem
      obtain ⟨v, value, is⟩ := values head (perm.mem_iff.mp (by rw [sorted]; exact List.mem_cons_self))
      have heavy : lib.exp 0 ≤ weight lib top v := by
        rw [is] at first
        simp only [Score.less, decide_eq_false_iff_not, not_lt] at first
        have order := (div_le_div_iff_of_pos_right positive).mp first
        rwa [weight, sub_self] at order
      have isTop : v = .finite top := by
        have member := List.mem_of_getElem? value
        have above := largest.above v member
        have number := largest.usable v member
        cases v with
        | nan => cases number
        | posInf => cases number
        | negInf => exact absurd heavy (not_le.mpr lawful.exp_zero_pos)
        | finite a =>
            simp only [Score.less, decide_eq_false_iff_not, not_lt] at above
            have notBelow : ¬ a - top < 0 := fun below =>
              absurd heavy (not_le.mpr (lawful.exp_lt _ below))
            rw [le_antisymm above (sub_nonneg.mp (not_lt.mp notBelow))]
      apply List.mem_of_getElem? (i := head.2)
      rw [← sorted]
      refine stays head.2 _ (isTop ▸ value) (.inr ?_)
      rw [sorted]
      rfl

end Filters

end Adai.Decoding.TextGenerator
