import Mathlib.Data.List.Infix

/-! # The first occurrence of a word in a text

`after needle text` is what follows the first occurrence of `needle`. An occurrence
in a front part of the text is the first one in the whole text (`after_append`), and
one that is not within the front ends behind it (`length_lt_of_after_append`).
-/

namespace FirstOccurrence

variable {α : Type*} [DecidableEq α]

/-- The rest of `text` behind the first occurrence of `needle`. -/
def after (needle : List α) : List α → Option (List α)
  | [] => if needle = [] then some [] else none
  | c :: text =>
      if needle <+: c :: text then some ((c :: text).drop needle.length) else after needle text

theorem after_nil (needle : List α) :
    after needle [] = if needle = [] then some [] else none := rfl

theorem after_cons (needle : List α) (c : α) (text : List α) :
    after needle (c :: text) =
      if needle <+: c :: text then some ((c :: text).drop needle.length)
      else after needle text := rfl

theorem suffix_of_after {needle text rest : List α} (found : after needle text = some rest) :
    needle ++ rest <:+ text := by
  induction text with
  | nil =>
    rw [after_nil] at found
    split at found
    case isTrue empty =>
      cases found
      rw [empty]
      exact List.suffix_rfl
    case isFalse => cases found
  | cons c text hypothesis =>
    rw [after_cons] at found
    split at found
    case isTrue starts =>
      cases found
      rw [List.prefix_iff_eq_append.mp starts]
    case isFalse => exact (hypothesis found).trans (List.suffix_cons c text)

theorem after_self {needle : List α} (some_ : needle ≠ []) (rest : List α) :
    after needle (needle ++ rest) = some rest := by
  cases needle with
  | nil => exact (some_ rfl).elim
  | cons c needle =>
    rw [List.cons_append, after_cons, ← List.cons_append, if_pos (List.prefix_append _ _),
      List.drop_left]

/-- Where the word's first element is missing it does not start. -/
theorem after_skip {c : α} {front : List α} (absent : c ∉ front) (needle later : List α) :
    after (c :: needle) (front ++ later) = after (c :: needle) later := by
  induction front with
  | nil => rfl
  | cons d front hypothesis =>
    obtain ⟨other, absent⟩ := not_or.mp (List.mem_cons.not.mp absent)
    rw [List.cons_append, after_cons, if_neg, hypothesis absent]
    exact fun starts => other (List.cons_prefix_cons.mp starts).1

theorem after_skip_one {c d : α} (other : c ≠ d) (needle later : List α) :
    after (c :: needle) (d :: later) = after (c :: needle) later :=
  after_skip (List.mem_singleton.not.mpr other) needle later

theorem after_step {needle text : List α} (other : ¬needle <+: text) (c : α) :
    after (c :: needle) (c :: text) = after (c :: needle) text := by
  rw [after_cons, if_neg]
  exact fun starts => other (List.cons_prefix_cons.mp starts).2

/-- The first occurrence in the front is the first one. -/
theorem after_append {needle front rest : List α} (found : after needle front = some rest)
    (back : List α) : after needle (front ++ back) = some (rest ++ back) := by
  induction front with
  | nil =>
    rw [after_nil] at found
    split at found
    case isTrue empty =>
      cases found
      subst empty
      cases back with
      | nil => rfl
      | cons c back => simp [after_cons]
    case isFalse => cases found
  | cons c front hypothesis =>
    rw [after_cons] at found
    split at found
    case isTrue starts =>
      cases found
      have reaches := starts.trans (List.prefix_append (c :: front) back)
      rw [List.cons_append] at reaches
      rw [List.cons_append, after_cons, if_pos reaches, ← List.cons_append,
        List.drop_append_of_le_length starts.length_le]
    case isFalse starts =>
      have other : ¬needle <+: c :: (front ++ back) := by
        intro reaches
        -- Such an occurrence would be longer than what is left of the front.
        obtain ⟨tail, behind⟩ := suffix_of_after found
        refine starts (List.prefix_of_prefix_length_le reaches
          (by rw [← List.cons_append]; exact List.prefix_append _ _) ?_)
        have lengths := congrArg List.length behind
        simp only [List.length_append, List.length_cons] at lengths ⊢
        omega
      rw [List.cons_append, after_cons, if_neg other]
      exact hypothesis found

/-- Behind a first occurrence that the front does not hold, less is left than the back. -/
theorem length_lt_of_after_append {needle front back rest : List α}
    (absent : after needle front = none) (found : after needle (front ++ back) = some rest) :
    rest.length < back.length := by
  induction front with
  | nil =>
    have word : needle ≠ [] := by
      intro empty
      simp [after_nil, empty] at absent
    have lengths := (suffix_of_after found).length_le
    have some_ := List.length_pos_of_ne_nil word
    rw [List.length_append, List.nil_append] at lengths
    omega
  | cons c front hypothesis =>
    rw [after_cons] at absent
    split at absent
    case isTrue => cases absent
    case isFalse starts =>
      rw [List.cons_append] at found
      rw [after_cons] at found
      split at found
      case isTrue reaches =>
        cases found
        have longer : (c :: front).length < needle.length := by
          by_contra fits
          exact starts (List.prefix_of_prefix_length_le reaches
            (by rw [← List.cons_append]; exact List.prefix_append _ _) (not_lt.mp fits))
        simp only [List.length_drop, List.length_cons, List.length_append] at longer ⊢
        have whole := reaches.length_le
        simp only [List.length_cons, List.length_append] at whole
        omega
      case isFalse => exact hypothesis absent found

/-- What follows the first occurrence of an element in a text that starts without it. -/
theorem after_singleton_append {c : α} {front : List α} (absent : c ∉ front) (back : List α) :
    after [c] (front ++ c :: back) = some back := by
  induction front with
  | nil => simp [after_cons]
  | cons d front hypothesis =>
    obtain ⟨other, absent⟩ := not_or.mp (List.mem_cons.not.mp absent)
    rw [List.cons_append, after_cons, if_neg (by simpa using other)]
    exact hypothesis absent

theorem exists_after_of_mem {c : α} {text : List α} (member : c ∈ text) :
    ∃ rest, after [c] text = some rest := by
  induction text with
  | nil => cases member
  | cons d text hypothesis =>
    by_cases here : c = d
    · exact ⟨text, by simp [after_cons, here]⟩
    · obtain ⟨rest, found⟩ := hypothesis (List.mem_of_ne_of_mem here member)
      exact ⟨rest, by rw [after_cons, if_neg (by simpa using here), found]⟩

/-- An element that the front does not hold is found in the back. -/
theorem length_lt_of_after_singleton {c : α} {front back rest : List α} (absent : c ∉ front)
    (found : after [c] (front ++ back) = some rest) : rest.length < back.length := by
  induction front with
  | nil =>
    have lengths := (suffix_of_after found).length_le
    simp only [List.length_append, List.length_singleton, List.nil_append] at lengths
    omega
  | cons d front hypothesis =>
    obtain ⟨other, absent⟩ := not_or.mp (List.mem_cons.not.mp absent)
    rw [List.cons_append, after_cons, if_neg (by simpa using other)] at found
    exact hypothesis absent found

end FirstOccurrence
