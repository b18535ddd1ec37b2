import Mathlib.Data.List.Basic

/-! # Names flattened and joined by a separator

A name is flattened when every element of a class is replaced by one separator.
Two flattened names are equal exactly when the names have the same sequence of
words between their separators (`flatten_eq_flatten_iff`), and a separator put
between two names concatenates their words (`words_join`).
-/

namespace JoinedNames

variable {α : Type*}

/-- `name` with every element of the class `flat` replaced by `joint`. -/
def flatten (joint : α) (flat : α → Bool) (name : List α) : List α :=
  name.map fun c => if flat c then joint else c

@[simp] theorem flatten_append (joint : α) (flat : α → Bool) (name rest : List α) :
    flatten joint flat (name ++ rest) = flatten joint flat name ++ flatten joint flat rest :=
  List.map_append

variable [BEq α]

/-- The words of `name` between its joints and its elements of the class `flat`. -/
def words (joint : α) (flat : α → Bool) (name : List α) : List (List α) :=
  name.splitOnP fun c => flat c || c == joint

@[simp] theorem words_nil (joint : α) (flat : α → Bool) : words joint flat [] = [[]] :=
  List.splitOnP_nil

variable [LawfulBEq α]

theorem words_join (joint : α) (flat : α → Bool) (name rest : List α) :
    words joint flat (name ++ joint :: rest) = words joint flat name ++ words joint flat rest :=
  List.splitOnP_append_cons _ _ (by simp)

theorem splitOn_flatten (joint : α) (flat : α → Bool) (name : List α) :
    (flatten joint flat name).splitOn joint = words joint flat name := by
  induction name with
  | nil => rfl
  | cons c name hypothesis =>
    rw [words, List.splitOnP_cons_eq_if_modifyHead, ← words, ← hypothesis, flatten, List.map_cons,
      List.splitOn_cons_eq_if_modifyHead, ← flatten]
    cases replaced : flat c with
    | true => simp
    | false => rfl

/-- Flattening forgets which separator stood where, and nothing else. -/
theorem flatten_eq_flatten_iff (joint : α) (flat : α → Bool) (name other : List α) :
    flatten joint flat name = flatten joint flat other ↔
      words joint flat name = words joint flat other := by
  rw [← splitOn_flatten, ← splitOn_flatten]
  constructor
  · intro same
    rw [same]
  · intro same
    calc flatten joint flat name
        = [joint].intercalate ((flatten joint flat name).splitOn joint) :=
          (List.intercalate_splitOn joint).symm
      _ = [joint].intercalate ((flatten joint flat other).splitOn joint) := by rw [same]
      _ = flatten joint flat other := List.intercalate_splitOn joint

end JoinedNames
