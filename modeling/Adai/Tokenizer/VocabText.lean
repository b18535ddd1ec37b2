import Mathlib.Data.List.TakeWhile
import Adai.Tokenizer.PreTokenize

/-! # The text of a vocabulary file

Escaped tokens, decimal numbers and lines, each with what reading it gives back:
`unescape_escape`, `stoi_decimal`, `getlines_fileText`. An escaped token holds no
newline, tab or space, so it ends at the first tab of its line (`breakAt_append`), and it
starts with a word of unescaped bytes exactly when the token does
(`isPrefix_escape_iff`).
-/

namespace Adai.Tokenizer

/-! ## Escapes -/

def escapeByte (c : UInt8) : Bytes :=
  if c = 0x0A then ascii "\\n"
  else if c = 0x09 then ascii "\\t"
  else if c = 0x0D then ascii "\\r"
  else if c = 0x5C then ascii "\\\\"
  else if c = 0x20 then ascii "\\s"
  else [c]

def escape (s : Bytes) : Bytes := s.flatMap escapeByte

/-- The byte that an escape stands for, by the byte after the backslash. -/
def unescapeByte (next : UInt8) : Option UInt8 :=
  if next = 0x6E then some 0x0A
  else if next = 0x74 then some 0x09
  else if next = 0x72 then some 0x0D
  else if next = 0x5C then some 0x5C
  else if next = 0x73 then some 0x20
  else none

/-- A backslash before any other byte, or at the end, stands for itself. -/
def unescape : Bytes → Bytes
  | [] => []
  | [c] => [c]
  | c :: next :: rest =>
      if c = 0x5C then
        match unescapeByte next with
        | some d => d :: unescape rest
        | none => c :: unescape (next :: rest)
      else c :: unescape (next :: rest)

/-- A byte that is written as it is. -/
def Unescaped (c : UInt8) : Prop := escapeByte c = [c]

instance (c : UInt8) : Decidable (Unescaped c) := inferInstanceAs (Decidable (_ = _))

theorem escapeByte_cases (c : UInt8) : Unescaped c ∧ c ≠ 0x5C ∨
    ∃ next, escapeByte c = [0x5C, next] ∧ unescapeByte next = some c ∧ ¬ Unescaped c := by
  by_cases newline : c = 0x0A
  · exact .inr ⟨0x6E, by subst newline; decide⟩
  · by_cases tab : c = 0x09
    · exact .inr ⟨0x74, by subst tab; decide⟩
    · by_cases carriage : c = 0x0D
      · exact .inr ⟨0x72, by subst carriage; decide⟩
      · by_cases backslash : c = 0x5C
        · exact .inr ⟨0x5C, by subst backslash; decide⟩
        · by_cases space : c = 0x20
          · exact .inr ⟨0x73, by subst space; decide⟩
          · exact .inl ⟨by simp [Unescaped, escapeByte, *], backslash⟩

theorem unescape_escapeByte (c : UInt8) (rest : Bytes) :
    unescape (escapeByte c ++ rest) = c :: unescape rest := by
  rcases escapeByte_cases c with ⟨plain, other⟩ | ⟨next, escaped, back, _⟩
  · rw [plain, List.singleton_append]
    cases rest with
    | nil => rfl
    | cons next rest => rw [unescape, if_neg other]
  · rw [escaped, List.cons_append, List.singleton_append, unescape, if_pos rfl, back]

/-- Escaping loses nothing. -/
@[simp] theorem unescape_escape (s : Bytes) : unescape (escape s) = s := by
  induction s with
  | nil => rfl
  | cons c rest ih =>
      rw [escape, List.flatMap_cons, unescape_escapeByte]
      exact congrArg (c :: ·) ih

theorem mem_escapeByte {c d : UInt8} (member : d ∈ escapeByte c) :
    d ≠ 0x0A ∧ d ≠ 0x09 ∧ d ≠ 0x20 := by
  rcases escapeByte_cases c with ⟨plain, _⟩ | ⟨next, escaped, back, _⟩
  · rw [plain, List.mem_singleton] at member
    subst member
    refine ⟨?_, ?_, ?_⟩ <;> intro same <;> subst same <;> exact absurd plain (by decide)
  · rw [escaped, List.mem_cons, List.mem_singleton] at member
    rcases member with rfl | rfl
    · exact ⟨by decide, by decide, by decide⟩
    · refine ⟨?_, ?_, ?_⟩ <;> intro same <;> subst same <;> cases back

/-- No newline, tab or space is left. -/
theorem mem_escape {s : Bytes} {d : UInt8} (member : d ∈ escape s) :
    d ≠ 0x0A ∧ d ≠ 0x09 ∧ d ≠ 0x20 := by
  obtain ⟨c, _, inside⟩ := List.mem_flatMap.mp member
  exact mem_escapeByte inside

theorem length_le_length_escape (s : Bytes) : s.length ≤ (escape s).length := by
  induction s with
  | nil => exact Nat.le_refl _
  | cons c rest ih =>
      rw [escape, List.flatMap_cons, List.length_append, List.length_cons]
      have written : 1 ≤ (escapeByte c).length := by
        rcases escapeByte_cases c with ⟨plain, _⟩ | ⟨next, escaped, _⟩
        · simp [Unescaped] at plain
          simp [plain]
        · simp [escaped]
      have rest_le : rest.length ≤ (rest.flatMap escapeByte).length := ih
      omega

/-- A word of bytes that are written as they are starts a token's line exactly when
it starts the token. -/
theorem isPrefix_escape_iff {word : Bytes} (plain : ∀ c ∈ word, Unescaped c) (s rest : Bytes) :
    word <+: escape s ++ 0x09 :: rest ↔ word <+: s := by
  induction word generalizing s with
  | nil => exact iff_of_true List.nil_prefix List.nil_prefix
  | cons c word ih =>
      have here := plain c List.mem_cons_self
      have later := ih fun d member => plain d (List.mem_cons_of_mem _ member)
      cases s with
      | nil =>
          refine iff_of_false (fun starts => ?_) (fun starts => by simp at starts)
          obtain rfl := (List.cons_prefix_cons.mp starts).1
          exact absurd here (by decide)
      | cons d s =>
          rw [escape, List.flatMap_cons, List.append_assoc]
          rcases escapeByte_cases d with ⟨same, _⟩ | ⟨next, escaped, _, changed⟩
          · rw [same, List.singleton_append, List.cons_prefix_cons, List.cons_prefix_cons]
            exact and_congr_right fun _ => later s
          · rw [escaped, List.cons_append, List.cons_prefix_cons, List.cons_prefix_cons]
            refine iff_of_false (fun starts => ?_) fun starts => ?_
            · rw [starts.1] at here
              exact absurd here (by decide)
            · exact changed (starts.1 ▸ here)

/-! ## Numbers -/

def digits (n : Nat) : Bytes := (Nat.toDigits 10 n).map fun c => c.toNat.toUInt8

/-- How a stream prints an integer. -/
def decimal : Int → Bytes
  | .ofNat n => digits n
  | .negSucc n => 0x2D :: digits (n + 1)

def digitsValue (s : Bytes) : Nat := s.foldl (fun n c => 10 * n + (c.toNat - 48)) 0

/-- Blanks, a sign and digits; what follows is left alone. -/
def strtol (s : Bytes) : Option Int :=
  let s := s.dropWhile isSpace
  let unsigned := if s.head? = some 0x2D ∨ s.head? = some 0x2B then s.tail else s
  let number := unsigned.takeWhile isDigit
  if number = [] then none
  else some (if s.head? = some 0x2D then -digitsValue number else digitsValue number)

inductive StoiError
  | invalidArgument
  | outOfRange
  deriving DecidableEq, Repr

def stoi (s : Bytes) : Except StoiError Int :=
  match strtol s with
  | none => .error .invalidArgument
  | some value =>
      if value < -2147483648 ∨ 2147483647 < value then .error .outOfRange else .ok value

def atoi (s : Bytes) : Int := (strtol s).getD 0

theorem toNat_of_mem_toDigits {n : Nat} {d : Char} (member : d ∈ Nat.toDigits 10 n) :
    48 ≤ d.toNat ∧ d.toNat ≤ 57 ∧ d.toNat.toUInt8.toNat = d.toNat := by
  have digit := Nat.isDigit_of_mem_toDigits (by decide) (by decide) member
  simp only [Char.isDigit, Bool.and_eq_true, decide_eq_true_eq, ge_iff_le] at digit
  have low : 48 ≤ d.toNat := UInt32.le_iff_toNat_le.mp digit.1
  have high : d.toNat ≤ 57 := UInt32.le_iff_toNat_le.mp digit.2
  have small : d.toNat < UInt8.size := Nat.lt_of_le_of_lt high (by decide)
  exact ⟨low, high, UInt8.toNat_ofNat_of_lt small⟩

theorem isDigit_of_mem_digits {n : Nat} {c : UInt8} (member : c ∈ digits n) :
    isDigit c = true := by
  obtain ⟨d, listed, rfl⟩ := List.mem_map.mp member
  obtain ⟨low, high, same⟩ := toNat_of_mem_toDigits listed
  simp only [isDigit, Bool.and_eq_true, decide_eq_true_eq, UInt8.le_iff_toNat_le, same]
  exact ⟨low, high⟩

theorem digits_ne_nil (n : Nat) : digits n ≠ [] := by
  simp [digits, Nat.toDigits_ne_nil]

theorem digitsValue_digits (n : Nat) : digitsValue (digits n) = n := by
  suffices folded : ∀ (l : List Char) (value : Nat), (∀ d ∈ l, d.toNat.toUInt8.toNat = d.toNat) →
      (l.map fun c => c.toNat.toUInt8).foldl (fun n c => 10 * n + (c.toNat - 48)) value =
        Nat.ofDigitChars 10 l value by
    rw [digitsValue, digits, folded _ _ fun d member => (toNat_of_mem_toDigits member).2.2,
      Nat.ofDigitChars_ten_toDigits]
  intro l
  induction l with
  | nil => exact fun value _ => Nat.ofDigitChars_nil.symm
  | cons d rest ih =>
      intro value small
      rw [List.map_cons, List.foldl_cons, Nat.ofDigitChars_cons, small d List.mem_cons_self]
      exact ih _ fun e member => small e (List.mem_cons_of_mem _ member)

theorem isDigit_other {c : UInt8} (digit : isDigit c = true) :
    isSpace c = false ∧ c ≠ 0x2D ∧ c ≠ 0x2B := by
  have bytes : ∀ b : BitVec 8, isDigit ⟨b⟩ = true →
      isSpace ⟨b⟩ = false ∧ (⟨b⟩ : UInt8) ≠ 0x2D ∧ (⟨b⟩ : UInt8) ≠ 0x2B := by decide +kernel
  exact bytes c.toBitVec digit

theorem strtol_digits (n : Nat) : strtol (digits n) = some (n : Int) := by
  have all : ∀ c ∈ digits n, isDigit c = true := fun c member => isDigit_of_mem_digits member
  have whole : (digits n).takeWhile isDigit = digits n := List.takeWhile_eq_self_iff.mpr all
  have value := digitsValue_digits n
  have some_ := digits_ne_nil n
  generalize digits n = number at *
  cases number with
  | nil => exact (some_ rfl).elim
  | cons c rest =>
      obtain ⟨blank, minus, plus⟩ := isDigit_other (all c List.mem_cons_self)
      simp [strtol, blank, minus, plus, whole, value]

theorem stoi_digits {n : Nat} (small : n ≤ 2147483647) : stoi (digits n) = .ok (n : Int) := by
  rw [stoi, strtol_digits]
  exact if_neg (by omega)

/-- What is printed for an `int` that is not negative is read back. -/
theorem stoi_decimal {value : Int} (nonnegative : 0 ≤ value) (small : value ≤ 2147483647) :
    stoi (decimal value) = .ok value := by
  obtain ⟨n, rfl⟩ := Int.eq_ofNat_of_zero_le nonnegative
  exact stoi_digits (by omega)

/-! ## Lines -/

/-- The part before and the part after the first occurrence. -/
def breakAt (c : UInt8) : Bytes → Option (Bytes × Bytes)
  | [] => none
  | d :: rest =>
      if d = c then some ([], rest)
      else (breakAt c rest).map fun parts => (d :: parts.1, parts.2)

theorem breakAt_append {c : UInt8} {front : Bytes} (absent : c ∉ front) (rest : Bytes) :
    breakAt c (front ++ c :: rest) = some (front, rest) := by
  induction front with
  | nil => rw [List.nil_append, breakAt, if_pos rfl]
  | cons d front ih =>
      obtain ⟨other, absent⟩ := not_or.mp (List.mem_cons.not.mp absent)
      rw [List.cons_append, breakAt, if_neg (Ne.symm other), ih absent]
      rfl

/-- The lines `getline` reads one after the other; `line` is what has been read of
the first one. -/
def getlinesFrom (line : Bytes) : Bytes → List Bytes
  | [] => if line = [] then [] else [line]
  | c :: rest => if c = 0x0A then line :: getlinesFrom [] rest else getlinesFrom (line ++ [c]) rest

def getlines (content : Bytes) : List Bytes := getlinesFrom [] content

/-- Every line with its newline. -/
def fileText (lines : List Bytes) : Bytes := lines.flatMap fun line => line ++ [0x0A]

theorem getlinesFrom_append (front : Bytes) {line : Bytes} (absent : 0x0A ∉ line) (rest : Bytes) :
    getlinesFrom front (line ++ 0x0A :: rest) = (front ++ line) :: getlinesFrom [] rest := by
  induction line generalizing front with
  | nil => rw [List.nil_append, getlinesFrom, if_pos rfl, List.append_nil]
  | cons c line ih =>
      obtain ⟨other, absent⟩ := not_or.mp (List.mem_cons.not.mp absent)
      rw [List.cons_append, getlinesFrom, if_neg (Ne.symm other), ih _ absent, List.append_assoc,
        List.singleton_append]

/-- Lines without newlines are read back. -/
theorem getlines_fileText {lines : List Bytes} (absent : ∀ line ∈ lines, 0x0A ∉ line) :
    getlines (fileText lines) = lines := by
  induction lines with
  | nil => rfl
  | cons line rest ih =>
      rw [fileText, List.flatMap_cons, List.append_assoc, List.singleton_append, getlines,
        getlinesFrom_append [] (absent line List.mem_cons_self), List.nil_append]
      exact congrArg (line :: ·) (ih fun other member => absent other (List.mem_cons_of_mem _ member))

end Adai.Tokenizer
