import Mathlib.Algebra.Ring.Nat
import Mathlib.Data.Nat.Log

/-! # The text of a single-precision number

The 32 bits of a `float` and the text an output stream writes for them by default:
six significant digits, rounded half to even from the exact value, without trailing
zeros, in fixed notation for decimal exponents from -4 to 5 and in scientific
notation otherwise. The text is never empty and consists of digits, signs, a point
and letters (`StreamFloat.numeral_text`).
-/

namespace StreamFloat

/-- What the bits stand for; a finite number is `mantissa * 2 ^ exponent`, signed. -/
inductive Meaning
  | finite (negative : Bool) (mantissa : Nat) (exponent : Int)
  | infinite (negative : Bool)
  | notANumber (negative : Bool)
  deriving DecidableEq, Repr

def decode (bits : UInt32) : Meaning :=
  let n : Nat := bits.toNat
  let negative := decide (2 ^ 31 ≤ n)
  let biased : Nat := n / 2 ^ 23 % 2 ^ 8
  let fraction : Nat := n % 2 ^ 23
  if biased = 255 then
    if fraction = 0 then .infinite negative else .notANumber negative
  else if biased = 0 then .finite negative fraction (-149)
  else .finite negative (2 ^ 23 + fraction) (Int.ofNat biased - 150)

/-- `value >= 0.0f`; a negative zero is not below zero. -/
def isNonnegative (bits : UInt32) : Bool :=
  match decode bits with
  | .finite negative mantissa _ => !negative || mantissa == 0
  | .infinite negative => !negative
  | .notANumber _ => false

/-- The bits of `1.0f`, the only ones that are equal to it. -/
def one : UInt32 := 0x3F800000

/-- The bits of `-1.0f`. -/
def negativeOne : UInt32 := 0xBF800000

/-- A quotient rounded to the nearest number, half to even. -/
def roundedQuotient (numerator denominator : Nat) : Nat :=
  let quotient := numerator / denominator
  let twice := 2 * (numerator % denominator)
  if denominator < twice ∨ (twice = denominator ∧ quotient % 2 = 1) then quotient + 1 else quotient

/-- Six significant digits and the decimal exponent of the first. -/
def sixDigits (mantissa : Nat) (exponent : Int) : Nat × Int :=
  let numerator := mantissa * 2 ^ exponent.toNat
  let denominator := 2 ^ (-exponent).toNat
  let magnitude := (Nat.log 10 (numerator * 10 ^ 60 / denominator) : Int) - 60
  let rounded := roundedQuotient (numerator * 10 ^ (5 - magnitude).toNat)
    (denominator * 10 ^ (magnitude - 5).toNat)
  if rounded = 10 ^ 6 then (10 ^ 5, magnitude + 1) else (rounded, magnitude)

def dropTrailingZeros (digits : List Char) : List Char :=
  (digits.reverse.dropWhile (· == '0')).reverse

/-- A point and the digits behind it, when there are any. -/
def withFraction (whole fraction : List Char) : List Char :=
  match dropTrailingZeros fraction with
  | [] => whole
  | digits => whole ++ '.' :: digits

/-- The exponent of the scientific notation has at least two digits. -/
def exponentText (exponent : Int) : List Char :=
  let digits := Nat.toDigits 10 exponent.natAbs
  'e' :: (if exponent < 0 then '-' else '+') ::
    (if digits.length < 2 then '0' :: digits else digits)

/-- Six digits, the first with this decimal exponent. -/
def generalText (rounded : Nat) (magnitude : Int) : List Char :=
  let digits := Nat.toDigits 10 rounded
  if 0 ≤ magnitude ∧ magnitude < 6 then
    withFraction (digits.take (magnitude.toNat + 1)) (digits.drop (magnitude.toNat + 1))
  else if -4 ≤ magnitude ∧ magnitude < 0 then
    withFraction ['0'] (List.replicate (-magnitude - 1).toNat '0' ++ digits)
  else withFraction (digits.take 1) (digits.drop 1) ++ exponentText magnitude

def magnitudeText (mantissa : Nat) (exponent : Int) : List Char :=
  if mantissa = 0 then ['0']
  else generalText (sixDigits mantissa exponent).1 (sixDigits mantissa exponent).2

def signText (negative : Bool) : List Char := if negative then ['-'] else []

/-- What the stream writes. -/
def text (bits : UInt32) : List Char :=
  match decode bits with
  | .finite negative mantissa exponent => signText negative ++ magnitudeText mantissa exponent
  | .infinite negative => signText negative ++ ['i', 'n', 'f']
  | .notANumber negative => signText negative ++ ['n', 'a', 'n']

/-! ## The characters of the text -/

def isNumeral (c : Char) : Bool :=
  c.isDigit || ['.', '+', '-', 'e', 'i', 'n', 'f', 'a'].contains c

/-- A text of these characters only. -/
def Numeral (text : List Char) : Prop := ∀ c ∈ text, isNumeral c = true

instance (text : List Char) : Decidable (Numeral text) :=
  List.decidableBAll _ text

theorem Numeral.cons {c : Char} {text : List Char} (first : isNumeral c = true)
    (rest : Numeral text) : Numeral (c :: text) :=
  List.forall_mem_cons.mpr ⟨first, rest⟩

theorem Numeral.append {front rest : List Char} (left : Numeral front) (right : Numeral rest) :
    Numeral (front ++ rest) :=
  List.forall_mem_append.mpr ⟨left, right⟩

theorem Numeral.of_subset {text other : List Char} (numeral : Numeral text)
    (inside : other ⊆ text) : Numeral other :=
  fun c member => numeral c (inside member)

theorem numeral_toDigits (n : Nat) : Numeral (Nat.toDigits 10 n) := by
  intro c member
  have digit := Nat.isDigit_of_mem_toDigits (by decide) (by decide) member
  rw [isNumeral, digit, Bool.true_or]

theorem dropTrailingZeros_subset (digits : List Char) : dropTrailingZeros digits ⊆ digits := by
  intro c member
  unfold dropTrailingZeros at member
  apply List.mem_reverse.mp
  apply (List.dropWhile_sublist _).subset
  exact List.mem_reverse.mp member

theorem numeral_withFraction {whole fraction : List Char} (left : Numeral whole)
    (right : Numeral fraction) : Numeral (withFraction whole fraction) := by
  have kept : Numeral (dropTrailingZeros fraction) :=
    right.of_subset (dropTrailingZeros_subset fraction)
  unfold withFraction
  split
  · exact left
  · rename_i digits _
    exact left.append (kept.cons rfl)

theorem numeral_exponentText (exponent : Int) : Numeral (exponentText exponent) := by
  have digits := numeral_toDigits exponent.natAbs
  unfold exponentText
  apply Numeral.cons rfl
  apply Numeral.cons (by split <;> rfl)
  split
  · exact digits.cons rfl
  · exact digits

theorem numeral_generalText (rounded : Nat) (magnitude : Int) :
    Numeral (generalText rounded magnitude) := by
  have digits := numeral_toDigits rounded
  have front (n : Nat) := digits.of_subset (List.take_subset n _)
  have back (n : Nat) := digits.of_subset (List.drop_subset n _)
  have zeros (n : Nat) : Numeral (List.replicate n '0') := by
    intro c member
    rw [List.eq_of_mem_replicate member]
    rfl
  unfold generalText
  extract_lets text
  split
  · exact numeral_withFraction (front _) (back _)
  · split
    · exact numeral_withFraction (zeros 1) ((zeros _).append digits)
    · exact (numeral_withFraction (front _) (back _)).append (numeral_exponentText _)

theorem numeral_magnitudeText (mantissa : Nat) (exponent : Int) :
    Numeral (magnitudeText mantissa exponent) := by
  unfold magnitudeText
  split
  · decide
  · exact numeral_generalText _ _

theorem numeral_signText (negative : Bool) : Numeral (signText negative) := by
  cases negative <;> decide

/-- A stream writes a number with digits, signs, a point and letters. -/
theorem numeral_text (bits : UInt32) : Numeral (text bits) := by
  unfold text
  split
  · exact (numeral_signText _).append (numeral_magnitudeText _ _)
  · exact (numeral_signText _).append (by decide)
  · exact (numeral_signText _).append (by decide)

theorem withFraction_ne_nil {whole : List Char} (some_ : whole ≠ []) (fraction : List Char) :
    withFraction whole fraction ≠ [] := by
  unfold withFraction
  split
  · exact some_
  · exact List.append_ne_nil_of_left_ne_nil some_ _

theorem generalText_ne_nil (rounded : Nat) (magnitude : Int) :
    generalText rounded magnitude ≠ [] := by
  have taken (n : Nat) : (Nat.toDigits 10 rounded).take (n + 1) ≠ [] := by
    simp [List.take_eq_nil_iff, Nat.toDigits_ne_nil]
  unfold generalText
  extract_lets text
  split
  · exact withFraction_ne_nil (taken _) _
  · split
    · exact withFraction_ne_nil (by nofun) _
    · exact List.append_ne_nil_of_left_ne_nil (withFraction_ne_nil (taken 0) _) _

theorem magnitudeText_ne_nil (mantissa : Nat) (exponent : Int) :
    magnitudeText mantissa exponent ≠ [] := by
  unfold magnitudeText
  split
  · nofun
  · exact generalText_ne_nil _ _

theorem text_ne_nil (bits : UInt32) : text bits ≠ [] := by
  unfold text
  split
  · exact List.append_ne_nil_of_right_ne_nil _ (magnitudeText_ne_nil _ _)
  · exact List.append_ne_nil_of_right_ne_nil _ (by nofun)
  · exact List.append_ne_nil_of_right_ne_nil _ (by nofun)

end StreamFloat
