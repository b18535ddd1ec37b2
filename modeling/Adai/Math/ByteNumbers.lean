import Mathlib.Data.Nat.Bitwise
import Mathlib.Data.Nat.Digits.Defs
import Mathlib.Tactic.Ring

/-! # Numbers in bytes

Little-endian numbers of a fixed width, numbers in base 128 whose bytes but the
last have their high bit set (`ByteNumbers.Varint`), signed numbers folded into
unsigned ones, and two's complement.
-/

namespace ByteNumbers

/-! ## Little-endian numbers -/

def littleEndian : List UInt8 → Nat
  | [] => 0
  | byte :: rest => byte.toNat + 256 * littleEndian rest

def toLittleEndian : Nat → Nat → List UInt8
  | 0, _ => []
  | width + 1, n => UInt8.ofNat n :: toLittleEndian width (n / 256)

@[simp] theorem length_toLittleEndian (width n : Nat) : (toLittleEndian width n).length = width := by
  induction width generalizing n with
  | zero => rfl
  | succ width ih => rw [toLittleEndian, List.length_cons, ih]

theorem littleEndian_toLittleEndian {width n : Nat} (bound : n < 256 ^ width) :
    littleEndian (toLittleEndian width n) = n := by
  induction width generalizing n with
  | zero =>
      rw [pow_zero] at bound
      rw [toLittleEndian, littleEndian]
      omega
  | succ width ih =>
      rw [pow_succ] at bound
      rw [toLittleEndian, littleEndian, ih (by omega), UInt8.toNat_ofNat']
      omega

/-- Only the bytes of its width are written of a number. -/
theorem toLittleEndian_mod (width n : Nat) :
    toLittleEndian width (n % 256 ^ width) = toLittleEndian width n := by
  induction width generalizing n with
  | zero => rfl
  | succ width ih =>
      have low : UInt8.ofNat (n % 256 ^ (width + 1)) = UInt8.ofNat n := by
        apply UInt8.toNat_inj.mp
        rw [UInt8.toNat_ofNat', UInt8.toNat_ofNat']
        exact Nat.mod_mod_of_dvd n (Dvd.intro_left (256 ^ width) rfl)
      have high : n % 256 ^ (width + 1) / 256 = n / 256 % 256 ^ width := by
        rw [pow_succ', Nat.mod_mul_right_div_self]
      rw [toLittleEndian, toLittleEndian, low, high, ih]

theorem littleEndian_lt (bytes : List UInt8) : littleEndian bytes < 256 ^ bytes.length := by
  induction bytes with
  | nil => exact Nat.one_pos
  | cons byte rest ih =>
      have bounded := byte.toNat_lt
      rw [littleEndian, List.length_cons, pow_succ]
      omega

theorem toLittleEndian_littleEndian (bytes : List UInt8) :
    toLittleEndian bytes.length (littleEndian bytes) = bytes := by
  induction bytes with
  | nil => rfl
  | cons byte rest ih =>
      have bounded := byte.toNat_lt
      have low : UInt8.ofNat (littleEndian (byte :: rest)) = byte := by
        apply UInt8.toNat_inj.mp
        rw [UInt8.toNat_ofNat', littleEndian]
        omega
      rw [List.length_cons, toLittleEndian, low]
      rw [littleEndian, show (byte.toNat + 256 * littleEndian rest) / 256 = littleEndian rest by omega,
        ih]

/-! ## Base 128 -/

/-- The bytes write the number, lowest seven bits first. -/
inductive Varint : Nat → List UInt8 → Prop
  | last {byte : UInt8} (small : byte.toNat < 128) : Varint byte.toNat [byte]
  | more {byte : UInt8} {n : Nat} {rest : List UInt8} (large : 128 ≤ byte.toNat)
      (later : Varint n rest) : Varint (byte.toNat - 128 + 128 * n) (byte :: rest)

theorem Varint.ne_nil {n : Nat} {bytes : List UInt8} (varint : Varint n bytes) : bytes ≠ [] := by
  cases varint <;> exact List.cons_ne_nil _ _

/-- The shortest form. -/
def toVarint (n : Nat) : List UInt8 :=
  if n < 128 then [UInt8.ofNat n] else UInt8.ofNat (n % 128 + 128) :: toVarint (n / 128)
termination_by n
decreasing_by omega

theorem varint_toVarint (n : Nat) : Varint n (toVarint n) := by
  induction n using Nat.strong_induction_on with
  | _ n ih =>
      rw [toVarint]
      by_cases small : n < 128
      · have value : (UInt8.ofNat n).toNat = n := by
          rw [UInt8.toNat_ofNat']
          omega
        rw [if_pos small]
        have varint : Varint (UInt8.ofNat n).toNat [UInt8.ofNat n] := .last (by omega)
        rwa [value] at varint
      · have value : (UInt8.ofNat (n % 128 + 128)).toNat = n % 128 + 128 := by
          rw [UInt8.toNat_ofNat']
          omega
        rw [if_neg small]
        have varint : Varint ((UInt8.ofNat (n % 128 + 128)).toNat - 128 + 128 * (n / 128))
            (UInt8.ofNat (n % 128 + 128) :: toVarint (n / 128)) :=
          .more (by omega) (ih (n / 128) (by omega))
        rwa [value, show n % 128 + 128 - 128 + 128 * (n / 128) = n by omega] at varint

theorem length_toVarint_le {n digits : Nat} (bound : n < 128 ^ digits) (some_ : 0 < digits) :
    (toVarint n).length ≤ digits := by
  induction digits generalizing n with
  | zero => exact absurd some_ (Nat.lt_irrefl 0)
  | succ digits ih =>
      rw [toVarint]
      by_cases small : n < 128
      · rw [if_pos small, List.length_singleton]
        omega
      · have more : 0 < digits := by
          apply Nat.pos_of_ne_zero
          rintro rfl
          exact small bound
        have below : n / 128 < 128 ^ digits := by
          rw [pow_succ] at bound
          omega
        have shorter := ih below more
        rw [if_neg small, List.length_cons]
        omega

/-! ## Signed numbers -/

/-- The signed number that was folded into an unsigned one: even ones are the
numbers from zero up, odd ones those below. -/
def unfoldSign (n : Nat) : Int := if n % 2 = 0 then (n / 2 : Nat) else -(n / 2 : Nat) - 1

def foldSign (v : Int) : Nat := if 0 ≤ v then 2 * v.toNat else 2 * (-v).toNat - 1

theorem unfoldSign_foldSign (v : Int) : unfoldSign (foldSign v) = v := by
  unfold foldSign unfoldSign
  split_ifs <;> omega

/-- The low bits of a number, read in two's complement. -/
def signed (bits n : Nat) : Int :=
  if n < 2 ^ (bits - 1) then (n : Int) else (n : Int) - 2 ^ bits

/-- The two's complement of a number. -/
def unsigned (bits : Nat) (v : Int) : Nat := (v % 2 ^ bits).toNat

/-- The numbers of so many bits in two's complement. -/
def InRange (bits : Nat) (v : Int) : Prop := -2 ^ (bits - 1) ≤ v ∧ v < 2 ^ (bits - 1)

theorem signed_unsigned {bits : Nat} (some_ : 0 < bits) {v : Int} (inside : InRange bits v) :
    signed bits (unsigned bits v) = v := by
  obtain ⟨below, above⟩ := inside
  have double : (2 : Int) ^ bits = 2 * 2 ^ (bits - 1) := by
    rw [← pow_succ', Nat.sub_add_cancel some_]
  have half : (((2 : Nat) ^ (bits - 1) : Nat) : Int) = 2 ^ (bits - 1) := by push_cast; rfl
  have positive : (0 : Int) < 2 ^ (bits - 1) := by positivity
  unfold signed unsigned
  by_cases negative : v < 0
  · have wrapped : v % 2 ^ bits = v + 2 ^ bits := by
      rw [← Int.add_emod_right v, Int.emod_eq_of_lt (by omega) (by omega)]
    rw [wrapped, if_neg (by omega)]
    omega
  · rw [Int.emod_eq_of_lt (by omega) (by omega), if_pos (by omega)]
    omega

theorem unsigned_lt (bits : Nat) (v : Int) : unsigned bits v < 2 ^ bits := by
  have positive : (0 : Int) < 2 ^ bits := by positivity
  have below := Int.emod_lt_of_pos v positive
  have above := Int.emod_nonneg v (ne_of_gt positive)
  unfold unsigned
  zify
  omega

end ByteNumbers
