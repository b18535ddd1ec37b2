import Mathlib.Data.List.Forall2
import Adai.Parquet.HeaderEncoding

/-! # Plain values

The values of a column as they are stored without a dictionary: little-endian
numbers, strings after their length, truth values in bits. The reader reads back
the values of every supported type (`WritesPlainValues.decodes`).
-/

namespace Adai.Parquet

open Readers ByteNumbers

inductive PhysicalType
  | boolean
  | int32
  | int64
  | int96
  | float
  | double
  | byteArray
  | fixedLenByteArray
  deriving DecidableEq, Repr

/-- A cell's value; a double is kept as its bits. -/
inductive ColumnValue
  | string (value : Bytes)
  | int64 (value : Int)
  | double (bits : Nat)
  | boolean (value : Bool)
  deriving DecidableEq, Repr

/-- The bits of a single-precision number as a double: infinities and
not-a-numbers (which become quiet), subnormal numbers, and the others. -/
def widenFloat (bits : Nat) : Nat :=
  let sign := bits / 2 ^ 31 * 2 ^ 63
  let exponent := bits / 2 ^ 23 % 2 ^ 8
  let mantissa := bits % 2 ^ 23
  if exponent = 255 then
    sign + 2047 * 2 ^ 52 + ((mantissa * 2 ^ 29) ||| if mantissa = 0 then 0 else 2 ^ 51)
  else if exponent = 0 then
    if mantissa = 0 then sign
    else
      let high := mantissa.log2
      sign + (high + 874) * 2 ^ 52 + (mantissa - 2 ^ high) * 2 ^ (52 - high)
  else sign + (exponent + 896) * 2 ^ 52 + mantissa * 2 ^ 29

/-! ## The reader -/

/-- A value of a type whose values are whole bytes. -/
def readPlain : PhysicalType → Reader UInt8 ColumnValue
  | .int32 => (fun bytes => .int64 (signed 32 (littleEndian bytes))) <$> takeMany 4
  | .int64 => (fun bytes => .int64 (signed 64 (littleEndian bytes))) <$> takeMany 8
  | .float => (fun bytes => .double (widenFloat (littleEndian bytes))) <$> takeMany 4
  | .double => (fun bytes => .double (littleEndian bytes)) <$> takeMany 8
  | .byteArray => do
      let len ← takeMany 4
      .string <$> takeMany (littleEndian len)
  | _ => failure

def PhysicalType.inBytes (type : PhysicalType) : Bool :=
  type ∈ [.int32, .int64, .float, .double, .byteArray]

def decodePlainValues (data : Bytes) (type : PhysicalType) (count : Nat) :
    Option (List ColumnValue) :=
  if data.length < count / 8 then none
  else if type = .boolean then
    if data.length < (count + 7) / 8 then none
    else some ((List.range count).map fun i =>
      .boolean ((data.getD (i / 8) 0).toNat.testBit (i % 8)))
  else if type.inBytes then (times (readPlain type) count data).map Prod.fst
  else none

/-! ## Values in bytes -/

inductive WritesPlain : PhysicalType → Bytes → ColumnValue → Prop
  | int32 {v : Int} (inside : InRange 32 v) :
      WritesPlain .int32 (toLittleEndian 4 (unsigned 32 v)) (.int64 v)
  | int64 {v : Int} (inside : InRange 64 v) :
      WritesPlain .int64 (toLittleEndian 8 (unsigned 64 v)) (.int64 v)
  | float {bits : Nat} (fits : bits < 2 ^ 32) :
      WritesPlain .float (toLittleEndian 4 bits) (.double (widenFloat bits))
  | double {bits : Nat} (fits : bits < 2 ^ 64) :
      WritesPlain .double (toLittleEndian 8 bits) (.double bits)
  | byteArray {value : Bytes} (fits : value.length < 2 ^ 32) :
      WritesPlain .byteArray (toLittleEndian 4 value.length ++ value) (.string value)

/-- The bytes are the values of a column of the type. -/
inductive WritesPlainValues (type : PhysicalType) : List ColumnValue → Bytes → Prop
  | bits {values : List Bool} {data : Bytes} (boolean : type = .boolean)
      (full : data.length = (values.length + 7) / 8)
      (bits : ∀ i, values[i]?.all fun value =>
        (data.getD (i / 8) 0).toNat.testBit (i % 8) == value) :
      WritesPlainValues type (values.map .boolean) data
  | bytes {values : List ColumnValue} {pieces : List Bytes} (inBytes : type.inBytes = true)
      (each : List.Forall₂ (WritesPlain type) pieces values) :
      WritesPlainValues type values pieces.flatten

/-- A number of a fixed width. -/
theorem reads_number {α : Type} {width n : Nat} (fits : n < 256 ^ width) (f : Nat → α) :
    Reads ((fun bytes => f (littleEndian bytes)) <$> takeMany width) (toLittleEndian width n)
      (f n) := by
  have read := (reads_takeMany (toLittleEndian width n)).map fun bytes => f (littleEndian bytes)
  rwa [length_toLittleEndian, littleEndian_toLittleEndian fits] at read

theorem WritesPlain.reads {type : PhysicalType} {bytes : Bytes} {value : ColumnValue}
    (writes : WritesPlain type bytes value) : Reads (readPlain type) bytes value := by
  cases writes with
  | @int32 v inside =>
      have read := @reads_number _ 4 _ (unsigned_lt 32 v) fun n => ColumnValue.int64 (signed 32 n)
      rwa [signed_unsigned (by decide) inside] at read
  | @int64 v inside =>
      have read := @reads_number _ 8 _ (unsigned_lt 64 v) fun n => ColumnValue.int64 (signed 64 n)
      rwa [signed_unsigned (by decide) inside] at read
  | float fits => exact @reads_number _ 4 _ fits fun n => ColumnValue.double (widenFloat n)
  | double fits => exact @reads_number _ 8 _ fits fun n => ColumnValue.double n
  | @byteArray value fits =>
      have len := reads_takeMany (toLittleEndian 4 value.length)
      rw [length_toLittleEndian] at len
      refine len.bind ?_
      rw [littleEndian_toLittleEndian fits]
      exact (reads_takeMany value).map _

theorem WritesPlain.ne_nil {type : PhysicalType} {bytes : Bytes} {value : ColumnValue}
    (writes : WritesPlain type bytes value) : bytes ≠ [] := by
  cases writes <;> exact List.cons_ne_nil _ _

/-- **Plain values.** The values of every supported type are read back. -/
theorem WritesPlainValues.decodes {type : PhysicalType} {values : List ColumnValue} {data : Bytes}
    (writes : WritesPlainValues type values data) :
    decodePlainValues data type values.length = some values := by
  unfold decodePlainValues
  cases writes with
  | @bits values _ boolean full bits =>
      rw [List.length_map, if_neg (by omega), if_pos boolean, if_neg (by omega)]
      refine congrArg some (List.ext_getElem? fun i => ?_)
      rw [List.getElem?_map, List.getElem?_map]
      by_cases inside : i < values.length
      · have bit := bits i
        rw [List.getElem?_eq_getElem inside, Option.all_some, beq_iff_eq] at bit
        rw [List.getElem?_range inside, List.getElem?_eq_getElem inside, Option.map_some,
          Option.map_some, bit]
      · rw [List.getElem?_eq_none (by rw [List.length_range]; omega),
          List.getElem?_eq_none (Nat.le_of_not_lt inside), Option.map_none, Option.map_none]
  | @bytes _ pieces inBytes each =>
      have enough : values.length ≤ pieces.flatten.length := by
        rw [← each.length_eq]
        have nonempty : List.Forall₂ (fun piece value => piece ≠ [] ∧ WritesPlain type piece value)
            pieces values := each.imp fun _ _ writes => ⟨writes.ne_nil, writes⟩
        exact length_flatten_le ((List.forall₂_and_left _ _).mp nonempty).1
      have other : type ≠ .boolean := by
        rintro rfl
        cases inBytes
      have reads : List.Forall₂ (Reads (readPlain type)) pieces values :=
        each.imp fun _ _ writes => writes.reads
      have read := reads_times reads []
      rw [List.append_nil] at read
      rw [if_neg (by omega), if_neg other, if_pos inBytes, read]
      rfl

end Adai.Parquet
