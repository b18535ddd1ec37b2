import Mathlib.Data.List.Forall2
import Adai.Math.ByteNumbers
import Adai.Math.Readers

/-! # Numbers in a stream of items

A stream holds bytes among its items, and values of another kind as pieces of one length. A
number is written in a fixed number of bytes, the lowest first, and is read back if it fits
(`ByteItems.reads_nat`, `ByteItems.reads_int`); a value is read back from its piece
(`CellItems.reads_cell`).
-/

open Readers ByteNumbers

/-- How bytes stand in a stream. -/
structure ByteItems (σ : Type) where
  byte : UInt8 → σ
  unbyte : σ → UInt8
  unbyte_byte : ∀ b, unbyte (byte b) = b

/-- A stream of bytes. -/
def ByteItems.plain : ByteItems UInt8 := ⟨id, id, fun _ => rfl⟩

/-- How the values of a type stand in a stream. -/
structure CellItems (σ α : Type) where
  width : Nat
  cell : α → List σ
  uncell : List σ → α
  length_cell : ∀ x, (cell x).length = width
  uncell_cell : ∀ x, uncell (cell x) = x

namespace ByteItems

variable {σ : Type} (items : ByteItems σ) {width : Nat}

def writeNat (width n : Nat) : List σ := (toLittleEndian width n).map items.byte

def readNat (width : Nat) : Reader σ Nat :=
  (fun piece => littleEndian (piece.map items.unbyte)) <$> takeMany width

theorem length_writeNat (width n : Nat) : (items.writeNat width n).length = width := by
  rw [writeNat, List.length_map, length_toLittleEndian]

theorem reads_nat {n : Nat} (bound : n < 256 ^ width) :
    Reads (items.readNat width) (items.writeNat width n) n := by
  have taken := (reads_takeMany (items.writeNat width n)).map
    fun piece => littleEndian (piece.map items.unbyte)
  have back : (items.writeNat width n).map items.unbyte = toLittleEndian width n := by
    rw [writeNat, List.map_map]
    exact (List.map_congr_left fun b _ => items.unbyte_byte b).trans (List.map_id _)
  rwa [back, littleEndian_toLittleEndian bound, length_writeNat] at taken

/-- What is read fits in its bytes. -/
theorem readNat_lt {n : Nat} {input rest : List σ}
    (read : items.readNat width input = some (n, rest)) : n < 256 ^ width := by
  obtain ⟨-, -, taken, ⟨-, length⟩, rfl⟩ := (accepts_takeMany width).map _ input n rest read
  have bound := littleEndian_lt (taken.map items.unbyte)
  rwa [List.length_map, length] at bound

/-- A signed number in two's complement. -/
def writeInt (width : Nat) (v : Int) : List σ := items.writeNat width (unsigned (8 * width) v)

def readInt (width : Nat) : Reader σ Int := signed (8 * width) <$> items.readNat width

theorem reads_int {v : Int} (some_ : 0 < width) (inside : InRange (8 * width) v) :
    Reads (items.readInt width) (items.writeInt width v) v := by
  have bound : unsigned (8 * width) v < 256 ^ width := by
    have below := unsigned_lt (8 * width) v
    rwa [pow_mul] at below
  have read := (items.reads_nat bound).map (signed (8 * width))
  rwa [signed_unsigned (by omega) inside] at read

end ByteItems

namespace CellItems

variable {σ α : Type} (items : CellItems σ α)

def readCell : Reader σ α := items.uncell <$> takeMany items.width

theorem reads_cell (x : α) : Reads items.readCell (items.cell x) x := by
  have taken := (reads_takeMany (items.cell x)).map items.uncell
  rwa [items.uncell_cell, items.length_cell] at taken

/-- Values one after the other. -/
theorem reads_cells (values : List α) :
    Reads (times items.readCell values.length) (values.flatMap items.cell) values := by
  have each : List.Forall₂ (Reads items.readCell) (values.map items.cell) values := by
    rw [List.forall₂_map_left_iff, List.forall₂_same]
    exact fun x _ => items.reads_cell x
  exact reads_times each

end CellItems
