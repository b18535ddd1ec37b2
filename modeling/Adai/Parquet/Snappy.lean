import Adai.Parquet.HeaderEncoding

/-! # Snappy blocks

A raw block is the length of its contents and a list of elements, each a literal
or a copy of bytes written before, which may reach into the bytes it writes. The
reader refuses a length that so few bytes cannot make. It undoes every block a
compressor can write (`SnappyCompresses.uncompresses`), however it chose the
elements and their forms.
-/

namespace Adai.Parquet

open Readers ByteNumbers

/-! ## The reader -/

/-- The bytes from `offset` back are appended one by one, those just appended too. -/
def copyBack (offset : Nat) : Nat → Bytes → Bytes
  | 0, out => out
  | length + 1, out => copyBack offset length (out ++ [out.getD (out.length - offset) 0])

/-- The length of a literal: in the tag, or in the bytes after it. -/
def snappyLiteralLength (tag : Nat) : Reader UInt8 Nat :=
  if tag / 4 < 60 then pure (tag / 4 + 1)
  else (fun bytes => littleEndian bytes + 1) <$> takeMany (tag / 4 - 59)

def snappyLiteral (uncompressedLen : Nat) (out : Bytes) (tag : Nat) : Reader UInt8 Bytes := do
  let litLen ← snappyLiteralLength tag
  let literal ← takeMany litLen
  if uncompressedLen < out.length + litLen then failure
  return out ++ literal

/-- The length and the offset of a copy. -/
def snappyCopy (tag : Nat) : Reader UInt8 (Nat × Nat) :=
  if tag % 4 = 1 then do
    let b0 ← next
    return (tag / 4 % 8 + 4, tag / 32 * 256 + b0.toNat)
  else do
    let offset ← takeMany (if tag % 4 = 2 then 2 else 4)
    return (tag / 4 + 1, littleEndian offset)

/-- One round of the loop over the elements. -/
def snappyRound (uncompressedLen : Nat) (out : Bytes) : Reader UInt8 (Bytes ⊕ Bytes) :=
  if uncompressedLen ≤ out.length then return .inr out
  else do
    let tag ← next
    if tag.toNat % 4 = 0 then
      let out ← snappyLiteral uncompressedLen out tag.toNat
      return .inl out
    else
      let (length, offset) ← snappyCopy tag.toNat
      if offset = 0 ∨ out.length < offset then failure
      if uncompressedLen < out.length + length then failure
      return .inl (copyBack offset length out)

def snappyRawUncompress (src : Bytes) (maxUncompressed : Nat) : Option Bytes := do
  let (uncompressedLen, elements) ← readVarint src
  if maxUncompressed < uncompressedLen ∨ src.length < uncompressedLen / 32 then none
  let (out, _) ← untilDone (snappyRound uncompressedLen) [] elements
  if out.length = uncompressedLen then some out else none

/-! ## Blocks -/

/-- Bytes are added that each equal the one the offset before it. -/
structure Repeats (offset length : Nat) (out out' : Bytes) : Prop where
  starts : out <+: out'
  added : out'.length = out.length + length
  back : ∀ i, out.length ≤ i → i < out'.length → out'[i]? = out'[i - offset]?

/-- The bytes are an element that turns the output so far into a longer one. -/
inductive SnappyElement (out : Bytes) : Bytes → Bytes → Prop
  | short {literal : Bytes} (some_ : literal ≠ []) (small : literal.length ≤ 60) :
      SnappyElement out (UInt8.ofNat ((literal.length - 1) * 4) :: literal) (out ++ literal)
  | long {literal : Bytes} {extra : Nat} (some_ : literal ≠ []) (one : 1 ≤ extra) (four : extra ≤ 4)
      (fits : literal.length ≤ 256 ^ extra) :
      SnappyElement out
        (UInt8.ofNat ((59 + extra) * 4) :: (toLittleEndian extra (literal.length - 1) ++ literal))
        (out ++ literal)
  | near {length offset : Nat} {out' : Bytes} (four : 4 ≤ length) (eleven : length ≤ 11)
      (some_ : 0 < offset) (fits : offset < 2 ^ 11) (inside : offset ≤ out.length)
      (repeats : Repeats offset length out out') :
      SnappyElement out
        [UInt8.ofNat (offset / 256 * 32 + (length - 4) * 4 + 1), UInt8.ofNat (offset % 256)] out'
  | middle {length offset : Nat} {out' : Bytes} (one : 1 ≤ length) (small : length ≤ 64)
      (some_ : 0 < offset) (fits : offset < 256 ^ 2) (inside : offset ≤ out.length)
      (repeats : Repeats offset length out out') :
      SnappyElement out (UInt8.ofNat ((length - 1) * 4 + 2) :: toLittleEndian 2 offset) out'
  | far {length offset : Nat} {out' : Bytes} (one : 1 ≤ length) (small : length ≤ 64)
      (some_ : 0 < offset) (fits : offset < 256 ^ 4) (inside : offset ≤ out.length)
      (repeats : Repeats offset length out out') :
      SnappyElement out (UInt8.ofNat ((length - 1) * 4 + 3) :: toLittleEndian 4 offset) out'

inductive SnappyElements : Bytes → Bytes → Bytes → Prop
  | done {out : Bytes} : SnappyElements out [] out
  | more {out middle out' front back : Bytes} (first : SnappyElement out front middle)
      (later : SnappyElements middle back out') : SnappyElements out (front ++ back) out'

/-- The second bytes are a Snappy block of the first ones. -/
def SnappyCompresses (plain stored : Bytes) : Prop :=
  ∃ len elements, WritesVarint plain.length len ∧ SnappyElements [] elements plain ∧
    stored = len ++ elements

/-! ## Elements -/

/-- Copying byte by byte makes the repetition. -/
theorem Repeats.copyBack_eq {offset length : Nat} {out out' : Bytes} (some_ : 0 < offset)
    (inside : offset ≤ out.length) (repeats : Repeats offset length out out') :
    copyBack offset length out = out' := by
  induction length generalizing out with
  | zero => exact repeats.starts.eq_of_length repeats.added.symm
  | succ length ih =>
      obtain ⟨added, rfl⟩ := repeats.starts
      have total := repeats.added
      rw [List.length_append] at total
      cases added with
      | nil =>
          rw [List.length_nil] at total
          omega
      | cons c rest =>
          have first : out.getD (out.length - offset) 0 = c := by
            have same := repeats.back out.length (Nat.le_refl _) (by simp)
            rw [List.getElem?_append_right (Nat.le_refl _), Nat.sub_self, List.getElem?_cons_zero,
              List.getElem?_append_left (by omega)] at same
            rw [List.getD_eq_getElem?_getD, ← same]
            rfl
          have later : Repeats offset length (out ++ [c]) (out ++ c :: rest) := by
            refine ⟨⟨rest, List.append_assoc _ _ _⟩, ?_, fun i past before => ?_⟩
            · simp only [List.length_append, List.length_cons, List.length_nil] at total ⊢
              omega
            · refine repeats.back i ?_ before
              rw [List.length_append] at past
              omega
          rw [copyBack, first]
          refine ih ?_ later
          rw [List.length_append]
          omega

theorem SnappyElement.grows {out bytes out' : Bytes} (element : SnappyElement out bytes out') :
    out.length < out'.length ∧ out'.length ≤ out.length + 32 * bytes.length := by
  cases element with
  | short some_ small =>
      have nonempty := List.length_pos_iff.mpr some_
      simp only [List.length_append, List.length_cons]
      omega
  | long some_ one four fits =>
      have nonempty := List.length_pos_iff.mpr some_
      simp only [List.length_append, List.length_cons]
      omega
  | near four eleven _ _ _ repeats =>
      rw [repeats.added]
      simp only [List.length_cons, List.length_nil]
      omega
  | middle one small _ _ _ repeats =>
      rw [repeats.added, List.length_cons, length_toLittleEndian]
      omega
  | far one small _ _ _ repeats =>
      rw [repeats.added, List.length_cons, length_toLittleEndian]
      omega

theorem SnappyElements.grows {out bytes out' : Bytes} (elements : SnappyElements out bytes out') :
    out.length ≤ out'.length ∧ out'.length ≤ out.length + 32 * bytes.length := by
  induction elements with
  | done => exact ⟨Nat.le_refl _, Nat.le_add_right _ _⟩
  | more first _ ih =>
      have step := first.grows
      rw [List.length_append]
      omega

theorem reads_snappyRound_literal {uncompressedLen : Nat} {tag : UInt8} {out len literal : Bytes}
    (isLiteral : tag.toNat % 4 = 0)
    (length : Reads (snappyLiteralLength tag.toNat) len literal.length) (some_ : literal ≠ [])
    (fits : (out ++ literal).length ≤ uncompressedLen) :
    Reads (snappyRound uncompressedLen out) (tag :: (len ++ literal)) (.inl (out ++ literal)) := by
  have nonempty := List.length_pos_iff.mpr some_
  rw [List.length_append] at fits
  rw [snappyRound, if_neg (by omega)]
  refine (reads_next tag).bind ?_
  rw [if_pos isLiteral]
  refine Reads.bind_nil (length.bind ((reads_takeMany literal).bind_nil ?_)) (reads_pure _)
  rw [if_neg (by omega)]
  exact reads_pure _

theorem reads_snappyRound_copy {uncompressedLen length offset : Nat} {tag : UInt8}
    {out bytes out' : Bytes} (other : tag.toNat % 4 ≠ 0)
    (reads : Reads (snappyCopy tag.toNat) bytes (length, offset)) (some_ : 0 < offset)
    (inside : offset ≤ out.length) (longer : 0 < length) (fits : out'.length ≤ uncompressedLen)
    (repeats : Repeats offset length out out') :
    Reads (snappyRound uncompressedLen out) (tag :: bytes) (.inl out') := by
  have added := repeats.added
  rw [snappyRound, if_neg (by omega)]
  refine (reads_next tag).bind ?_
  rw [if_neg other]
  refine reads.bind_nil ?_
  dsimp only
  rw [if_neg (by omega), if_neg (by omega), repeats.copyBack_eq some_ inside]
  exact reads_pure _

/-- The offset of a copy, in the bytes after its tag. -/
theorem reads_offset {width offset : Nat} (length : Nat) (fits : offset < 256 ^ width) :
    Reads (do let bytes ← takeMany width; return (length, littleEndian bytes))
      (toLittleEndian width offset) (length, offset) := by
  have read := (reads_takeMany (toLittleEndian width offset)).map
    fun bytes => (length, littleEndian bytes)
  rwa [length_toLittleEndian, littleEndian_toLittleEndian fits] at read

theorem SnappyElement.reads {out bytes out' : Bytes} (element : SnappyElement out bytes out')
    {uncompressedLen : Nat} (fits : out'.length ≤ uncompressedLen) :
    Reads (snappyRound uncompressedLen out) bytes (.inl out') := by
  cases element with
  | @short literal some_ small =>
      have nonempty := List.length_pos_iff.mpr some_
      have tag : (UInt8.ofNat ((literal.length - 1) * 4)).toNat = (literal.length - 1) * 4 :=
        UInt8.toNat_ofNat_of_lt' (show _ < 256 by omega)
      refine @reads_snappyRound_literal _ _ _ [] _ (by rw [tag]; omega) ?_ some_ fits
      rw [tag, snappyLiteralLength, if_pos (by omega), show (literal.length - 1) * 4 / 4 + 1 = literal.length by omega]
      exact reads_pure _
  | @long literal extra some_ one four fits' =>
      have nonempty := List.length_pos_iff.mpr some_
      have tag : (UInt8.ofNat ((59 + extra) * 4)).toNat = (59 + extra) * 4 :=
        UInt8.toNat_ofNat_of_lt' (show _ < 256 by omega)
      refine reads_snappyRound_literal (by rw [tag]; omega) ?_ some_ fits
      rw [tag, snappyLiteralLength, if_neg (by omega), show (59 + extra) * 4 / 4 - 59 = extra by omega]
      have read := (reads_takeMany (toLittleEndian extra (literal.length - 1))).map
        fun bytes => littleEndian bytes + 1
      rwa [length_toLittleEndian, littleEndian_toLittleEndian (by omega),
        Nat.sub_add_cancel nonempty] at read
  | @near length offset _ four eleven some_ fits' inside repeats =>
      have high : offset / 256 < 8 := by omega
      have tag : (UInt8.ofNat (offset / 256 * 32 + (length - 4) * 4 + 1)).toNat =
          offset / 256 * 32 + (length - 4) * 4 + 1 :=
        UInt8.toNat_ofNat_of_lt' (show _ < 256 by omega)
      have low : (UInt8.ofNat (offset % 256)).toNat = offset % 256 :=
        UInt8.toNat_ofNat_of_lt' (show _ < 256 by omega)
      refine reads_snappyRound_copy (by rw [tag]; omega) ?_ some_ inside (by omega) fits repeats
      rw [tag, snappyCopy, if_pos (by omega)]
      refine (reads_next _).bind_nil ?_
      rw [low, show (offset / 256 * 32 + (length - 4) * 4 + 1) / 4 % 8 + 4 = length by omega,
        show (offset / 256 * 32 + (length - 4) * 4 + 1) / 32 * 256 + offset % 256 = offset by omega]
      exact reads_pure _
  | @middle length offset _ one small some_ fits' inside repeats =>
      have tag : (UInt8.ofNat ((length - 1) * 4 + 2)).toNat = (length - 1) * 4 + 2 :=
        UInt8.toNat_ofNat_of_lt' (show _ < 256 by omega)
      refine reads_snappyRound_copy (by rw [tag]; omega) ?_ some_ inside (by omega) fits repeats
      rw [tag, snappyCopy, if_neg (by omega), if_pos (by omega),
        show ((length - 1) * 4 + 2) / 4 + 1 = length by omega]
      exact reads_offset length fits'
  | @far length offset _ one small some_ fits' inside repeats =>
      have tag : (UInt8.ofNat ((length - 1) * 4 + 3)).toNat = (length - 1) * 4 + 3 :=
        UInt8.toNat_ofNat_of_lt' (show _ < 256 by omega)
      refine reads_snappyRound_copy (by rw [tag]; omega) ?_ some_ inside (by omega) fits repeats
      rw [tag, snappyCopy, if_neg (by omega), if_neg (by omega),
        show ((length - 1) * 4 + 3) / 4 + 1 = length by omega]
      exact reads_offset length fits'

theorem SnappyElements.rounds {out bytes plain : Bytes}
    (elements : SnappyElements out bytes plain) :
    Rounds (snappyRound plain.length) out bytes plain := by
  induction elements with
  | done =>
      refine .stop ?_
      rw [snappyRound, if_pos (Nat.le_refl _)]
      exact reads_pure _
  | more first later ih =>
      refine .more (first.reads later.grows.1) ?_ ih
      cases first <;> exact List.cons_ne_nil _ _

/-- **Snappy.** Every block is undone. -/
theorem SnappyCompresses.uncompresses {plain stored : Bytes}
    (compresses : SnappyCompresses plain stored) {maxUncompressed : Nat}
    (enough : plain.length ≤ maxUncompressed) :
    snappyRawUncompress stored maxUncompressed = some plain := by
  obtain ⟨len, elements, writes, elems, rfl⟩ := compresses
  have bound := elems.grows.2
  have finished := elems.rounds.reads []
  rw [List.append_nil] at finished
  have small : ¬ (maxUncompressed < plain.length ∨
      (len ++ elements).length < plain.length / 32) := by
    rw [List.length_append]
    rw [List.length_nil] at bound
    omega
  unfold snappyRawUncompress
  rw [writes.reads elements]
  simp only [Option.bind_eq_bind, Option.bind_some, if_neg small, finished]
  exact if_pos trivial

end Adai.Parquet
