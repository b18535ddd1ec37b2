import Adai.Parquet.Snappy

/-! # Snappy blocks, exactly

What the reader of blocks accepts is a declared length and a list of elements that
makes as many bytes, followed by any others (`snappyRound_accepts`). With
`SnappyCompresses.uncompresses`, which says that it accepts every block, this is all
there is to say of it (`snappy_exact`): the guard against impossible lengths refuses
none that elements can make, and no copy reaches before the first byte.
-/

namespace Adai.Parquet

open Readers ByteNumbers

/-- Bytes copied one by one repeat those the offset before them. -/
theorem repeats_copyBack {offset : Nat} (some_ : 0 < offset) (length : Nat) {out : Bytes}
    (inside : offset ≤ out.length) : Repeats offset length out (copyBack offset length out) := by
  induction length generalizing out with
  | zero => exact ⟨List.prefix_refl _, rfl, fun i past before => by rw [copyBack] at before; omega⟩
  | succ length ih =>
      have longer : offset ≤ (out ++ [out.getD (out.length - offset) 0]).length := by
        rw [List.length_append]
        omega
      obtain ⟨starts, added, back⟩ := ih longer
      rw [List.length_append, List.length_singleton] at added back
      rw [copyBack]
      refine ⟨(List.prefix_append _ _).trans starts, by omega, fun i past before => ?_⟩
      by_cases first : i = out.length
      · obtain ⟨rest, spells⟩ := starts
        have earlier : out.length - offset < out.length := by omega
        rw [← spells, first, List.append_assoc, List.getElem?_append_right (Nat.le_refl _),
          List.getElem?_append_left earlier, Nat.sub_self, List.singleton_append,
          List.getElem?_cons_zero, List.getD_eq_getElem?_getD, List.getElem?_eq_getElem earlier,
          Option.getD_some]
      · exact back i (by omega) before

/-- The bytes after the tag, and the length they or the tag tell. -/
def LiteralLength (tag : Nat) (len : Bytes) (litLen : Nat) : Prop :=
  (tag / 4 < 60 ∧ len = [] ∧ litLen = tag / 4 + 1) ∨
    60 ≤ tag / 4 ∧ len.length = tag / 4 - 59 ∧ litLen = littleEndian len + 1

theorem snappyLiteralLength_accepts (tag : Nat) :
    Accepts (snappyLiteralLength tag) (LiteralLength tag) := by
  unfold snappyLiteralLength
  split
  · rename_i small
    exact (accepts_pure _).imp fun len litLen known => .inl ⟨small, known⟩
  · rename_i large
    refine ((accepts_takeMany _).map _).imp fun len litLen known => .inr ⟨by omega, ?_⟩
    obtain ⟨_, ⟨rfl, length⟩, rfl⟩ := known
    exact ⟨length, rfl⟩

/-- A literal of the length is an element. -/
theorem LiteralLength.element {tag : UInt8} {len literal : Bytes} {litLen : Nat}
    (told : LiteralLength tag.toNat len litLen) (isLiteral : tag.toNat % 4 = 0)
    (length : literal.length = litLen) (out : Bytes) :
    SnappyElement out (tag :: (len ++ literal)) (out ++ literal) := by
  have byte := tag.toNat_lt
  have some_ : literal ≠ [] := by
    rintro rfl
    rw [List.length_nil] at length
    rcases told with told | told <;> omega
  rcases told with ⟨small, rfl, rfl⟩ | ⟨large, extra, rfl⟩
  · have element := @SnappyElement.short out literal some_ (by omega)
    rwa [show (literal.length - 1) * 4 = tag.toNat by omega, UInt8.ofNat_toNat] at element
  · have bound := littleEndian_lt len
    have element := @SnappyElement.long out literal len.length some_ (by omega) (by omega)
      (by omega)
    rwa [show (59 + len.length) * 4 = tag.toNat by omega, UInt8.ofNat_toNat,
      show literal.length - 1 = littleEndian len by omega, toLittleEndian_littleEndian] at element

theorem snappyLiteral_accepts (uncompressedLen : Nat) (out : Bytes) {tag : UInt8}
    (isLiteral : tag.toNat % 4 = 0) :
    Accepts (snappyLiteral uncompressedLen out tag.toNat) fun piece out' =>
      SnappyElement out (tag :: piece) out' ∧ out'.length ≤ uncompressedLen := by
  intro input out' rest read
  unfold snappyLiteral at read
  obtain ⟨litLen, afterLen, first, body⟩ := bind_eq_some.mp read
  obtain ⟨_, afterLiteral, second, check⟩ := bind_eq_some.mp body
  obtain ⟨len, rfl, told⟩ := snappyLiteralLength_accepts _ _ _ _ first
  obtain ⟨literal, rfl, rfl, length⟩ := accepts_takeMany _ _ _ _ second
  split at check
  · cases check
  · rename_i fits
    obtain ⟨rfl, rfl⟩ := Prod.mk.inj (Option.some.inj check)
    refine ⟨len ++ literal, (List.append_assoc ..).symm, told.element isLiteral length out, ?_⟩
    rw [List.length_append]
    omega

/-- The bytes after the tag, and the length and offset they and the tag tell. -/
def CopyTold (tag : Nat) (bytes : Bytes) (copy : Nat × Nat) : Prop :=
  (tag % 4 = 1 ∧ ∃ b0, bytes = [b0] ∧ copy = (tag / 4 % 8 + 4, tag / 32 * 256 + b0.toNat)) ∨
    tag % 4 ≠ 1 ∧ bytes.length = (if tag % 4 = 2 then 2 else 4) ∧
      copy = (tag / 4 + 1, littleEndian bytes)

theorem snappyCopy_accepts (tag : Nat) : Accepts (snappyCopy tag) (CopyTold tag) := by
  intro input copy rest read
  unfold snappyCopy at read
  split at read
  · rename_i near
    obtain ⟨b0, _, first, last⟩ := bind_eq_some.mp read
    obtain ⟨_, rfl, rfl⟩ := accepts_next _ _ _ first
    obtain ⟨rfl, rfl⟩ := Prod.mk.inj (Option.some.inj last)
    exact ⟨[b0], rfl, .inl ⟨near, b0, rfl, rfl⟩⟩
  · rename_i other
    obtain ⟨_, _, first, last⟩ := bind_eq_some.mp read
    obtain ⟨offset, rfl, rfl, width⟩ := accepts_takeMany _ _ _ _ first
    obtain ⟨rfl, rfl⟩ := Prod.mk.inj (Option.some.inj last)
    exact ⟨offset, rfl, .inr ⟨other, width, rfl⟩⟩

/-- A copy from within the output is an element. -/
theorem CopyTold.element {tag : UInt8} {bytes out : Bytes} {length offset : Nat}
    (told : CopyTold tag.toNat bytes (length, offset)) (other : tag.toNat % 4 ≠ 0)
    (some_ : 0 < offset) (inside : offset ≤ out.length) :
    SnappyElement out (tag :: bytes) (copyBack offset length out) := by
  have byte := tag.toNat_lt
  have repeats := repeats_copyBack some_ length inside
  rcases told with ⟨near, b0, rfl, copy⟩ | ⟨wide, width, copy⟩
  · obtain ⟨rfl, rfl⟩ := Prod.mk.inj copy
    have byte' := b0.toNat_lt
    have element := SnappyElement.near (by omega) (by omega) some_ (by omega) inside repeats
    rwa [show (tag.toNat / 32 * 256 + b0.toNat) / 256 * 32 + (tag.toNat / 4 % 8 + 4 - 4) * 4 + 1 =
      tag.toNat by omega, show (tag.toNat / 32 * 256 + b0.toNat) % 256 = b0.toNat by omega,
      UInt8.ofNat_toNat, UInt8.ofNat_toNat] at element
  · obtain ⟨rfl, rfl⟩ := Prod.mk.inj copy
    have bound := littleEndian_lt bytes
    have spelled := toLittleEndian_littleEndian bytes
    rw [width] at bound spelled
    by_cases middle : tag.toNat % 4 = 2
    · rw [if_pos middle] at bound spelled
      have element := SnappyElement.middle (by omega) (by omega) some_ bound inside repeats
      rwa [show (tag.toNat / 4 + 1 - 1) * 4 + 2 = tag.toNat by omega, UInt8.ofNat_toNat,
        spelled] at element
    · rw [if_neg middle] at bound spelled
      have element := SnappyElement.far (by omega) (by omega) some_ bound inside repeats
      rwa [show (tag.toNat / 4 + 1 - 1) * 4 + 3 = tag.toNat by omega, UInt8.ofNat_toNat,
        spelled] at element

/-- What a round of the loop takes: an element, or nothing once the length is reached. -/
def TakesElement (uncompressedLen : Nat) (out piece : Bytes) : Bytes ⊕ Bytes → Prop
  | .inl out' => SnappyElement out piece out' ∧ out'.length ≤ uncompressedLen
  | .inr result => piece = [] ∧ result = out ∧ uncompressedLen ≤ out.length

theorem length_copyBack (offset length : Nat) (out : Bytes) :
    (copyBack offset length out).length = out.length + length := by
  induction length generalizing out with
  | zero => rfl
  | succ length ih =>
      rw [copyBack, ih, List.length_append, List.length_singleton]
      omega

theorem snappyRound_accepts (uncompressedLen : Nat) (out : Bytes) :
    Accepts (snappyRound uncompressedLen out) (TakesElement uncompressedLen out) := by
  intro input outcome rest read
  unfold snappyRound at read
  split at read
  · rename_i reached
    obtain ⟨rfl, rfl⟩ := Prod.mk.inj (Option.some.inj read)
    exact ⟨[], rfl, rfl, rfl, reached⟩
  · obtain ⟨tag, _, first, body⟩ := bind_eq_some.mp read
    obtain ⟨_, rfl, rfl⟩ := accepts_next _ _ _ first
    split at body
    · rename_i isLiteral
      obtain ⟨out', _, second, last⟩ := bind_eq_some.mp body
      obtain ⟨piece, rfl, element⟩ := snappyLiteral_accepts uncompressedLen out isLiteral _ _ _ second
      obtain ⟨rfl, rfl⟩ := Prod.mk.inj (Option.some.inj last)
      exact ⟨tag :: piece, rfl, element⟩
    · rename_i other
      obtain ⟨⟨length, offset⟩, _, second, checks⟩ := bind_eq_some.mp body
      obtain ⟨piece, rfl, told⟩ := snappyCopy_accepts _ _ _ _ second
      dsimp only at checks
      split at checks
      · cases checks
      · rename_i reaches
        split at checks
        · cases checks
        · rename_i fits
          obtain ⟨rfl, rfl⟩ := Prod.mk.inj (Option.some.inj checks)
          refine ⟨tag :: piece, rfl, told.element other (by omega) (by omega), ?_⟩
          rw [length_copyBack]
          omega

/-- The rounds make the elements. -/
theorem elements_of_steps {uncompressedLen : Nat} {out bytes result : Bytes}
    (steps : Steps (TakesElement uncompressedLen) out bytes result) :
    SnappyElements out bytes result := by
  induction steps with
  | stop last =>
      obtain ⟨rfl, rfl, _⟩ := last
      exact .done
  | more first _ ih => exact .more first.1 ih

/-- **Snappy, exactly.** A block within the caller's maximum is undone; and what the
reader returns has the declared length and is made by elements that copy only what is
already there. -/
theorem snappy_exact (src : Bytes) (maxUncompressed : Nat) (out : Bytes) :
    (SnappyCompresses out src → out.length ≤ maxUncompressed →
      snappyRawUncompress src maxUncompressed = some out) ∧
    (snappyRawUncompress src maxUncompressed = some out →
      out.length ≤ maxUncompressed ∧ ∃ elements rest,
        readVarint src = some (out.length, elements ++ rest) ∧ SnappyElements [] elements out) := by
  refine ⟨fun compresses enough => compresses.uncompresses enough, fun done => ?_⟩
  obtain ⟨⟨uncompressedLen, bytes⟩, declared, checks⟩ := Option.bind_eq_some_iff.mp done
  dsimp only at checks
  split at checks
  · cases checks
  · obtain ⟨⟨result, rest⟩, looped, last⟩ := Option.bind_eq_some_iff.mp checks
    obtain ⟨elements, rfl, steps⟩ :=
      Accepts.untilDone (snappyRound_accepts uncompressedLen) [] _ _ _ looped
    dsimp only at last
    split at last
    · rename_i reached
      obtain rfl := Option.some.inj last
      rw [reached]
      exact ⟨by omega, elements, rest, declared, elements_of_steps steps⟩
    · cases last

end Adai.Parquet
