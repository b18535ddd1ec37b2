import Mathlib.Data.Nat.Digits.Lemmas
import Adai.Parquet.HeaderEncoding

/-! # Run lengths and packed bits

Definition levels and dictionary indices are runs: one value repeated, or groups of
eight values packed into bits, lowest first. The reader takes runs until it has
the number of values it was asked for; the rest of the last group is padding. It
reads back the values of every sequence of runs (`WritesHybrid.decodes`).

It returns the values asked for from any sequence of runs that has as many, however the
values are split into runs, and ends on every byte string (`hybrid_exact`): each round takes
at least a byte of its run's header.
-/

namespace Adai.Parquet

open Readers ByteNumbers

/-! ## The reader -/

/-- The bits needed for values from 0 to a level. -/
def bitWidthForMaxLevel (maxLevel : Nat) : Nat := if maxLevel = 0 then 0 else maxLevel.log2 + 1

/-- Bytes are put above the bits in the buffer until it has the width. -/
def refill (bitWidth : Nat) : Nat → Nat → Bytes → Nat × Nat × Bytes
  | buffer, bits, [] => (buffer, bits, [])
  | buffer, bits, b :: rest =>
      if bits < bitWidth then refill bitWidth (buffer ||| b.toNat <<< bits) (bits + 8) rest
      else (buffer, bits, b :: rest)

/-- The values of a packed run. The buffer never holds more than the width and
seven bits. -/
def unpack (bitWidth : Nat) : Nat → Nat → Nat → Bytes → List Nat
  | 0, _, _, _ => []
  | count + 1, buffer, bits, bytes =>
      let filled := refill bitWidth buffer bits bytes
      (filled.1 &&& (2 ^ bitWidth - 1)) ::
        unpack bitWidth count (filled.1 >>> bitWidth) (filled.2.1 - bitWidth) filled.2.2

/-- One round of the loop over the runs. -/
def hybridRound (bitWidth numValues : Nat) (out : List Nat) :
    Reader UInt8 (List Nat ⊕ List Nat) :=
  if numValues ≤ out.length then return .inr out
  else do
    let runHeader ← readVarint
    if runHeader % 2 = 0 then
      let value ← takeMany ((bitWidth + 7) / 8)
      return .inl (out ++
        List.replicate (min (runHeader / 2) (numValues - out.length)) (littleEndian value))
    else
      let run ← takeMany (runHeader / 2 * bitWidth)
      return .inl (out ++
        (unpack bitWidth (runHeader / 2 * 8) 0 0 run).take (numValues - out.length))

def decodeRleBitpackedHybrid (data : Bytes) (bitWidth numValues : Nat) : Option (List Nat) :=
  if bitWidth = 0 then some (List.replicate numValues 0)
  else if 32 < bitWidth then none
  else do
    let (out, _) ← untilDone (hybridRound bitWidth numValues) [] data
    if out.length = numValues then some out else none

/-! ## Runs -/

/-- The bits of the values one after the other, in so many bytes. -/
def packBits (bitWidth : Nat) (values : List Nat) : Bytes :=
  toLittleEndian (values.length * bitWidth / 8) (Nat.ofDigits (2 ^ bitWidth) values)

/-- The bytes are a run of the values. -/
inductive HybridRun (bitWidth : Nat) : List Nat → Bytes → Prop
  | repeated {count value : Nat} {header : Bytes} (writes : WritesVarint (2 * count) header)
      (fits : value < 2 ^ bitWidth) :
      HybridRun bitWidth (List.replicate count value)
        (header ++ toLittleEndian ((bitWidth + 7) / 8) value)
  | packed {groups : Nat} {values : List Nat} {header : Bytes}
      (writes : WritesVarint (2 * groups + 1) header) (eight : values.length = 8 * groups)
      (fit : ∀ v ∈ values, v < 2 ^ bitWidth) :
      HybridRun bitWidth values (header ++ packBits bitWidth values)

/-- The bytes are runs of the values. -/
inductive HybridRuns (bitWidth : Nat) : List Nat → Bytes → Prop
  | done {rest : Bytes} : HybridRuns bitWidth [] rest
  | more {front back : List Nat} {run runs : Bytes} (first : HybridRun bitWidth front run)
      (later : HybridRuns bitWidth back runs) : HybridRuns bitWidth (front ++ back) (run ++ runs)

/-- The bytes are runs of the values and of any padding. -/
def WritesHybrid (bitWidth : Nat) (values : List Nat) (data : Bytes) : Prop :=
  ∃ padding, HybridRuns bitWidth (values ++ padding) data

/-! ## Packed bits -/

theorem refill_spec {bitWidth buffer bits : Nat} {bytes : Bytes} (low : buffer < 2 ^ bits)
    (enough : bitWidth ≤ bits + 8 * bytes.length) :
    ∃ buffer' bits' bytes', refill bitWidth buffer bits bytes = (buffer', bits', bytes') ∧
      buffer' < 2 ^ bits' ∧ bitWidth ≤ bits' ∧
      bits' + 8 * bytes'.length = bits + 8 * bytes.length ∧
      buffer' + 2 ^ bits' * littleEndian bytes' = buffer + 2 ^ bits * littleEndian bytes := by
  induction bytes generalizing buffer bits with
  | nil =>
      refine ⟨buffer, bits, [], rfl, low, ?_, rfl, rfl⟩
      rw [List.length_nil] at enough
      omega
  | cons b rest ih =>
      rw [refill]
      by_cases short : bits < bitWidth
      · have placed : buffer ||| b.toNat <<< bits = buffer + 2 ^ bits * b.toNat := by
          have sum := Nat.shiftLeft_add_eq_or_of_lt low b.toNat
          rw [Nat.shiftLeft_eq] at sum ⊢
          rw [Nat.or_comm, ← sum, Nat.add_comm, Nat.mul_comm]
        have byte := b.toNat_lt
        have bounded : 2 ^ bits * b.toNat ≤ 2 ^ bits * 255 := Nat.mul_le_mul_left _ (by omega)
        have higher : 2 ^ (bits + 8) = 2 ^ bits * 256 := by rw [pow_add]; rfl
        rw [List.length_cons] at enough
        obtain ⟨buffer', bits', bytes', filled, below, wide, total, same⟩ :=
          @ih (buffer ||| b.toNat <<< bits) (bits + 8) (by omega) (by omega)
        rw [if_pos short]
        refine ⟨buffer', bits', bytes', filled, below, wide, ?_, ?_⟩
        · rw [total, List.length_cons]
          omega
        · rw [same, placed, higher, littleEndian]
          ring
      · rw [if_neg short]
        exact ⟨buffer, bits, b :: rest, rfl, low, by omega, rfl, rfl⟩

/-- The values are unpacked when the buffer and the bytes hold their bits. -/
theorem unpack_eq {bitWidth buffer bits : Nat} {values : List Nat} {bytes : Bytes}
    (low : buffer < 2 ^ bits) (fit : ∀ v ∈ values, v < 2 ^ bitWidth)
    (enough : values.length * bitWidth ≤ bits + 8 * bytes.length)
    (holds : buffer + 2 ^ bits * littleEndian bytes = Nat.ofDigits (2 ^ bitWidth) values) :
    unpack bitWidth values.length buffer bits bytes = values := by
  induction values generalizing buffer bits bytes with
  | nil => rfl
  | cons v rest ih =>
      rw [List.length_cons, Nat.succ_mul] at enough
      obtain ⟨buffer', bits', bytes', filled, below, wide, total, same⟩ :=
        @refill_spec bitWidth _ _ bytes low (by omega)
      have first := fit v List.mem_cons_self
      have split : 2 ^ bits' = 2 ^ bitWidth * 2 ^ (bits' - bitWidth) := by
        rw [← pow_add, Nat.add_sub_cancel' wide]
      rw [holds, Nat.ofDigits_cons, split, Nat.mul_assoc] at same
      have value : buffer' % 2 ^ bitWidth = v := by
        have low := congrArg (· % 2 ^ bitWidth) same
        simpa only [Nat.add_mul_mod_self_left, Nat.mod_eq_of_lt first, Nat.cast_id] using low
      have left : buffer' / 2 ^ bitWidth + 2 ^ (bits' - bitWidth) * littleEndian bytes' =
          Nat.ofDigits (2 ^ bitWidth) rest := by
        have high := congrArg (· / 2 ^ bitWidth) same
        simpa only [Nat.add_mul_div_left _ _ (Nat.two_pow_pos bitWidth), Nat.div_eq_of_lt first,
          Nat.zero_add, Nat.cast_id] using high
      rw [List.length_cons, unpack, filled]
      dsimp only
      rw [Nat.and_two_pow_sub_one_eq_mod, value, Nat.shiftRight_eq_div_pow]
      refine congrArg (v :: ·) (ih ?_ (fun u member => fit u (List.mem_cons_of_mem _ member)) ?_ left)
      · exact Nat.div_lt_of_lt_mul (split ▸ below)
      · omega

theorem length_packBits {bitWidth groups : Nat} {values : List Nat}
    (eight : values.length = 8 * groups) :
    (packBits bitWidth values).length = groups * bitWidth := by
  rw [packBits, length_toLittleEndian, eight, Nat.mul_assoc, Nat.mul_div_cancel_left _ (by decide)]

/-- A packed run is unpacked. -/
theorem unpack_packBits {bitWidth groups : Nat} {values : List Nat} (some_ : 0 < bitWidth)
    (eight : values.length = 8 * groups) (fit : ∀ v ∈ values, v < 2 ^ bitWidth) :
    unpack bitWidth (groups * 8) 0 0 (packBits bitWidth values) = values := by
  have bytes : values.length * bitWidth / 8 = groups * bitWidth := by
    rw [← length_packBits eight, packBits, length_toLittleEndian]
  have bound : Nat.ofDigits (2 ^ bitWidth) values < 256 ^ (groups * bitWidth) := by
    have below := Nat.ofDigits_lt_base_pow_length (Nat.one_lt_two_pow (Nat.ne_of_gt some_)) fit
    rwa [eight, ← pow_mul, show bitWidth * (8 * groups) = 8 * (groups * bitWidth) by ring,
      pow_mul] at below
  have unpacked := @unpack_eq bitWidth 0 0 values (packBits bitWidth values)
    (Nat.one_pos) fit ?_ ?_
  · rwa [eight, Nat.mul_comm] at unpacked
  · rw [length_packBits eight, eight]
    exact Nat.le_of_eq (by ring)
  · rw [packBits, bytes, littleEndian_toLittleEndian bound]
    ring

/-! ## Runs of values -/

theorem take_take_append {α : Type} (n : Nat) (front back : List α) :
    (front.take n ++ back).take n = (front ++ back).take n := by
  by_cases long : n ≤ front.length
  · have length : (front.take n).length = n := by
      rw [List.length_take]
      omega
    rw [List.take_append_of_le_length (Nat.le_of_eq length.symm), List.take_take, Nat.min_self,
      List.take_append_of_le_length long]
  · rw [List.take_of_length_le (Nat.le_of_not_le long)]

/-- A run adds its values, as far as they are asked for. -/
theorem HybridRun.reads {bitWidth : Nat} (some_ : 0 < bitWidth) {values : List Nat} {run : Bytes}
    (writes : HybridRun bitWidth values run) {numValues : Nat} {out : List Nat}
    (unfinished : out.length < numValues) :
    Reads (hybridRound bitWidth numValues out) run (.inl ((out ++ values).take numValues)) := by
  have whole : out.take numValues = out := List.take_of_length_le (Nat.le_of_lt unfinished)
  rw [List.take_append, whole, hybridRound, if_neg (Nat.not_le_of_lt unfinished)]
  cases writes with
  | @repeated count value header writes fits =>
      have width : value < 256 ^ ((bitWidth + 7) / 8) := by
        refine Nat.lt_of_lt_of_le fits ?_
        rw [show 256 = 2 ^ 8 from rfl, ← pow_mul]
        exact Nat.pow_le_pow_right (by decide) (by omega)
      have bytes := reads_takeMany (toLittleEndian ((bitWidth + 7) / 8) value)
      rw [length_toLittleEndian] at bytes
      refine writes.reads.bind ?_
      rw [if_pos (Nat.mul_mod_right 2 count), Nat.mul_div_cancel_left _ (by decide)]
      refine bytes.bind_nil ?_
      rw [littleEndian_toLittleEndian width, List.take_replicate, Nat.min_comm]
      exact reads_pure _
  | @packed groups _ header writes eight fit =>
      have bytes := reads_takeMany (packBits bitWidth values)
      rw [length_packBits eight] at bytes
      refine writes.reads.bind ?_
      rw [if_neg (by omega), show (2 * groups + 1) / 2 = groups by omega]
      refine bytes.bind_nil ?_
      rw [unpack_packBits some_ eight fit]
      exact reads_pure _

theorem HybridRun.ne_nil {bitWidth : Nat} {values : List Nat} {run : Bytes}
    (writes : HybridRun bitWidth values run) : run ≠ [] := by
  cases writes with
  | repeated writes => exact List.append_ne_nil_of_left_ne_nil writes.ne_nil _
  | packed writes => exact List.append_ne_nil_of_left_ne_nil writes.ne_nil _

/-- The loop ends within the runs. -/
theorem HybridRuns.rounds {bitWidth numValues : Nat} (some_ : 0 < bitWidth) {values : List Nat}
    {data : Bytes} (runs : HybridRuns bitWidth values data) {out : List Nat}
    (fits : out.length ≤ numValues) (enough : numValues ≤ out.length + values.length) :
    ∃ piece rest, data = piece ++ rest ∧
      Rounds (hybridRound bitWidth numValues) out piece ((out ++ values).take numValues) := by
  have finished : ∀ {out values : List Nat} {data : Bytes}, out.length ≤ numValues →
      numValues ≤ out.length → ∃ piece rest, data = piece ++ rest ∧
        Rounds (hybridRound bitWidth numValues) out piece ((out ++ values).take numValues) := by
    intro out values data fits all
    refine ⟨[], data, rfl, .stop ?_⟩
    rw [hybridRound, if_pos all, List.take_append_of_le_length all,
      List.take_of_length_le fits]
    exact reads_pure _
  induction runs generalizing out with
  | done => exact finished fits enough
  | @more front back run runs first later ih =>
      by_cases all : numValues ≤ out.length
      · exact finished fits all
      · have added : ((out ++ front).take numValues).length ≤ numValues := by
          rw [List.length_take]
          exact Nat.min_le_left _ _
        obtain ⟨piece, rest, rfl, rounds⟩ := ih added (by
          rw [List.length_take]
          simp only [List.length_append] at enough ⊢
          omega)
        refine ⟨run ++ piece, rest, (List.append_assoc _ _ _).symm, ?_⟩
        rw [take_take_append, List.append_assoc] at rounds
        exact .more (first.reads some_ (Nat.lt_of_not_le all)) first.ne_nil rounds

theorem HybridRuns.eq_zero {values : List Nat} {data : Bytes} (runs : HybridRuns 0 values data) :
    ∀ v ∈ values, v = 0 := by
  induction runs with
  | done =>
      intro v member
      cases member
  | more first _ ih =>
      intro v member
      rcases List.mem_append.mp member with front | back
      · cases first with
        | repeated _ fits =>
            rw [List.eq_of_mem_replicate front]
            exact Nat.lt_one_iff.mp fits
        | packed _ _ fit => exact Nat.lt_one_iff.mp (fit v front)
      · exact ih v back

/-- **Runs.** The values of every sequence of runs are read back. -/
theorem WritesHybrid.decodes {bitWidth : Nat} {values : List Nat} {data : Bytes}
    (writes : WritesHybrid bitWidth values data) (narrow : bitWidth ≤ 32) :
    decodeRleBitpackedHybrid data bitWidth values.length = some values := by
  obtain ⟨padding, runs⟩ := writes
  unfold decodeRleBitpackedHybrid
  by_cases none_ : bitWidth = 0
  · subst none_
    rw [if_pos rfl]
    refine congrArg some (List.eq_replicate_iff.mpr ⟨rfl, fun v member => ?_⟩).symm
    exact runs.eq_zero v (List.mem_append_left _ member)
  · obtain ⟨piece, rest, rfl, rounds⟩ := @HybridRuns.rounds _ values.length (Nat.pos_of_ne_zero none_)
      _ _ runs [] (Nat.zero_le _) (by rw [List.length_append]; omega)
    rw [List.nil_append, List.take_left] at rounds
    rw [if_neg none_, if_neg (Nat.not_lt_of_le narrow), rounds.reads rest]
    simp

/-! ## Every sequence of runs -/

theorem consumes_varintLoop (rounds shift out : Nat) :
    Consumes (varintLoop rounds shift out) 1 := by
  induction rounds generalizing shift out with
  | zero => exact consumes_failure 1
  | succ rounds ih =>
      refine consumes_next.bind_left fun b => ?_
      exact (consumes_pure _).ite ((ih _ _).mono (Nat.zero_le 1))

theorem consumes_readVarint : Consumes readVarint 1 := consumes_varintLoop 10 0 0

theorem progresses_hybridRound (bitWidth numValues : Nat) :
    Progresses (hybridRound bitWidth numValues) := by
  refine progresses_of_accepts fun out => ?_
  unfold hybridRound
  split
  · refine (accepts_pure _).imp fun piece outcome last continues => ?_
    rw [last.2] at continues
    cases continues
  · have takes : Consumes (do
        let runHeader ← readVarint
        if runHeader % 2 = 0 then
          let value ← takeMany ((bitWidth + 7) / 8)
          return (.inl (out ++ List.replicate (min (runHeader / 2) (numValues - out.length))
            (littleEndian value)) : List Nat ⊕ List Nat)
        else
          let run ← takeMany (runHeader / 2 * bitWidth)
          return .inl (out ++
            (unpack bitWidth (runHeader / 2 * 8) 0 0 run).take (numValues - out.length))) 1 := by
      refine consumes_readVarint.bind_left fun runHeader => Consumes.ite ?_ ?_
      · exact ((consumes_takeMany _).mono (Nat.zero_le _)).bind_left fun value => consumes_pure _
      · exact ((consumes_takeMany _).mono (Nat.zero_le _)).bind_left fun run => consumes_pure _
    exact Accepts.imp takes fun piece outcome taken _ => List.length_pos_iff.mp taken

/-- **Runs, exactly.** Of runs that have as many values the first ones are returned,
whatever the split into runs; and the loop over the runs ends on every byte string. -/
theorem hybrid_exact {bitWidth : Nat} (narrow : bitWidth ≤ 32) :
    (∀ (values : List Nat) (data : Bytes) (numValues : Nat), HybridRuns bitWidth values data →
      numValues ≤ values.length →
        decodeRleBitpackedHybrid data bitWidth numValues = some (values.take numValues)) ∧
    ∀ (data : Bytes) (numValues : Nat), Ends (hybridRound bitWidth numValues) [] data
      (untilDone (hybridRound bitWidth numValues) [] data) := by
  refine ⟨fun values data numValues runs enough => ?_, fun data numValues => ?_⟩
  · have asked : WritesHybrid bitWidth (values.take numValues) data := by
      refine ⟨values.drop numValues, ?_⟩
      rwa [List.take_append_drop]
    have decoded := asked.decodes narrow
    rwa [List.length_take, Nat.min_eq_left enough] at decoded
  · exact ends_untilDone (progresses_hybridRound bitWidth numValues) [] data

/-- Five values of three bits: two that are repeated and three of a packed group. -/
theorem hybrid_exact_cut :
    HybridRuns 3 ([5, 5] ++ ([0, 1, 2, 3, 4, 5, 6, 7] ++ [])) ([4, 5] ++ ([3, 0x88, 0xC6, 0xFA] ++ [])) ∧
      decodeRleBitpackedHybrid [4, 5, 3, 0x88, 0xC6, 0xFA] 3 5 = some [5, 5, 0, 1, 2] := by
  have two : WritesVarint (2 * 2) [4] := ⟨@Varint.last 4 (by decide), by decide, by decide⟩
  have one : WritesVarint (2 * 1 + 1) [3] := ⟨@Varint.last 3 (by decide), by decide, by decide⟩
  have repeated : HybridRun 3 [5, 5] [4, 5] := .repeated two (by decide)
  have packed : HybridRun 3 [0, 1, 2, 3, 4, 5, 6, 7] [3, 0x88, 0xC6, 0xFA] :=
    .packed one rfl (by decide)
  have runs : HybridRuns 3 ([5, 5] ++ ([0, 1, 2, 3, 4, 5, 6, 7] ++ []))
      ([4, 5] ++ ([3, 0x88, 0xC6, 0xFA] ++ [])) := .more repeated (.more packed .done)
  have narrow : 3 ≤ 32 := by decide
  exact ⟨runs, (hybrid_exact narrow).1 _ _ 5 runs (by decide)⟩

end Adai.Parquet
