import Adai.Math.JsonStrings
import Adai.Registry.Server

/-! # Which paths can be queued

`registry_path_problem` reads a path byte by byte. It finds nothing wrong with it exactly if
the path is not empty and is the UTF-8 of characters none of which is a control character
(`path_accepted_iff`); on a text it answers as the server's check does
(`registryPathProblem_utf8`).
-/

namespace Adai.Registry.PathProblem

open JsonStrings
open String (utf8EncodeChar)

/-! ## The check -/

def emptyPath : String := "path is empty"

def controlCharacter : String := "path contains a control character (tab, newline, ...)"

def notUtf8 : String := "path is not valid UTF-8"

/-- The length of the sequence that a byte beyond ASCII leads, and its bits of the code point. -/
def leadBits (c : Nat) : Option (Nat × Nat) :=
  if 0xC2 ≤ c ∧ c ≤ 0xDF then some (2, c &&& 0x1F)
  else if 0xE0 ≤ c ∧ c ≤ 0xEF then some (3, c &&& 0x0F)
  else if 0xF0 ≤ c ∧ c ≤ 0xF4 then some (4, c &&& 0x07)
  else none

/-- The code point with the bits of the continuation bytes. -/
def continueBits (cp : Nat) : List UInt8 → Option Nat
  | [] => some cp
  | cc :: rest =>
      if cc.toNat &&& 0xC0 ≠ 0x80 then none
      else continueBits (cp <<< 6 ||| (cc.toNat &&& 0x3F)) rest

/-- What a sequence may not spell: an overlong form, a surrogate or a number beyond U+10FFFF. -/
def Malformed (len cp : Nat) : Prop :=
  len = 3 ∧ cp < 0x800 ∨ len = 4 ∧ (cp < 0x10000 ∨ 0x10FFFF < cp) ∨ 0xD800 ≤ cp ∧ cp ≤ 0xDFFF

instance (len cp : Nat) : Decidable (Malformed len cp) :=
  inferInstanceAs (Decidable (_ ∧ _ ∨ _ ∧ _ ∨ _))

/-- What stands behind the first sequence, or the problem with it. -/
def afterSequence (c : UInt8) (rest : List UInt8) : Except String (List UInt8) :=
  if c.toNat < 0x20 ∨ c.toNat = 0x7F then .error controlCharacter
  else if c.toNat < 0x80 then .ok rest
  else
    match leadBits c.toNat with
    | none => .error notUtf8
    | some (len, bits) =>
        if rest.length + 1 < len then .error notUtf8
        else
          match continueBits bits (rest.take (len - 1)) with
          | none => .error notUtf8
          | some cp =>
              if Malformed len cp then .error notUtf8
              else if 0x80 ≤ cp ∧ cp ≤ 0x9F then .error controlCharacter
              else .ok (rest.drop (len - 1))

theorem length_afterSequence {c : UInt8} {rest after : List UInt8}
    (next : afterSequence c rest = .ok after) : after.length ≤ rest.length := by
  unfold afterSequence at next
  grind

def problemFrom : List UInt8 → String
  | [] => ""
  | c :: rest =>
      match _next : afterSequence c rest with
      | .error problem => problem
      | .ok after => problemFrom after
termination_by path => path.length
decreasing_by exact Nat.lt_succ_of_le (length_afterSequence ‹_›)

def registryPathProblem (path : List UInt8) : String :=
  if path = [] then emptyPath else problemFrom path

/-! ## The bits of a sequence -/

theorem toNat_ofNat {n : Nat} (byte : n < 256) : (UInt8.ofNat n).toNat = n := by
  rw [UInt8.toNat_ofNat']
  exact Nat.mod_eq_of_lt byte

/-- The marks of a continuation byte and its bits. -/
theorem continuation_values :
    (∀ bits < 64, (bits + 0x80) &&& 0xC0 = 0x80 ∧ (bits + 0x80) &&& 0x3F = bits) ∧
      ∀ b : BitVec 8, b.toNat &&& 0xC0 = 0x80 → 0x80 ≤ b.toNat ∧ b.toNat - 0x80 < 64 := by
  decide +kernel

/-- A continuation byte adds six bits. -/
theorem continueBits_ofNat (cp : Nat) {bits : Nat} (six : bits < 64) (rest : List UInt8) :
    continueBits cp (UInt8.ofNat (bits + 0x80) :: rest) = continueBits (cp * 64 + bits) rest := by
  obtain ⟨marked, low⟩ := continuation_values.1 bits six
  rw [continueBits, toNat_ofNat (by omega), if_neg (not_not.mpr marked), low, ← Nat.shiftLeft_add_eq_or_of_lt (by omega), Nat.shiftLeft_eq]

theorem continueBits_cons {cp value : Nat} {cc : UInt8} {rest : List UInt8}
    (read : continueBits cp (cc :: rest) = some value) :
    ∃ bits < 64, cc = UInt8.ofNat (bits + 0x80) ∧ continueBits (cp * 64 + bits) rest = some value := by
  have marked : cc.toNat &&& 0xC0 = 0x80 → 0x80 ≤ cc.toNat ∧ cc.toNat - 0x80 < 64 :=
    continuation_values.2 cc.toBitVec
  have continues : cc.toNat &&& 0xC0 = 0x80 := by
    rw [continueBits] at read
    split at read
    · cases read
    · exact not_not.mp ‹_›
  obtain ⟨least, six⟩ := marked continues
  have same : cc = UInt8.ofNat (cc.toNat - 0x80 + 0x80) := by
    rw [Nat.sub_add_cancel least, UInt8.ofNat_toNat]
  refine ⟨cc.toNat - 0x80, six, same, ?_⟩
  rwa [same, continueBits_ofNat _ six] at read

/-- The three kinds of lead bytes and their bits. -/
theorem leadBits_values :
    (∀ bits < 32, 2 ≤ bits → leadBits (bits + 0xC0) = some (2, bits)) ∧
      (∀ bits < 16, leadBits (bits + 0xE0) = some (3, bits)) ∧
      (∀ bits < 5, leadBits (bits + 0xF0) = some (4, bits)) ∧
      ∀ b : BitVec 8, ∀ read ∈ leadBits b.toNat,
        read.1 = 2 ∧ 2 ≤ read.2 ∧ read.2 < 32 ∧ b = BitVec.ofNat 8 (read.2 + 0xC0) ∨
          read.1 = 3 ∧ read.2 < 16 ∧ b = BitVec.ofNat 8 (read.2 + 0xE0) ∨
            read.1 = 4 ∧ read.2 < 5 ∧ b = BitVec.ofNat 8 (read.2 + 0xF0) := by
  decide +kernel

theorem leadBits_two {bits : Nat} (least : 2 ≤ bits) (most : bits < 32) :
    leadBits (bits + 0xC0) = some (2, bits) :=
  leadBits_values.1 bits most least

theorem leadBits_three {bits : Nat} (most : bits < 16) :
    leadBits (bits + 0xE0) = some (3, bits) :=
  leadBits_values.2.1 bits most

theorem leadBits_four {bits : Nat} (most : bits < 5) :
    leadBits (bits + 0xF0) = some (4, bits) :=
  leadBits_values.2.2.1 bits most

theorem leadBits_some {c : UInt8} {len bits : Nat} (read : leadBits c.toNat = some (len, bits)) :
    len = 2 ∧ 2 ≤ bits ∧ bits < 32 ∧ c = UInt8.ofNat (bits + 0xC0) ∨
      len = 3 ∧ bits < 16 ∧ c = UInt8.ofNat (bits + 0xE0) ∨
        len = 4 ∧ bits < 5 ∧ c = UInt8.ofNat (bits + 0xF0) := by
  simp only [← UInt8.toBitVec_inj]
  exact leadBits_values.2.2.2 c.toBitVec (len, bits) read

/-! ## One sequence -/

/-- The bytes of one code point. -/
inductive Spells : List UInt8 → Nat → Prop
  | ascii {c : UInt8} (single : c.toNat < 0x80) : Spells [c] c.toNat
  | sequence {c : UInt8} {rest : List UInt8} {bits cp : Nat}
      (leads : leadBits c.toNat = some (rest.length + 1, bits))
      (continues : continueBits bits rest = some cp)
      (wellFormed : ¬ Malformed (rest.length + 1) cp) : Spells (c :: rest) cp

/-- Each character is spelled by its UTF-8. -/
theorem spells_utf8EncodeChar (ch : Char) : Spells (utf8EncodeChar ch) ch.toNat := by
  have scalar : ch.toNat < 0xD800 ∨ 0xDFFF < ch.toNat ∧ ch.toNat < 0x110000 := ch.valid
  unfold utf8EncodeChar
  rw [Char.toNat_val]
  generalize ch.toNat = v at scalar ⊢
  dsimp only
  split
  · have same : (UInt8.ofNat v).toNat = v := toNat_ofNat (by omega)
    have single := Spells.ascii (same.trans_lt (by omega : v < 0x80))
    rwa [same] at single
  · split
    · refine @Spells.sequence _ _ (v / 64 % 32) _ ?_ ?_ ?_
      · rw [toNat_ofNat (by omega), leadBits_two (by omega) (by omega)]
        rfl
      · rw [continueBits_ofNat _ (by omega), continueBits]
        congr 1
        omega
      · simp only [Malformed, List.length_cons, List.length_nil]
        omega
    · split
      · refine @Spells.sequence _ _ (v / 4096 % 16) _ ?_ ?_ ?_
        · rw [toNat_ofNat (by omega), leadBits_three (by omega)]
          rfl
        · rw [continueBits_ofNat _ (by omega), continueBits_ofNat _ (by omega), continueBits]
          congr 1
          omega
        · simp only [Malformed, List.length_cons, List.length_nil]
          omega
      · refine @Spells.sequence _ _ (v / 262144 % 8) _ ?_ ?_ ?_
        · rw [toNat_ofNat (by omega), leadBits_four (by omega)]
          rfl
        · rw [continueBits_ofNat _ (by omega), continueBits_ofNat _ (by omega),
            continueBits_ofNat _ (by omega), continueBits]
          congr 1
          omega
        · simp only [Malformed, List.length_cons, List.length_nil]
          omega

/-- Whatever is spelled is a character, in its UTF-8. -/
theorem Spells.character {bytes : List UInt8} {cp : Nat} (spells : Spells bytes cp) :
    ∃ ch : Char, ch.toNat = cp ∧ bytes = utf8EncodeChar ch := by
  have encoded {cp : Nat} (scalar : cp.isValidChar) : ∃ ch : Char, ch.toNat = cp :=
    ⟨Char.ofNatAux cp scalar, rfl⟩
  cases spells with
  | @ascii c single =>
      obtain ⟨ch, is⟩ := encoded (.inl (by omega : c.toNat < 0xD800))
      refine ⟨ch, is, ?_⟩
      rw [utf8EncodeChar, Char.toNat_val, is]
      rw [if_pos (by omega), UInt8.ofNat_toNat]
  | @sequence c rest bits _ leads continues wellFormed =>
      simp only [Malformed] at wellFormed
      rcases leadBits_some leads with ⟨two, least, most, rfl⟩ | ⟨three, most, rfl⟩ | ⟨four, most, rfl⟩
      · obtain ⟨d, rfl⟩ := List.length_eq_one_iff.mp (Nat.succ.inj two)
        obtain ⟨x, six, rfl, read⟩ := continueBits_cons continues
        have value : bits * 64 + x = cp := Option.some.inj read
        obtain ⟨ch, is⟩ := encoded (.inl (by omega : cp < 0xD800))
        refine ⟨ch, is, ?_⟩
        rw [utf8EncodeChar, Char.toNat_val, is]
        rw [if_neg (by omega), if_pos (by omega), ← value]
        congr 4 <;> omega
      · obtain ⟨d, e, rfl⟩ := List.length_eq_two.mp (Nat.succ.inj three)
        obtain ⟨x, six, rfl, later⟩ := continueBits_cons continues
        obtain ⟨y, six', rfl, read⟩ := continueBits_cons later
        have value : (bits * 64 + x) * 64 + y = cp := Option.some.inj read
        obtain ⟨ch, is⟩ := encoded (show cp.isValidChar by unfold Nat.isValidChar; omega)
        refine ⟨ch, is, ?_⟩
        rw [utf8EncodeChar, Char.toNat_val, is]
        rw [if_neg (by omega), if_neg (by omega), if_pos (by omega), ← value]
        congr <;> omega
      · obtain ⟨d, e, f, rfl⟩ := List.length_eq_three.mp (Nat.succ.inj four)
        obtain ⟨x, six, rfl, later⟩ := continueBits_cons continues
        obtain ⟨y, six', rfl, last⟩ := continueBits_cons later
        obtain ⟨z, six'', rfl, read⟩ := continueBits_cons last
        have value : ((bits * 64 + x) * 64 + y) * 64 + z = cp := Option.some.inj read
        obtain ⟨ch, is⟩ := encoded (show cp.isValidChar by unfold Nat.isValidChar; omega)
        refine ⟨ch, is, ?_⟩
        rw [utf8EncodeChar, Char.toNat_val, is]
        rw [if_neg (by omega), if_neg (by omega), if_neg (by omega), ← value]
        congr <;> omega

/-- U+0000 to U+001F and U+007F to U+009F. -/
def IsControl (cp : Nat) : Prop := cp < 0x20 ∨ 0x7F ≤ cp ∧ cp ≤ 0x9F

instance (cp : Nat) : Decidable (IsControl cp) :=
  inferInstanceAs (Decidable (_ ∨ _ ∧ _))

/-- ASCII is spelled in one byte only. -/
theorem beyond_ascii {c : UInt8} {rest : List UInt8} {bits cp : Nat}
    (leads : leadBits c.toNat = some (rest.length + 1, bits))
    (continues : continueBits bits rest = some cp) (wellFormed : ¬ Malformed (rest.length + 1) cp) :
    0x80 ≤ c.toNat ∧ 0x80 ≤ cp := by
  have lead : 0x80 ≤ c.toNat := by
    unfold leadBits at leads
    grind
  refine ⟨lead, ?_⟩
  simp only [Malformed] at wellFormed
  rcases leadBits_some leads with ⟨two, least, -, -⟩ | ⟨three, -, -⟩ | ⟨four, -, -⟩
  · obtain ⟨d, rfl⟩ := List.length_eq_one_iff.mp (Nat.succ.inj two)
    obtain ⟨x, -, -, read⟩ := continueBits_cons continues
    have value : bits * 64 + x = cp := Option.some.inj read
    omega
  · omega
  · omega

theorem afterSequence_of_spells {c : UInt8} {tail : List UInt8} {cp : Nat}
    (spells : Spells (c :: tail) cp) (after : List UInt8) :
    afterSequence c (tail ++ after) =
      if IsControl cp then .error controlCharacter else .ok after := by
  unfold afterSequence
  cases spells with
  | ascii single =>
      unfold IsControl
      grind
  | @sequence _ _ bits _ leads continues wellFormed =>
      obtain ⟨lead, least⟩ := beyond_ascii leads continues wellFormed
      rw [if_neg (by omega), if_neg (by omega), leads]
      dsimp only
      rw [if_neg (by simp), Nat.add_sub_cancel, List.take_left, continues]
      dsimp only
      rw [if_neg wellFormed, List.drop_left]
      refine if_congr ?_ rfl rfl
      unfold IsControl
      omega

theorem spells_of_afterSequence {c : UInt8} {rest after : List UInt8}
    (next : afterSequence c rest = .ok after) :
    ∃ tail cp, Spells (c :: tail) cp ∧ ¬ IsControl cp ∧ rest = tail ++ after := by
  unfold afterSequence at next
  split at next
  · cases next
  · split at next
    · rename_i printable ascii
      obtain rfl := Except.ok.inj next
      refine ⟨[], c.toNat, .ascii ascii, ?_, rfl⟩
      unfold IsControl
      omega
    · split at next
      · cases next
      · rename_i len bits leads
        split at next
        · cases next
        · rename_i enough
          split at next
          · cases next
          · rename_i cp continues
            split at next
            · cases next
            · rename_i wellFormed
              split at next
              · cases next
              · rename_i printable
                obtain rfl := Except.ok.inj next
                have positive : 1 ≤ len := by
                  rcases leadBits_some leads with ⟨is, -⟩ | ⟨is, -⟩ | ⟨is, -⟩ <;> omega
                have size : (rest.take (len - 1)).length + 1 = len := by
                  rw [List.length_take]
                  omega
                rw [← size] at leads wellFormed
                have spells := Spells.sequence leads continues wellFormed
                refine ⟨_, cp, spells, ?_, (List.take_append_drop ..).symm⟩
                have least := (beyond_ascii leads continues wellFormed).2
                unfold IsControl
                omega

/-! ## The whole path -/

theorem problemFrom_nil : problemFrom [] = "" := by
  rw [problemFrom]

theorem problemFrom_utf8_cons (ch : Char) (after : List UInt8) :
    problemFrom (utf8EncodeChar ch ++ after) =
      if IsControl ch.toNat then controlCharacter else problemFrom after := by
  have spells := spells_utf8EncodeChar ch
  generalize utf8EncodeChar ch = bytes at spells
  obtain _ | ⟨lead, tail⟩ := bytes
  · cases spells
  · rw [List.cons_append, problemFrom]
    split
    · rename_i problem next
      rw [afterSequence_of_spells spells] at next
      split at next
      · exact (Except.error.inj next).symm.trans (if_pos ‹_›).symm
      · cases next
    · rename_i after next
      rw [afterSequence_of_spells spells] at next
      split at next
      · cases next
      · obtain rfl := Except.ok.inj next
        exact (if_neg ‹_›).symm

theorem afterSequence_error {c : UInt8} {rest : List UInt8} {problem : String}
    (refused : afterSequence c rest = .error problem) :
    problem = controlCharacter ∨ problem = notUtf8 := by
  unfold afterSequence at refused
  grind

/-- Where nothing is wrong, the path is text. -/
theorem text_of_problemFrom {path : List UInt8} (accepted : problemFrom path = "") :
    ∃ text, path = utf8 text ∧ ∀ ch ∈ text, ¬ IsControl ch.toNat := by
  induction path using problemFrom.induct with
  | case1 => exact ⟨[], rfl, by simp⟩
  | case2 c rest problem refused =>
      rw [problemFrom] at accepted
      split at accepted
      · rename_i refused
        subst accepted
        rcases afterSequence_error refused with is | is
        · exact absurd is (by decide)
        · exact absurd is (by decide)
      · rename_i next
        rw [refused] at next
        cases next
  | case3 c rest after next ih =>
      rw [problemFrom] at accepted
      split at accepted
      · rename_i refused
        rw [next] at refused
        cases refused
      · rename_i other again
        obtain rfl := Except.ok.inj (next.symm.trans again)
        obtain ⟨text, rfl, printable⟩ := ih accepted
        obtain ⟨tail, cp, spells, first, rfl⟩ := spells_of_afterSequence next
        obtain ⟨ch, rfl, bytes⟩ := spells.character
        refine ⟨ch :: text, ?_, ?_⟩
        · rw [utf8_cons, ← bytes]
          rfl
        · exact List.forall_mem_cons.mpr ⟨first, printable⟩

/-- What is wrong with a text is its control characters. -/
theorem problemFrom_utf8 (text : List Char) :
    problemFrom (utf8 text) =
      if text.any (fun ch => decide (IsControl ch.toNat)) = true then controlCharacter
      else "" := by
  induction text with
  | nil =>
      rw [if_neg (by simp)]
      exact problemFrom_nil
  | cons ch text ih =>
      rw [utf8_cons, problemFrom_utf8_cons, ih, List.any_cons]
      by_cases first : IsControl ch.toNat
      · rw [if_pos first, decide_eq_true first, Bool.true_or, if_pos rfl]
      · rw [if_neg first, decide_eq_false first, Bool.false_or]

/-- A path has no problem exactly if it is not empty and is the UTF-8 of characters none of
which is a control character. -/
theorem path_accepted_iff (path : List UInt8) :
    registryPathProblem path = "" ↔ path ≠ [] ∧
      ∃ text : List Char, path = utf8 text ∧ ∀ ch ∈ text, ¬ IsControl ch.toNat := by
  unfold registryPathProblem
  by_cases empty : path = []
  · rw [if_pos empty]
    exact ⟨nofun, fun accepted => absurd empty accepted.1⟩
  · rw [if_neg empty]
    constructor
    · intro accepted
      exact ⟨empty, text_of_problemFrom accepted⟩
    · rintro ⟨-, text, rfl, printable⟩
      rw [problemFrom_utf8, if_neg (by simpa using printable)]

/-- On a text it is the check of the server. -/
theorem registryPathProblem_utf8 (path : String) :
    registryPathProblem (utf8 path.toList) = Registry.registryPathProblem path := by
  have control (ch : Char) : IsControl ch.toNat ↔
      (ch.val < 0x20 || (0x7F ≤ ch.val && ch.val ≤ 0x9F)) = true := by
    simp only [Bool.or_eq_true, Bool.and_eq_true, decide_eq_true_eq]
    exact Iff.rfl
  have empty : utf8 path.toList = [] ↔ path.isEmpty = true := by
    rw [String.isEmpty_iff, ← String.toList_eq_nil_iff]
    cases path.toList with
    | nil => simp [utf8]
    | cons ch text => simp
  unfold registryPathProblem Registry.registryPathProblem
  rw [problemFrom_utf8]
  refine if_congr empty rfl (if_congr ?_ rfl rfl)
  rw [List.any_eq_true, List.any_eq_true]
  exact exists_congr fun ch => and_congr_right' (decide_eq_true_iff.trans (control ch))

end Adai.Registry.PathProblem
