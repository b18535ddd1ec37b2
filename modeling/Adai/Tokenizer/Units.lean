import Mathlib.Data.UInt
import Adai.Math.PairMerge

/-! # Bytes, code points and units

Text is a string of bytes. The tokenizer's atomic units are single bytes, or in
`TokenizerMode.unicode` UTF-8 code points as `leadLength` measures them. A text is
valid exactly when it is a string of code points (`isValidUtf8_iff`), and
splitting it finds them again (`utf8SplitCodepoints_flatten`). In both modes the
units are a prefix code (`unitCode`), so a string is spelled by units in at most one
way.
-/

namespace Adai.Tokenizer

open PairMerge (PrefixCode)

abbrev Bytes := List UInt8

/-- The bytes of an ASCII text. -/
def ascii (text : String) : Bytes := text.toList.map fun c => c.toNat.toUInt8

inductive TokenizerMode
  | ascii
  | unicode
  deriving DecidableEq, Repr

/-! ## Code points -/

/-- Bytes of the code point that a lead byte announces. -/
def leadLength (c : UInt8) : Option Nat :=
  if c &&& 0x80 = 0 then some 1
  else if c &&& 0xE0 = 0xC0 then some 2
  else if c &&& 0xF0 = 0xE0 then some 3
  else if c &&& 0xF8 = 0xF0 then some 4
  else none

def isContinuation (c : UInt8) : Bool := c &&& 0xC0 = 0x80

/-- A byte that stands for itself. -/
def isAscii (c : UInt8) : Bool := c < 0x80

/-- One round for each code point; `fuel` is the number of bytes left. -/
def isValidUtf8From : Nat → Bytes → Bool
  | _, [] => true
  | 0, _ :: _ => false
  | fuel + 1, c :: rest =>
      match leadLength c with
      | none => false
      | some bytes =>
          if rest.length + 1 < bytes then false
          else (rest.take (bytes - 1)).all isContinuation &&
            isValidUtf8From fuel (rest.drop (bytes - 1))

def isValidUtf8 (text : Bytes) : Bool := isValidUtf8From text.length text

/-- An invalid lead byte and a truncated sequence give a single byte. -/
def splitFrom : Nat → Bytes → List Bytes
  | _, [] => []
  | 0, _ :: _ => []
  | fuel + 1, c :: rest =>
      let announced := (leadLength c).getD 1
      let bytes := if rest.length + 1 < announced then 1 else announced
      (c :: rest.take (bytes - 1)) :: splitFrom fuel (rest.drop (bytes - 1))

def utf8SplitCodepoints (text : Bytes) : List Bytes := splitFrom text.length text

/-- A lead byte with the continuation bytes it announces. -/
inductive IsCodepoint : Bytes → Prop
  | mk (c : UInt8) (rest : Bytes) : leadLength c = some (rest.length + 1) →
      (∀ d ∈ rest, isContinuation d = true) → IsCodepoint (c :: rest)

/-! ## Facts about single bytes -/

/-- Which bytes stand for themselves, and that no continuation byte leads. -/
theorem leadLength_class (c : UInt8) :
    (leadLength c = some 1 ↔ isAscii c = true) ∧
      (isContinuation c = true → leadLength c = none) := by
  have bytes : ∀ b : BitVec 8, (leadLength ⟨b⟩ = some 1 ↔ isAscii ⟨b⟩ = true) ∧
      (isContinuation ⟨b⟩ = true → leadLength ⟨b⟩ = none) := by
    decide +kernel
  exact bytes c.toBitVec

theorem leadLength_eq_one_iff (c : UInt8) : leadLength c = some 1 ↔ isAscii c = true :=
  (leadLength_class c).1

theorem leadLength_pos {c : UInt8} {n : Nat} (announced : leadLength c = some n) :
    1 ≤ n ∧ n ≤ 4 := by
  simp only [leadLength] at announced
  grind

theorem leadLength_of_isContinuation {c : UInt8} (continuation : isContinuation c = true) :
    leadLength c = none :=
  (leadLength_class c).2 continuation

theorem not_isAscii_of_isContinuation {c : UInt8} (continuation : isContinuation c = true) :
    isAscii c = false := by
  rw [← Bool.not_eq_true, ← leadLength_eq_one_iff, leadLength_of_isContinuation continuation]
  nofun

/-! ## Code points are a prefix code -/

theorem IsCodepoint.length_le {u : Bytes} (codepoint : IsCodepoint u) :
    1 ≤ u.length ∧ u.length ≤ 4 := by
  obtain ⟨c, rest, announced, _⟩ := codepoint
  exact leadLength_pos announced

theorem isCodepoint_singleton {c : UInt8} : IsCodepoint [c] ↔ isAscii c = true := by
  rw [← leadLength_eq_one_iff]
  constructor
  · intro codepoint
    cases codepoint with
    | mk _ _ announced _ => exact announced
  · intro announced
    exact .mk c [] announced (by simp)

theorem IsCodepoint.eq_singleton {c : UInt8} {rest : Bytes} (codepoint : IsCodepoint (c :: rest))
    (plain : isAscii c = true) : rest = [] := by
  cases codepoint with
  | mk _ _ announced _ =>
      rw [(leadLength_eq_one_iff c).mpr plain] at announced
      exact List.eq_nil_of_length_eq_zero (by simpa using announced)

theorem codepointCode : PrefixCode IsCodepoint where
  ne_nil u codepoint := List.ne_nil_of_length_pos codepoint.length_le.1
  unique u v x y left right same := by
    obtain ⟨c, rest, announced, _⟩ := left
    obtain ⟨d, rest', announced', _⟩ := right
    obtain ⟨rfl, later⟩ := List.cons.inj same
    have lengths : rest.length = rest'.length := by
      rw [announced] at announced'
      simpa using announced'
    rw [List.append_inj_left later lengths]

/-! ## Validity -/

theorem isValidUtf8From_iff {fuel : Nat} {text : Bytes} (enough : text.length ≤ fuel) :
    isValidUtf8From fuel text = true ↔ ∃ us : List Bytes, (∀ u ∈ us, IsCodepoint u) ∧ us.flatten = text := by
  induction fuel generalizing text with
  | zero =>
      obtain rfl : text = [] := List.eq_nil_of_length_eq_zero (Nat.le_zero.mp enough)
      exact iff_of_true rfl ⟨[], by simp, rfl⟩
  | succ fuel ih =>
      cases text with
      | nil => exact iff_of_true rfl ⟨[], by simp, rfl⟩
      | cons c rest =>
          have shorter (n : Nat) : (rest.drop n).length ≤ fuel := by
            simp only [List.length_cons, List.length_drop] at enough ⊢
            omega
          constructor
          · intro valid
            simp only [isValidUtf8From] at valid
            split at valid
            · cases valid
            · rename_i bytes announced
              split at valid
              · cases valid
              · rename_i fits
                obtain ⟨continuations, later⟩ := Bool.and_eq_true_iff.mp valid
                obtain ⟨us, units, spells⟩ := (ih (shorter _)).mp later
                have positive := leadLength_pos announced
                refine ⟨(c :: rest.take (bytes - 1)) :: us, ?_, ?_⟩
                · intro u member
                  rcases List.mem_cons.mp member with rfl | other
                  · refine .mk c _ ?_ (List.all_eq_true.mp continuations)
                    rw [announced, List.length_take]
                    congr 1
                    omega
                  · exact units u other
                · rw [List.flatten_cons, spells, List.cons_append, List.take_append_drop]
          · rintro ⟨us, units, spells⟩
            cases us with
            | nil => cases spells
            | cons u us =>
                obtain ⟨c', tail, announced, continuations⟩ := units u List.mem_cons_self
                rw [List.flatten_cons, List.cons_append] at spells
                obtain ⟨rfl, rfl⟩ := List.cons.inj spells
                have later := (ih (shorter tail.length)).mpr
                  ⟨us, fun v member => units v (List.mem_cons_of_mem _ member), by simp⟩
                simp only [isValidUtf8From, announced]
                rw [if_neg (by simp)]
                simp only [Nat.add_sub_cancel, List.take_left, later, Bool.and_true]
                exact List.all_eq_true.mpr continuations

/-- A text is valid when it is a string of code points. -/
theorem isValidUtf8_iff {text : Bytes} :
    isValidUtf8 text = true ↔ ∃ us : List Bytes, (∀ u ∈ us, IsCodepoint u) ∧ us.flatten = text :=
  isValidUtf8From_iff (Nat.le_refl _)

theorem splitFrom_flatten {us : List Bytes} (units : ∀ u ∈ us, IsCodepoint u) {fuel : Nat}
    (enough : us.flatten.length ≤ fuel) : splitFrom fuel us.flatten = us := by
  induction us generalizing fuel with
  | nil => cases fuel <;> rfl
  | cons u us ih =>
      obtain ⟨c, rest, announced, _⟩ := units u List.mem_cons_self
      cases fuel with
      | zero => simp at enough
      | succ fuel =>
          rw [List.flatten_cons, List.cons_append]
          simp only [splitFrom, announced, Option.getD_some]
          rw [if_neg (by simp)]
          simp only [Nat.add_sub_cancel, List.take_left, List.drop_left]
          rw [ih (fun v member => units v (List.mem_cons_of_mem _ member))]
          simp only [List.flatten_cons, List.length_append, List.length_cons] at enough
          omega

/-- Splitting a string of code points gives them back. -/
theorem utf8SplitCodepoints_flatten {us : List Bytes} (units : ∀ u ∈ us, IsCodepoint u) :
    utf8SplitCodepoints us.flatten = us :=
  splitFrom_flatten units (Nat.le_refl _)

theorem flatten_splitFrom {fuel : Nat} {text : Bytes} (enough : text.length ≤ fuel) :
    (splitFrom fuel text).flatten = text := by
  induction fuel generalizing text with
  | zero =>
      obtain rfl : text = [] := List.eq_nil_of_length_eq_zero (Nat.le_zero.mp enough)
      rfl
  | succ fuel ih =>
      cases text with
      | nil => rfl
      | cons c rest =>
          simp only [splitFrom, List.flatten_cons]
          rw [ih, List.cons_append, List.take_append_drop]
          simp only [List.length_cons, List.length_drop] at enough ⊢
          omega

theorem isValidUtf8_of_isAscii {text : Bytes} (plain : ∀ c ∈ text, isAscii c = true) :
    isValidUtf8 text = true := by
  refine isValidUtf8_iff.mpr ⟨text.map fun c => [c], ?_, ?_⟩
  · intro u member
    obtain ⟨c, listed, rfl⟩ := List.mem_map.mp member
    exact isCodepoint_singleton.mpr (plain c listed)
  · rw [← List.flatMap_def, List.flatMap_singleton']

/-- An ASCII byte is a code point, so what follows it is valid by itself. -/
theorem isValidUtf8_tail {c : UInt8} {rest : Bytes} (plain : isAscii c = true)
    (valid : isValidUtf8 (c :: rest) = true) : isValidUtf8 rest = true := by
  obtain ⟨us, units, spells⟩ := isValidUtf8_iff.mp valid
  cases us with
  | nil => cases spells
  | cons u us =>
      have codepoint := units u List.mem_cons_self
      cases u with
      | nil => exact (codepointCode.ne_nil _ codepoint rfl).elim
      | cons d tail =>
          rw [List.flatten_cons, List.cons_append] at spells
          obtain ⟨rfl, later⟩ := List.cons.inj spells
          obtain rfl := codepoint.eq_singleton plain
          exact isValidUtf8_iff.mpr
            ⟨us, fun v member => units v (List.mem_cons_of_mem _ member), later⟩

theorem isValidUtf8_of_append {front rest : Bytes} (plain : ∀ c ∈ front, isAscii c = true)
    (valid : isValidUtf8 (front ++ rest) = true) : isValidUtf8 rest = true := by
  induction front with
  | nil => exact valid
  | cons c front ih =>
      exact ih (fun d member => plain d (List.mem_cons_of_mem _ member))
        (isValidUtf8_tail (plain c List.mem_cons_self) valid)

/-- A valid text may be cut in front of an ASCII byte. -/
theorem isValidUtf8_cut {front rest : Bytes} (stops : ∀ c ∈ rest.head?, isAscii c = true)
    (valid : isValidUtf8 (front ++ rest) = true) :
    isValidUtf8 front = true ∧ isValidUtf8 rest = true := by
  obtain ⟨us, units, spells⟩ := isValidUtf8_iff.mp valid
  clear valid
  induction us generalizing front with
  | nil =>
      obtain ⟨rfl, rfl⟩ := List.append_eq_nil_iff.mp spells.symm
      exact ⟨rfl, rfl⟩
  | cons u us ih =>
      have codepoint := units u List.mem_cons_self
      have others : ∀ v ∈ us, IsCodepoint v := fun v member =>
        units v (List.mem_cons_of_mem _ member)
      rw [List.flatten_cons] at spells
      rcases List.append_eq_append_iff.mp spells with ⟨after, rfl, split⟩ | ⟨inside, cut, rfl⟩
      · obtain ⟨valid, valid'⟩ := ih others split
        obtain ⟨vs, units', rfl⟩ := isValidUtf8_iff.mp valid
        refine ⟨isValidUtf8_iff.mpr ⟨u :: vs, ?_, rfl⟩, valid'⟩
        intro v member
        rcases List.mem_cons.mp member with rfl | later
        · exact codepoint
        · exact units' v later
      · cases inside with
        | nil =>
            rw [List.append_nil] at cut
            subst cut
            refine ⟨isValidUtf8_iff.mpr ⟨[u], ?_, by simp⟩, isValidUtf8_iff.mpr ⟨us, others, rfl⟩⟩
            intro v member
            rwa [List.mem_singleton.mp member]
        | cons d inside =>
            -- the cut would fall inside a code point, in front of a continuation byte
            cases front with
            | nil =>
                refine ⟨rfl, isValidUtf8_iff.mpr ⟨u :: us, units, ?_⟩⟩
                rw [List.flatten_cons, cut, List.nil_append]
            | cons c front =>
                subst cut
                cases codepoint with
                | mk _ _ _ continuations =>
                    have continuation := continuations d (by simp)
                    have plain := stops d (by simp)
                    rw [not_isAscii_of_isContinuation continuation] at plain
                    cases plain

/-! ## Units -/

/-- The units a text is made of. -/
def unitsOf (mode : TokenizerMode) (text : Bytes) : List Bytes :=
  match mode with
  | .unicode => utf8SplitCodepoints text
  | .ascii => text.map fun c => [c]

/-- An atomic unit of the mode. -/
def IsUnit (mode : TokenizerMode) (u : Bytes) : Prop :=
  match mode with
  | .unicode => IsCodepoint u
  | .ascii => u.length = 1

theorem unitCode (mode : TokenizerMode) : PrefixCode (IsUnit mode) := by
  cases mode with
  | unicode => exact codepointCode
  | ascii =>
      refine ⟨fun u single => List.ne_nil_of_length_pos (by rw [single]; decide), ?_⟩
      intro u v x y single single' same
      exact List.append_inj_left same (single.trans single'.symm)

theorem IsUnit.length_le {mode : TokenizerMode} {u : Bytes} (unit : IsUnit mode u) :
    1 ≤ u.length ∧ u.length ≤ 4 := by
  cases mode with
  | unicode => exact IsCodepoint.length_le unit
  | ascii =>
      have single : u.length = 1 := unit
      omega

@[simp] theorem flatten_unitsOf (mode : TokenizerMode) (text : Bytes) :
    (unitsOf mode text).flatten = text := by
  cases mode with
  | unicode => exact flatten_splitFrom (Nat.le_refl _)
  | ascii => exact (List.flatMap_def ..).symm.trans (List.flatMap_singleton' text)

/-- The units of a text that is valid, in case validity matters. -/
theorem isUnit_of_mem_unitsOf {mode : TokenizerMode} {text u : Bytes}
    (valid : mode = .unicode → isValidUtf8 text = true) (member : u ∈ unitsOf mode text) :
    IsUnit mode u := by
  cases mode with
  | unicode =>
      obtain ⟨us, units, rfl⟩ := isValidUtf8_iff.mp (valid rfl)
      exact units u (utf8SplitCodepoints_flatten units ▸ member)
  | ascii =>
      obtain ⟨c, _, rfl⟩ := List.mem_map.mp member
      rfl

end Adai.Tokenizer
