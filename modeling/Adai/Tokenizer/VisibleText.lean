import Adai.Tokenizer.PreTokenize

/-! # Pre-tokenization keeps what is visible

The pattern matches wherever there is a byte left, so its matches are the whole text,
cut; collapsing changes whitespace only. In Unicode mode the text is cut between code
points: those of a pre-token are code points of the text, or the space that stands for
a run of whitespace (`pre_tokenize_keeps_visible`).
-/

namespace Adai.Tokenizer

open Backtracking Backtracking.Pattern

/-- A text without its whitespace. -/
def visible (text : Bytes) : Bytes := text.filter fun c => !isSpace c

theorem visible_collapse (token : Bytes) : visible (collapse token) = visible token :=
  filter_replaceAll_plus (fun c member => by rw [List.mem_singleton.mp member]; rfl) token

/-- The matches are the text, cut. -/
theorem flatten_findAll_tokenPattern (mode : TokenizerMode) (text : Bytes) :
    ((tokenPattern mode).findAll text).flatten = text := by
  refine flatten_findAll (fun s => first_tokenPattern_isSome mode) (fun s rest found => ?_) text
  obtain ⟨token, split, isMatch, _⟩ := first_tokenPattern found
  exact ⟨token, split, isMatch.ne_nil⟩

/-- Collapsing and leaving out the empty pieces keeps what is visible. -/
theorem visible_pieces (pieces : List Bytes) :
    visible ((pieces.map collapse).filter fun token => token ≠ []).flatten =
      visible pieces.flatten := by
  induction pieces with
  | nil => rfl
  | cons piece pieces ih =>
      have cons (front : Bytes) (rest : List Bytes) :
          visible (front :: rest).flatten = visible front ++ visible rest.flatten :=
        List.filter_append ..
      rw [cons, ← ih, ← visible_collapse piece, List.map_cons]
      by_cases empty : collapse piece = []
      · rw [List.filter_cons_of_neg (by simp [empty]), empty]
        rfl
      · rw [List.filter_cons_of_pos (by simp [empty]), cons]

/-! ## Code points -/

/-- A string of code points that are all listed. -/
def SpelledBy (listed : List Bytes) (s : Bytes) : Prop :=
  ∃ us : List Bytes, (∀ u ∈ us, IsCodepoint u ∧ u ∈ listed) ∧ us.flatten = s

theorem spelledBy_split {text : Bytes} (valid : isValidUtf8 text = true) :
    SpelledBy (utf8SplitCodepoints text) text := by
  obtain ⟨us, units, rfl⟩ := isValidUtf8_iff.mp valid
  refine ⟨us, fun u member => ⟨units u member, ?_⟩, rfl⟩
  rwa [utf8SplitCodepoints_flatten units]

theorem SpelledBy.valid {listed : List Bytes} {s : Bytes} (spelled : SpelledBy listed s) :
    isValidUtf8 s = true := by
  obtain ⟨us, units, rfl⟩ := spelled
  exact isValidUtf8_iff.mpr ⟨us, fun u member => (units u member).1, rfl⟩

theorem SpelledBy.split {listed : List Bytes} {s u : Bytes} (spelled : SpelledBy listed s)
    (member : u ∈ utf8SplitCodepoints s) : IsCodepoint u ∧ u ∈ listed := by
  obtain ⟨us, units, rfl⟩ := spelled
  rw [utf8SplitCodepoints_flatten fun u member => (units u member).1] at member
  exact units u member

/-- Where both parts are valid, the code points of the whole are those of the parts. -/
theorem SpelledBy.cut {listed : List Bytes} {front rest : Bytes}
    (spelled : SpelledBy listed (front ++ rest)) (validFront : isValidUtf8 front = true)
    (validRest : isValidUtf8 rest = true) : SpelledBy listed front ∧ SpelledBy listed rest := by
  obtain ⟨us, units, same⟩ := spelled
  obtain ⟨xs, unitsFront, rfl⟩ := isValidUtf8_iff.mp validFront
  obtain ⟨ys, unitsRest, rfl⟩ := isValidUtf8_iff.mp validRest
  have both : ∀ u ∈ xs ++ ys, IsCodepoint u := by
    intro u member
    rcases List.mem_append.mp member with ahead | behind
    · exact unitsFront u ahead
    · exact unitsRest u behind
  obtain rfl : us = xs ++ ys := codepointCode.flatten_injective
    (fun u member => (units u member).1) both (by rw [same, List.flatten_append])
  exact ⟨⟨xs, fun u member => units u (List.mem_append_left ys member), rfl⟩,
    ⟨ys, fun u member => units u (List.mem_append_right xs member), rfl⟩⟩

theorem utf8SplitCodepoints_of_isAscii {text : Bytes} (plain : ∀ c ∈ text, isAscii c = true) :
    utf8SplitCodepoints text = text.map fun c => [c] := by
  have units : ∀ u ∈ text.map fun c => [c], IsCodepoint u := by
    intro u member
    obtain ⟨c, listed, rfl⟩ := List.mem_map.mp member
    exact isCodepoint_singleton.mpr (plain c listed)
  have spells : (text.map fun c => [c]).flatten = text := by
    rw [← List.flatMap_def, List.flatMap_singleton']
  rw [← utf8SplitCodepoints_flatten units, spells]

/-- The code points of a match, collapsed, are its own, or the space. -/
theorem IsMatch.split_collapse {token u : Bytes} (isMatch : IsMatch .unicode token)
    (member : u ∈ utf8SplitCodepoints (collapse token)) :
    u ∈ utf8SplitCodepoints token ∨ u = [0x20] := by
  rcases isMatch.kind with plain | ⟨front, run, rfl, blank, all⟩
  · have plainToken : ∀ c ∈ token, isAscii c = true := plain rfl
    have plainCollapsed : ∀ c ∈ collapse token, isAscii c = true := by
      intro c inside
      rcases mem_collapse inside with rfl | inside
      · rfl
      · exact plainToken c inside
    rw [utf8SplitCodepoints_of_isAscii plainCollapsed] at member
    obtain ⟨c, inside, rfl⟩ := List.mem_map.mp member
    rcases mem_collapse inside with rfl | inside
    · exact .inr rfl
    · rw [utf8SplitCodepoints_of_isAscii plainToken]
      exact .inl (List.mem_map_of_mem inside)
  · rw [collapse_word blank all] at member
    exact .inl member

/-- What the pattern cuts off a text, and what it leaves, is spelled by its code
points. -/
theorem exists_first_spelledBy {listed : List Bytes} {s : Bytes} (spelled : SpelledBy listed s)
    (nonempty : s ≠ []) :
    ∃ token rest, s = token ++ rest ∧ (tokenPattern .unicode).first s = some rest ∧
      (∀ u ∈ utf8SplitCodepoints (collapse token), u ∈ listed ∨ u = [0x20]) ∧
      SpelledBy listed rest := by
  obtain ⟨rest, found⟩ := Option.isSome_iff_exists.mp (first_tokenPattern_isSome .unicode nonempty)
  obtain ⟨token, rfl, isMatch, stops⟩ := first_tokenPattern found
  have valid : isValidUtf8 token = true ∧ isValidUtf8 rest = true := by
    rcases stops rfl with plain | plain
    · exact ⟨isValidUtf8_of_isAscii plain, isValidUtf8_of_append plain spelled.valid⟩
    · exact isValidUtf8_cut plain spelled.valid
  obtain ⟨spelledToken, spelledRest⟩ := spelled.cut valid.1 valid.2
  refine ⟨token, rest, rfl, found, fun u member => ?_, spelledRest⟩
  rcases isMatch.split_collapse member with own | space
  · exact .inl (spelledToken.split own).2
  · exact .inr space

theorem split_of_mem_preTokenize {normalization : TextNormalization} {text : Bytes}
    {tokens : List Bytes} (done : preTokenize .unicode normalization text = .ok tokens) :
    ∀ token ∈ tokens, ∀ u ∈ utf8SplitCodepoints token,
      u ∈ utf8SplitCodepoints (lowerText .unicode normalization text) ∨ u = [0x20] := by
  intro token member
  have valid := isValidUtf8_of_preTokenize done
  obtain rfl := Except.ok.inj ((preTokenize_eq_ok valid).symm.trans done)
  obtain ⟨found, listed, rfl⟩ := List.mem_map.mp (List.mem_filter.mp member).1
  exact of_mem_findAll (fun s kept nonempty => exists_first_spelledBy kept nonempty)
    (spelledBy_split (isValidUtf8_lowerText valid)) listed

/-! ## The result -/

/-- **Nothing visible is lost.** A text is refused only where it is not valid. Otherwise
its pre-tokens, joined, have the bytes of the text that are no whitespace, in order. In
Unicode mode every pre-token is valid and splits into single code points, each a code
point of the text or a space. -/
theorem pre_tokenize_keeps_visible (mode : TokenizerMode) (normalization : TextNormalization)
    (text : Bytes) :
    (match preTokenize mode .cased text with
      | .ok tokens => visible tokens.flatten = visible text
      | .error _ => isValidUtf8 text = false) ∧
    (isValidUtf8 text = true → ∃ tokens, preTokenize .unicode normalization text = .ok tokens ∧
      ∀ token ∈ tokens, isValidUtf8 token = true ∧
        (utf8SplitCodepoints token).flatten = token ∧
        ∀ u ∈ utf8SplitCodepoints token, IsCodepoint u ∧
          (u ∈ utf8SplitCodepoints (lowerText .unicode normalization text) ∨ u = [0x20])) := by
  constructor
  · by_cases valid : isValidUtf8 text = true
    · rw [preTokenize_eq_ok valid]
      exact (visible_pieces _).trans (congrArg visible (flatten_findAll_tokenPattern mode text))
    · split
      · rename_i tokens done
        exact (valid (isValidUtf8_of_preTokenize done)).elim
      · simpa using valid
  · intro valid
    refine ⟨_, preTokenize_eq_ok valid, fun token member => ?_⟩
    have done := @preTokenize_eq_ok .unicode normalization text valid
    have validToken := (isPreToken_of_mem done token member).valid rfl
    exact ⟨validToken, flatten_splitFrom (Nat.le_refl _), fun u inside =>
      ⟨((spelledBy_split validToken).split inside).1,
        split_of_mem_preTokenize done token member u inside⟩⟩

end Adai.Tokenizer
