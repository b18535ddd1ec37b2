import Mathlib.Data.List.Enum
import Mathlib.Data.Prod.Lex
import Adai.Math.LowestPart
import Adai.Samples.ConversationFile

/-! # The validation split

`ChatbotTrainer::split_data` moves the pairs of lowest rank to the validation set, where the
rank of a pair is a hash of its text and ties go by load order. The training pairs are parted,
each part in load order, and if different pairs have different ranks the parts do not depend
on that order (`validation_split_stable`).
-/

namespace Adai.Samples

open LowestPart Tokenizer

/-! ## Ranks -/

/-- `mix`: the bytes of a text and a separator. -/
def mixText (h : UInt64) (s : Bytes) : UInt64 :=
  ((s.foldl (fun h c => (h ^^^ c.toUInt64) * 1099511628211) h) ^^^ 0xFF) * 1099511628211

def splitRank (pair : ConversationPair) : UInt64 :=
  mixText (mixText 1469598103934665603 pair.input) pair.response

/-- The key of a pair at an index. -/
def rankedKey (entry : ConversationPair × ℕ) : ℕ ×ₗ ℕ := toLex ((splitRank entry.1).toNat, entry.2)

/-! ## The split -/

structure TrainerData where
  trainingData : List ConversationPair
  validationData : List ConversationPair := []
  deriving DecidableEq, Repr

/-- The pairs that are flagged so. -/
def withFlag (pairs : List ConversationPair) (flags : List Bool) (flag : Bool) :
    List ConversationPair :=
  ((pairs.zip flags).filter fun entry => entry.2 == flag).map Prod.fst

def isValidation (nth : NthElement (ℕ ×ₗ ℕ)) (pairs : List ConversationPair)
    (validationSize : ℕ) : List Bool :=
  let ranked := nth.run (pairs.zipIdx.map rankedKey) (validationSize - 1)
  (ranked.take validationSize).foldl (fun flags key => flags.set (ofLex key).2 true)
    (List.replicate pairs.length false)

def splitData (nth : NthElement (ℕ ×ₗ ℕ)) (validationSplit : Int) (data : TrainerData) :
    TrainerData :=
  if validationSplit ≤ 0 then data
  else
    let validationSize := data.trainingData.length / validationSplit.toNat
    if validationSize = 0 then data
    else
      let flags := isValidation nth data.trainingData validationSize
      { trainingData := withFlag data.trainingData flags false
        validationData := data.validationData ++ withFlag data.trainingData flags true }

/-! ## Flags -/

theorem getElem?_set_flags (keys : List (ℕ ×ₗ ℕ)) (flags : List Bool) (i : ℕ) :
    (keys.foldl (fun flags key => flags.set (ofLex key).2 true) flags)[i]? =
      if i ∈ keys.map fun key => (ofLex key).2 then flags[i]?.map fun _ => true else flags[i]? := by
  induction keys generalizing flags with
  | nil => simp
  | cons key keys ih =>
      rw [List.foldl_cons, ih, List.map_cons, List.getElem?_set]
      by_cases here : (ofLex key).2 = i
      · subst here
        by_cases inside : (ofLex key).2 < flags.length <;> simp [inside]
      · rw [if_neg here]
        simp only [List.mem_cons, Ne.symm here, false_or]

/-- Flags by index select the pairs at these indices. -/
theorem withFlag_eq (pairs : List ConversationPair) (flags : List Bool) (chosen : ℕ → Bool)
    (is : ∀ i < pairs.length, flags[i]? = some (chosen i)) (flag : Bool) :
    withFlag pairs flags flag =
      (pairs.zipIdx.filter fun entry => chosen entry.2 == flag).map Prod.fst := by
  have zipped : pairs.zip flags = pairs.zipIdx.map fun entry => (entry.1, chosen entry.2) := by
    refine List.ext_getElem? fun i => ?_
    rw [List.zip, List.getElem?_zipWith, List.getElem?_map, List.getElem?_zipIdx]
    by_cases inside : i < pairs.length
    · rw [is i inside, List.getElem?_eq_getElem inside]
      simp
    · rw [List.getElem?_eq_none (Nat.le_of_not_lt inside)]
      rfl
  rw [withFlag, zipped, List.filter_map, List.map_map]
  rfl

/-! ## The parts -/

/-- The validation pairs are in front in a reordering of the pairs, and rank lowest. -/
theorem exists_parts (nth : NthElement (ℕ ×ₗ ℕ)) (pairs : List ConversationPair)
    {size : ℕ} (inside : size + 1 ≤ pairs.length) :
    ∃ front back : List (ConversationPair × ℕ), (front ++ back).Perm pairs.zipIdx ∧
      front.length = size + 1 ∧
      (∀ x ∈ front, ∀ y ∈ back, (splitRank x.1).toNat ≤ (splitRank y.1).toNat) ∧
      (withFlag pairs (isValidation nth pairs (size + 1)) true).Perm (front.map Prod.fst) ∧
      (withFlag pairs (isValidation nth pairs (size + 1)) false).Perm (back.map Prod.fst) := by
  obtain ⟨entries, perm, sorted⟩ :=
    exists_perm_map rankedKey (nth.perm (pairs.zipIdx.map rankedKey) size)
  have lower := nth.take_le_drop (pairs.zipIdx.map rankedKey) size
  have total : entries.length = pairs.length := perm.length_eq.trans List.length_zipIdx
  rw [sorted, ← List.map_take, ← List.map_drop] at lower
  let front := entries.take (size + 1)
  let back := entries.drop (size + 1)
  have parted : front ++ back = entries := List.take_append_drop ..
  have distinct : ((front ++ back).map Prod.snd).Nodup := by
    rw [parted, (perm.map Prod.snd).nodup_iff, List.zipIdx_map_snd]
    exact List.nodup_range'
  rw [List.map_append, List.nodup_append] at distinct
  let chosen : ℕ → Bool := fun i => decide (i ∈ front.map Prod.snd)
  have inFront : ∀ entry ∈ front, chosen entry.2 = true := fun entry member =>
    decide_eq_true (List.mem_map_of_mem member)
  have inBack : ∀ entry ∈ back, chosen entry.2 = false := fun entry member =>
    decide_eq_false fun also => distinct.2.2 _ also _ (List.mem_map_of_mem member) rfl
  have flags : ∀ i < pairs.length,
      (isValidation nth pairs (size + 1))[i]? = some (chosen i) := by
    intro i within
    unfold isValidation
    dsimp only
    rw [Nat.add_sub_cancel, sorted, ← List.map_take, getElem?_set_flags, List.map_map,
      List.getElem?_replicate, if_pos within]
    change (if i ∈ front.map Prod.snd then some true else some false) = some (decide _)
    split
    · rename_i member
      rw [decide_eq_true member]
    · rename_i member
      rw [decide_eq_false member]
  refine ⟨front, back, parted ▸ perm, ?_, ?_, ?_, ?_⟩
  · rw [List.length_take, total]
    omega
  · intro x first y second
    have key := lower _ (List.mem_map_of_mem first) _ (List.mem_map_of_mem second)
    exact (Prod.Lex.toLex_le_toLex.mp key).elim Nat.le_of_lt fun same => same.1.le
  · rw [withFlag_eq pairs _ chosen flags]
    refine ((perm.symm.trans (.of_eq parted.symm)).filter _ |>.map Prod.fst).trans (.of_eq ?_)
    rw [List.filter_append,
      List.filter_eq_self.mpr fun entry member => by simp [inFront entry member],
      List.filter_eq_nil_iff.mpr fun entry member => by simp [inBack entry member],
      List.append_nil]
  · rw [withFlag_eq pairs _ chosen flags]
    refine ((perm.symm.trans (.of_eq parted.symm)).filter _ |>.map Prod.fst).trans (.of_eq ?_)
    rw [List.filter_append,
      List.filter_eq_nil_iff.mpr fun entry member => by simp [inFront entry member],
      List.filter_eq_self.mpr fun entry member => by simp [inBack entry member],
      List.nil_append]

theorem withFlag_sublist (pairs : List ConversationPair) (flags : List Bool) (flag : Bool) :
    (withFlag pairs flags flag).Sublist pairs := by
  have front : ((pairs.zip flags).map Prod.fst).Sublist pairs := by
    induction pairs generalizing flags with
    | nil => exact List.Sublist.slnil
    | cons pair pairs ih =>
        cases flags with
        | nil => exact List.nil_sublist _
        | cons first flags => exact (ih flags).cons_cons pair
  exact (List.filter_sublist.map Prod.fst).trans front

section Split

variable (nth : NthElement (ℕ ×ₗ ℕ)) {validationSplit : Int} {data : TrainerData}

/-- The split moves `size + 1` pairs for some `size`, if there is one to move. -/
theorem splitData_eq (positive : 0 < validationSplit)
    (enough : validationSplit ≤ data.trainingData.length) :
    ∃ size, size + 1 = data.trainingData.length / validationSplit.toNat ∧
      size + 1 ≤ data.trainingData.length ∧
      splitData nth validationSplit data =
        { trainingData := withFlag data.trainingData
            (isValidation nth data.trainingData (size + 1)) false
          validationData := data.validationData ++ withFlag data.trainingData
            (isValidation nth data.trainingData (size + 1)) true } := by
  have moves : 0 < data.trainingData.length / validationSplit.toNat :=
    Nat.div_pos (by omega) (by omega)
  obtain ⟨size, is⟩ := Nat.exists_eq_succ_of_ne_zero moves.ne'
  refine ⟨size, is.symm, is.symm.trans_le (Nat.div_le_self ..), ?_⟩
  unfold splitData
  dsimp only
  rw [if_neg (by omega), if_neg moves.ne', is]

/-- Which pairs are moved is decided by their ranks. -/
theorem moved_perm (nth' : NthElement (ℕ ×ₗ ℕ)) {pairs pairs' : List ConversationPair}
    (reordered : pairs'.Perm pairs) {size : ℕ} (inside : size + 1 ≤ pairs.length)
    (distinct : ∀ p ∈ pairs, ∀ q ∈ pairs, splitRank p = splitRank q → p = q) :
    (withFlag pairs' (isValidation nth' pairs' (size + 1)) true).Perm
      (withFlag pairs (isValidation nth pairs (size + 1)) true) := by
  obtain ⟨front, back, parts, length, lower, moved, -⟩ := exists_parts nth pairs inside
  obtain ⟨front', back', parts', length', lower', moved', -⟩ :=
    exists_parts nth' pairs' (reordered.length_eq.symm ▸ inside)
  have whole := parts.map Prod.fst
  have whole' := parts'.map Prod.fst
  rw [List.map_append, List.zipIdx_map_fst] at whole whole'
  refine moved'.trans (.trans ?_ moved.symm)
  refine @lowest_perm _ _ _ (fun pair => (splitRank pair).toNat) _ _ _ _
    (whole'.trans (reordered.trans whole.symm)) ?_ ?_ ?_ ?_
  · rw [List.length_map, List.length_map, length, length']
  · exact List.forall_mem_map.mpr fun x first => List.forall_mem_map.mpr (lower' x first)
  · exact List.forall_mem_map.mpr fun x first => List.forall_mem_map.mpr (lower x first)
  · intro p first q second equal
    have all := whole'.trans reordered
    exact distinct p (all.mem_iff.mp first) q (all.mem_iff.mp second) (UInt64.toNat.inj equal)

end Split

/-- With at least as many pairs as `validation_split`, which is positive, their number over it
is moved, rounded down; the moved and the left pairs are in load order, and none is lost or
duplicated. If different pairs have different ranks, the load order and how the partial sort
orders do not decide which are moved. -/
theorem validation_split_stable (nth nth' : NthElement (ℕ ×ₗ ℕ)) {validationSplit : Int}
    {data : TrainerData} (positive : 0 < validationSplit)
    (enough : validationSplit ≤ data.trainingData.length) :
    let after := splitData nth validationSplit data
    (∃ moved, after.validationData = data.validationData ++ moved ∧
      (moved.length : Int) = data.trainingData.length / validationSplit ∧
      moved.Sublist data.trainingData ∧ after.trainingData.Sublist data.trainingData ∧
      (moved ++ after.trainingData).Perm data.trainingData) ∧
    ∀ trainingData' : List ConversationPair, trainingData'.Perm data.trainingData →
      (∀ p ∈ data.trainingData, ∀ q ∈ data.trainingData, splitRank p = splitRank q → p = q) →
        (splitData nth' validationSplit ⟨trainingData', data.validationData⟩).validationData.Perm
          after.validationData := by
  obtain ⟨size, divided, inside, after⟩ := splitData_eq nth positive enough
  rw [after]
  refine ⟨⟨_, rfl, ?_, withFlag_sublist .., withFlag_sublist .., ?_⟩, ?_⟩
  · obtain ⟨front, -, -, length, -, moved, -⟩ := exists_parts nth data.trainingData inside
    rw [moved.length_eq, List.length_map, length, divided, Int.natCast_ediv,
      Int.toNat_of_nonneg positive.le]
  · obtain ⟨front, back, parts, -, -, moved, left⟩ := exists_parts nth data.trainingData inside
    refine (moved.append left).trans ?_
    have whole := parts.map Prod.fst
    rwa [List.map_append, List.zipIdx_map_fst] at whole
  · intro trainingData' reordered distinct
    have enough' : validationSplit ≤
        (⟨trainingData', data.validationData⟩ : TrainerData).trainingData.length :=
      reordered.length_eq.symm ▸ enough
    obtain ⟨size', divided', -, after'⟩ := splitData_eq nth' positive enough'
    have same : size' = size := by
      have := reordered.length_eq
      simp only [this] at divided'
      omega
    rw [after', same]
    exact (moved_perm nth nth' reordered inside distinct).append_left data.validationData

def threePairs : TrainerData where
  trainingData := [⟨[0x61], [], {}⟩, ⟨[0x62], [], {}⟩, ⟨[0x63], [], {}⟩]

theorem validation_split_stable_one :
    (splitData (.sorted _) 2 threePairs).validationData.length = 1 := by
  obtain ⟨⟨moved, after, size, -⟩, -⟩ := validation_split_stable (.sorted _) (.sorted _)
    (by decide : (0 : Int) < 2) (by decide : (2 : Int) ≤ threePairs.trainingData.length)
  rw [after]
  exact Int.ofNat.inj size

end Adai.Samples
