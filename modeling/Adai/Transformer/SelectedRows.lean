import Adai.Transformer.FeedForward
import Adai.Transformer.LayerNorm
import Adai.Transformer.MergeLora

/-! # Layers on some of the rows

Every layer but attention works row by row, so that it commutes with a selection of rows.
Attention does where each selected query may attend to selected keys only
(`Attention.outputOf_restrict`): the other keys have the weight zero, and the softmax over
the selected ones is the same (`softmaxRow_restrict`).
-/

noncomputable section

namespace Adai.Transformer

open Gradients Adai.Transformer.Transcendental

/-! ## Layers that work row by row -/

section RowByRow

variable {K : Type} [Field K] {m n dim : Nat}

theorem Projection.forward_rows {rank : Option Nat} (projection : Projection K dim rank)
    (x : Mat n dim K) (r : Fin m → Fin n) :
    projection.forward (x ∘ r) = projection.forward x ∘ r := by
  cases rank <;> rfl

variable [Transcendental K]

theorem LayerNorm.forward_rows (norm : LayerNorm K dim) (x : Mat n dim K) (r : Fin m → Fin n) :
    (norm.forward (x ∘ r)).2 = (norm.forward x).2 ∘ r :=
  rfl

theorem FeedForward.forward_rows {dFf : Nat} (ff : FeedForward K dim dFf) (x : Mat n dim K)
    (r : Fin m → Fin n) : (ff.forward (x ∘ r)).2 = (ff.forward x).2 ∘ r :=
  rfl

end RowByRow

/-! ## Softmax of some of the scores -/

variable {K : Type} [Field K] [LinearOrder K]

section Restrict

variable {m n : Nat} {e : Fin m → Fin n} {allowed : Fin n → Bool}

theorem filter_restrict (increasing : StrictMono e)
    (inside : ∀ j, allowed j → j ∈ Set.range e) :
    ((List.finRange m).filter (allowed ∘ e)).map e = (List.finRange n).filter allowed := by
  have selected : (((List.finRange m).filter (allowed ∘ e)).map e).Pairwise (· < ·) :=
    ((List.sortedLT_finRange m).pairwise.filter _).map e fun _ _ less => increasing less
  refine selected.eq_of_mem_iff ((List.sortedLT_finRange n).pairwise.filter _) fun j => ?_
  simp only [List.mem_map, List.mem_filter, List.mem_finRange, true_and, Function.comp_apply]
  constructor
  · rintro ⟨i, kept, rfl⟩
    exact kept
  · intro kept
    obtain ⟨i, rfl⟩ := inside j kept
    exact ⟨i, kept, rfl⟩

theorem rowMax_restrict (increasing : StrictMono e)
    (inside : ∀ j, allowed j → j ∈ Set.range e) (row : Fin n → K) :
    rowMax (allowed ∘ e) (row ∘ e) = rowMax allowed row := by
  rw [rowMax, rowMax, ← filter_restrict increasing inside, List.map_map]

variable [Transcendental K]

/-- Scores that are left out are masked ones. -/
theorem softmaxRow_restrict (increasing : StrictMono e)
    (inside : ∀ j, allowed j → j ∈ Set.range e) (row : Fin n → K) :
    softmaxRow (allowed ∘ e) (row ∘ e) = softmaxRow allowed row ∘ e := by
  have sums : (∑ i, if allowed (e i) then exp (row (e i) - rowMax allowed row) else 0) =
      ∑ j, if allowed j then exp (row j - rowMax allowed row) else 0 := by
    refine Fintype.sum_of_injective e increasing.injective _ _ (fun j outside => ?_) fun _ => rfl
    exact if_neg fun kept => outside (inside j kept)
  funext i
  simp only [softmaxRow, rowMax_restrict increasing inside, Function.comp_apply, sums]

theorem softmaxRow_masked (row : Fin n → K) {j : Fin n} (masked : ¬ allowed j) :
    softmaxRow allowed row j = 0 := by
  simp only [softmaxRow, if_neg masked, zero_div, ite_self]

end Restrict

/-! ## Attention -/

section Attention

variable [Transcendental K] {tgt src heads dk : Nat} {ranks : Ranks}

namespace Attention

/-- From queries, keys and values to the output; masked keys get the weight zero. -/
def outputOf (bias mask : Option (Mat tgt src K)) (attention : Attention K heads dk ranks)
    (Q : Mat tgt (heads * dk) K) (K' V : Mat src (heads * dk) K) : Mat tgt (heads * dk) K :=
  attention.o.forward (concatHeads fun h =>
    Mat.mul (headWeights bias mask (splitHeads Q h) (splitHeads K' h)) (splitHeads V h))

theorem attend_eq (bias mask : Option (Mat tgt src K)) (attention : Attention K heads dk ranks)
    (query : Mat tgt (heads * dk) K) (kv : Mat src (heads * dk) K) :
    (attend bias mask attention query kv).2 = outputOf bias mask attention
      (attention.q.forward query) (attention.k.forward kv) (attention.v.forward kv) :=
  rfl

/-- Without a mask every query is treated alike. -/
theorem outputOf_rows {rows : Nat} (bias : Option (Fin src → K))
    (attention : Attention K heads dk ranks) (Q : Mat tgt (heads * dk) K)
    (K' V : Mat src (heads * dk) K) (r : Fin rows → Fin tgt) :
    outputOf (bias.map fun bias _ => bias) none attention (Q ∘ r) K' V =
      outputOf (bias.map fun bias _ => bias) none attention Q K' V ∘ r := by
  rw [outputOf, outputOf, ← Projection.forward_rows]
  cases bias <;> rfl

theorem attend_rows {rows : Nat} (bias : Option (Fin src → K))
    (attention : Attention K heads dk ranks) (query : Mat tgt (heads * dk) K)
    (kv : Mat src (heads * dk) K) (r : Fin rows → Fin tgt) :
    (attend (bias.map fun bias _ => bias) none attention (query ∘ r) kv).2 =
      (attend (bias.map fun bias _ => bias) none attention query kv).2 ∘ r := by
  rw [attend_eq, attend_eq, Projection.forward_rows, outputOf_rows]

variable {rows keys : Nat} {r : Fin rows → Fin tgt} {e : Fin keys → Fin src}

/-- Selected queries and keys, where the queries may attend to no other keys. -/
theorem headWeights_restrict {mask : Mat tgt src K} (increasing : StrictMono e)
    (inside : ∀ i j, mask (r i) j ≠ 0 → j ∈ Set.range e) (q : Mat tgt dk K) (k : Mat src dk K)
    (i : Fin rows) :
    headWeights none (some fun i j => mask (r i) (e j)) (q ∘ r) (k ∘ e) i =
      headWeights none (some mask) q k (r i) ∘ e := by
  let allowed := allowedKeys (some mask) (r i)
  have reached (j : Fin src) (kept : allowed j) : j ∈ Set.range e :=
    inside i j (of_decide_eq_true kept)
  exact softmaxRow_restrict increasing reached fun j =>
    Mat.mul q k.transpose (r i) j * scaleFactor K dk

theorem outputOf_restrict (attention : Attention K heads dk ranks) {mask : Mat tgt src K}
    (increasing : StrictMono e) (inside : ∀ i j, mask (r i) j ≠ 0 → j ∈ Set.range e)
    (Q : Mat tgt (heads * dk) K) (K' V : Mat src (heads * dk) K) :
    outputOf none (some fun i j => mask (r i) (e j)) attention (Q ∘ r) (K' ∘ e) (V ∘ e) =
      outputOf none (some mask) attention Q K' V ∘ r := by
  rw [outputOf, outputOf, ← Projection.forward_rows]
  congr 1
  funext i c
  let h := (finProdFinEquiv.symm c).1
  change ∑ j, headWeights none _ (splitHeads Q h ∘ r) (splitHeads K' h ∘ e) i j *
      splitHeads V h (e j) _ =
    ∑ j, headWeights none (some mask) (splitHeads Q h) (splitHeads K' h) (r i) j * splitHeads V h j _
  rw [headWeights_restrict increasing inside]
  refine Fintype.sum_of_injective e increasing.injective _ _ (fun j outside => ?_) fun _ => rfl
  have masked : ¬ allowedKeys (some mask) (r i) j := fun kept =>
    outside (inside i j (of_decide_eq_true kept))
  rw [headWeights, softmaxRow_masked _ masked, zero_mul]

end Attention

end Attention

end Adai.Transformer

end
