import Mathlib.Data.List.Basic
import Mathlib.Order.Defs.Unbundled

/-! # Sorted maps

A map as the list of its entries in the order of their keys, each key once. Inserting an
entry replaces the one with its key (`SortedMap.mem_insert`), so a map that is filled
with entries whose keys differ consists of these entries (`SortedMap.mem_ofList`).
-/

variable {κ υ : Type} [LT κ] [DecidableLT κ] [DecidableEq κ]

namespace SortedEntries

def insert (k : κ) (v : υ) : List (κ × υ) → List (κ × υ)
  | [] => [(k, v)]
  | entry :: rest =>
      if k = entry.1 then (k, v) :: rest
      else if k < entry.1 then (k, v) :: entry :: rest
      else entry :: insert k v rest

def Sorted (entries : List (κ × υ)) : Prop := entries.Pairwise fun a b => a.1 < b.1

variable {k k' : κ} {v v' : υ} {entries : List (κ × υ)}

theorem of_mem_insert (member : (k', v') ∈ insert k v entries) :
    (k' = k ∧ v' = v) ∨ (k', v') ∈ entries := by
  induction entries with
  | nil => exact .inl (Prod.mk.inj (List.mem_singleton.mp member))
  | cons entry rest ih =>
      rw [insert] at member
      split_ifs at member with same before
      · rcases List.mem_cons.mp member with new | old
        · exact .inl (Prod.mk.inj new)
        · exact .inr (List.mem_cons_of_mem _ old)
      · exact (List.mem_cons.mp member).imp_left Prod.mk.inj
      · rcases List.mem_cons.mp member with first | later
        · exact .inr (List.mem_cons.mpr (.inl first))
        · exact (ih later).imp_right (List.mem_cons_of_mem _)

variable [IsTrans κ fun a b => a < b]

theorem insert_sorted [Std.Trichotomous fun a b : κ => a < b] (sorted : Sorted entries) :
    Sorted (insert k v entries) := by
  induction entries with
  | nil => exact List.pairwise_singleton _ _
  | cons entry rest ih =>
      obtain ⟨below, later⟩ := List.pairwise_cons.mp sorted
      rw [insert]
      split_ifs with same before
      · exact List.pairwise_cons.mpr ⟨fun other member => same ▸ below other member, later⟩
      · refine List.pairwise_cons.mpr ⟨fun other member => ?_, sorted⟩
        rcases List.mem_cons.mp member with rfl | further
        · exact before
        · exact Trans.trans before (below other further)
      · have after : entry.1 < k :=
          (trichotomous_of (· < ·) k entry.1).resolve_left before |>.resolve_left same
        refine List.pairwise_cons.mpr ⟨fun other member => ?_, ih later⟩
        have inside : (other.1, other.2) ∈ insert k v rest := member
        rcases of_mem_insert inside with ⟨isKey, -⟩ | further
        · rw [isKey]
          exact after
        · exact below other further

theorem mem_insert [Std.Irrefl fun a b : κ => a < b] (sorted : Sorted entries) :
    (k', v') ∈ insert k v entries ↔ (k' = k ∧ v' = v) ∨ (k' ≠ k ∧ (k', v') ∈ entries) := by
  induction entries with
  | nil => simp [insert]
  | cons entry rest ih =>
      have ne_of_below {a b : κ} (below : a < b) : b ≠ a := fun same =>
        irrefl_of (· < ·) a (same ▸ below)
      obtain ⟨below, later⟩ := List.pairwise_cons.mp sorted
      have within := ih later
      rw [insert]
      split_ifs with same before
      · rw [List.mem_cons, List.mem_cons, Prod.mk.injEq]
        refine or_congr_right ⟨fun member => ⟨?_, .inr member⟩, fun other => ?_⟩
        · exact same ▸ ne_of_below (below _ member)
        · refine other.2.resolve_left fun first => other.1 ?_
          rw [same, ← first]
      · rw [List.mem_cons, Prod.mk.injEq]
        refine or_congr_right ⟨fun member => ⟨?_, member⟩, fun other => other.2⟩
        rcases List.mem_cons.mp member with first | further
        · rw [← first] at before
          exact ne_of_below before
        · exact ne_of_below (Trans.trans before (below _ further))
      · rw [List.mem_cons, within, List.mem_cons]
        refine ⟨?_, ?_⟩
        · rintro (first | new | ⟨apart, member⟩)
          · refine .inr ⟨fun isKey => same ?_, .inl first⟩
            rw [← isKey, ← first]
          · exact .inl new
          · exact .inr ⟨apart, .inr member⟩
        · rintro (new | ⟨apart, first | member⟩)
          · exact .inr (.inl new)
          · exact .inl first
          · exact .inr (.inr ⟨apart, member⟩)

end SortedEntries

open SortedEntries

structure SortedMap (κ υ : Type) [LT κ] where
  entries : List (κ × υ)
  sorted : Sorted entries

namespace SortedMap

def empty : SortedMap κ υ := ⟨[], List.Pairwise.nil⟩

variable [Std.Trichotomous fun a b : κ => a < b] [IsTrans κ fun a b => a < b]

def insert (m : SortedMap κ υ) (k : κ) (v : υ) : SortedMap κ υ :=
  ⟨SortedEntries.insert k v m.entries, insert_sorted m.sorted⟩

/-- The map filled with the entries, one after the other. -/
def ofList (entries : List (κ × υ)) : SortedMap κ υ :=
  entries.foldl (fun m entry => m.insert entry.1 entry.2) empty

variable [Std.Irrefl fun a b : κ => a < b] {m : SortedMap κ υ} {k k' : κ} {v v' : υ}

theorem mem_insert :
    (k', v') ∈ (m.insert k v).entries ↔ (k' = k ∧ v' = v) ∨ (k' ≠ k ∧ (k', v') ∈ m.entries) :=
  SortedEntries.mem_insert m.sorted

theorem mem_foldl_insert {entries : List (κ × υ)} (distinct : (entries.map Prod.fst).Nodup) :
    (k, v) ∈ (entries.foldl (fun m entry => m.insert entry.1 entry.2) m).entries ↔
      (k, v) ∈ entries ∨ (k ∉ entries.map Prod.fst ∧ (k, v) ∈ m.entries) := by
  induction entries generalizing m with
  | nil => simp
  | cons entry rest ih =>
      rw [List.map_cons, List.nodup_cons] at distinct
      rw [List.foldl_cons, ih distinct.2, mem_insert, List.mem_cons, List.map_cons, List.mem_cons,
        not_or]
      constructor
      · rintro (later | ⟨absent, ⟨rfl, rfl⟩ | ⟨apart, member⟩⟩)
        · exact .inl (.inr later)
        · exact .inl (.inl rfl)
        · exact .inr ⟨⟨apart, absent⟩, member⟩
      · rintro ((rfl | later) | ⟨⟨apart, absent⟩, member⟩)
        · exact .inr ⟨distinct.1, .inl ⟨rfl, rfl⟩⟩
        · exact .inl later
        · exact .inr ⟨absent, .inr ⟨apart, member⟩⟩

/-- A map filled with entries whose keys differ has these entries. -/
theorem mem_ofList {entries : List (κ × υ)} (distinct : (entries.map Prod.fst).Nodup) :
    (k, v) ∈ (ofList entries).entries ↔ (k, v) ∈ entries := by
  rw [ofList, mem_foldl_insert distinct]
  exact or_iff_left fun old => List.not_mem_nil old.2

end SortedMap
