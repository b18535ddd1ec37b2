import Mathlib.Data.List.AList

/-! # Tables

Hash tables as association lists: counting items, walking a table in an order
that is not known, and a pair of tables that number names from 0 on without a gap
(`Tables.Numbered`), which stays so when a new name gets the table's size as its
number (`Tables.Numbered.insert`).
-/

namespace Tables

abbrev Table (κ υ : Type*) := AList fun _ : κ => υ

/-- The order in which a hash table is walked: any that visits each entry once. -/
structure HashOrder where
  walk : {ε : Type} → List ε → List ε
  perm : ∀ {ε : Type} (entries : List ε), (walk entries).Perm entries

@[simp] theorem HashOrder.mem_walk (order : HashOrder) {ε : Type} {entries : List ε} {e : ε} :
    e ∈ order.walk entries ↔ e ∈ entries :=
  (order.perm entries).mem_iff

/-- The entries as they were inserted, the last one first. -/
def HashOrder.listed : HashOrder := ⟨fun entries => entries, fun _ => .refl _⟩

/-- The entries as they were inserted, the first one first. -/
def HashOrder.inserted : HashOrder := ⟨fun entries => entries.reverse, List.reverse_perm⟩

variable {κ υ : Type*} [DecidableEq κ]

/-! ## Counting -/

/-- How often each item occurs. -/
def tally (items : List κ) : Table κ Nat :=
  items.foldl (fun counts k => counts.insert k ((counts.lookup k).getD 0 + 1)) ∅

theorem mem_of_mem_tally {items : List κ} {k : κ} (member : k ∈ tally items) : k ∈ items := by
  suffices grown : ∀ counts : Table κ Nat,
      k ∈ items.foldl (fun counts k => counts.insert k ((counts.lookup k).getD 0 + 1)) counts →
        k ∈ counts ∨ k ∈ items from (grown ∅ member).resolve_left (AList.notMem_empty k)
  clear member
  induction items with
  | nil => exact fun counts member => .inl member
  | cons item rest ih =>
      intro counts member
      rcases ih _ member with before | later
      · rcases (AList.mem_insert counts).mp before with rfl | earlier
        · exact .inr List.mem_cons_self
        · exact .inl earlier
      · exact .inr (List.mem_cons_of_mem _ later)

theorem lookup_tally [BEq κ] [LawfulBEq κ] (items : List κ) (k : κ) :
    (tally items).lookup k = if k ∈ items then some (items.count k) else none := by
  suffices grown : ∀ counts : Table κ Nat,
      (items.foldl (fun counts k => counts.insert k ((counts.lookup k).getD 0 + 1)) counts).lookup k =
        if k ∈ items then some ((counts.lookup k).getD 0 + items.count k) else counts.lookup k by
    rw [tally, grown, AList.lookup_empty, Option.getD_none, Nat.zero_add]
  induction items with
  | nil => exact fun counts => rfl
  | cons item rest ih =>
      intro counts
      rw [List.foldl_cons, ih]
      by_cases here : k = item
      · subst here
        rw [AList.lookup_insert, if_pos List.mem_cons_self, List.count_cons_self]
        split
        · rw [Option.getD_some]
          congr 1
          omega
        · rename_i absent
          rw [List.count_eq_zero.mpr absent]
      · have other : (item == k) = false := beq_false_of_ne (Ne.symm here)
        rw [AList.lookup_insert_ne here, List.count_cons, other]
        simp only [List.mem_cons, here, false_or, Bool.false_eq_true, ↓reduceIte, Nat.add_zero]

/-- The entries of a count are the items, each with how often it occurs. -/
theorem mem_entries_tally [BEq κ] [LawfulBEq κ] {items : List κ} {k : κ} {n : Nat} :
    ⟨k, n⟩ ∈ (tally items).entries ↔ k ∈ items ∧ items.count k = n := by
  rw [← AList.mem_lookup_iff, Option.mem_def, lookup_tally]
  by_cases listed : k ∈ items <;> simp [listed]

omit [DecidableEq κ] in
theorem nodup_entries (table : Table κ υ) : table.entries.Nodup :=
  table.keys_nodup.of_map

/-- Counting does not depend on the order of the items, nor walking on that of the
table. -/
theorem perm_walk_tally {κ : Type} [DecidableEq κ] {items items' : List κ}
    (perm : items.Perm items') (order order' : HashOrder) :
    (order.walk (tally items).entries).Perm (order'.walk (tally items').entries) := by
  have same : (tally items).entries.Perm (tally items').entries := by
    rw [List.perm_ext_iff_of_nodup (nodup_entries _) (nodup_entries _)]
    rintro ⟨k, n⟩
    rw [mem_entries_tally, mem_entries_tally, perm.mem_iff, perm.count_eq]
  exact (order.perm _).trans (same.trans (order'.perm _).symm)

omit [DecidableEq κ] in
theorem mem_of_mem_entries {table : Table κ υ} {entry : Σ _ : κ, υ}
    (member : entry ∈ table.entries) : entry.1 ∈ table :=
  AList.mem_keys.mpr (List.mem_map_of_mem member)

theorem mem_of_lookup {table : Table κ υ} {k : κ} {v : υ} (found : table.lookup k = some v) :
    k ∈ table :=
  AList.lookup_isSome.mp (Option.isSome_of_eq_some found)

/-- Of two names one is looked up, the other one is inserted. -/
theorem lookup_insert_eq (table : Table κ υ) (k k' : κ) (v : υ) :
    (table.insert k v).lookup k' = if k' = k then some v else table.lookup k' := by
  by_cases same : k' = k
  · rw [if_pos same, same, AList.lookup_insert]
  · rw [if_neg same, AList.lookup_insert_ne same]

/-- The entries of a list are inserted from left to right. -/
def insertAll (pairs : List (κ × υ)) (table : Table κ υ) : Table κ υ :=
  pairs.foldl (fun table pair => table.insert pair.1 pair.2) table

theorem lookup_insertAll_of_notMem {pairs : List (κ × υ)} {k : κ}
    (absent : k ∉ pairs.map Prod.fst) (table : Table κ υ) :
    (insertAll pairs table).lookup k = table.lookup k := by
  induction pairs generalizing table with
  | nil => rfl
  | cons pair rest ih =>
      obtain ⟨other, later⟩ := not_or.mp (List.mem_cons.not.mp absent)
      rw [insertAll, List.foldl_cons]
      refine (ih later _).trans ?_
      rw [AList.lookup_insert_ne other]

theorem lookup_insertAll_of_mem {pairs : List (κ × υ)} (distinct : (pairs.map Prod.fst).Nodup)
    {k : κ} {v : υ} (member : (k, v) ∈ pairs) (table : Table κ υ) :
    (insertAll pairs table).lookup k = some v := by
  induction pairs generalizing table with
  | nil => cases member
  | cons pair rest ih =>
      obtain ⟨apart, distinct⟩ := List.nodup_cons.mp distinct
      rw [insertAll, List.foldl_cons]
      rcases List.mem_cons.mp member with rfl | later
      · exact (lookup_insertAll_of_notMem apart _).trans (AList.lookup_insert table)
      · exact ih distinct later _

/-- A table is rebuilt from its entries, listed in any order. -/
theorem lookup_insertAll_eq {pairs : List (κ × υ)} (distinct : (pairs.map Prod.fst).Nodup)
    {lookup : κ → Option υ} (listed : ∀ k v, (k, v) ∈ pairs ↔ lookup k = some v) (k : κ) :
    (insertAll pairs ∅).lookup k = lookup k := by
  cases found : lookup k with
  | some v => exact lookup_insertAll_of_mem distinct ((listed k v).mpr found) ∅
  | none =>
      refine lookup_insertAll_of_notMem (fun member => ?_) ∅
      obtain ⟨⟨_, v⟩, inside, rfl⟩ := List.mem_map.mp member
      rw [(listed _ v).mp inside] at found
      cases found

theorem insertAll_append (pairs pairs' : List (κ × υ)) (table : Table κ υ) :
    insertAll (pairs ++ pairs') table = insertAll pairs' (insertAll pairs table) :=
  List.foldl_append

theorem lookup_insertAll_congr (pairs : List (κ × υ)) {table table' : Table κ υ}
    (same : ∀ k, table.lookup k = table'.lookup k) (k : κ) :
    (insertAll pairs table).lookup k = (insertAll pairs table').lookup k := by
  induction pairs generalizing table table' with
  | nil => exact same k
  | cons pair rest ih =>
      apply ih
      intro k'
      rw [lookup_insert_eq, lookup_insert_eq, same]

/-- Inserting what is there already changes no lookup. -/
theorem lookup_insert_same {table : Table κ υ} {k : κ} {v : υ} (there : table.lookup k = some v)
    (k' : κ) : (table.insert k v).lookup k' = table.lookup k' := by
  rw [lookup_insert_eq]
  split
  · rename_i same
    rw [same, there]
  · rfl

/-! ## Choosing -/

section Choosing

variable {ε : Type*} (beats : ε → ε → Prop) [DecidableRel beats]

/-- The better of two entries, the first one if neither is. -/
def choose (best it : ε) : ε := if beats it best then it else best

variable [IsStrictTotalOrder ε beats]

/-- Going through the entries finds one that no other beats. -/
theorem foldl_choose (best : ε) (rest : List ε) :
    rest.foldl (choose beats) best ∈ best :: rest ∧
      ∀ x ∈ best :: rest, ¬beats x (rest.foldl (choose beats) best) := by
  induction rest generalizing best with
  | nil =>
      refine ⟨List.mem_singleton_self _, fun x member => ?_⟩
      rw [List.mem_singleton.mp member]
      exact irrefl best
  | cons it rest ih =>
      obtain ⟨member, unbeaten⟩ := ih (choose beats best it)
      rw [List.foldl_cons]
      generalize rest.foldl (choose beats) (choose beats best it) = chosen at member unbeaten ⊢
      have later (x : ε) (listed : x ∈ rest) : ¬beats x chosen :=
        unbeaten x (List.mem_cons_of_mem _ listed)
      have first : ¬beats (choose beats best it) chosen := unbeaten _ List.mem_cons_self
      unfold choose at member first
      by_cases better : beats it best
      · rw [if_pos better] at member first
        refine ⟨List.mem_cons_of_mem _ member, fun x listed => ?_⟩
        rcases List.mem_cons.mp listed with rfl | listed
        · exact fun beaten => first (trans_of beats better beaten)
        · rcases List.mem_cons.mp listed with rfl | listed
          · exact first
          · exact later x listed
      · rw [if_neg better] at member first
        refine ⟨?_, fun x listed => ?_⟩
        · rcases List.mem_cons.mp member with rfl | listed
          · exact List.mem_cons_self
          · exact List.mem_cons_of_mem _ (List.mem_cons_of_mem _ listed)
        · rcases List.mem_cons.mp listed with rfl | listed
          · exact first
          · rcases List.mem_cons.mp listed with rfl | listed
            · intro beaten
              rcases trichotomous_of beats x best with more | rfl | less
              · exact better more
              · exact first beaten
              · exact first (trans_of beats less beaten)
            · exact later x listed

/-- The choice does not depend on the order of the entries. -/
theorem foldl_choose_perm {best best' : ε} {rest rest' : List ε}
    (perm : (best :: rest).Perm (best' :: rest')) :
    rest.foldl (choose beats) best = rest'.foldl (choose beats) best' := by
  obtain ⟨member, unbeaten⟩ := foldl_choose beats best rest
  obtain ⟨member', unbeaten'⟩ := foldl_choose beats best' rest'
  rcases trichotomous_of beats (rest.foldl (choose beats) best)
    (rest'.foldl (choose beats) best') with more | same | less
  · exact absurd more (unbeaten' _ (perm.mem_iff.mp member))
  · exact same
  · exact absurd less (unbeaten _ (perm.mem_iff.mpr member'))

end Choosing

/-! ## Taking out -/

theorem lookup_erase_eq (table : Table κ υ) (k k' : κ) :
    (table.erase k).lookup k' = if k' = k then none else table.lookup k' := by
  by_cases same : k' = k
  · rw [if_pos same, same, AList.lookup_erase]
  · rw [if_neg same, AList.lookup_erase_ne same]

/-- The entries that do not hold a value. -/
def dropValue [DecidableEq υ] (v : υ) (table : Table κ υ) : Table κ υ where
  entries := table.entries.filter fun entry => entry.2 ≠ v
  nodupKeys := table.nodupKeys.sublist List.filter_sublist

theorem lookup_dropValue [DecidableEq υ] (v : υ) (table : Table κ υ) (k : κ) :
    (dropValue v table).lookup k = (table.lookup k).filter fun v' => v' ≠ v := by
  ext v'
  have member : ⟨k, v'⟩ ∈ (dropValue v table).entries ↔ ⟨k, v'⟩ ∈ table.entries ∧ v' ≠ v := by
    simp [dropValue]
  rw [← Option.mem_def, AList.mem_lookup_iff, member, ← AList.mem_lookup_iff]
  simp [Option.filter_eq_some_iff]

/-! ## Numbering -/

def size (table : Table κ υ) : Nat := table.entries.length

theorem size_insert {table : Table κ υ} {k : κ} (fresh : k ∉ table) (v : υ) :
    size (table.insert k v) = size table + 1 := by
  rw [size, AList.entries_insert_of_notMem fresh]
  rfl

theorem size_insert_le (table : Table κ υ) (k : κ) (v : υ) :
    size (table.insert k v) ≤ size table + 1 := by
  rw [size, AList.entries_insert, List.length_cons]
  exact Nat.succ_le_succ (List.kerase_sublist k table.entries).length_le

theorem size_le_size_insert (table : Table κ υ) (k : κ) (v : υ) :
    size table ≤ size (table.insert k v) := by
  rw [size, size, AList.entries_insert, List.length_cons, List.kerase, List.length_eraseP]
  split <;> omega

/-- Tables with the same lookups have the same size. -/
theorem size_congr {table table' : Table κ υ}
    (same : ∀ k, table.lookup k = table'.lookup k) : size table = size table' := by
  have keys : table.keys.Perm table'.keys := by
    rw [List.perm_ext_iff_of_nodup table.keys_nodup table'.keys_nodup]
    intro k
    rw [← AList.mem_keys, ← AList.mem_keys, ← AList.lookup_isSome, ← AList.lookup_isSome, same]
  have lengths := keys.length_eq
  simpa only [size, AList.keys, List.keys, List.length_map] using lengths

/-- The numbers are those below the table's size, and each is given once. -/
structure Numbered (ids : Table κ Int) (names : Table Int κ) : Prop where
  inverse : ∀ k id, ids.lookup k = some id ↔ names.lookup id = some k
  range : ∀ id, (∃ k, ids.lookup k = some id) ↔ 0 ≤ id ∧ id < size ids

namespace Numbered

variable {ids : Table κ Int} {names : Table Int κ}

theorem empty : Numbered (∅ : Table κ Int) ∅ where
  inverse k id := by simp
  range id := by
    simp only [AList.lookup_empty, reduceCtorEq, exists_false, false_iff, size,
      AList.empty_entries, List.length_nil]
    omega

/-- The table's size is the next number. -/
theorem insert (numbered : Numbered ids names) {k : κ} (fresh : k ∉ ids) :
    Numbered (ids.insert k (size ids)) (names.insert (size ids) k) where
  inverse k' id := by
    rw [lookup_insert_eq, lookup_insert_eq]
    by_cases name : k' = k
    · subst name
      by_cases number : id = size ids
      · simp [number]
      · rw [if_pos rfl, if_neg number, ← numbered.inverse]
        have unknown := AList.lookup_eq_none.mpr fresh
        simp [unknown, Ne.symm number]
    · by_cases number : id = size ids
      · subst number
        rw [if_neg name, if_pos rfl]
        refine iff_of_false (fun found => ?_) (fun same => name (Option.some.inj same).symm)
        exact absurd ((numbered.range _).mp ⟨k', found⟩).2 (by omega)
      · rw [if_neg name, if_neg number, numbered.inverse]
  range id := by
    rw [size_insert fresh]
    constructor
    · rintro ⟨k', found⟩
      rw [lookup_insert_eq] at found
      split at found
      · have same := Option.some.inj found
        omega
      · have bounds := (numbered.range id).mp ⟨k', found⟩
        omega
    · intro bounds
      by_cases number : id = size ids
      · exact ⟨k, by rw [lookup_insert_eq, if_pos rfl, number]⟩
      · obtain ⟨k', found⟩ := (numbered.range id).mpr (by omega)
        refine ⟨k', ?_⟩
        rw [lookup_insert_eq, if_neg, found]
        rintro rfl
        exact fresh (mem_of_lookup found)

end Numbered

end Tables
