import Adai.Registry.Server

/-! # What the passes do to the queue

The passes over the pending queue are of three kinds. A rewriting pass keeps the
units of the entries, in order, and changes each entry in a stated way
(`Adai.Registry.Rewritten`); a removing pass keeps a sublist; an adding pass
appends unclaimed entries of units that were not queued
(`Adai.Registry.Enqueued`). Each keeps the queue free of two entries for one
unit.
-/

namespace Adai.Registry

/-- No two pending entries name one unit. -/
def Distinct (pending : List PendingEntry) : Prop :=
  (pending.map PendingEntry.unit).Nodup

instance (pending : List PendingEntry) : Decidable (Distinct pending) :=
  inferInstanceAs (Decidable (List.Nodup _))

/-- Distinct units are entries no two of which pass the identity check. -/
theorem distinct_iff_pairwise (pending : List PendingEntry) :
    Distinct pending ↔ pending.Pairwise fun e e' =>
      segmentMatches e e'.path e'.segmentStart e'.segmentCount = false := by
  unfold Distinct List.Nodup
  rw [List.pairwise_map]
  apply iff_of_eq
  congr 1
  funext e e'
  rw [← Bool.not_eq_true, segmentMatches_iff]
  rfl

/-- In a queue of distinct units an entry is known by its unit. -/
theorem Distinct.eq_of_unit {pending : List PendingEntry} (distinct : Distinct pending)
    {e e' : PendingEntry} (member : e ∈ pending) (member' : e' ∈ pending)
    (same : e'.unit = e.unit) : e' = e :=
  List.inj_on_of_nodup_map distinct member' member same

theorem Distinct.sublist {old new : List PendingEntry} (distinct : Distinct old)
    (sub : new.Sublist old) : Distinct new :=
  List.Nodup.sublist (sub.map _) distinct

/-! ## Rewriting passes -/

/-- The new queue holds the old units in order, each entry changed as stated. -/
def Rewritten (change : PendingEntry → PendingEntry → Prop) :
    List PendingEntry → List PendingEntry → Prop :=
  List.Forall₂ fun e e' => e'.unit = e.unit ∧ change e e'

section Rewritten

variable {change other : PendingEntry → PendingEntry → Prop} {old new : List PendingEntry}

theorem Rewritten.units (rewritten : Rewritten change old new) :
    new.map PendingEntry.unit = old.map PendingEntry.unit := by
  induction rewritten with
  | nil => rfl
  | cons head _ ih => simp only [List.map_cons, head.1, ih]

theorem Rewritten.distinct (rewritten : Rewritten change old new) (distinct : Distinct old) :
    Distinct new := by
  unfold Distinct
  rw [rewritten.units]
  exact distinct

theorem Rewritten.imp (rewritten : Rewritten change old new)
    (weaker : ∀ e e', change e e' → other e e') : Rewritten other old new :=
  List.Forall₂.imp (fun e e' kept => ⟨kept.1, weaker e e' kept.2⟩) rewritten

/-- Every new entry comes from an old one. -/
theorem Rewritten.origin (rewritten : Rewritten change old new) {e' : PendingEntry}
    (member : e' ∈ new) : ∃ e ∈ old, e'.unit = e.unit ∧ change e e' := by
  induction rewritten with
  | nil => cases member
  | @cons e first _ _ head _ ih =>
      rcases List.mem_cons.mp member with rfl | later
      · exact ⟨e, List.mem_cons_self, head⟩
      · obtain ⟨source, present, kept⟩ := ih later
        exact ⟨source, List.mem_cons_of_mem _ present, kept⟩

/-- An entry and its rewriting, matched by unit, are related by the change. -/
theorem Rewritten.changed (rewritten : Rewritten change old new) (distinct : Distinct old)
    {e e' : PendingEntry} (member : e ∈ old) (member' : e' ∈ new) (same : e'.unit = e.unit) :
    change e e' := by
  obtain ⟨source, present, unit, kept⟩ := rewritten.origin member'
  have identified : source = e := distinct.eq_of_unit member present (unit.symm.trans same)
  exact identified ▸ kept

theorem Rewritten.refl (reflexive : ∀ e, change e e) (pending : List PendingEntry) :
    Rewritten change pending pending :=
  List.forall₂_same.mpr fun e _ => ⟨rfl, reflexive e⟩

theorem Rewritten.trans {third : List PendingEntry}
    (transitive : ∀ e e' e'', change e e' → change e' e'' → change e e'')
    (first : Rewritten change old new) (second : Rewritten change new third) :
    Rewritten change old third := by
  induction first generalizing third with
  | nil => cases second; exact .nil
  | cons head _ ih =>
      cases second with
      | cons next rest =>
          exact .cons ⟨next.1.trans head.1, transitive _ _ _ head.2 next.2⟩ (ih rest)

theorem Rewritten.of_map {update : PendingEntry → PendingEntry}
    (units : ∀ e, (update e).unit = e.unit) (changes : ∀ e, change e (update e))
    (pending : List PendingEntry) : Rewritten change pending (pending.map update) := by
  induction pending with
  | nil => exact .nil
  | cons e rest ih => exact .cons ⟨units e, changes e⟩ ih

end Rewritten

/-- A claiming pass leaves an entry alone or gives it to the run. -/
theorem claimLoop_rewritten (runId : String) (now : Int) (claimable deliverable : PendingEntry → Bool)
    (limit : Int) (entries : List PendingEntry) (taken : Nat) :
    Rewritten
      (fun e e' => e' = e ∨
        (claimable e = true ∧ e' = { e with runId := runId, claimedUnix := now }))
      entries (claimLoop runId now claimable deliverable limit entries taken).entries := by
  induction entries generalizing taken with
  | nil => exact .nil
  | cons e rest ih =>
      unfold claimLoop
      by_cases wanted : claimable e && decide ((taken : Int) < limit)
      · by_cases sent : deliverable e
        · simp only [wanted, sent, ↓reduceIte]
          exact .cons ⟨rfl, .inr ⟨(Bool.and_eq_true_iff.mp wanted).1, rfl⟩⟩ (ih _)
        · simp only [wanted, sent, ↓reduceIte, Bool.false_eq_true]
          exact .cons ⟨rfl, .inl rfl⟩ (ih _)
      · simp only [wanted, ↓reduceIte, Bool.false_eq_true]
        exact .cons ⟨rfl, .inl rfl⟩ (ih _)

/-- What a claiming pass hands out are entries that could be claimed. -/
theorem claimLoop_acquired {runId : String} {now : Int} {claimable deliverable : PendingEntry → Bool}
    {limit : Int} {entries : List PendingEntry} {taken : Nat} {a : PendingEntry}
    (member : a ∈ (claimLoop runId now claimable deliverable limit entries taken).acquired) :
    ∃ e ∈ entries, claimable e = true ∧ a = { e with runId := runId, claimedUnix := now } := by
  induction entries generalizing taken with
  | nil => cases member
  | cons e rest ih =>
      have later : ∀ taken',
          a ∈ (claimLoop runId now claimable deliverable limit rest taken').acquired →
            ∃ e' ∈ e :: rest, claimable e' = true ∧
              a = { e' with runId := runId, claimedUnix := now } := by
        intro taken' passed
        obtain ⟨e', present, claimed⟩ := ih passed
        exact ⟨e', List.mem_cons_of_mem _ present, claimed⟩
      unfold claimLoop at member
      by_cases wanted : claimable e && decide ((taken : Int) < limit)
      · by_cases sent : deliverable e
        · simp only [wanted, sent, ↓reduceIte] at member
          rcases List.mem_cons.mp member with first | rest
          · exact ⟨e, List.mem_cons_self, (Bool.and_eq_true_iff.mp wanted).1, first⟩
          · exact later _ rest
        · simp only [wanted, sent, ↓reduceIte, Bool.false_eq_true] at member
          exact later _ member
      · simp only [wanted, ↓reduceIte, Bool.false_eq_true] at member
        exact later _ member

/-- The second entry is the first with another model. -/
def OnlyModelChanges (e e' : PendingEntry) : Prop :=
  e' = { e with modelName := e'.modelName }

theorem OnlyModelChanges.refl (e : PendingEntry) : OnlyModelChanges e e := rfl

theorem OnlyModelChanges.set (e : PendingEntry) (modelName : String) :
    OnlyModelChanges e { e with modelName := modelName } := rfl

theorem OnlyModelChanges.trans {e e' e'' : PendingEntry} (first : OnlyModelChanges e e')
    (second : OnlyModelChanges e' e'') : OnlyModelChanges e e'' := by
  unfold OnlyModelChanges at *
  rw [second, first]

theorem OnlyModelChanges.runId {e e' : PendingEntry} (changes : OnlyModelChanges e e') :
    e'.runId = e.runId := by
  rw [changes]

theorem updateFirst_rewritten {update : PendingEntry → PendingEntry}
    (test : PendingEntry → Bool) (units : ∀ e, (update e).unit = e.unit)
    (changes : ∀ e, OnlyModelChanges e (update e)) (entries : List PendingEntry) :
    Rewritten OnlyModelChanges entries (updateFirst test update entries) := by
  induction entries with
  | nil => exact .nil
  | cons e rest ih =>
      unfold updateFirst
      split
      · exact .cons ⟨units e, changes e⟩ (Rewritten.refl OnlyModelChanges.refl rest)
      · exact .cons ⟨rfl, rfl⟩ ih

theorem assignSegments_rewritten (modelName : String) (targets : List SegmentTarget)
    (entries : List PendingEntry) :
    Rewritten OnlyModelChanges entries (assignSegments modelName targets entries).entries := by
  induction targets generalizing entries with
  | nil => exact Rewritten.refl OnlyModelChanges.refl entries
  | cons t rest ih =>
      exact Rewritten.trans (fun _ _ _ => OnlyModelChanges.trans)
        (@updateFirst_rewritten (fun e => { e with modelName := modelName }) _
          (fun _ => rfl) (fun _ => rfl) entries) (ih _)

theorem assignLoop_rewritten (modelName : String) (paths : List String) (count : Int)
    (entries : List PendingEntry) (assigned : Nat) :
    Rewritten OnlyModelChanges entries
      (assignLoop modelName paths count entries assigned).entries := by
  induction entries generalizing assigned with
  | nil => exact .nil
  | cons e rest ih =>
      unfold assignLoop
      extract_lets byPaths byCount found pass passed
      by_cases full : (byCount && decide (count ≤ (assigned : Int))) = true
      · rw [if_pos full]
        exact Rewritten.refl OnlyModelChanges.refl _
      · rw [if_neg full]
        by_cases matching : found = true
        · rw [if_pos matching]
          exact .cons ⟨rfl, rfl⟩ (ih _)
        · rw [if_neg matching]
          exact .cons ⟨rfl, rfl⟩ (ih _)

theorem assignEntries_rewritten (modelName : String) (paths : List String) (count : Int)
    (segments : List SegmentTarget) (entries : List PendingEntry) :
    Rewritten OnlyModelChanges entries
      (assignEntries modelName paths count segments entries).entries := by
  unfold assignEntries
  split
  · exact assignLoop_rewritten modelName paths count entries 0
  · exact assignSegments_rewritten modelName segments entries

theorem unassignSegments_rewritten (modelName : String) (force : Bool)
    (targets : List SegmentTarget) (entries : List PendingEntry) :
    Rewritten OnlyModelChanges entries
      (unassignSegments modelName force targets entries).entries := by
  induction targets generalizing entries with
  | nil => exact Rewritten.refl OnlyModelChanges.refl entries
  | cons t rest ih =>
      unfold unassignSegments
      extract_lets hit
      split
      · exact ih entries
      · split
        · exact ih entries
        · exact Rewritten.trans (fun _ _ _ => OnlyModelChanges.trans)
            (@updateFirst_rewritten (fun e => { e with modelName := "" }) _
              (fun _ => rfl) (fun _ => rfl) entries) (ih _)

theorem unassignLoop_rewritten (modelName : String) (paths : List String) (force : Bool)
    (entries : List PendingEntry) :
    Rewritten OnlyModelChanges entries (unassignLoop modelName paths force entries).entries := by
  induction entries with
  | nil => exact .nil
  | cons e rest ih =>
      unfold unassignLoop
      extract_lets pass found
      by_cases absent : (!found) = true
      · rw [if_pos absent]
        exact .cons ⟨rfl, rfl⟩ ih
      · rw [if_neg absent]
        by_cases kept : guarded force e = true
        · rw [if_pos kept]
          exact .cons ⟨rfl, rfl⟩ ih
        · rw [if_neg kept]
          exact .cons ⟨rfl, rfl⟩ ih

theorem unassignEntries_rewritten (modelName : String) (paths : List String) (force : Bool)
    (segments : List SegmentTarget) (entries : List PendingEntry) :
    Rewritten OnlyModelChanges entries
      (unassignEntries modelName paths force segments entries).entries := by
  unfold unassignEntries
  split
  · exact unassignLoop_rewritten modelName paths force entries
  · exact unassignSegments_rewritten modelName force segments entries

/-! ## Removing passes -/

theorem deleteTarget_pending_sublist (force deleteFiles : Bool) (unlinked : String → Bool)
    (st : DeletePass) (t : SegmentTarget) :
    (deleteTarget force deleteFiles unlinked st t).pending.Sublist st.pending := by
  have kept : ∀ b : Bool, ∀ test : PendingEntry → Bool,
      (if b then st.pending.eraseP test else st.pending).Sublist st.pending := by
    intro b test
    cases b
    · exact List.Sublist.refl _
    · exact List.eraseP_sublist
  unfold deleteTarget
  extract_lets hit entry blocked registry recordFound moved
  split
  · exact kept _ _
  · split <;> exact kept _ _

theorem deleteTargets_pending_sublist (force deleteFiles : Bool) (unlinked : String → Bool)
    (targets : List SegmentTarget) (pending : List PendingEntry) (registry : List DataVersion) :
    (deleteTargets force deleteFiles unlinked targets pending registry).pending.Sublist
      pending := by
  have fold : ∀ st : DeletePass,
      (targets.foldl (deleteTarget force deleteFiles unlinked) st).pending.Sublist
        st.pending := by
    induction targets with
    | nil => exact fun st => List.Sublist.refl _
    | cons t rest ih =>
        exact fun st => (ih _).trans (deleteTarget_pending_sublist force deleteFiles unlinked st t)
  exact fold _

/-! ## Adding passes -/

/-- The new queue is the old one followed by unclaimed entries, and no unit is
queued twice by it. -/
structure Enqueued (old new : List PendingEntry) : Prop where
  appended : ∃ fresh, new = old ++ fresh ∧ ∀ e ∈ fresh, e.runId = ""
  distinct : Distinct old → Distinct new

theorem Enqueued.refl (pending : List PendingEntry) : Enqueued pending pending :=
  ⟨⟨[], (List.append_nil _).symm, by simp⟩, id⟩

theorem Enqueued.trans {old new newer : List PendingEntry} (first : Enqueued old new)
    (second : Enqueued new newer) : Enqueued old newer := by
  obtain ⟨fresh, rfl, unclaimed⟩ := first.appended
  obtain ⟨later, rfl, unclaimed'⟩ := second.appended
  refine ⟨⟨fresh ++ later, List.append_assoc .., ?_⟩, fun start =>
    second.distinct (first.distinct start)⟩
  intro e member
  rcases List.mem_append.mp member with early | late
  · exact unclaimed e early
  · exact unclaimed' e late

theorem Enqueued.single {old : List PendingEntry} {e : PendingEntry} (unclaimed : e.runId = "")
    (absent : ∀ e' ∈ old, e'.unit ≠ e.unit) : Enqueued old (old ++ [e]) := by
  refine ⟨⟨[e], rfl, by simpa using unclaimed⟩, ?_⟩
  intro distinct
  unfold Distinct
  rw [List.map_append, List.nodup_append]
  refine ⟨distinct, List.nodup_singleton _, ?_⟩
  intro unit member other single
  obtain ⟨e', present, rfl⟩ := List.mem_map.mp member
  have named : other = e.unit := by simpa using single
  rw [named]
  exact absent e' present

/-- No queued entry matches a range exactly when none names its unit. -/
theorem any_segmentMatches_false {pending : List PendingEntry} {path : String}
    {start count : Int} (unmatched : ¬ (pending.any fun e => segmentMatches e path start count)) :
    ∀ e ∈ pending, e.unit ≠ unitOf path start count := by
  intro e member same
  exact unmatched (List.any_eq_true.mpr ⟨e, member, (segmentMatches_iff e path start count).mpr same⟩)

theorem requeueRecord_enqueued (modelName path : String) (st : RequeuePass) (dv : DataVersion) :
    Enqueued st.pending (requeueRecord modelName path st dv).pending := by
  unfold requeueRecord
  split
  · exact Enqueued.refl _
  · rename_i unmatched
    exact Enqueued.single rfl (any_segmentMatches_false unmatched)

theorem requeuePath_enqueued (modelName : String) (st : RequeuePass) (path : String) :
    Enqueued st.pending (requeuePath modelName st path).pending := by
  have fold : ∀ (records : List DataVersion) (pass : RequeuePass),
      Enqueued pass.pending (records.foldl (requeueRecord modelName path) pass).pending := by
    intro records
    induction records with
    | nil => exact fun pass => Enqueued.refl _
    | cons dv rest ih =>
        exact fun pass => (requeueRecord_enqueued modelName path pass dv).trans (ih _)
  unfold requeuePath
  extract_lets records kept
  split
  · exact Enqueued.refl _
  · exact fold records { st with registry := kept }

theorem requeueEntries_enqueued (modelName : String) (targets : List String)
    (pending : List PendingEntry) (registry : List DataVersion) :
    Enqueued pending (requeueEntries modelName targets pending registry).pending := by
  have fold : ∀ st : RequeuePass,
      Enqueued st.pending (targets.foldl (requeuePath modelName) st).pending := by
    induction targets with
    | nil => exact fun st => Enqueued.refl _
    | cons path rest ih => exact fun st => (requeuePath_enqueued modelName st path).trans (ih _)
  exact fold { pending, registry }

end Adai.Registry
