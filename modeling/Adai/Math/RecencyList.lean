import Mathlib.Data.List.Dedup
import Mathlib.Data.List.Perm.Subperm

/-! # Lists by recency

Keys from the least to the most recently accessed one, at most so many of them: a key
that is used goes to the end, and a new one makes room at the front. A list of
accesses fails when it uses a key that is gone. Where the accesses are of no more keys
than there is room for, it succeeds exactly when no key goes before it is used
(`Recency.run_isSome_iff`), and then every key it is about is there at its end
(`Recency.mem_of_run`) and the keys are as many as fit (`Recency.length_of_run`).
-/

namespace Recency

variable {κ : Type*}

inductive Access (κ : Type*)
  | use (key : κ)
  | create (key : κ)
  deriving DecidableEq, Repr

def Access.key : Access κ → κ
  | .use key => key
  | .create key => key

def used (accesses : List (Access κ)) : List κ :=
  accesses.filterMap fun | .use key => some key | .create _ => none

def created (accesses : List (Access κ)) : List κ :=
  accesses.filterMap fun | .use _ => none | .create key => some key

section Lists

variable (accesses others : List (Access κ)) (key : κ)

@[simp] theorem used_nil : used ([] : List (Access κ)) = [] := rfl

@[simp] theorem used_use : used (.use key :: accesses) = key :: used accesses := rfl

@[simp] theorem used_create : used (.create key :: accesses) = used accesses := rfl

@[simp] theorem used_append : used (accesses ++ others) = used accesses ++ used others :=
  List.filterMap_append

@[simp] theorem created_nil : created ([] : List (Access κ)) = [] := rfl

@[simp] theorem created_use : created (.use key :: accesses) = created accesses := rfl

@[simp] theorem created_create : created (.create key :: accesses) = key :: created accesses := rfl

@[simp] theorem created_append :
    created (accesses ++ others) = created accesses ++ created others :=
  List.filterMap_append

end Lists

theorem mem_used {accesses : List (Access κ)} {key : κ} :
    key ∈ used accesses ↔ .use key ∈ accesses := by
  unfold used
  rw [List.mem_filterMap]
  constructor
  · rintro ⟨access, member, same⟩
    cases access with
    | use other =>
        obtain rfl := Option.some.inj same
        exact member
    | create => cases same
  · exact fun member => ⟨_, member, rfl⟩

theorem mem_created {accesses : List (Access κ)} {key : κ} :
    key ∈ created accesses ↔ .create key ∈ accesses := by
  unfold created
  rw [List.mem_filterMap]
  constructor
  · rintro ⟨access, member, same⟩
    cases access with
    | use => cases same
    | create other =>
        obtain rfl := Option.some.inj same
        exact member
  · exact fun member => ⟨_, member, rfl⟩

theorem mem_keys {accesses : List (Access κ)} {key : κ} :
    key ∈ accesses.map Access.key ↔ key ∈ used accesses ∨ key ∈ created accesses := by
  rw [mem_used, mem_created, List.mem_map]
  constructor
  · rintro ⟨access, member, rfl⟩
    cases access with
    | use => exact .inl member
    | create => exact .inr member
  · rintro (member | member)
    · exact ⟨_, member, rfl⟩
    · exact ⟨_, member, rfl⟩

variable [DecidableEq κ]

/-- The keys at the front go, until one more fits. -/
def makeRoom (cap : Nat) (keys : List κ) : List κ := keys.drop (keys.length + 1 - cap)

/-- The key goes to the end. -/
def renew (keys : List κ) (key : κ) : List κ := keys.erase key ++ [key]

def step (cap : Nat) (keys : List κ) : Access κ → Option (List κ)
  | .use key => if key ∈ keys then some (renew keys key) else none
  | .create key => some (makeRoom cap keys ++ [key])

def run (cap : Nat) (keys : List κ) (accesses : List (Access κ)) : Option (List κ) :=
  accesses.foldlM (step cap) keys

theorem renew_perm {keys : List κ} {key : κ} (there : key ∈ keys) : (renew keys key).Perm keys :=
  (List.perm_append_singleton key _).trans (List.perm_cons_erase there).symm

theorem renew_cases {keys : List κ} (nodup : keys.Nodup) (key : κ) :
    ∃ others, renew keys key = others ++ [key] ∧ others.Sublist keys ∧ key ∉ others :=
  ⟨_, rfl, List.erase_sublist, nodup.not_mem_erase⟩

theorem step_use_eq_some {cap : Nat} {keys next : List κ} {s : κ} :
    step cap keys (.use s) = some next ↔ s ∈ keys ∧ renew keys s = next := by
  rw [step, Option.ite_none_right_eq_some, Option.some.injEq]

theorem run_cons (cap : Nat) (keys : List κ) (a : Access κ) (rest : List (Access κ)) :
    run cap keys (a :: rest) = (step cap keys a).bind fun next => run cap next rest :=
  List.foldlM_cons ..

/-! ## What the keys are after some accesses -/

/-- The keys not used yet. -/
def unused (keys : List κ) (accesses : List (Access κ)) : List κ :=
  keys.filter (· ∉ used accesses)

/-- How many keys had to go. -/
def gone (cap : Nat) (keys : List κ) (accesses : List (Access κ)) : Nat :=
  if created accesses = [] then 0 else keys.length + (created accesses).length - cap

/-- The accesses use keys there are, create others, and are of no more keys than there
is room for. -/
structure Fitting (cap : Nat) (keys : List κ) (accesses : List (Access κ)) : Prop where
  nodup : keys.Nodup
  known : ∀ key ∈ used accesses, key ∈ keys
  fresh : ∀ key ∈ created accesses, key ∉ keys
  distinct : (created accesses).Nodup
  few : (accesses.map Access.key).dedup.length ≤ cap

/-- The keys after the accesses before: what is left of those not used, then those
accessed. -/
structure Kept (cap : Nat) (keys : List κ) (before : List (Access κ)) (now : List κ) : Prop where
  accessed : ∃ recent, now = (unused keys before).drop (gone cap keys before) ++ recent ∧
    recent.Nodup ∧ (∀ key, key ∈ recent ↔ key ∈ before.map Access.key) ∧
    (unused keys before).length + recent.length = keys.length + (created before).length

section Run

variable {cap : Nat} {keys : List κ} {before rest : List (Access κ)} {now : List κ}

theorem kept_nil (keys : List κ) : Kept cap keys [] keys := by
  refine ⟨[], ?_, List.nodup_nil, by simp, ?_⟩
  · simp [unused, gone]
  · simp [unused]

theorem unused_nodup (nodup : keys.Nodup) : (unused keys before).Nodup := nodup.filter _

theorem mem_unused {s : κ} : s ∈ unused keys before ↔ s ∈ keys ∧ s ∉ used before := by
  simp [unused]

@[simp] theorem unused_concat_create (k : κ) :
    unused keys (before ++ [.create k]) = unused keys before := by
  simp [unused]

theorem unused_concat_use (nodup : keys.Nodup) (s : κ) :
    unused keys (before ++ [.use s]) = (unused keys before).erase s := by
  rw [(unused_nodup nodup).erase_eq_filter, unused, unused, List.filter_filter]
  refine List.filter_congr fun key _ => ?_
  simp only [used_append, used_use, used_nil, List.mem_append, List.mem_singleton, bne,
    decide_not, Bool.decide_or, Bool.not_or, Bool.and_comm]
  rfl

omit [DecidableEq κ] in
@[simp] theorem gone_concat_use (s : κ) :
    gone cap keys (before ++ [.use s]) = gone cap keys before := by
  simp [gone]

omit [DecidableEq κ] in
theorem gone_concat_create (k : κ) : gone cap keys (before ++ [.create k]) =
    keys.length + ((created before).length + 1) - cap := by
  simp [gone]

namespace Fitting

theorem append_cons {a : Access κ} (fitting : Fitting cap keys (before ++ a :: rest)) :
    Fitting cap keys ((before ++ [a]) ++ rest) := by
  rwa [List.append_assoc, List.singleton_append]

/-- The keys accessed are few enough to be kept. -/
theorem room {accesses : List (Access κ)} (fitting : Fitting cap keys accesses) {recent : List κ}
    (nodup : recent.Nodup) (within : ∀ key ∈ recent, key ∈ accesses.map Access.key) :
    recent.length ≤ cap := by
  refine Nat.le_trans (List.Subperm.length_le ?_) fitting.few
  exact List.subperm_of_subset nodup fun key member => List.mem_dedup.mpr (within key member)

theorem create_notMem {k : κ} (fitting : Fitting cap keys (before ++ .create k :: rest)) :
    k ∉ before.map Access.key := by
  intro member
  rcases mem_keys.mp member with isUsed | isCreated
  · exact fitting.fresh k (by simp) (fitting.known k (by simp [isUsed]))
  · have distinct := fitting.distinct
    rw [created_append, created_create] at distinct
    exact (List.nodup_append.mp distinct).2.2 k isCreated k (List.mem_cons_self ..) rfl

end Fitting

omit [DecidableEq κ] in
theorem nodup_concat {recent : List κ} {s : κ} (nodup : recent.Nodup) (other : s ∉ recent) :
    (recent ++ [s]).Nodup :=
  List.nodup_append.mpr ⟨nodup, List.nodup_singleton s, fun a member b same => by
    rw [List.mem_singleton.mp same]
    rintro rfl
    exact other member⟩

omit [DecidableEq κ] in
theorem mem_concat_key {recent : List κ}
    (accessed : ∀ key, key ∈ recent ↔ key ∈ before.map Access.key) (a : Access κ) (key : κ) :
    key ∈ recent ++ [a.key] ↔ key ∈ (before ++ [a]).map Access.key := by
  rw [List.mem_append, accessed, List.map_append, List.mem_append]
  rfl

/-- An element behind those dropped may be erased before or after dropping. -/
theorem erase_drop {f : List κ} {s : κ} {e : Nat} (spared : s ∉ f.take e) :
    (f.drop e).erase s = (f.erase s).drop e := by
  rcases Nat.le_total f.length e with beyond | within
  · rw [List.take_of_length_le beyond] at spared
    rw [List.erase_of_not_mem spared, List.drop_of_length_le beyond, List.erase_nil]
  · have length : (f.take e).length = e := by rw [List.length_take, Nat.min_eq_left within]
    have erased : f.erase s = f.take e ++ (f.drop e).erase s := by
      rw [← List.erase_append_right _ spared, List.take_append_drop]
    rw [erased, List.drop_left' length]

namespace Kept

/-- A key there was is still there unless it is among those that had to go. -/
theorem mem_iff (kept : Kept cap keys before now) (nodup : keys.Nodup)
    (fresh : ∀ key ∈ created before, key ∉ keys) {s : κ} (known : s ∈ keys) :
    s ∈ now ↔ s ∉ (unused keys before).take (gone cap keys before) := by
  obtain ⟨recent, rfl, _, accessed, _⟩ := kept.accessed
  have notCreated : s ∉ created before := fun member => fresh s member known
  have inRecent : s ∈ recent ↔ s ∈ used before := by
    rw [accessed, mem_keys, or_iff_left notCreated]
  rw [List.mem_append, inRecent]
  by_cases isUsed : s ∈ used before
  · exact iff_of_true (.inr isUsed)
      fun member => (mem_unused.mp (List.mem_of_mem_take member)).2 isUsed
  · have member : s ∈ unused keys before := mem_unused.mpr ⟨known, isUsed⟩
    rw [or_iff_left isUsed]
    constructor
    · intro dropped taken
      exact (List.disjoint_take_drop (unused_nodup nodup) (Nat.le_refl _)) taken dropped
    · intro spared
      rw [← List.take_append_drop (gone cap keys before) (unused keys before)] at member
      exact (List.mem_append.mp member).resolve_left spared

theorem use (kept : Kept cap keys before now) {s : κ}
    (fitting : Fitting cap keys (before ++ .use s :: rest)) (there : s ∈ now) :
    Kept cap keys (before ++ [.use s]) (renew now s) := by
  unfold renew
  have known : s ∈ keys := fitting.known s (by simp)
  have fresh : ∀ key ∈ created before, key ∉ keys := fun key member =>
    fitting.fresh key (by simp [member])
  have spared := (kept.mem_iff fitting.nodup fresh known).mp there
  obtain ⟨recent, rfl, nodup, accessed, total⟩ := kept.accessed
  have dropped : ((unused keys before).drop (gone cap keys before)).erase s =
      (unused keys (before ++ [.use s])).drop (gone cap keys (before ++ [.use s])) := by
    rw [unused_concat_use fitting.nodup, gone_concat_use, erase_drop spared]
  by_cases again : s ∈ recent
  · -- `s` was accessed before: the unused keys stay as they are
    have stays : s ∉ unused keys before := by
      intro member
      rcases mem_keys.mp ((accessed s).mp again) with isUsed | isCreated
      · exact (mem_unused.mp member).2 isUsed
      · exact fresh s isCreated known
    refine ⟨recent.erase s ++ [s], ?_, ?_, ?_, ?_⟩
    · rw [List.erase_append_right _ (fun member => stays (List.mem_of_mem_drop member)),
        List.append_assoc, ← dropped,
        List.erase_of_not_mem (fun member => stays (List.mem_of_mem_drop member))]
    · exact nodup_concat (nodup.erase s) nodup.not_mem_erase
    · intro key
      rw [List.mem_append, nodup.mem_erase_iff, accessed, List.mem_singleton, List.map_append,
        List.mem_append]
      by_cases same : key = s
      · simp [same, Access.key]
      · simp [same, Access.key]
    · have length := List.length_erase_of_mem again
      have positive := List.length_pos_of_mem again
      rw [unused_concat_use fitting.nodup, List.erase_of_not_mem stays, List.length_append, length,
        created_append, created_use, created_nil, List.append_nil]
      simp only [List.length_singleton]
      omega
  · -- `s` was not accessed: it leaves the unused keys
    have member : s ∈ unused keys before := by
      rcases List.mem_append.mp there with dropped | recently
      · exact List.mem_of_mem_drop dropped
      · exact absurd recently again
    refine ⟨recent ++ [s], ?_, ?_, ?_, ?_⟩
    · have inDrop := (List.mem_append.mp there).resolve_right again
      rw [List.erase_append_left _ inDrop, List.append_assoc, dropped]
    · exact nodup_concat nodup again
    · exact mem_concat_key accessed (.use s)
    · have length := List.length_erase_of_mem member
      have positive := List.length_pos_of_mem member
      rw [unused_concat_use fitting.nodup, length, List.length_append, created_append, created_use,
        created_nil, List.append_nil]
      simp only [List.length_singleton]
      omega

theorem length_eq (kept : Kept cap keys before now) (fitting : Fitting cap keys before) :
    now.length = keys.length + (created before).length - gone cap keys before := by
  obtain ⟨recent, rfl, nodup, accessed, total⟩ := kept.accessed
  have few := fitting.room nodup fun key => (accessed key).mp
  have some : gone cap keys before ≤ (unused keys before).length := by
    unfold gone
    split
    · omega
    · omega
  rw [List.length_append, List.length_drop]
  omega

theorem create (kept : Kept cap keys before now) {k : κ}
    (fitting : Fitting cap keys (before ++ .create k :: rest)) :
    Kept cap keys (before ++ [.create k]) (makeRoom cap now ++ [k]) := by
  obtain ⟨recent, rfl, nodup, accessed, total⟩ := kept.accessed
  have notIn : k ∉ recent := fun member => fitting.create_notMem ((accessed k).mp member)
  have wider : (recent ++ [k]).Nodup := nodup_concat nodup notIn
  have few : recent.length + 1 ≤ cap := by
    have room := fitting.room wider fun key member => by
      rw [List.map_append, List.mem_append, ← accessed]
      rcases List.mem_append.mp member with old | new
      · exact .inl old
      · rw [List.mem_singleton.mp new]
        exact .inr (List.mem_cons_self ..)
    rwa [List.length_append] at room
  have some : gone cap keys before ≤ (unused keys before).length := by
    unfold gone
    split
    · omega
    · omega
  -- one more key goes exactly when the keys are as many as fit already
  have more : gone cap keys before + (((unused keys before).drop (gone cap keys before) ++
      recent).length + 1 - cap) = gone cap keys (before ++ [.create k]) := by
    rw [gone_concat_create, List.length_append, List.length_drop]
    unfold gone at some ⊢
    split at some
    next none =>
      rw [if_pos none]
      rw [none] at total ⊢
      simp only [List.length_nil] at total ⊢
      omega
    next several =>
      rw [if_neg several]
      have positive := List.length_pos_iff.mpr several
      omega
  refine ⟨recent ++ [k], ?_, wider, mem_concat_key accessed (.create k), ?_⟩
  · unfold makeRoom
    rw [unused_concat_create, ← more, ← List.drop_drop, ← List.append_assoc,
      List.drop_append_of_le_length]
    rw [List.length_append, List.length_drop]
    omega
  · rw [unused_concat_create, List.length_append, created_append, created_create, created_nil,
      List.length_append]
    simp only [List.length_singleton]
    omega

theorem step (kept : Kept cap keys before now) {a : Access κ}
    (fitting : Fitting cap keys (before ++ a :: rest)) {next : List κ}
    (stepped : step cap now a = some next) : Kept cap keys (before ++ [a]) next := by
  cases a with
  | use s =>
      obtain ⟨there, rfl⟩ := step_use_eq_some.mp stepped
      exact kept.use fitting there
  | create k =>
      obtain rfl := Option.some.inj stepped
      exact kept.create fitting

theorem run (kept : Kept cap keys before now) (fitting : Fitting cap keys (before ++ rest))
    {last : List κ} (ran : run cap now rest = some last) : Kept cap keys (before ++ rest) last := by
  induction rest generalizing before now with
  | nil =>
      obtain rfl := Option.some.inj ran
      rwa [List.append_nil]
  | cons a rest ih =>
      rw [run_cons] at ran
      obtain ⟨next, stepped, ran⟩ := Option.bind_eq_some_iff.mp ran
      have kept' := ih (kept.step fitting stepped) fitting.append_cons ran
      rwa [List.append_assoc, List.singleton_append] at kept'

theorem run_isSome_iff (kept : Kept cap keys before now)
    (fitting : Fitting cap keys (before ++ rest)) :
    (Recency.run cap now rest).isSome ↔ ∀ pre s post, rest = pre ++ .use s :: post →
      s ∉ (unused keys (before ++ pre)).take (gone cap keys (before ++ pre)) := by
  induction rest generalizing before now with
  | nil => simp [Recency.run]
  | cons a rest ih =>
      have later : ∀ next, Recency.step cap now a = some next →
          ((Recency.run cap now (a :: rest)).isSome ↔
            ∀ pre s post, rest = pre ++ .use s :: post →
              s ∉ (unused keys (before ++ a :: pre)).take (gone cap keys (before ++ a :: pre))) := by
        intro next stepped
        rw [run_cons, stepped, Option.bind_some]
        have rest := ih (kept.step fitting stepped) fitting.append_cons
        simpa only [List.append_assoc, List.singleton_append] using rest
      have first : ∀ s, a = .use s → (s ∈ now ↔
          s ∉ (unused keys before).take (gone cap keys before)) := by
        rintro s rfl
        exact kept.mem_iff fitting.nodup (fun key member => fitting.fresh key (by simp [member]))
          (fitting.known s (by simp))
      constructor
      · intro ran pre s post split
        obtain ⟨last, reached⟩ := Option.isSome_iff_exists.mp ran
        rw [run_cons] at reached
        obtain ⟨next, stepped, _⟩ := Option.bind_eq_some_iff.mp reached
        cases pre with
        | nil =>
            obtain ⟨rfl, rfl⟩ := List.cons.inj split
            rw [List.append_nil]
            exact (first s rfl).mp (step_use_eq_some.mp stepped).1
        | cons b pre =>
            obtain ⟨rfl, rest⟩ := List.cons.inj split
            exact (later next stepped).mp ran pre s post rest
      · intro spared
        have stepped : ∃ next, Recency.step cap now a = some next := by
          cases shape : a with
          | use s =>
              have there := (first s shape).mpr (by
                simpa only [List.append_nil] using spared [] s rest (by rw [shape]; rfl))
              exact ⟨_, step_use_eq_some.mpr ⟨there, rfl⟩⟩
          | create k => exact ⟨_, rfl⟩
        obtain ⟨next, stepped⟩ := stepped
        refine (later next stepped).mpr fun pre s post split => ?_
        exact spared (a :: pre) s post (by rw [split, List.cons_append])

end Kept

section Results

variable {accesses : List (Access κ)} {last : List κ}

/-- The accesses succeed exactly when no key goes before it is used. -/
theorem run_isSome_iff (fitting : Fitting cap keys accesses) :
    (run cap keys accesses).isSome ↔ ∀ pre s post, accesses = pre ++ .use s :: post →
      s ∉ (unused keys pre).take (gone cap keys pre) :=
  (kept_nil keys).run_isSome_iff fitting

theorem mem_of_run (fitting : Fitting cap keys accesses) (ran : run cap keys accesses = some last)
    {key : κ} (member : key ∈ accesses.map Access.key) : key ∈ last := by
  obtain ⟨recent, rfl, _, accessed, _⟩ := ((kept_nil keys).run fitting ran).accessed
  exact List.mem_append_right _ ((accessed key).mpr member)

theorem length_of_run (fitting : Fitting cap keys accesses) (ran : run cap keys accesses = some last) :
    last.length = keys.length + (created accesses).length - gone cap keys accesses :=
  ((kept_nil keys).run fitting ran).length_eq fitting

omit [DecidableEq κ] in
theorem gone_eq_zero (room : keys.length + (created accesses).length ≤ cap) :
    gone cap keys accesses = 0 := by
  unfold gone
  split
  · rfl
  · exact Nat.sub_eq_zero_of_le room

/-- Where everything fits, nothing goes. -/
theorem run_isSome_of_room (fitting : Fitting cap keys accesses)
    (room : keys.length + (created accesses).length ≤ cap) :
    (run cap keys accesses).isSome := by
  refine (run_isSome_iff fitting).mpr fun pre s post split => ?_
  have less : (created pre).length ≤ (created accesses).length := by
    rw [split, created_append, List.length_append]
    exact Nat.le_add_right ..
  rw [gone_eq_zero (Nat.le_trans (Nat.add_le_add_left less _) room), List.take_zero]
  exact List.not_mem_nil

theorem mem_of_run_iff (fitting : Fitting cap keys accesses)
    (room : keys.length + (created accesses).length ≤ cap)
    (ran : run cap keys accesses = some last) (key : κ) :
    key ∈ last ↔ key ∈ keys ∨ key ∈ accesses.map Access.key := by
  obtain ⟨recent, rfl, _, accessed, _⟩ := ((kept_nil keys).run fitting ran).accessed
  rw [List.nil_append, gone_eq_zero room, List.drop_zero, List.mem_append, accessed, mem_unused,
    List.nil_append]
  constructor
  · exact Or.imp_left And.left
  · rintro (old | access)
    · by_cases isUsed : key ∈ used accesses
      · exact .inr (mem_keys.mpr (.inl isUsed))
      · exact .inl ⟨old, isUsed⟩
    · exact .inr access

end Results

end Run

end Recency
