import Mathlib.Data.List.Flatten
import Mathlib.Data.List.Basic
import Mathlib.Data.Vector.Basic

/-! # Loading a state section by section

A state is made of sections that are loaded one after the other, each whole or not
at all; the first one that cannot be read ends the load, and what was loaded before
it stays (`Sections.loadAll`). Loads of parts of a state are put together in the
order in which they run (`Sections.Loads.andThen`, `Sections.Loads.each`), and the
whole load then does to the sections what `loadAll` does. So it leaves the sections
as they were exactly when every section read before the first failing one is held
already (`Sections.loadAll_eq_self_iff`).
-/

namespace Sections

variable {ω : Type*}

/-! ## Lists of sections -/

/-- Whether everything could be read, and the sections that are held afterwards. -/
def loadAll : List (Option ω) → List ω → Bool × List ω
  | some content :: contents, _ :: held =>
      ((loadAll contents held).1, content :: (loadAll contents held).2)
  | none :: _, held => (false, held)
  | [], held => (true, held)
  | some _ :: _, [] => (true, [])

/-- What is read before the first section that fails is held already. -/
def Kept : List (Option ω) → List ω → Prop
  | some content :: contents, section_ :: held => content = section_ ∧ Kept contents held
  | _, _ => True

theorem loadAll_fst (contents : List (Option ω)) {held : List ω}
    (length : contents.length = held.length) :
    (loadAll contents held).1 = contents.all Option.isSome := by
  induction contents generalizing held with
  | nil => rfl
  | cons content contents ih =>
      cases held with
      | nil => cases length
      | cons section_ held =>
          cases content with
          | none => rfl
          | some content => exact ih (Nat.succ.inj length)

/-- A load that reads everything leaves what it read. -/
theorem loadAll_map_some (contents held : List ω) (length : contents.length = held.length) :
    loadAll (contents.map some) held = (true, contents) := by
  induction contents generalizing held with
  | nil =>
      obtain rfl := List.eq_nil_of_length_eq_zero length.symm
      rfl
  | cons content contents ih =>
      cases held with
      | nil => cases length
      | cons section_ held => rw [List.map_cons, loadAll, ih held (Nat.succ.inj length)]

/-- **Unchanged sections.** -/
theorem loadAll_eq_self_iff (contents : List (Option ω)) (held : List ω) :
    (loadAll contents held).2 = held ↔ Kept contents held := by
  induction contents generalizing held with
  | nil => exact iff_of_true rfl trivial
  | cons content contents ih =>
      cases content with
      | none => exact iff_of_true rfl trivial
      | some content =>
          cases held with
          | nil => exact iff_of_true rfl trivial
          | cons section_ held => rw [loadAll, Kept, List.cons.injEq, ih]

theorem loadAll_append (contents contents' : List (Option ω)) {held : List ω} (held' : List ω)
    (length : contents.length = held.length) :
    loadAll (contents ++ contents') (held ++ held') =
      if (loadAll contents held).1 then
        ((loadAll contents' held').1, (loadAll contents held).2 ++ (loadAll contents' held').2)
      else (false, (loadAll contents held).2 ++ held') := by
  induction contents generalizing held with
  | nil =>
      obtain rfl := List.eq_nil_of_length_eq_zero length.symm
      rfl
  | cons content contents ih =>
      cases held with
      | nil => cases length
      | cons section_ held =>
          cases content with
          | none => rfl
          | some content =>
              rw [List.cons_append, List.cons_append, loadAll, ih (Nat.succ.inj length), loadAll]
              cases (loadAll contents held).1 <;> rfl

/-- Sections that are read replace the first ones held. -/
theorem loadAll_read_append (contents : List ω) (rest : List (Option ω)) {held : List ω}
    (held' : List ω) (length : contents.length = held.length) :
    (loadAll (contents.map some ++ rest) (held ++ held')).2 =
      contents ++ (loadAll rest held').2 := by
  rw [loadAll_append _ _ _ (by rw [List.length_map, length]), loadAll_map_some _ _ length]
  rfl

/-! ## Loads -/

variable {ε σ τ α : Type*}

/-- A load may fail, and leaves a state either way. -/
abbrev Loading (ε σ : Type*) := σ → Option ε × σ

namespace Loading

/-- One file: what is read from it is set at once. -/
def file (read : Except ε α) (set : σ → α → σ) : Loading ε σ := fun s =>
  match read with
  | .error e => (some e, s)
  | .ok content => (none, set s content)

/-- One file, whose content the rest of the load needs too. -/
def fileThen (read : Except ε α) (set : σ → α → σ) (next : α → Loading ε σ) : Loading ε σ :=
  fun s =>
    match read with
    | .error e => (some e, s)
    | .ok content => next content (set s content)

/-- What is set once a load has succeeded. -/
def thenSet (load : Loading ε σ) (change : σ → σ) : Loading ε σ := fun s =>
  match load s with
  | (some e, s') => (some e, s')
  | (none, s') => (none, change s')

def andThen (first next : Loading ε σ) : Loading ε σ := fun s =>
  match first s with
  | (some e, s') => (some e, s')
  | (none, s') => next s'

/-- The load of a component. -/
def inside (get : σ → τ) (set : σ → τ → σ) (part : Loading ε τ) : Loading ε σ := fun s =>
  ((part (get s)).1, set s (part (get s)).2)

/-- Two components, one after the other. -/
def both (first : Loading ε σ) (next : Loading ε τ) : Loading ε (σ × τ) := fun s =>
  match first s.1 with
  | (some e, s') => (some e, s', s.2)
  | (none, s') => ((next s.2).1, s', (next s.2).2)

/-- The load of numbered components, in the order of their numbers. -/
def each (load : Nat → Loading ε τ) : Nat → Loading ε (List τ)
  | _, [] => (none, [])
  | i, t :: rest =>
      match load i t with
      | (some e, t') => (some e, t' :: rest)
      | (none, t') => ((each load (i + 1) rest).1, t' :: (each load (i + 1) rest).2)

/-- A component that may be missing. -/
def optional (load : Loading ε τ) : Loading ε (Option τ)
  | none => (none, none)
  | some t => ((load t).1, some (load t).2)

theorem length_each (load : Nat → Loading ε τ) (i : Nat) (parts : List τ) :
    (each load i parts).2.length = parts.length := by
  induction parts generalizing i with
  | nil => rfl
  | cons t rest ih =>
      rw [each]
      split
      · rfl
      · exact congrArg Nat.succ (ih (i + 1))

/-- What the second load leaves alone is as the first one left it. -/
theorem view_andThen {first next : Loading ε σ} {view : σ → α}
    (unseen : ∀ s, view (next s).2 = view s) (s : σ) :
    view (first.andThen next s).2 = view (first s).2 := by
  unfold andThen
  rcases first s with ⟨_ | e, t⟩
  · exact unseen t
  · rfl

/-- A fixed number of components. -/
def all {n : Nat} (load : Nat → Loading ε τ) : Loading ε (List.Vector τ n) := fun parts =>
  ((each load 0 parts.1).1,
    ⟨(each load 0 parts.1).2, (length_each load 0 parts.1).trans parts.2⟩)

end Loading

open Loading

/-- What the load does to the sections that are seen of a state. -/
structure Loads (load : Loading ε σ) (view : σ → List ω) (contents : List (Option ω)) (s : σ) :
    Prop where
  length : contents.length = (view s).length
  ends : (load s).1.isNone = (loadAll contents (view s)).1
  leaves : view (load s).2 = (loadAll contents (view s)).2

namespace Loads

variable {view view' : σ → List ω} {contents contents' : List (Option ω)} {s : σ}

theorem isNone_eq {load : Loading ε σ} (loads : Loads load view contents s) :
    (load s).1.isNone = contents.all Option.isSome :=
  loads.ends.trans (loadAll_fst contents loads.length)

theorem congr {load load' : Loading ε σ} (loads : Loads load' view contents s)
    (same : load s = load' s) : Loads load view contents s := by
  obtain ⟨length, ends, leaves⟩ := loads
  exact ⟨length, by rw [same, ends], by rw [same, leaves]⟩

/-- A load whose sections can all be read leaves these. -/
theorem restores {load : Loading ε σ} {read : List ω} (loads : Loads load view contents s)
    (all : contents = read.map some) : (load s).1 = none ∧ view (load s).2 = read := by
  have length := loads.length
  rw [all, List.length_map] at length
  have ends := loads.ends
  have leaves := loads.leaves
  rw [all, loadAll_map_some _ _ length] at ends leaves
  exact ⟨Option.isNone_iff_eq_none.mp ends, leaves⟩

/-- **One file** is a section. -/
theorem file {read : Except ε α} {set : σ → α → σ} {words : α → ω} {now : σ → ω}
    (sets : ∀ content, now (set s content) = words content) :
    Loads (Loading.file read set) (fun s => [now s]) [read.toOption.map words] s := by
  refine ⟨rfl, ?_, ?_⟩
  · cases read <;> rfl
  · cases read with
    | error e => rfl
    | ok content => exact congrArg (fun w => [w]) (sets content)

/-- **One file and what follows it.** -/
theorem fileThen {read : Except ε α} {set : σ → α → σ} {next : α → Loading ε σ} (words : α → ω)
    (now : σ → ω) (length : contents'.length = (view' s).length)
    (rest : ∀ content, read = .ok content → Loads (next content) view' contents' (set s content) ∧
      view' (set s content) = view' s ∧ now (next content (set s content)).2 = words content) :
    Loads (Loading.fileThen read set next) (fun s => now s :: view' s)
      (read.toOption.map words :: contents') s := by
  cases read with
  | error e => exact ⟨congrArg Nat.succ length, rfl, rfl⟩
  | ok content =>
      obtain ⟨loads, before, sets⟩ := rest content rfl
      refine ⟨congrArg Nat.succ length, ?_, ?_⟩
      · exact loads.ends.trans (congrArg (fun held => (loadAll contents' held).1) before)
      · have leaves := loads.leaves
        rw [before] at leaves
        exact congrArg₂ List.cons sets leaves

/-- What is set afterwards is no section. -/
theorem thenSet {load : Loading ε σ} {change : σ → σ} (loads : Loads load view contents s)
    (unseen : ∀ s, view (change s) = view s) : Loads (load.thenSet change) view contents s := by
  obtain ⟨length, ends, leaves⟩ := loads
  refine ⟨length, ?_, ?_⟩
  · rw [← ends, Loading.thenSet]
    rcases load s with ⟨_ | e, t⟩ <;> rfl
  · rw [← leaves, Loading.thenSet]
    rcases load s with ⟨_ | e, t⟩
    · exact unseen t
    · rfl

/-- **One after the other.** Neither load touches the sections of the other one. -/
theorem andThen {first next : Loading ε σ} (one : Loads first view contents s)
    (two : Loads next view' contents' (first s).2) (before : view' (first s).2 = view' s)
    (after : view (next (first s).2).2 = view (first s).2) :
    Loads (first.andThen next) (fun s => view s ++ view' s) (contents ++ contents') s := by
  obtain ⟨length, ends, leaves⟩ := one
  obtain ⟨length', ends', leaves'⟩ := two
  rw [before] at length' ends' leaves'
  have joined := loadAll_append contents contents' (view' s) length
  rw [← ends, ← leaves] at joined
  have both : (contents ++ contents').length = (view s ++ view' s).length := by
    rw [List.length_append, List.length_append, length, length']
  rcases outcome : first s with ⟨_ | e, t⟩
  · have step : first.andThen next s = next t := by rw [Loading.andThen, outcome]
    rw [outcome] at joined ends' leaves' after
    refine ⟨both, ?_, ?_⟩
    · rw [step, joined]
      exact ends'
    · rw [step, joined, after, leaves']
      rfl
  · have step : first.andThen next s = (some e, t) := by rw [Loading.andThen, outcome]
    rw [outcome] at joined before
    refine ⟨both, ?_, ?_⟩
    · rw [step, joined]
      rfl
    · rw [step, joined, before]
      rfl

/-- **Two components.** -/
theorem both {first : Loading ε σ} {next : Loading ε τ} {viewNext : τ → List ω} {t : τ}
    (one : Loads first view contents s) (two : Loads next viewNext contents' t) :
    Loads (first.both next) (fun p => view p.1 ++ viewNext p.2) (contents ++ contents') (s, t) := by
  obtain ⟨length, ends, leaves⟩ := one
  obtain ⟨length', ends', leaves'⟩ := two
  have joined := loadAll_append contents contents' (viewNext t) length
  rw [← ends, ← leaves] at joined
  refine ⟨?_, ?_, ?_⟩
  · rw [List.length_append, List.length_append, length, length']
  · rw [joined, Loading.both]
    rcases first s with ⟨_ | e, s'⟩
    · exact ends'
    · rfl
  · rw [joined, Loading.both]
    rcases first s with ⟨_ | e, s'⟩
    · exact congrArg (view s' ++ ·) leaves'
    · rfl

/-- **A component.** -/
theorem inside (get : σ → τ) (set : σ → τ → σ) {part : Loading ε τ} {viewPart : τ → List ω}
    (loads : Loads part viewPart contents (get s)) (law : ∀ t, get (set s t) = t) :
    Loads (Loading.inside get set part) (fun s => viewPart (get s)) contents s := by
  refine ⟨loads.length, loads.ends, ?_⟩
  rw [← loads.leaves]
  exact congrArg viewPart (law _)

/-- **Numbered components.** -/
theorem each {load : Nat → Loading ε τ} {viewPart : τ → List ω}
    {contentsOf : Nat → τ → List (Option ω)} {i : Nat} {parts : List τ}
    (loads : ∀ j, ∀ t ∈ parts, Loads (load j) viewPart (contentsOf j t) t) :
    Loads (Loading.each load i) (List.flatMap viewPart)
      ((parts.mapIdx fun j t => contentsOf (i + j) t).flatten) parts := by
  induction parts generalizing i with
  | nil => exact ⟨rfl, rfl, rfl⟩
  | cons t rest ih =>
      obtain ⟨length, ends, leaves⟩ := loads i t List.mem_cons_self
      obtain ⟨length', ends', leaves'⟩ :=
        @ih (i + 1) fun j u member => loads j u (List.mem_cons_of_mem _ member)
      have shift : (rest.mapIdx fun j u => contentsOf (i + (j + 1)) u) =
          rest.mapIdx fun j u => contentsOf (i + 1 + j) u := by
        congr 1
        funext j u
        rw [Nat.add_assoc, Nat.add_comm 1 j]
      rw [List.mapIdx_cons, List.flatten_cons, shift, Nat.add_zero]
      refine ⟨?_, ?_, ?_⟩
      · rw [List.flatMap_cons, List.length_append, List.length_append, length, length']
      · rw [List.flatMap_cons, loadAll_append _ _ _ length, ← ends]
        unfold Loading.each
        rcases load i t with ⟨_ | e, u⟩
        · exact ends'
        · rfl
      · rw [List.flatMap_cons, loadAll_append _ _ _ length, ← ends, ← leaves]
        unfold Loading.each
        rcases load i t with ⟨_ | e, u⟩
        · exact (List.flatMap_cons ..).trans (congrArg (viewPart u ++ ·) leaves')
        · exact List.flatMap_cons ..

theorem all {n : Nat} {load : Nat → Loading ε τ} {viewPart : τ → List ω}
    {contentsOf : Nat → τ → List (Option ω)} {parts : List.Vector τ n}
    (loads : ∀ j, ∀ t ∈ parts.1, Loads (load j) viewPart (contentsOf j t) t) :
    Loads (Loading.all load) (fun parts => parts.1.flatMap viewPart)
      ((parts.1.mapIdx contentsOf).flatten) parts := by
  have loads' := each (i := 0) loads
  simp only [Nat.zero_add] at loads'
  exact ⟨loads'.length, loads'.ends, loads'.leaves⟩

/-- **A component that may be missing.** -/
theorem optional {load : Loading ε τ} {viewPart : τ → List ω} {contentsOf : τ → List (Option ω)}
    {part : Option τ} (loads : ∀ t ∈ part, Loads load viewPart (contentsOf t) t) :
    Loads (Loading.optional load) (fun part => part.toList.flatMap viewPart)
      (part.toList.flatMap contentsOf) part := by
  cases part with
  | none => exact ⟨rfl, rfl, rfl⟩
  | some t =>
      obtain ⟨length, ends, leaves⟩ := loads t rfl
      have alone : (some t).toList.flatMap contentsOf = contentsOf t := List.flatMap_singleton ..
      have held : (some t).toList.flatMap viewPart = viewPart t := List.flatMap_singleton ..
      rw [alone]
      refine ⟨by rw [length, held], by rw [held]; exact ends, ?_⟩
      rw [held, ← leaves]
      exact List.flatMap_singleton ..

end Loads

end Sections
