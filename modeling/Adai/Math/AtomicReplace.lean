import Adai.Math.TransitionSystem
import Mathlib.Data.Nat.Basic
import Mathlib.Logic.Function.Basic
import Mathlib.Order.Basic

/-! # Replacing a file by renaming another over it

A writer fills a new file under a name of its own, flushes it to the disk and renames it over
its target. Changes of the directory reach the disk later: a loss of power keeps any part of
the changes that are not there yet, and anything at all of a file that was not flushed.
However the writers interleave, fail and die, the targets hold what they held first with
whole replacements on top, in the order of the renames (`AtomicReplace.read_of_run`): all of
them without a loss of power, and some of those since the directory was last flushed after
one. A reader that has opened a target sees one replacement (`AtomicReplace.opened_of_run`).
-/

namespace AtomicReplace

open TransitionSystem

variable {Name Byte : Type*}

/-- One change of the directory. -/
inductive Change (Name : Type*)
  | link (name : Name) (file : ℕ)
  | unlink (name : Name)
  | rename (temp target : Name) (file : ℕ)

/-- A call on its way to the rename. -/
structure Writer (Name Byte : Type*) where
  target : Name
  temp : Name
  data : List Byte
  file : ℕ
  flushed : Bool

structure FileSystem (Name Byte : Type*) where
  files : ℕ → List Byte
  made : ℕ
  /-- The files whose contents are on the disk. -/
  flushed : ℕ → Bool
  /-- The directory on the disk. -/
  directory : Name → Option ℕ
  /-- The changes that are not on the disk, the oldest first. -/
  changes : List (Change Name)
  writers : ℕ → Option (Writer Name Byte)
  /-- What was renamed over which target, in that order. -/
  replaced : List (Name × List Byte)

inductive Label (Name Byte : Type*)
  | create (call : ℕ) (target temp : Name) (data : List Byte)
  | write (call count : ℕ)
  | flush (call : ℕ)
  | rename (call : ℕ)
  /-- The call fails, with its file removed or not, or its process dies. -/
  | stop (call : ℕ) (removed : Bool)
  | flushDirectory
  | losePower (kept : List Bool) (torn : ℕ → List Byte)

def Label.isLoss : Label Name Byte → Bool
  | .losePower _ _ => true
  | _ => false

/-- The elements at the positions that are marked. -/
def marked {α : Type*} : List Bool → List α → List α
  | true :: marks, x :: xs => x :: marked marks xs
  | false :: marks, _ :: xs => marked marks xs
  | _, _ => []

theorem marked_sublist {α : Type*} (marks : List Bool) (xs : List α) :
    (marked marks xs).Sublist xs := by
  induction marks generalizing xs with
  | nil => exact List.nil_sublist xs
  | cons mark marks ih =>
      cases xs with
      | nil => cases mark <;> exact List.Sublist.slnil
      | cons x xs =>
          cases mark with
          | false => exact (ih xs).cons x
          | true => exact (ih xs).cons_cons x

section Directory

variable [DecidableEq Name]

def Change.apply (names : Name → Option ℕ) : Change Name → Name → Option ℕ
  | .link name file => Function.update names name (some file)
  | .unlink name => Function.update names name none
  | .rename temp target file =>
      Function.update (Function.update names temp none) target (some file)

namespace FileSystem

/-- The directory as the processes see it. -/
def view (fs : FileSystem Name Byte) : Name → Option ℕ :=
  fs.changes.foldl Change.apply fs.directory

def read (fs : FileSystem Name Byte) (name : Name) : Option (List Byte) :=
  (fs.view name).map fs.files

/-- A writer's name is taken to be new: it is drawn at random. -/
def create (fs : FileSystem Name Byte) (call : ℕ) (target temp : Name) (data : List Byte) :
    Option (FileSystem Name Byte) :=
  if (fs.writers call).isNone && (fs.view temp).isNone then
    some { fs with
      files := Function.update fs.files fs.made []
      made := fs.made + 1
      flushed := Function.update fs.flushed fs.made false
      changes := fs.changes ++ [.link temp fs.made]
      writers := Function.update fs.writers call (some ⟨target, temp, data, fs.made, false⟩) }
  else none

def write (fs : FileSystem Name Byte) (writer : Writer Name Byte) (count : ℕ) :
    Option (FileSystem Name Byte) :=
  if writer.flushed then none
  else some { fs with files := Function.update fs.files writer.file (writer.data.take count) }

/-- The rest of the data is written and the file flushed. -/
def flush (fs : FileSystem Name Byte) (call : ℕ) (writer : Writer Name Byte) :
    FileSystem Name Byte :=
  { fs with
    files := Function.update fs.files writer.file writer.data
    flushed := Function.update fs.flushed writer.file true
    writers := Function.update fs.writers call (some { writer with flushed := true }) }

def rename (fs : FileSystem Name Byte) (call : ℕ) (writer : Writer Name Byte) :
    Option (FileSystem Name Byte) :=
  if writer.flushed then
    some { fs with
      changes := fs.changes ++ [.rename writer.temp writer.target writer.file]
      writers := Function.update fs.writers call none
      replaced := fs.replaced ++ [(writer.target, writer.data)] }
  else none

def stop (fs : FileSystem Name Byte) (call : ℕ) (writer : Writer Name Byte) (removed : Bool) :
    FileSystem Name Byte :=
  { fs with
    changes := if removed then fs.changes ++ [.unlink writer.temp] else fs.changes
    writers := Function.update fs.writers call none }

def flushDirectory (fs : FileSystem Name Byte) : FileSystem Name Byte :=
  { fs with
    directory := fs.view
    changes := [] }

def losePower (fs : FileSystem Name Byte) (kept : List Bool) (torn : ℕ → List Byte) :
    FileSystem Name Byte :=
  { fs with
    files := fun file => if fs.flushed file then fs.files file else torn file
    directory := (marked kept fs.changes).foldl Change.apply fs.directory
    changes := []
    writers := fun _ => none }

def next (fs : FileSystem Name Byte) : Label Name Byte → Option (FileSystem Name Byte)
  | .create call target temp data => fs.create call target temp data
  | .write call count => (fs.writers call).bind fun writer => fs.write writer count
  | .flush call => (fs.writers call).map fun writer => fs.flush call writer
  | .rename call => (fs.writers call).bind fun writer => fs.rename call writer
  | .stop call removed => (fs.writers call).map fun writer => fs.stop call writer removed
  | .flushDirectory => some fs.flushDirectory
  | .losePower kept torn => some (fs.losePower kept torn)

end FileSystem

variable (allowed : Name → List Byte → Prop)

def IsTarget (name : Name) : Prop := ∃ data, allowed name data

/-- A call writes what is allowed, by way of a name that is no target. -/
def Label.Proper : Label Name Byte → Prop
  | .create _ target temp data => allowed target data ∧ ¬ IsTarget allowed temp
  | _ => True

def Step (before : FileSystem Name Byte) (label : Label Name Byte)
    (after : FileSystem Name Byte) : Prop :=
  label.Proper allowed ∧ before.next label = some after

def put (store : Name → Option (List Byte)) (call : Name × List Byte) :
    Name → Option (List Byte) :=
  Function.update store call.1 (some call.2)

/-- The store that a list of replacements leaves. -/
def held (first : Name → Option (List Byte)) (replaced : List (Name × List Byte)) :
    Name → Option (List Byte) :=
  replaced.foldl put first

theorem held_append (first : Name → Option (List Byte))
    (older newer : List (Name × List Byte)) :
    held first (older ++ newer) = held (held first older) newer :=
  List.foldl_append

/-! ## The steps -/

/-- A change touches no target, or puts a flushed file there. -/
def Change.Harmless (flushed : ℕ → Bool) : Change Name → Prop
  | .link name _ => ¬ IsTarget allowed name
  | .unlink name => ¬ IsTarget allowed name
  | .rename temp _ file => ¬ IsTarget allowed temp ∧ flushed file = true

structure Sound (fs : FileSystem Name Byte) : Prop where
  writer_allowed : ∀ call writer, fs.writers call = some writer →
    allowed writer.target writer.data ∧ ¬ IsTarget allowed writer.temp
  writer_file : ∀ call writer, fs.writers call = some writer →
    writer.file < fs.made ∧ fs.flushed writer.file = writer.flushed ∧
      (writer.flushed = true → fs.files writer.file = writer.data)
  apart : ∀ call call' writer writer', fs.writers call = some writer →
    fs.writers call' = some writer' → writer.file = writer'.file → call = call'
  flushed_made : ∀ file, fs.flushed file = true → file < fs.made
  directory : ∀ name file, IsTarget allowed name → fs.directory name = some file →
    fs.flushed file = true
  changes : ∀ change ∈ fs.changes, change.Harmless allowed fs.flushed

/-- No files, and no one who writes any. -/
def FileSystem.empty : FileSystem Name Byte where
  files _ := []
  made := 0
  flushed _ := false
  directory _ := none
  changes := []
  writers _ := none
  replaced := []

omit [DecidableEq Name] in
theorem sound_empty : Sound allowed (FileSystem.empty : FileSystem Name Byte) where
  writer_allowed _ _ found := nomatch found
  writer_file _ _ found := nomatch found
  apart _ _ _ _ found := nomatch found
  flushed_made _ flushed := nomatch flushed
  directory _ _ _ found := nomatch found
  changes _ member := nomatch member

/-- What a change puts in place of a target. -/
def Change.replacement (files : ℕ → List Byte) : Change Name → Option (Name × List Byte)
  | .rename _ target file => some (target, files file)
  | _ => none

variable {allowed}

theorem Change.Harmless.apply {flushed : ℕ → Bool} {files : ℕ → List Byte}
    {names : Name → Option ℕ} {change : Change Name} (harmless : change.Harmless allowed flushed)
    {name : Name} (target : IsTarget allowed name) :
    (change.apply names name).map files =
      held (fun name => (names name).map files) (change.replacement files).toList name := by
  cases change with
  | link other file =>
      have apart : name ≠ other := fun same => harmless (same ▸ target)
      exact congrArg (Option.map files) (Function.update_of_ne apart _ _)
  | unlink other =>
      have apart : name ≠ other := fun same => harmless (same ▸ target)
      exact congrArg (Option.map files) (Function.update_of_ne apart _ _)
  | rename temp other file =>
      have apart : name ≠ temp := fun same => harmless.1 (same ▸ target)
      change (Function.update (Function.update names temp none) other (some file) name).map files =
        put (fun name => (names name).map files) (other, files file) name
      by_cases same : name = other
      · rw [put, same, Function.update_self, Function.update_self, Option.map_some]
      · rw [put, Function.update_of_ne same, Function.update_of_ne apart,
          Function.update_of_ne same]

/-- Stores that agree on a name agree there after the same replacements. -/
theorem held_congr (first second : Name → Option (List Byte)) {name : Name}
    (same : first name = second name) (replaced : List (Name × List Byte)) :
    held first replaced name = held second replaced name := by
  induction replaced generalizing first second with
  | nil => exact same
  | cons call replaced ih =>
      refine ih _ _ ?_
      by_cases here : name = call.1
      · rw [put, put, here, Function.update_self, Function.update_self]
      · rw [put, put, Function.update_of_ne here, Function.update_of_ne here, same]

/-- What the targets hold after some changes. -/
theorem map_apply {flushed : ℕ → Bool} (files : ℕ → List Byte) {changes : List (Change Name)}
    (harmless : ∀ change ∈ changes, change.Harmless allowed flushed) (names : Name → Option ℕ)
    {name : Name} (target : IsTarget allowed name) :
    (changes.foldl Change.apply names name).map files =
      held (fun name => (names name).map files) (changes.filterMap (Change.replacement files))
        name := by
  induction changes generalizing names with
  | nil => rfl
  | cons change changes ih =>
      obtain ⟨head, rest⟩ := List.forall_mem_cons.mp harmless
      have first : (change :: changes).filterMap (Change.replacement files) =
          (change.replacement files).toList ++ changes.filterMap (Change.replacement files) := by
        rw [List.filterMap_cons]
        cases change.replacement files <;> rfl
      rw [List.foldl_cons, ih rest, first, held_append]
      exact held_congr _ _ (head.apply target) _

omit [DecidableEq Name] in
theorem Change.Harmless.mono {flushed flushed' : ℕ → Bool} {change : Change Name}
    (harmless : change.Harmless allowed flushed)
    (more : ∀ file, flushed file = true → flushed' file = true) :
    change.Harmless allowed flushed' := by
  cases change with
  | link name file => exact harmless
  | unlink name => exact harmless
  | rename temp target file => exact ⟨harmless.1, more file harmless.2⟩

/-- A file that is on the disk stays as it is. -/
def KeepsFlushed (before after : FileSystem Name Byte) : Prop :=
  ∀ file, before.flushed file = true →
    after.flushed file = true ∧ after.files file = before.files file

/-- The entry of a table in which one entry is new. -/
theorem found_update {α : Type*} {table : ℕ → Option α} {call other : ℕ} {value : Option α}
    {entry : α} (found : Function.update table call value other = some entry) :
    (other = call ∧ value = some entry) ∨ (other ≠ call ∧ table other = some entry) := by
  by_cases same : other = call
  · rw [same, Function.update_self] at found
    exact .inl ⟨same, found⟩
  · rw [Function.update_of_ne same] at found
    exact .inr ⟨same, found⟩

namespace Sound

variable {fs after : FileSystem Name Byte} (sound : Sound allowed fs)
include sound

theorem create {call : ℕ} {target temp : Name} {data : List Byte}
    (proper : allowed target data ∧ ¬ IsTarget allowed temp)
    (created : fs.create call target temp data = some after) :
    Sound allowed after ∧ KeepsFlushed fs after := by
  obtain ⟨-, created⟩ := Option.ite_none_right_eq_some.mp created
  obtain rfl := Option.some.inj created
  have older {file : ℕ} (flushed : fs.flushed file = true) : file ≠ fs.made :=
    (sound.flushed_made file flushed).ne
  have keeps (file : ℕ) (flushed : fs.flushed file = true) :
      Function.update fs.flushed fs.made false file = true := by
    rw [Function.update_of_ne (older flushed), flushed]
  refine ⟨⟨?_, ?_, ?_, ?_, ?_, ?_⟩, fun file flushed => ⟨keeps file flushed, ?_⟩⟩
  · intro other writer found
    rcases found_update found with ⟨-, new⟩ | ⟨-, found⟩
    · obtain rfl := Option.some.inj new
      exact proper
    · exact sound.writer_allowed other writer found
  · intro other writer found
    rcases found_update found with ⟨-, new⟩ | ⟨-, found⟩
    · obtain rfl := Option.some.inj new
      exact ⟨Nat.lt_succ_self _, Function.update_self _ _ _, fun flushed => nomatch flushed⟩
    · obtain ⟨made, state, written⟩ := sound.writer_file other writer found
      refine ⟨made.trans (Nat.lt_succ_self _), ?_, fun flushed => ?_⟩
      · exact (Function.update_of_ne made.ne _ _).trans state
      · exact (Function.update_of_ne made.ne _ _).trans (written flushed)
  · intro one other writer writer' found found' same
    rcases found_update found with ⟨rfl, new⟩ | ⟨-, held⟩ <;>
      rcases found_update found' with ⟨rfl, new'⟩ | ⟨-, held'⟩
    · rfl
    · obtain rfl := Option.some.inj new
      exact absurd same.symm (sound.writer_file other writer' held').1.ne
    · obtain rfl := Option.some.inj new'
      exact absurd same (sound.writer_file one writer held).1.ne
    · exact sound.apart one other writer writer' held held' same
  · intro file flushed
    by_cases same : file = fs.made
    · rw [same]
      exact Nat.lt_succ_self _
    · have before := (Function.update_of_ne same _ _).symm.trans flushed
      exact (sound.flushed_made file before).trans (Nat.lt_succ_self _)
  · exact fun name file target listed => keeps file (sound.directory name file target listed)
  · intro change member
    rcases List.mem_append.mp member with earlier | last
    · exact (sound.changes change earlier).mono keeps
    · rw [List.mem_singleton.mp last]
      exact proper.2
  · exact Function.update_of_ne (older flushed) _ _

omit [DecidableEq Name] in
theorem write {call count : ℕ} {writer : Writer Name Byte}
    (found : fs.writers call = some writer) (written : fs.write writer count = some after) :
    Sound allowed after ∧ KeepsFlushed fs after := by
  rw [FileSystem.write] at written
  split at written
  · cases written
  · rename_i unflushed
    obtain rfl := Option.some.inj written
    have other {file : ℕ} (flushed : fs.flushed file = true) : file ≠ writer.file := by
      rintro rfl
      rw [(sound.writer_file call writer found).2.1] at flushed
      exact unflushed flushed
    refine ⟨⟨sound.writer_allowed, ?_, sound.apart, sound.flushed_made, sound.directory,
      sound.changes⟩, fun file flushed => ⟨flushed, Function.update_of_ne (other flushed) _ _⟩⟩
    intro call' writer' found'
    obtain ⟨made, state, whole⟩ := sound.writer_file call' writer' found'
    refine ⟨made, state, fun flushed => ?_⟩
    exact (Function.update_of_ne (other (state.trans flushed)) _ _).trans (whole flushed)

omit [DecidableEq Name] in
theorem flush {call : ℕ} {writer : Writer Name Byte} (found : fs.writers call = some writer) :
    Sound allowed (fs.flush call writer) ∧ KeepsFlushed fs (fs.flush call writer) := by
  obtain ⟨made, state, whole⟩ := sound.writer_file call writer found
  have keeps (file : ℕ) (flushed : fs.flushed file = true) :
      Function.update fs.flushed writer.file true file = true := by
    by_cases same : file = writer.file
    · rw [same, Function.update_self]
    · rw [Function.update_of_ne same, flushed]
  -- Each writer after the flush was a writer of the same file before.
  have old {call' : ℕ} {writer' : Writer Name Byte}
      (found' : (fs.flush call writer).writers call' = some writer') :
      ∃ before, fs.writers call' = some before ∧ before.file = writer'.file := by
    rcases found_update found' with ⟨rfl, new⟩ | ⟨-, held⟩
    · obtain rfl := Option.some.inj new
      exact ⟨writer, found, rfl⟩
    · exact ⟨writer', held, rfl⟩
  refine ⟨⟨?_, ?_, ?_, ?_, ?_, ?_⟩, fun file flushed => ⟨keeps file flushed, ?_⟩⟩
  · intro other writer' found'
    rcases found_update found' with ⟨-, new⟩ | ⟨-, held⟩
    · obtain rfl := Option.some.inj new
      exact sound.writer_allowed call writer found
    · exact sound.writer_allowed other writer' held
  · intro other writer' found'
    rcases found_update found' with ⟨-, new⟩ | ⟨different, held⟩
    · obtain rfl := Option.some.inj new
      exact ⟨made, Function.update_self _ _ _, fun _ => Function.update_self _ _ _⟩
    · have apart : writer'.file ≠ writer.file := fun file =>
        different (sound.apart other call writer' writer held found file)
      obtain ⟨made', state', whole'⟩ := sound.writer_file other writer' held
      refine ⟨made', (Function.update_of_ne apart _ _).trans state', fun flushed => ?_⟩
      exact (Function.update_of_ne apart _ _).trans (whole' flushed)
  · intro one other writer₁ writer₂ found₁ found₂ same
    obtain ⟨before₁, held₁, file₁⟩ := old found₁
    obtain ⟨before₂, held₂, file₂⟩ := old found₂
    exact sound.apart one other before₁ before₂ held₁ held₂ (by rw [file₁, file₂, same])
  · intro file flushed
    by_cases same : file = writer.file
    · rw [same]
      exact made
    · exact sound.flushed_made file ((Function.update_of_ne same _ _).symm.trans flushed)
  · exact fun name file target listed => keeps file (sound.directory name file target listed)
  · exact fun change member => (sound.changes change member).mono keeps
  · by_cases same : file = writer.file
    · subst same
      exact (Function.update_self _ _ _).trans (whole (state.symm.trans flushed)).symm
    · exact Function.update_of_ne same _ _

omit [DecidableEq Name] in
/-- A call renames its file or stops, and changes the directory. -/
theorem finish (call : ℕ) {changed : List (Change Name)} (replaced : List (Name × List Byte))
    (harmless : ∀ change ∈ changed, change.Harmless allowed fs.flushed) :
    Sound allowed { fs with
      changes := fs.changes ++ changed
      writers := Function.update fs.writers call none
      replaced := replaced } := by
  have old {call' : ℕ} {writer : Writer Name Byte}
      (found : Function.update fs.writers call none call' = some writer) :
      fs.writers call' = some writer := by
    rcases found_update found with ⟨-, none_⟩ | ⟨-, found⟩
    · cases none_
    · exact found
  exact {
    writer_allowed := fun other writer found => sound.writer_allowed other writer (old found)
    writer_file := fun other writer found => sound.writer_file other writer (old found)
    apart := fun one other writer writer' found found' =>
      sound.apart one other writer writer' (old found) (old found')
    flushed_made := sound.flushed_made
    directory := sound.directory
    changes := fun change member =>
      (List.mem_append.mp member).elim (sound.changes change) (harmless change) }

omit sound in
/-- A target's file after changes is a file that was there, or one that a change put there. -/
theorem flushed_of_apply {flushed : ℕ → Bool} {changes : List (Change Name)}
    (harmless : ∀ change ∈ changes, change.Harmless allowed flushed) {names : Name → Option ℕ}
    (listed : ∀ name file, IsTarget allowed name → names name = some file → flushed file = true)
    {name : Name} {file : ℕ} (target : IsTarget allowed name)
    (found : changes.foldl Change.apply names name = some file) : flushed file = true := by
  induction changes generalizing names with
  | nil => exact listed name file target found
  | cons change changes ih =>
      obtain ⟨head, rest⟩ := List.forall_mem_cons.mp harmless
      refine ih rest (fun other file' target' found' => ?_) found
      cases change with
      | link temp new =>
          have apart : other ≠ temp := fun same => head (same ▸ target')
          exact listed other file' target' ((Function.update_of_ne apart _ _).symm.trans found')
      | unlink temp =>
          have apart : other ≠ temp := fun same => head (same ▸ target')
          exact listed other file' target' ((Function.update_of_ne apart _ _).symm.trans found')
      | rename temp replaced new =>
          have apart : other ≠ temp := fun same => head.1 (same ▸ target')
          by_cases same : other = replaced
          · subst same
            have put : some new = some file' :=
              (Function.update_self (β := fun _ => Option ℕ) _ _ _).symm.trans found'
            exact Option.some.inj put ▸ head.2
          · have before := (Function.update_of_ne same _ _).symm.trans found'
            exact listed other file' target' ((Function.update_of_ne apart _ _).symm.trans before)

theorem flushDirectory :
    Sound allowed fs.flushDirectory ∧ KeepsFlushed fs fs.flushDirectory := by
  refine ⟨{ sound with directory := ?_, changes := ?_ }, fun file flushed => ⟨flushed, rfl⟩⟩
  · exact fun name file target found =>
      flushed_of_apply sound.changes sound.directory target found
  · exact fun change member => nomatch member

theorem losePower (kept : List Bool) (torn : ℕ → List Byte) :
    Sound allowed (fs.losePower kept torn) ∧ KeepsFlushed fs (fs.losePower kept torn) := by
  refine ⟨⟨?_, ?_, ?_, sound.flushed_made, ?_, ?_⟩, fun file flushed => ⟨flushed, if_pos flushed⟩⟩
  · exact fun call writer found => nomatch found
  · exact fun call writer found => nomatch found
  · exact fun call call' writer writer' found => nomatch found
  · have survived : ∀ change ∈ marked kept fs.changes, change.Harmless allowed fs.flushed :=
      fun change member => sound.changes change ((marked_sublist _ _).subset member)
    exact fun name file target found => flushed_of_apply survived sound.directory target found
  · exact fun change member => nomatch member

theorem step {label : Label Name Byte} (taken : Step allowed fs label after) :
    Sound allowed after ∧ KeepsFlushed fs after := by
  obtain ⟨proper, taken⟩ := taken
  cases label with
  | create call target temp data => exact sound.create proper taken
  | write call count =>
      obtain ⟨writer, found, written⟩ := Option.bind_eq_some_iff.mp taken
      exact sound.write found written
  | flush call =>
      obtain ⟨writer, found, rfl⟩ := Option.map_eq_some_iff.mp taken
      exact sound.flush found
  | rename call =>
      obtain ⟨writer, found, renamed⟩ := Option.bind_eq_some_iff.mp taken
      obtain ⟨flushed, renamed⟩ := Option.ite_none_right_eq_some.mp renamed
      obtain rfl := Option.some.inj renamed
      obtain ⟨-, state, -⟩ := sound.writer_file call writer found
      refine ⟨sound.finish call _ fun change member => ?_, fun file flushed => ⟨flushed, rfl⟩⟩
      rw [List.mem_singleton.mp member]
      exact ⟨(sound.writer_allowed call writer found).2, state.trans flushed⟩
  | stop call removed =>
      obtain ⟨writer, found, rfl⟩ := Option.map_eq_some_iff.mp taken
      refine ⟨?_, fun file flushed => ⟨flushed, rfl⟩⟩
      cases removed with
      | false =>
          have finished := sound.finish call fs.replaced
            fun change member => absurd member List.not_mem_nil
          rwa [List.append_nil] at finished
      | true =>
          refine sound.finish call _ fun change member => ?_
          rw [List.mem_singleton.mp member]
          exact (sound.writer_allowed call writer found).2
  | flushDirectory =>
      obtain rfl := Option.some.inj taken
      exact sound.flushDirectory
  | losePower kept torn =>
      obtain rfl := Option.some.inj taken
      exact sound.losePower kept torn

end Sound

/-! ## The runs -/

variable (allowed) in
/-- The replacements on the disk and those that are not there yet, on top of what the targets
held first. -/
structure Tracks (first : Name → Option (List Byte)) (settled pending : List (Name × List Byte))
    (fs : FileSystem Name Byte) : Prop where
  directory : ∀ name, IsTarget allowed name →
    (fs.directory name).map fs.files = held first settled name
  changes : fs.changes.filterMap (Change.replacement fs.files) = pending

variable (allowed) in
/-- What some steps replaced, and what of it there is after them. -/
def Advanced (first : Name → Option (List Byte)) (settled pending : List (Name × List Byte))
    (fs after : FileSystem Name Byte) (lossless : Prop) : Prop :=
  ∃ replaced settled' pending', after.replaced = fs.replaced ++ replaced ∧
    (∀ call ∈ replaced, allowed call.1 call.2) ∧ Tracks allowed first settled' pending' after ∧
    (settled' ++ pending').Sublist (settled ++ pending ++ replaced) ∧
    (lossless → settled' ++ pending' = settled ++ pending ++ replaced)

namespace Tracks

variable {first : Name → Option (List Byte)} {settled pending : List (Name × List Byte)}
  {fs after : FileSystem Name Byte} (tracks : Tracks allowed first settled pending fs)
  (sound : Sound allowed fs)
include tracks sound

/-- The directory on the disk stays, and some changes are added. -/
theorem keep {changed : List (Change Name)} (keeps : KeepsFlushed fs after)
    (directory : after.directory = fs.directory) (changes : after.changes = fs.changes ++ changed) :
    Tracks allowed first settled
      (pending ++ changed.filterMap (Change.replacement after.files)) after where
  directory name target := by
    rw [directory, ← tracks.directory name target]
    cases listed : fs.directory name with
    | none => rfl
    | some file =>
        exact congrArg some (keeps file (sound.directory name file target listed)).2
  changes := by
    rw [changes, List.filterMap_append, ← tracks.changes]
    congr 1
    refine List.filterMap_congr fun change member => ?_
    cases change with
    | link name file => rfl
    | unlink name => rfl
    | rename temp target file =>
        exact congrArg (fun data => some (target, data))
          (keeps file (sound.changes _ member).2).2

/-- What is read is everything, whether it is on the disk or not. -/
theorem read {name : Name} (target : IsTarget allowed name) :
    fs.read name = held first (settled ++ pending) name := by
  rw [FileSystem.read, FileSystem.view, map_apply fs.files sound.changes fs.directory target,
    held_append, tracks.changes]
  exact held_congr _ _ (tracks.directory name target) pending

theorem flushDirectory : Tracks allowed first (settled ++ pending) [] fs.flushDirectory where
  directory _ target := tracks.read sound target
  changes := rfl

theorem losePower (kept : List Bool) (torn : ℕ → List Byte) :
    ∃ survived, survived.Sublist pending ∧
      Tracks allowed first (settled ++ survived) [] (fs.losePower kept torn) := by
  have some_ := marked_sublist kept fs.changes
  have harmless : ∀ change ∈ marked kept fs.changes, change.Harmless allowed fs.flushed :=
    fun change member => sound.changes change (some_.subset member)
  refine ⟨(marked kept fs.changes).filterMap (Change.replacement fs.files),
    tracks.changes ▸ some_.filterMap _, fun name target => ?_, rfl⟩
  have whole := map_apply fs.files harmless fs.directory target
  rw [held_append, ← held_congr (fun name => (fs.directory name).map fs.files) _
    (tracks.directory name target), ← whole]
  cases found : (marked kept fs.changes).foldl Change.apply fs.directory name with
  | none =>
      change ((marked kept fs.changes).foldl Change.apply fs.directory name).map _ = _
      rw [found]
      rfl
  | some file =>
      change ((marked kept fs.changes).foldl Change.apply fs.directory name).map _ = _
      rw [found]
      exact congrArg some (if_pos (Sound.flushed_of_apply harmless sound.directory target found))

/-- Nothing is replaced where the steps change no target. -/
theorem unchanged {changed : List (Change Name)} {lossless : Prop} (keeps : KeepsFlushed fs after)
    (same : after.replaced = fs.replaced) (directory : after.directory = fs.directory)
    (changes : after.changes = fs.changes ++ changed)
    (others : changed.filterMap (Change.replacement after.files) = []) :
    Advanced allowed first settled pending fs after lossless := by
  have kept := tracks.keep sound keeps directory changes
  rw [others, List.append_nil] at kept
  refine ⟨[], settled, pending, ?_, List.forall_mem_nil _, kept, ?_, fun _ => ?_⟩
  · rw [same, List.append_nil]
  · rw [List.append_nil]
  · rw [List.append_nil]

/-- A step makes at most one replacement, and only a loss of power takes any away. -/
theorem step {label : Label Name Byte} (taken : Step allowed fs label after) :
    Advanced allowed first settled pending fs after (label.isLoss = false) := by
  have keeps := (sound.step taken).2
  obtain ⟨-, taken⟩ := taken
  cases label with
  | create call target temp data =>
      obtain ⟨-, created⟩ := Option.ite_none_right_eq_some.mp taken
      obtain rfl := Option.some.inj created
      exact tracks.unchanged sound keeps rfl rfl rfl rfl
  | write call count =>
      obtain ⟨writer, -, written⟩ := Option.bind_eq_some_iff.mp taken
      obtain ⟨-, written⟩ := Option.ite_none_left_eq_some.mp written
      obtain rfl := Option.some.inj written
      exact tracks.unchanged sound keeps rfl rfl (List.append_nil _).symm rfl
  | flush call =>
      obtain ⟨writer, -, rfl⟩ := Option.map_eq_some_iff.mp taken
      exact tracks.unchanged sound keeps rfl rfl (List.append_nil _).symm rfl
  | rename call =>
      obtain ⟨writer, found, renamed⟩ := Option.bind_eq_some_iff.mp taken
      obtain ⟨flushed, renamed⟩ := Option.ite_none_right_eq_some.mp renamed
      obtain rfl := Option.some.inj renamed
      have kept := tracks.keep sound keeps rfl rfl
      have put : [Change.rename writer.temp writer.target writer.file].filterMap
          (Change.replacement fs.files) = [(writer.target, writer.data)] :=
        congrArg (fun data => [(writer.target, data)])
          ((sound.writer_file call writer found).2.2 flushed)
      refine ⟨[(writer.target, writer.data)], settled, pending ++ [(writer.target, writer.data)],
        rfl, fun call' member => ?_, put ▸ kept, ?_, fun _ => (List.append_assoc _ _ _).symm⟩
      · rw [List.mem_singleton.mp member]
        exact (sound.writer_allowed call writer found).1
      · rw [List.append_assoc]
  | stop call removed =>
      obtain ⟨writer, -, rfl⟩ := Option.map_eq_some_iff.mp taken
      cases removed with
      | false => exact tracks.unchanged sound keeps rfl rfl (List.append_nil _).symm rfl
      | true => exact tracks.unchanged sound keeps rfl rfl rfl rfl
  | flushDirectory =>
      obtain rfl := Option.some.inj taken
      exact ⟨[], settled ++ pending, [], (List.append_nil _).symm, List.forall_mem_nil _,
        tracks.flushDirectory sound, List.Sublist.refl _, fun _ => rfl⟩
  | losePower kept torn =>
      obtain rfl := Option.some.inj taken
      obtain ⟨survived, fewer, tracks'⟩ := tracks.losePower sound kept torn
      refine ⟨[], settled ++ survived, [], (List.append_nil _).symm, List.forall_mem_nil _,
        tracks', ?_, fun loss => nomatch loss⟩
      rw [List.append_nil, List.append_nil]
      exact (List.Sublist.refl settled).append fewer

/-- What a run replaces, and what of it there is at the end. -/
theorem run {labels : List (Label Name Byte)} (run : Run (Step allowed) fs labels after) :
    Sound allowed after ∧
      Advanced allowed first settled pending fs after (∀ label ∈ labels, label.isLoss = false) := by
  induction run generalizing settled pending with
  | refl fs =>
      refine ⟨sound, [], settled, pending, (List.append_nil _).symm, List.forall_mem_nil _,
        tracks, ?_, fun _ => (List.append_nil _).symm⟩
      rw [List.append_nil]
  | cons taken _ ih =>
      obtain ⟨replaced₁, settled₁, pending₁, renamed₁, proper₁, tracks₁, fewer₁, all₁⟩ :=
        tracks.step sound taken
      obtain ⟨sound₂, replaced₂, settled₂, pending₂, renamed₂, proper₂, tracks₂, fewer₂, all₂⟩ :=
        ih tracks₁ (sound.step taken).1
      refine ⟨sound₂, replaced₁ ++ replaced₂, settled₂, pending₂, ?_, ?_, tracks₂, ?_, ?_⟩
      · rw [renamed₂, renamed₁, List.append_assoc]
      · exact fun call member => (List.mem_append.mp member).elim (proper₁ call) (proper₂ call)
      · rw [← List.append_assoc]
        exact fewer₂.trans (fewer₁.append (List.Sublist.refl _))
      · intro noLoss
        obtain ⟨here, later⟩ := List.forall_mem_cons.mp noLoss
        rw [all₂ later, all₁ here, List.append_assoc (settled ++ pending)]

end Tracks

variable {first last : FileSystem Name Byte} {labels : List (Label Name Byte)}

/-- From a directory that is on the disk, the targets end up with some of the replacements, in
their order, and without a loss of power with all of them. -/
theorem read_of_run (sound : Sound allowed first) (settled : first.changes = [])
    (run : Run (Step allowed) first labels last) :
    Sound allowed last ∧ ∃ replaced survived, last.replaced = first.replaced ++ replaced ∧
      (∀ call ∈ replaced, allowed call.1 call.2) ∧ survived.Sublist replaced ∧
      ((∀ label ∈ labels, label.isLoss = false) → survived = replaced) ∧
      ∀ name, IsTarget allowed name → last.read name = held first.read survived name := by
  have start : Tracks allowed first.read [] [] first := by
    refine ⟨fun name _ => ?_, by rw [settled]; rfl⟩
    change _ = first.read name
    rw [FileSystem.read, FileSystem.view, settled]
    rfl
  obtain ⟨sound', replaced, settled', pending', renamed, proper, tracks, fewer, all⟩ :=
    start.run sound run
  exact ⟨sound', replaced, settled' ++ pending', renamed, proper, fewer, all,
    fun name target => tracks.read sound' target⟩

/-- A file that is on the disk is the same at the end of every run. -/
theorem files_of_run (sound : Sound allowed first) (run : Run (Step allowed) first labels last)
    {file : ℕ} (flushed : first.flushed file = true) :
    last.flushed file = true ∧ last.files file = first.files file := by
  induction run with
  | refl => exact ⟨flushed, rfl⟩
  | cons taken _ ih =>
      obtain ⟨sound', keeps⟩ := sound.step taken
      obtain ⟨still, same⟩ := keeps file flushed
      obtain ⟨flushed', files⟩ := ih sound' still
      exact ⟨flushed', files.trans same⟩

/-- Who has a target open reads it to its end as it was. -/
theorem opened_of_run (sound : Sound allowed first) (run : Run (Step allowed) first labels last)
    {name : Name} {file : ℕ} (target : IsTarget allowed name)
    (opened : first.view name = some file) : last.files file = first.files file :=
  (files_of_run sound run
    (Sound.flushed_of_apply sound.changes sound.directory target opened)).2

end Directory

end AtomicReplace
