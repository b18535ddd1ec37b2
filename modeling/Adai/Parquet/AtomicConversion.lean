import Mathlib.Logic.Function.Basic
import Adai.Parquet.RowGroups

/-! # Conversions that leave no trace when they fail

Rows are written while later row groups may still fail. An appending conversion cuts
the target back to its old size, or removes a target that was not there; a fresh one
writes to a temporary file that replaces the target at the end. Whatever fails and
wherever, the target is then as it was (`Adai.Parquet.convert_to_jsonl_atomic`).
-/

namespace Adai.Parquet

/-! ## The conversion -/

/-- The contents of the files that exist. -/
abbrev Files := String → Option Bytes

/-- What the disk and the memory do during one conversion. -/
structure Surroundings where
  /-- The target's existence and size can be read. -/
  sizeRead : Bool := true
  opened : Bool := true
  /-- An exception ends the conversion after this many lines. -/
  throwsAfter : Option Nat := none
  /-- The stream fails when this many bytes have reached the file. -/
  failsAfter : Option Nat := none
  moved : Bool := true
  /-- The truncation or the removal after a failure succeeds. -/
  restored : Bool := true
  deriving DecidableEq, Repr

namespace Surroundings

variable (env : Surroundings)

/-- The lines that are passed to the stream, and whether the conversion came to its end. -/
def emitted (emission : List Bytes × Bool) : List Bytes × Bool :=
  match env.throwsAfter with
  | none => emission
  | some n => (emission.1.take n, false)

/-- The bytes that reach the file. -/
def written (lines : List Bytes) : Bytes :=
  match env.failsAfter with
  | none => lines.flatten
  | some n => lines.flatten.take n

end Surroundings

/-- A file after bytes were appended to it; a missing one is created. -/
def append (files : Files) (path : String) (bytes : Bytes) : Files :=
  Function.update files path (some ((files path).getD [] ++ bytes))

def truncate (files : Files) (path : String) : Files :=
  Function.update files path (some [])

def remove (files : Files) (path : String) : Files := Function.update files path none

/-- A file that was cut or zero-filled to a size. -/
def resizeFile (files : Files) (path : String) (size : Nat) : Files :=
  Function.update files path
    ((files path).map fun content => (content.take size).rightpad size 0)

def rename (files : Files) (source path : String) : Files :=
  Function.update (Function.update files path (files source)) source none

/-- The end of a failed conversion of a target that had the size `original`, or was not
there. -/
def rollBack (outJsonlPath writePath : String) (appending : Bool) (original : Option Nat)
    (files : Files) : Files :=
  if !appending then remove files writePath
  else
    match original with
    | some originalSize => resizeFile files outJsonlPath originalSize
    | none => remove files outJsonlPath

section Conversion

variable (doubleText : Nat → Bytes)

/-- The number of rows, or nothing when a failure is reported, and the files afterwards. -/
def convertToJsonl (env : Surroundings) (parquet : Option Bytes) (outJsonlPath : String)
    (appending : Bool) (files : Files) : Option Nat × Files :=
  let original := (files outJsonlPath).map List.length
  if !env.sizeRead then (none, files)
  else
    let writePath := if appending then outJsonlPath else outJsonlPath ++ ".tmp"
    if !env.opened then (none, files)
    else
      let (lines, complete) := env.emitted (convertToJsonlImpl doubleText parquet)
      let openedFiles := if appending then files else truncate files writePath
      let files' := append openedFiles writePath (env.written lines)
      if complete && env.failsAfter.isNone then
        if appending then (some lines.length, files')
        else if env.moved then (some lines.length, rename files' writePath outJsonlPath)
        else (none, if env.restored then remove files' writePath else files')
      else
        (none, if env.restored then rollBack outJsonlPath writePath appending original files'
          else files')

/-! ## Restoring -/

/-- A conversion that is not interrupted passes everything on. -/
theorem emitted_complete {env : Surroundings} {emission : List Bytes × Bool} {lines : List Bytes}
    (emitted : env.emitted emission = (lines, true)) :
    emission = (lines, true) := by
  unfold Surroundings.emitted at emitted
  split at emitted
  case h_1 => exact emitted
  case h_2 => cases emitted

theorem append_of_ne (files : Files) {path other : String} (apart : other ≠ path) (bytes : Bytes) :
    append files path bytes other = files other := Function.update_of_ne apart _ _

theorem truncate_of_ne (files : Files) {path other : String} (apart : other ≠ path) :
    truncate files path other = files other := Function.update_of_ne apart _ _

theorem remove_of_ne (files : Files) {path other : String} (apart : other ≠ path) :
    remove files path other = files other := Function.update_of_ne apart _ _

theorem ne_append_tmp (path : String) : path ≠ path ++ ".tmp" := by
  intro same
  have lengths := congrArg String.length same
  rw [String.length_append] at lengths
  have some_ : 0 < ".tmp".length := by decide
  omega

/-- What was appended is cut off again. -/
theorem rollBack_append (files : Files) (path writePath : String) (bytes : Bytes) :
    rollBack path writePath true ((files path).map List.length) (append files path bytes) path =
      files path := by
  cases was : files path with
  | none => simp [rollBack, remove]
  | some content => simp [rollBack, resizeFile, append, was, List.rightpad]

/-- Nothing that a fresh conversion does before its last step reaches another file, and
neither does the removal of the temporary file. -/
theorem fresh_of_ne (files : Files) {path other : String} (apart : other ≠ path) (bytes : Bytes)
    (removed : Bool) :
    (if removed then remove (append (truncate files path) path bytes) path
      else append (truncate files path) path bytes) other = files other := by
  cases removed with
  | true => rw [if_pos rfl, remove_of_ne _ apart, append_of_ne _ apart, truncate_of_ne _ apart]
  | false =>
    rw [if_neg Bool.false_ne_true, append_of_ne _ apart, truncate_of_ne _ apart]

/-- A conversion that reports a failure leaves the target as it was, if what restores it
succeeds; nothing need be restored after a fresh one. -/
theorem convert_to_jsonl_atomic (env : Surroundings) (parquet : Option Bytes)
    (outJsonlPath : String) (appending : Bool) (files : Files)
    (restored : appending = true → env.restored = true)
    (failed : (convertToJsonl doubleText env parquet outJsonlPath appending files).1 = none) :
    (convertToJsonl doubleText env parquet outJsonlPath appending files).2 outJsonlPath =
      files outJsonlPath := by
  have apart := ne_append_tmp outJsonlPath
  by_cases sized : env.sizeRead
  case neg => simp [convertToJsonl, sized]
  by_cases opened : env.opened
  case neg => simp [convertToJsonl, sized, opened]
  generalize emission : env.emitted (convertToJsonlImpl doubleText parquet) = emitted at *
  obtain ⟨lines, complete⟩ := emitted
  simp only [convertToJsonl, sized, opened, emission, Bool.not_true, Bool.false_eq_true,
    if_false] at failed ⊢
  by_cases finished : (complete && env.failsAfter.isNone) = true
  · simp only [finished, if_true] at failed ⊢
    cases appending with
    | true => cases failed
    | false =>
      by_cases moved : env.moved
      · simp [moved] at failed
      · simp only [moved, Bool.false_eq_true, if_false]
        exact fresh_of_ne files apart _ env.restored
  · simp only [finished, Bool.false_eq_true, if_false]
    cases appending with
    | true =>
      rw [restored rfl]
      exact rollBack_append files outJsonlPath outJsonlPath _
    | false => exact fresh_of_ne files apart _ env.restored

/-- A conversion that reports rows has written the lines of the whole file, behind the old
content or in its place. -/
theorem convert_to_jsonl_complete {env : Surroundings} {parquet : Option Bytes}
    {outJsonlPath : String} {appending : Bool} {files files' : Files} {rows : Nat}
    (converted : convertToJsonl doubleText env parquet outJsonlPath appending files =
      (some rows, files')) :
    ∃ lines, convertToJsonlImpl doubleText parquet = (lines, true) ∧ rows = lines.length ∧
      files' outJsonlPath =
        some ((if appending then (files outJsonlPath).getD [] else []) ++ lines.flatten) := by
  by_cases sized : env.sizeRead
  case neg => simp [convertToJsonl, sized] at converted
  by_cases opened : env.opened
  case neg => simp [convertToJsonl, sized, opened] at converted
  generalize emission : env.emitted (convertToJsonlImpl doubleText parquet) = emitted at *
  obtain ⟨lines, complete⟩ := emitted
  simp only [convertToJsonl, sized, opened, emission, Bool.not_true, Bool.false_eq_true,
    if_false] at converted
  by_cases finished : (complete && env.failsAfter.isNone) = true
  case neg => simp [finished] at converted
  obtain ⟨rfl, whole⟩ := Bool.and_eq_true_iff.mp finished
  have output := emitted_complete emission
  have bytes : env.written lines = lines.flatten := by
    rw [Surroundings.written, Option.isNone_iff_eq_none.mp whole]
  simp only [finished, if_true, bytes] at converted
  cases appending with
  | true =>
    cases converted
    exact ⟨lines, output, rfl, by simp [append]⟩
  | false =>
    by_cases moved : env.moved
    · simp only [moved, if_true, Bool.false_eq_true, if_false, Prod.mk.injEq,
        Option.some.injEq] at converted
      obtain ⟨rfl, rfl⟩ := converted
      refine ⟨lines, output, rfl, ?_⟩
      simp [rename, Function.update_of_ne (ne_append_tmp outJsonlPath), append, truncate]
    · simp [moved] at converted

end Conversion

/-- A file that is no Parquet file, appended to a target with one line. -/
theorem convert_to_jsonl_atomic_appending :
    (convertToJsonl (fun _ => []) {} (some (Tokenizer.ascii "no Parquet file")) "rows.jsonl" true
      (fun _ => some [0x0A])).2 "rows.jsonl" = some [0x0A] :=
  convert_to_jsonl_atomic (fun _ => []) {} (some (Tokenizer.ascii "no Parquet file")) "rows.jsonl" true
    (fun _ => some [0x0A]) (fun _ => rfl) (by decide)

end Adai.Parquet
