import Adai.Math.ByteNumbers
import Adai.Tokenizer.VocabFile

/-! # Checked reads and writes

The files of a checkpoint are sequences of little-endian 32-bit words, integers and
floats alike, and of single bytes for flags. A reader takes its fields off the front
of a file and fails on a short read or on bytes left over; a writer leaves the whole
file or fails. What a failed write leaves is not modelled.
-/

namespace Adai.Checkpoint

open Tokenizer ByteNumbers Tables

/-- The bits of a float or an integer. -/
abbrev Word := UInt32

inductive LoadError
  | runtime (text : String)
  | vocabulary (error : TokenizerError)
  deriving DecidableEq, Repr

def intWord (n : Int) : Word := (Int32.ofInt n).toUInt32

def wordInt (w : Word) : Int := w.toInt32.toInt

def wordBytes (w : Word) : Bytes := toLittleEndian 4 w.toNat

def wordOf (bytes : Bytes) : Word := UInt32.ofNat (littleEndian bytes)

@[simp] theorem length_wordBytes (w : Word) : (wordBytes w).length = 4 :=
  length_toLittleEndian 4 w.toNat

@[simp] theorem wordOf_wordBytes (w : Word) : wordOf (wordBytes w) = w := by
  have bound : w.toNat < 256 ^ 4 := w.toNat_lt
  rw [wordOf, wordBytes, littleEndian_toLittleEndian bound, UInt32.ofNat_toNat]

/-! ## Matrices -/

/-- Row after row. -/
structure Matrix (rows cols : Nat) where
  words : List Word
  size : words.length = rows * cols
  deriving DecidableEq

def wordsOf : Nat → Bytes → List Word
  | 0, _ => []
  | count + 1, bytes => wordOf (bytes.take 4) :: wordsOf count (bytes.drop 4)

theorem length_wordsOf (count : Nat) (bytes : Bytes) : (wordsOf count bytes).length = count := by
  induction count generalizing bytes with
  | zero => rfl
  | succ count ih => rw [wordsOf, List.length_cons, ih]

theorem wordsOf_flatMap (words : List Word) : wordsOf words.length (words.flatMap wordBytes) = words := by
  induction words with
  | nil => rfl
  | cons w rest ih =>
      have four : (wordBytes w).length = 4 := length_wordBytes w
      rw [List.flatMap_cons, List.length_cons, wordsOf, ← four, List.take_left, List.drop_left, ih,
        wordOf_wordBytes]

theorem length_flatMap_wordBytes (words : List Word) :
    (words.flatMap wordBytes).length = 4 * words.length := by
  induction words with
  | nil => rfl
  | cons w rest ih =>
      rw [List.flatMap_cons, List.length_append, ih, length_wordBytes, List.length_cons]
      omega

namespace Matrix

variable {rows cols : Nat}

def bytes (m : Matrix rows cols) : Bytes := m.words.flatMap wordBytes

/-- All elements alike. -/
def constant (rows cols : Nat) (w : Word) : Matrix rows cols :=
  ⟨List.replicate (rows * cols) w, List.length_replicate⟩

@[ext] theorem ext {m m' : Matrix rows cols} (same : m.words = m'.words) : m = m' := by
  cases m
  cases m'
  cases same
  rfl

end Matrix

/-! ## Readers -/

abbrev FileReader (α : Type) := StateT Bytes (Except LoadError) α

namespace FileReader

def bytes (path what : String) (count : Nat) : FileReader Bytes := fun left =>
  if left.length < count then
    .error (.runtime ("Truncated or unreadable file " ++ path ++ " (reading " ++ what ++ ")"))
  else .ok (left.take count, left.drop count)

def value (path what : String) : FileReader Word := do
  return wordOf (← bytes path what 4)

def flag (path what : String) : FileReader Bool := do
  return (← bytes path what 1) ≠ [0]

def matrix (path what : String) (rows cols : Nat) : FileReader (Matrix rows cols) := do
  let content ← bytes path what (4 * (rows * cols))
  return ⟨wordsOf (rows * cols) content, length_wordsOf _ _⟩

def expectEnd (path : String) : FileReader Unit := fun left =>
  if left = [] then .ok ((), [])
  else .error (.runtime ("Unexpected trailing data in " ++ path ++
    " (the file doesn't match this model's shapes)"))

def require (holds : Prop) [Decidable holds] (text : String) : FileReader Unit := fun left =>
  if holds then .ok ((), left) else .error (.runtime text)

variable {α β : Type}

@[simp] theorem pure_apply (value : α) (left : Bytes) :
    (pure value : FileReader α) left = .ok (value, left) :=
  rfl

theorem bind_of_read {first : FileReader α} {next : α → FileReader β} {left rest : Bytes} {a : α}
    (read : first left = .ok (a, rest)) : (first >>= next) left = next a rest := by
  change Except.bind (first left) (fun p => next p.1 p.2) = next a rest
  rw [read]
  rfl

theorem bytes_append (path what : String) (piece rest : Bytes) :
    bytes path what piece.length (piece ++ rest) = .ok (piece, rest) := by
  have enough : ¬ (piece ++ rest).length < piece.length := by
    rw [List.length_append]
    omega
  rw [bytes, if_neg enough, List.take_left, List.drop_left]

@[simp] theorem value_bind (path what : String) (w : Word) (next : Word → FileReader β)
    (rest : Bytes) : (value path what >>= next) (wordBytes w ++ rest) = next w rest := by
  apply bind_of_read
  have read := bytes_append path what (wordBytes w) rest
  rw [length_wordBytes] at read
  rw [value, bind_of_read read, pure_apply, wordOf_wordBytes]

@[simp] theorem flag_bind (path what : String) (set : Bool) (next : Bool → FileReader β)
    (rest : Bytes) :
    (flag path what >>= next) ((if set then 1 else 0) :: rest) = next set rest := by
  apply bind_of_read
  cases set <;> rfl

@[simp] theorem matrix_bind (path what : String) {rows cols : Nat} (m : Matrix rows cols)
    (next : Matrix rows cols → FileReader β) (rest : Bytes) :
    (matrix path what rows cols >>= next) (m.bytes ++ rest) = next m rest := by
  apply bind_of_read
  have length : m.bytes.length = 4 * (rows * cols) := by
    rw [Matrix.bytes, length_flatMap_wordBytes, m.size]
  have read := bytes_append path what m.bytes rest
  rw [length] at read
  have same : wordsOf (rows * cols) m.bytes = m.words := by
    rw [← m.size]
    exact wordsOf_flatMap m.words
  rw [matrix, bind_of_read read, pure_apply]
  exact congrArg (fun m => Except.ok (m, rest)) (Matrix.ext same)

@[simp] theorem require_bind {holds : Prop} [Decidable holds] (met : holds) (text : String)
    (next : Unit → FileReader β) (left : Bytes) :
    (require holds text >>= next) left = next () left :=
  bind_of_read (if_pos met)

@[simp] theorem expectEnd_bind (path : String) (next : Unit → FileReader β) :
    (expectEnd path >>= next) [] = next () [] :=
  bind_of_read rfl

end FileReader

/-! ## Files -/

variable {α : Type}

def readFile (disk : Disk) (path : String) (read : FileReader α) : Except LoadError α :=
  match disk.files.lookup path with
  | none => .error (.runtime ("Failed to open file for reading: " ++ path))
  | some content => (read content).map Prod.fst

abbrev Saving := Disk → Except LoadError Disk

def writeFile (path : String) (content : Bytes) : Saving := fun disk =>
  if !disk.opens path then .error (.runtime ("Failed to open file for writing: " ++ path))
  else if !disk.writes path then .error (.runtime ("Failed to write " ++ path ++ " (flush/close)"))
  else .ok { disk with files := disk.files.insert path content }

/-- A file that holds what the reader reads, and nothing after it. -/
theorem readFile_of_reads {disk : Disk} {path : String} {read : FileReader α} {content : Bytes}
    {value : α} (stored : disk.files.lookup path = some content)
    (reads : read content = .ok (value, [])) : readFile disk path read = .ok value := by
  rw [readFile, stored]
  dsimp only
  rw [reads]
  rfl

/-! ## What is written -/

namespace Saving

def andThen (first next : Saving) : Saving := fun disk => (first disk).bind next

/-- Numbered components, in the order of their numbers. -/
def each {τ : Type} (save : Nat → τ → Saving) : Nat → List τ → Saving
  | _, [] => .ok
  | i, t :: rest => andThen (save i t) (each save (i + 1) rest)

/-- A component that may be missing. -/
def optional {τ : Type} (save : τ → Saving) : Option τ → Saving
  | none => .ok
  | some t => save t

end Saving

/-- A save that succeeds leaves the files, and the others as they were. -/
def Writes (save : Saving) (files : List (String × Bytes)) : Prop :=
  ∀ disk disk', save disk = .ok disk' →
    ∀ name, disk'.files.lookup name = (insertAll files disk.files).lookup name

namespace Writes

variable {first next save : Saving} {files files' : List (String × Bytes)}

theorem nothing : Writes .ok [] := by
  rintro disk disk' saved name
  cases saved
  rfl

theorem file (path : String) (content : Bytes) :
    Writes (writeFile path content) [(path, content)] := by
  intro disk disk' saved name
  unfold writeFile at saved
  split at saved
  · cases saved
  · split at saved
    · cases saved
    · cases saved
      rfl

theorem andThen (one : Writes first files) (two : Writes next files') :
    Writes (first.andThen next) (files ++ files') := by
  intro disk disk' saved name
  unfold Saving.andThen at saved
  cases between : first disk with
  | error e =>
      rw [between] at saved
      cases saved
  | ok middle =>
      rw [between] at saved
      rw [two middle disk' saved, insertAll_append]
      exact lookup_insertAll_congr files' (one disk middle between) name

theorem each {τ : Type} {save : Nat → τ → Saving} {filesOf : Nat → τ → List (String × Bytes)}
    (writes : ∀ j t, Writes (save j t) (filesOf j t)) (i : Nat) (parts : List τ) :
    Writes (Saving.each save i parts) ((parts.mapIdx fun j t => filesOf (i + j) t).flatten) := by
  induction parts generalizing i with
  | nil => exact nothing
  | cons t rest ih =>
      have shift : (rest.mapIdx fun j u => filesOf (i + (j + 1)) u) =
          rest.mapIdx fun j u => filesOf (i + 1 + j) u := by
        congr 1
        funext j u
        rw [Nat.add_assoc, Nat.add_comm 1 j]
      rw [List.mapIdx_cons, List.flatten_cons, shift, Nat.add_zero]
      exact (writes i t).andThen (ih (i + 1))

theorem optional {τ : Type} {save : τ → Saving} {filesOf : τ → List (String × Bytes)}
    (writes : ∀ t, Writes (save t) (filesOf t)) (part : Option τ) :
    Writes (Saving.optional save part) (part.toList.flatMap filesOf) := by
  cases part with
  | none => exact nothing
  | some t =>
      have alone : (some t).toList.flatMap filesOf = filesOf t := List.flatMap_singleton ..
      rw [alone]
      exact writes t

end Writes

end Adai.Checkpoint
