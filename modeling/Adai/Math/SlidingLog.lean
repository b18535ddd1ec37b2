import Mathlib.Data.List.GetD
import Mathlib.Data.List.Range

/-! # A log read through a sliding window

Entries are appended at the back of a window and discarded at its front, and a reader
takes everything past its cursor. Positions count from the first entry ever appended, so
neither move changes what a position means. The reader takes each position at most once,
in order, and none that is in the window when it reads escapes it (`SlidingLog.Sound`).

`Tracks` connects a log to the lists and the offset into the window that a program keeps.
-/

structure SlidingLog where
  /-- How many entries were appended. -/
  appended : ℕ
  /-- The first position still in the window. -/
  base : ℕ
  cursor : ℕ
  /-- The positions that were read. -/
  taken : List ℕ

namespace SlidingLog

def empty : SlidingLog := ⟨0, 0, 0, []⟩

def append (log : SlidingLog) : SlidingLog :=
  { log with appended := log.appended + 1 }

def discard (log : SlidingLog) (count : ℕ) : SlidingLog :=
  { log with base := log.base + count }

/-- Where the next read starts. -/
def start (log : SlidingLog) : ℕ :=
  max log.base log.cursor

def sync (log : SlidingLog) : SlidingLog :=
  { log with
    cursor := log.appended
    taken := log.taken ++ List.range' log.start (log.appended - log.start) }

structure Sound (log : SlidingLog) : Prop where
  base_le : log.base ≤ log.appended
  cursor_le : log.cursor ≤ log.appended
  increasing : log.taken.Pairwise (· < ·)
  passed : ∀ i ∈ log.taken, i < log.cursor
  complete : ∀ i, log.base ≤ i → i < log.cursor → i ∈ log.taken

theorem empty_sound : Sound empty where
  base_le := le_rfl
  cursor_le := le_rfl
  increasing := .nil
  passed i member := by cases member
  complete i _ before := absurd before (Nat.not_lt_zero i)

variable {log : SlidingLog}

theorem Sound.append (sound : log.Sound) : log.append.Sound where
  base_le := Nat.le_succ_of_le sound.base_le
  cursor_le := Nat.le_succ_of_le sound.cursor_le
  increasing := sound.increasing
  passed := sound.passed
  complete := sound.complete

theorem Sound.discard (sound : log.Sound) {count : ℕ} (inWindow : log.base + count ≤ log.appended) :
    (log.discard count).Sound where
  base_le := inWindow
  cursor_le := sound.cursor_le
  increasing := sound.increasing
  passed := sound.passed
  complete i inside := sound.complete i ((Nat.le_add_right ..).trans inside)

theorem Sound.start_le (sound : log.Sound) : log.start ≤ log.appended :=
  max_le sound.base_le sound.cursor_le

theorem mem_sync {i : ℕ} : i ∈ log.sync.taken ↔
    i ∈ log.taken ∨ (log.start ≤ i ∧ i < log.start + (log.appended - log.start)) := by
  simp only [sync, List.mem_append, List.mem_range'_1]

/-- After a read, everything in the window was read. -/
theorem Sound.mem_sync_of_base_le (sound : log.Sound) {i : ℕ} (inside : log.base ≤ i)
    (before : i < log.appended) : i ∈ log.sync.taken := by
  rw [mem_sync]
  by_cases earlier : i < log.cursor
  · exact .inl (sound.complete i inside earlier)
  · have from_start : log.start ≤ i := max_le inside (Nat.le_of_not_lt earlier)
    exact .inr ⟨from_start, by omega⟩

theorem Sound.sync (sound : log.Sound) : log.sync.Sound where
  base_le := sound.base_le
  cursor_le := le_rfl
  increasing := by
    refine List.pairwise_append.mpr ⟨sound.increasing, List.pairwise_lt_range', ?_⟩
    intro i earlier j later
    have i_lt : i < log.cursor := sound.passed i earlier
    have le_j : log.start ≤ j := (List.mem_range'_1.mp later).1
    exact i_lt.trans_le ((le_max_right ..).trans le_j)
  passed i member := by
    have start_le := sound.start_le
    change i < log.appended
    rcases mem_sync.mp member with earlier | ⟨-, before⟩
    · exact (sound.passed i earlier).trans_le sound.cursor_le
    · omega
  complete _ inside before := sound.mem_sync_of_base_le inside before

/-! ## The window, the offset and the rows of a program -/

variable {α : Type*} {items window rows : List α} {offset : ℕ}

/-- The window, the reader's offset into it and the rows it wrote are those of the log of
`items`. -/
structure Tracks (items window : List α) (offset : ℕ) (rows : List α) (log : SlidingLog) :
    Prop where
  sound : log.Sound
  appended_eq : log.appended = items.length
  window_eq : window = items.drop log.base
  offset_eq : offset = log.cursor - log.base
  rows_eq : rows.map some = log.taken.map (items[·]?)

theorem tracks_empty : Tracks ([] : List α) [] 0 [] empty where
  sound := empty_sound
  appended_eq := rfl
  window_eq := rfl
  offset_eq := rfl
  rows_eq := rfl

namespace Tracks

theorem window_length (tracks : Tracks items window offset rows log) :
    window.length = log.appended - log.base := by
  rw [tracks.window_eq, tracks.appended_eq, List.length_drop]

theorem base_eq (tracks : Tracks items window offset rows log) :
    log.base = items.length - window.length := by
  have base_le := tracks.sound.base_le
  rw [tracks.window_length, ← tracks.appended_eq]
  omega

theorem offset_le (tracks : Tracks items window offset rows log) : offset ≤ window.length := by
  have cursor_le := tracks.sound.cursor_le
  rw [tracks.offset_eq, tracks.window_length]
  omega

theorem append (tracks : Tracks items window offset rows log) (item : α) :
    Tracks (items ++ [item]) (window ++ [item]) offset rows log.append where
  sound := tracks.sound.append
  appended_eq := by simp [SlidingLog.append, tracks.appended_eq]
  window_eq := by
    have base_le := tracks.appended_eq ▸ tracks.sound.base_le
    rw [tracks.window_eq]
    exact (List.drop_append_of_le_length base_le).symm
  offset_eq := tracks.offset_eq
  rows_eq := by
    rw [tracks.rows_eq]
    refine List.map_congr_left fun i member => ?_
    have inside : i < items.length :=
      tracks.appended_eq ▸ (tracks.sound.passed i member).trans_le tracks.sound.cursor_le
    exact (List.getElem?_append_left inside).symm

theorem discard (tracks : Tracks items window offset rows log) {count : ℕ}
    (inside : count ≤ window.length) :
    Tracks items (window.drop count) (offset - count) rows (log.discard count) where
  sound := by
    have base_le := tracks.sound.base_le
    rw [tracks.window_length] at inside
    exact tracks.sound.discard (by omega)
  appended_eq := tracks.appended_eq
  window_eq := by rw [tracks.window_eq, List.drop_drop]; rfl
  offset_eq := by rw [tracks.offset_eq, Nat.sub_sub]; rfl
  rows_eq := tracks.rows_eq

theorem map_some_drop (items : List α) (k : ℕ) :
    (items.drop k).map some = (List.range' k (items.length - k)).map (items[·]?) := by
  refine List.ext_getElem (by simp) fun i left right => ?_
  have inside : k + i < items.length := by
    rw [List.length_map, List.length_drop] at left
    omega
  simp [inside]

theorem sync (tracks : Tracks items window offset rows log) :
    Tracks items window window.length (rows ++ window.drop offset) log.sync where
  sound := tracks.sound.sync
  appended_eq := tracks.appended_eq
  window_eq := tracks.window_eq
  offset_eq := tracks.window_length
  rows_eq := by
    have from_start : log.base + (log.cursor - log.base) = log.start := by
      rw [start]
      omega
    rw [List.map_append, tracks.rows_eq, tracks.window_eq, List.drop_drop, tracks.offset_eq,
      from_start, map_some_drop, ← tracks.appended_eq, SlidingLog.sync, List.map_append]

end Tracks

end SlidingLog
