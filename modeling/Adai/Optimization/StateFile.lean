import Adai.Checkpoint.BinaryIO
import Adai.Math.ItemFormat
import Adai.Optimization.Steps

/-! # The file of an optimizer's state

`save_state` writes the step counters and, for each parameter group, its shape and moments;
`load_state` stages all of it and only then replaces the state. What was saved is staged again
by an optimizer of the same groups (`reads_saveState`), so a resumed run is the uninterrupted
one, and a load that fails changes nothing (`optimizer_state_resumes`).

The stream holds the elements of a matrix as pieces of one length: the four bytes of a float,
or an exact value.
-/

namespace Adai.Optimization

open Readers ByteNumbers Checkpoint

/-! ## The stream -/

/-- How numbers and elements stand in a state's stream. -/
structure StateItems (σ α : Type) where
  bytes : ByteItems σ
  cells : CellItems σ α

/-- The bytes of a file with 32-bit elements. -/
def wordItems : StateItems UInt8 Word where
  bytes := .plain
  cells := ⟨4, wordBytes, wordOf, length_wordBytes, wordOf_wordBytes⟩

/-- A stream of bytes and exact values. -/
def exactItems (α : Type) [Zero α] : StateItems (UInt8 ⊕ α) α where
  bytes := ⟨.inl, Sum.elim id fun _ => 0, fun _ => rfl⟩
  cells := ⟨1, fun x => [.inr x], fun piece => (piece.head?.bind Sum.getRight?).getD 0,
    fun _ => rfl, fun _ => rfl⟩

/-! ## Saving -/

section Format

variable {σ α : Type} (items : StateItems σ α) {s : Shape} {type : OptimizerType}

def optimizerStateMagic : Nat := 0x3154504F

/-- `has_m` and `has_v`: whether a moment has rows. -/
def hasMoment (m : Option (Cells α s)) : Nat := if m.isSome ∧ 0 < s.rows then 1 else 0

/-- The rows of a matrix. -/
def rowsOf (m : Cells α s) : List (List α) :=
  (List.finRange s.rows).map fun i => (List.finRange s.cols).map (m i)

def writeMatrixData (m : Cells α s) : List σ :=
  (rowsOf m).flatMap fun row => row.flatMap items.cells.cell

def writeMoment (m : Option (Cells α s)) : List σ :=
  if hasMoment m = 1 then m.elim [] (writeMatrixData items) else []

def writeGroup (p : ParameterGroup α) : List σ :=
  items.bytes.writeInt 4 p.shape.rows ++ (items.bytes.writeInt 4 p.shape.cols ++
    (items.bytes.writeInt 8 p.step.toInt ++ (items.bytes.writeNat 1 (hasMoment p.momentum) ++
      (items.bytes.writeNat 1 (hasMoment p.velocity) ++
        (writeMoment items p.momentum ++ writeMoment items p.velocity)))))

def Optimizer.saveState (o : Optimizer α) : List σ :=
  items.bytes.writeNat 4 optimizerStateMagic ++ (items.bytes.writeInt 4 o.type.code ++
    (items.bytes.writeInt 8 o.globalStep.toInt ++ (items.bytes.writeNat 4 o.groups.length ++
      (o.groups.map (writeGroup items)).flatten)))

/-! ## Loading -/

/-- What is read for a group before anything is replaced. -/
structure Staged (α : Type) where
  step : Int
  momentum : Option (List (List α))
  velocity : Option (List (List α))

def readMatrixData (s : Shape) : Reader σ (List (List α)) :=
  times (times items.cells.readCell s.cols) s.rows

def readMoment (s : Shape) (has : Nat) : Reader σ (Option (List (List α))) :=
  if has = 0 then pure none else some <$> readMatrixData items s

def stageGroup (p : ParameterGroup α) : Reader σ (Staged α) := do
  let rows ← items.bytes.readInt 4
  let cols ← items.bytes.readInt 4
  let step ← items.bytes.readInt 8
  let hasM ← items.bytes.readNat 1
  let hasV ← items.bytes.readNat 1
  if rows = p.shape.rows ∧ cols = p.shape.cols ∧ hasM = hasMoment p.momentum ∧
      hasV = hasMoment p.velocity then do
    let momentum ← readMoment items p.shape hasM
    let velocity ← readMoment items p.shape hasV
    return ⟨step, momentum, velocity⟩
  else failure

def stageGroups : List (ParameterGroup α) → Reader σ (List (Staged α))
  | [] => pure []
  | p :: rest => do
      let staged ← stageGroup items p
      let others ← stageGroups rest
      return staged :: others

def readState (o : Optimizer α) : Reader σ (Int × List (Staged α)) := do
  let magic ← items.bytes.readNat 4
  if magic = optimizerStateMagic then do
    let optType ← items.bytes.readInt 4
    let step ← items.bytes.readInt 8
    let groups ← items.bytes.readNat 4
    if optType = o.type.code ∧ groups = o.groups.length then do
      let staged ← stageGroups items o.groups
      return (step, staged)
    else failure
  else failure

/-! ## What was saved is staged again -/

/-- What a load stages of a group. -/
def stagedMoment (m : Option (Cells α s)) : Option (List (List α)) :=
  if hasMoment m = 1 then m.map rowsOf else none

def staged (p : ParameterGroup α) : Staged α :=
  ⟨p.step.toInt, stagedMoment p.momentum, stagedMoment p.velocity⟩

theorem reads_matrixData (m : Cells α s) :
    Reads (readMatrixData items s) (writeMatrixData items m) (rowsOf m) := by
  have row (i : Fin s.rows) : Reads (times items.cells.readCell s.cols)
      (((List.finRange s.cols).map (m i)).flatMap items.cells.cell)
      ((List.finRange s.cols).map (m i)) := by
    have read := items.cells.reads_cells ((List.finRange s.cols).map (m i))
    rwa [List.length_map, List.length_finRange] at read
  have each : List.Forall₂ (Reads (times items.cells.readCell s.cols))
      ((rowsOf m).map fun row => row.flatMap items.cells.cell) (rowsOf m) := by
    rw [List.forall₂_map_left_iff, List.forall₂_same]
    intro values member
    obtain ⟨i, -, rfl⟩ := List.mem_map.mp member
    exact row i
  have all := reads_times each
  have count : (rowsOf m).length = s.rows := by
    rw [rowsOf, List.length_map, List.length_finRange]
  rwa [count] at all

theorem reads_moment (m : Option (Cells α s)) :
    Reads (readMoment items s (hasMoment m)) (writeMoment items m) (stagedMoment m) := by
  unfold readMoment writeMoment stagedMoment
  by_cases has : m.isSome ∧ 0 < s.rows
  · have one : hasMoment m = 1 := if_pos has
    obtain ⟨cells, rfl⟩ := Option.isSome_iff_exists.mp has.1
    rw [one, if_neg one_ne_zero, if_pos rfl, if_pos rfl]
    exact (reads_matrixData items cells).map some
  · have zero : hasMoment m = 0 := if_neg has
    rw [zero, if_pos rfl, if_neg zero_ne_one, if_neg zero_ne_one]
    exact reads_pure none

theorem hasMoment_le (m : Option (Cells α s)) : hasMoment m < 256 ^ 1 := by
  unfold hasMoment
  split <;> omega

/-- The moments of a group that was set up for the same weights are there as those of the
group are. -/
theorem hasMoment_congr {m m' : Option (Cells α s)} (same : m'.isSome = m.isSome) :
    hasMoment m' = hasMoment m := by
  unfold hasMoment
  rw [same]

theorem inRange_shape {n : Nat} (small : n < 2 ^ 31) : InRange (8 * 4) (n : Int) := by
  constructor
  · have : (-2 ^ (8 * 4 - 1) : Int) = -2147483648 := by norm_num
    omega
  · have : (2 ^ (8 * 4 - 1) : Int) = 2147483648 := by norm_num
    omega

theorem inRange_step (step : Int32) : InRange (8 * 8) step.toInt := by
  have below := step.le_toInt
  have above := step.toInt_lt
  constructor
  · have : (-2 ^ (8 * 8 - 1) : Int) = -9223372036854775808 := by norm_num
    omega
  · have : (2 ^ (8 * 8 - 1) : Int) = 9223372036854775808 := by norm_num
    omega

/-! ## Replacing the state -/

variable [Zero α]

/-- A matrix with the rows that were read, and zeros where none were. -/
def cellsOf (s : Shape) (rows : List (List α)) : Cells α s := fun i j =>
  (rows.getD i []).getD j 0

/-- A staged moment without rows replaces nothing. -/
def installMoment (m : Option (Cells α s)) (staged : Option (List (List α))) :
    Option (Cells α s) :=
  match staged with
  | none => m
  | some rows => if 0 < s.rows then some (cellsOf s rows) else m

def install (p : ParameterGroup α) (staged : Staged α) : ParameterGroup α :=
  { p with
    step := Int32.ofInt staged.step
    momentum := installMoment p.momentum staged.momentum
    velocity := installMoment p.velocity staged.velocity }

/-- What follows the state in the stream is left alone. -/
def Optimizer.loadState (o : Optimizer α) (input : List σ) : Bool × Optimizer α :=
  match readState items o input with
  | none => (false, o)
  | some ((step, staged), _) =>
      (true,
        { o with
          globalStep := Int32.ofInt step
          groups := List.zipWith install o.groups staged
          fits := lt_of_le_of_lt ((List.length_zipWith ..).trans_le (Nat.min_le_left ..)) o.fits })

theorem reads_group {p : ParameterGroup α} (formed : p.Formed type) :
    Reads (stageGroup items (p.fresh type)) (writeGroup items p) (staged p) := by
  have fresh := formed_addParameterGroup type p.shape p.weights
  have momentum : hasMoment (p.fresh type).momentum = hasMoment p.momentum :=
    hasMoment_congr (fresh.momentum.trans formed.momentum.symm)
  have velocity : hasMoment (p.fresh type).velocity = hasMoment p.velocity :=
    hasMoment_congr (fresh.velocity.trans formed.velocity.symm)
  refine (items.bytes.reads_int (by omega) (inRange_shape p.shape.rows_lt)).bind ?_
  refine (items.bytes.reads_int (by omega) (inRange_shape p.shape.cols_lt)).bind ?_
  refine (items.bytes.reads_int (by omega) (inRange_step p.step)).bind ?_
  refine (items.bytes.reads_nat (hasMoment_le p.momentum)).bind ?_
  refine (items.bytes.reads_nat (hasMoment_le p.velocity)).bind ?_
  rw [if_pos ⟨rfl, rfl, momentum.symm, velocity.symm⟩]
  exact (reads_moment items p.momentum).bind
    ((reads_moment items p.velocity).bind_nil (reads_pure _))

theorem reads_groups {groups : List (ParameterGroup α)}
    (formed : ∀ p ∈ groups, p.Formed type) :
    Reads (stageGroups items (groups.map (ParameterGroup.fresh type)))
      (groups.map (writeGroup items)).flatten (groups.map staged) := by
  induction groups with
  | nil => exact reads_pure []
  | cons p rest ih =>
      refine (reads_group items (formed p List.mem_cons_self)).bind ?_
      exact (ih fun q member => formed q (List.mem_cons_of_mem _ member)).bind_nil (reads_pure _)

theorem reads_saveState {o : Optimizer α} (formed : o.Formed) :
    Reads (readState items o.fresh) (o.saveState items)
      (o.globalStep.toInt, o.groups.map staged) := by
  have code : InRange (8 * 4) (o.type.code : Int) := by
    refine inRange_shape ?_
    cases o.type <;> decide
  refine (items.bytes.reads_nat (by decide)).bind ?_
  rw [if_pos rfl]
  refine (items.bytes.reads_int (by omega) code).bind ?_
  refine (items.bytes.reads_int (by omega) (inRange_step o.globalStep)).bind ?_
  refine (items.bytes.reads_nat o.fits).bind ?_
  rw [if_pos ⟨rfl, (List.length_map ..).symm⟩]
  exact (reads_groups items formed).bind_nil (reads_pure _)

/-- Staging brings back the moments of a group. -/
theorem installMoment_staged {m fresh : Option (Cells α s)} (same : fresh.isSome = m.isSome) :
    installMoment fresh (stagedMoment m) = m := by
  cases m with
  | none => exact Option.not_isSome_iff_eq_none.mp (same ▸ Bool.false_ne_true)
  | some cells =>
      unfold stagedMoment
      by_cases rows : 0 < s.rows
      · have one : hasMoment (some cells) = 1 := if_pos ⟨rfl, rows⟩
        rw [if_pos one]
        refine (if_pos rows).trans (congrArg some ?_)
        funext i j
        simp [cellsOf, rowsOf]
      · have zero : hasMoment (some cells) = 0 := if_neg fun has => rows has.2
        rw [zero, if_neg zero_ne_one]
        obtain ⟨zeros, rfl⟩ := Option.isSome_iff_exists.mp same
        refine congrArg some ?_
        funext i
        exact absurd (Nat.zero_lt_of_lt i.isLt) rows

theorem install_staged {p : ParameterGroup α} (formed : p.Formed type) :
    install (p.fresh type) (staged p) = p := by
  have fresh := formed_addParameterGroup type p.shape p.weights
  obtain ⟨shape, weights, m, v, step⟩ := p
  have momentum : installMoment (s := shape) _ (stagedMoment m) = m :=
    installMoment_staged (fresh.momentum.trans formed.momentum.symm)
  have velocity : installMoment (s := shape) _ (stagedMoment v) = v :=
    installMoment_staged (fresh.velocity.trans formed.velocity.symm)
  exact ParameterGroup.eq_of_fields momentum velocity (Int32.ofInt_toInt step)

/-- An optimizer that loads the state of another one with its weights becomes it. -/
theorem loadState_saveState {o : Optimizer α} (formed : o.Formed) :
    o.fresh.loadState items (o.saveState items) = (true, o) := by
  have read := reads_saveState items formed []
  rw [List.append_nil] at read
  have groups : List.zipWith install o.fresh.groups (o.groups.map staged) = o.groups := by
    change List.zipWith install (o.groups.map (ParameterGroup.fresh o.type)) _ = _
    rw [List.zipWith_map, List.zipWith_self]
    exact (List.map_congr_left fun p member => install_staged (formed p member)).trans
      (List.map_id _)
  have step : Int32.ofInt o.globalStep.toInt = o.globalStep := Int32.ofInt_toInt _
  unfold Optimizer.loadState
  rw [read]
  obtain ⟨type, hyper, globalStep, all, fits⟩ := o
  exact congrArg (Prod.mk true) (Optimizer.eq_of_fields step groups)

/-- A load that fails changes nothing. -/
theorem loadState_failed {o : Optimizer α} {input : List σ}
    (failed : (o.loadState items input).1 = false) : (o.loadState items input).2 = o := by
  unfold Optimizer.loadState at failed ⊢
  split at failed
  · rfl
  · cases failed

end Format

/-! ## Resumed runs -/

section Resumed

variable {σ α : Type} [Zero α] [One α] [Add α] [Sub α] [Mul α] [Div α] [LT α] [DecidableLT α]
  [BEq α]

/-- **Resumption.** A run that saves its state, loads it into a fresh optimizer with its weights
and goes on has the weights of the uninterrupted run after every later step; a load that fails
leaves the optimizer as it was. -/
theorem optimizer_state_resumes (items : StateItems σ α) (fns : StdMath α) (o : Optimizer α)
    (before : List (Gradients α)) :
    (∃ resumed, (o.fresh.run fns before).fresh.loadState items
        ((o.fresh.run fns before).saveState items) = (true, resumed) ∧
      ∀ later, (resumed.run fns later).weights = (o.fresh.run fns (before ++ later)).weights) ∧
    ∀ (other : Optimizer α) (input : List σ), (other.loadState items input).1 = false →
      (other.loadState items input).2 = other := by
  refine ⟨⟨o.fresh.run fns before, loadState_saveState items (o.formed_fresh.run before), ?_⟩, ?_⟩
  · intro later
    rw [Optimizer.run_append]
  · exact fun other input failed => loadState_failed items failed

end Resumed

/-- An optimizer with momentum and one weight. -/
def oneWeight (α : Type) [One α] [Zero α] : Optimizer α where
  type := .sgdMomentum
  hyper := ⟨1, 1, 1, 1, 1, 0⟩
  globalStep := 0
  groups := [addParameterGroup .sgdMomentum ⟨1, 1, by decide, by decide⟩ fun _ _ => 1]
  fits := Nat.one_lt_two_pow (Nat.succ_ne_zero 31)

/-- A state of exact values, and a byte string that is no state. -/
theorem optimizer_state_resumes_one :
    let fns : StdMath Rat := ⟨id, fun x _ => x, Rat.ofInt⟩
    let run := (oneWeight Rat).fresh.run fns [fun _ _ _ => 1]
    (∃ resumed, run.fresh.loadState (exactItems Rat) (run.saveState (exactItems Rat)) =
        (true, resumed) ∧ ∀ later, (resumed.run fns later).weights =
          ((oneWeight Rat).fresh.run fns ([fun _ _ _ => 1] ++ later)).weights) ∧
      ((oneWeight Word).loadState wordItems [0x4F, 0x50]).2 = oneWeight Word := by
  intro fns run
  refine ⟨(optimizer_state_resumes (exactItems Rat) fns (oneWeight Rat) [fun _ _ _ => 1]).1, ?_⟩
  have words : StdMath Word := ⟨id, fun x _ => x, fun n => UInt32.ofInt n⟩
  exact (optimizer_state_resumes wordItems words (oneWeight Word) []).2 _ _ rfl

end Adai.Optimization
