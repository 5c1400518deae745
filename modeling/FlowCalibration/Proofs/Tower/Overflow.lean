import FlowCalibration.Proofs.Data.Results
import FlowCalibration.Proofs.Data.Words
import FlowCalibration.Proofs.Decimal.Order
import FlowCalibration.Proofs.Tower.Accounting

/-!
# Counts of a run fit into words

The layout and the plates of a run count columns, rows, steps and sites.  Here they are computed
with the operations of words, each of which may fail, in the order in which the program carries
them out.  The caps on the grid and on the sweep keep every result in range, whatever the counts
and the sizes of the settings are.
-/

namespace FlowCalibration

namespace Tower

/-! ## The layout and the plates in words -/

/-- The cells of a column, with columns and rows counted from one. -/
def checkedColumn (tower : Tower) (column : Nat) : Except WordFault (List Cell) := do
  let across ← Word.sub column 1
  (List.range' 1 tower.maxRows).mapM fun row => do
    let along ← Word.sub row 1
    return { column, row, corner := ⟨columnX tower.settings across, rowY tower.settings along⟩ }

/-- The length of the sweep. -/
def countedSteps (tower : Tower) : Nat :=
  min (Word.mulSaturating tower.settings.flowSteps tower.settings.temperatureColumns) maxSweepSteps

/-- The layout of a run and its number of plates. -/
def checkedLayout (tower : Tower) : Except WordFault (Layout × Nat) := do
  let columns ← (List.range' 1 tower.maxColumns).mapM tower.checkedColumn
  let layout : Layout :=
    { maxColumns := tower.maxColumns
      maxRows := tower.maxRows
      cells := columns.flatten.filter fun cell => !tower.profile.isExcluded cell.corner
      totalSteps := tower.countedSteps }
  let plates ←
    if layout.sitesPerPlate = 0 then pure 1
    else do
      let filled ← Word.divCeil layout.totalSteps layout.sitesPerPlate
      pure (max filled 1)
  return (layout, plates)

/-- The step at a place of the sweep. -/
def checkedEntry (tower : Tower) (index : Nat) : Except WordFault SweepEntry := do
  let settings := tower.settings
  let before ← Word.div index tower.stepsPerColumn
  let column ← Word.add before 1
  let within ← Word.mod index tower.stepsPerColumn
  let row ← Word.add within 1
  let across ← Word.sub column 1
  let rise ←
    match settings.mode with
    | .fill => pure index
    | .matrix => Word.sub row 1
  return { index, column, row
           temperature := settings.startTemp + Double.ofCount across * settings.tempOffset
           flow := settings.startFlow + Double.ofCount rise * settings.flowOffset }

/-- Whether the nozzle is heated before a site; the first one of a plate does not ask further. -/
def checkedHeats (tower : Tower) (place index : Nat) : Except WordFault Bool :=
  if place = 0 then pure true
  else do
    let within ← Word.mod index tower.stepsPerColumn
    pure (decide (within = 0))

/-- The blocks of a plate from a cell on, where `place` cells have been visited and `steps` sites
have been tested, with the number of sites at its end. -/
def checkedBlocks (tower : Tower) (layout : Layout) (plate : Nat) :
    (place steps : Nat) → List Cell → Except WordFault (List Block × Nat)
  | _, steps, [] => pure ([], steps)
  | place, steps, cell :: cells => do
      let next ← Word.add place 1
      let start ← Word.mul plate layout.sitesPerPlate
      let index ← Word.add start place
      if layout.totalSteps ≤ index then return ([], steps)
      let entry ← tower.checkedEntry index
      let heats ← tower.checkedHeats place index
      let heat := if heats then [Block.heat entry.temperature] else []
      let tested ← Word.add steps 1
      let (blocks, total) ← checkedBlocks tower layout plate next tested cells
      return (heat ++ .site ⟨cell, entry⟩ :: blocks, total)

/-- A plate of the run, counted from zero, with its number of sites. -/
def checkedPlate (tower : Tower) (layout : Layout) (plate : Nat) :
    Except WordFault (PlatePlan × Nat) := do
  let index ← Word.add plate 1
  let (blocks, steps) ← tower.checkedBlocks layout plate 0 0 layout.cells
  return ({ index, plateCount := layout.plateCount, body := .blocks blocks }, steps)

/-! ## The caps -/

theorem cellsAlong_le (span pitch : Float) : cellsAlong span pitch ≤ maxCellsPerAxis := by
  simp only [cellsAlong]
  split
  next => exact Nat.one_le_of_lt (by decide : 0 < maxCellsPerAxis)
  next => exact Nat.min_le_right _ _

theorem one_le_cellsAlong (span pitch : Float) : 1 ≤ cellsAlong span pitch := by
  simp only [cellsAlong]
  split
  next => exact Nat.le_refl 1
  next several =>
    simp only [Bool.or_eq_true, decide_eq_true_eq, Bool.not_eq_true', not_or, Bool.not_eq_false]
      at several
    obtain ⟨⟨-, finite⟩, notBelow⟩ := several
    have one_finite : (1.0 : Float).isFinite = true := by decide +kernel
    have large : 1.0 ≤ Double.floor (span / pitch) := by
      rwa [Double.lt_iff_not_le finite one_finite, not_not] at notBelow
    exact Nat.le_min.mpr ⟨Double.one_le_toCount finite large, by decide⟩

theorem totalSteps_le_max (tower : Tower) : tower.layout.totalSteps ≤ maxSweepSteps :=
  Nat.min_le_right _ _

theorem length_grid (tower : Tower) : tower.grid.length = tower.maxColumns * tower.maxRows := by
  simp [grid, List.length_flatMap]

theorem sitesPerPlate_le (tower : Tower) :
    tower.layout.sitesPerPlate ≤ maxCellsPerAxis * maxCellsPerAxis := by
  calc
    tower.layout.sitesPerPlate ≤ tower.grid.length := List.length_filter_le _ _
    _ = tower.maxColumns * tower.maxRows := tower.length_grid
    _ ≤ maxCellsPerAxis * maxCellsPerAxis :=
      Nat.mul_le_mul (cellsAlong_le _ _) (cellsAlong_le _ _)

theorem plateCount_le (tower : Tower) : tower.layout.plateCount ≤ maxSweepSteps := by
  apply Nat.max_le.mpr
  refine ⟨?_, by decide⟩
  have steps_le := tower.totalSteps_le_max
  rcases Nat.eq_zero_or_pos tower.layout.sitesPerPlate with none | capacity
  · rw [none, Nat.div_zero]
    exact Nat.zero_le _
  · apply Nat.div_le_of_le_mul
    calc
      tower.layout.totalSteps + tower.layout.sitesPerPlate - 1
          ≤ maxSweepSteps + (tower.layout.sitesPerPlate - 1) := by omega
      _ ≤ maxSweepSteps + (tower.layout.sitesPerPlate - 1) * maxSweepSteps := by
        apply Nat.add_le_add_left
        exact Nat.le_mul_of_pos_right _ (by decide)
      _ = tower.layout.sitesPerPlate * maxSweepSteps := by
        obtain ⟨fewer, fewer_eq⟩ : ∃ fewer, tower.layout.sitesPerPlate = fewer + 1 :=
          ⟨tower.layout.sitesPerPlate - 1, by omega⟩
        rw [fewer_eq, Nat.add_sub_cancel, Nat.succ_mul, Nat.add_comm]

/-! ## No operation fails -/

theorem checkedColumn_eq (tower : Tower) (column : Nat) :
    tower.checkedColumn (column + 1) =
      .ok ((List.range tower.maxRows).map (cell tower.settings column)) := by
  have across : Word.sub (column + 1) 1 = .ok column := Word.sub_eq_ok (Nat.le_add_left 1 column)
  rw [checkedColumn, across]
  apply mapM_range'_one
  intro row _
  have along : Word.sub (row + 1) 1 = .ok row := Word.sub_eq_ok (Nat.le_add_left 1 row)
  rw [along]
  rfl

theorem countedSteps_eq (tower : Tower) : tower.countedSteps = tower.settings.totalSteps :=
  Word.min_mulSaturating (by decide)

/-- Computing the layout in words gives the layout and its number of plates. -/
theorem checkedLayout_eq (tower : Tower) :
    tower.checkedLayout = .ok (tower.layout, tower.layout.plateCount) := by
  have columns : (List.range' 1 tower.maxColumns).mapM tower.checkedColumn =
      .ok ((List.range tower.maxColumns).map fun column =>
        (List.range tower.maxRows).map (cell tower.settings column)) :=
    mapM_range'_one fun column _ => tower.checkedColumn_eq column
  have run : tower.checkedLayout =
      (do
        let plates ←
          if tower.layout.sitesPerPlate = 0 then pure 1
          else do
            let filled ← Word.divCeil tower.layout.totalSteps tower.layout.sitesPerPlate
            pure (max filled 1)
        return (tower.layout, plates)) := by
    rw [checkedLayout, columns, countedSteps_eq]
    rfl
  rw [run]
  split
  next none =>
    have single : tower.layout.plateCount = 1 := by
      rw [Layout.plateCount, none, Nat.div_zero]
      rfl
    rw [single]
    rfl
  next some =>
    have steps_le := tower.totalSteps_le_max
    have fits : tower.layout.totalSteps + 1 < Word.size :=
      Nat.lt_of_le_of_lt (Nat.succ_le_succ steps_le) (by decide)
    rw [Word.divCeil_eq_ok (Nat.pos_of_ne_zero some) fits]
    rfl

theorem checkedEntry_eq (tower : Tower) {index : Nat} (fits : index + 1 < Word.size) :
    tower.checkedEntry index = .ok (tower.entry index) := by
  have positive : 0 < tower.stepsPerColumn := Nat.le_max_right _ _
  have quotient_le : index / tower.stepsPerColumn ≤ index := Nat.div_le_self _ _
  have remainder_le : index % tower.stepsPerColumn ≤ index := Nat.mod_le _ _
  have column : Word.add (index / tower.stepsPerColumn) 1 =
      .ok (index / tower.stepsPerColumn + 1) := Word.add_eq_ok (by omega)
  have row : Word.add (index % tower.stepsPerColumn) 1 =
      .ok (index % tower.stepsPerColumn + 1) := Word.add_eq_ok (by omega)
  have before (count : Nat) : Word.sub (count + 1) 1 = .ok count :=
    Word.sub_eq_ok (Nat.le_add_left 1 count)
  rw [checkedEntry, entry]
  simp only [Word.div_eq_ok positive, Word.mod_eq_ok positive, column, row, before, bind,
    Except.bind, pure, Except.pure]
  cases tower.settings.mode with
  | fill => rfl
  | matrix => rfl

theorem checkedHeats_eq (tower : Tower) (place index : Nat) :
    tower.checkedHeats place index =
      .ok (decide (place = 0) || decide (index % tower.stepsPerColumn = 0)) := by
  have positive : 0 < tower.stepsPerColumn := Nat.le_max_right _ _
  rw [checkedHeats]
  by_cases first : place = 0
  · rw [if_pos first, decide_eq_true first, Bool.true_or]
    rfl
  · rw [if_neg first, decide_eq_false first, Bool.false_or, Word.mod_eq_ok positive]
    rfl

/-- The sites on some cells, which take the steps of the sweep from one of them on. -/
def sitesFrom (tower : Tower) (layout : Layout) (start : Nat) (cells : List Cell) : List Site :=
  ((cells.take (layout.totalSteps - start)).zipIdx start).map fun (cell, index) =>
    { cell, entry := tower.entry index }

theorem sitesFrom_of_le (tower : Tower) {layout : Layout} {start : Nat}
    (reached : layout.totalSteps ≤ start) (cells : List Cell) :
    tower.sitesFrom layout start cells = [] := by
  rw [sitesFrom, Nat.sub_eq_zero_of_le reached]
  rfl

theorem sitesFrom_cons (tower : Tower) {layout : Layout} {start : Nat}
    (remains : start < layout.totalSteps) (cell : Cell) (cells : List Cell) :
    tower.sitesFrom layout start (cell :: cells) =
      ⟨cell, tower.entry start⟩ :: tower.sitesFrom layout (start + 1) cells := by
  obtain ⟨left, left_eq⟩ : ∃ left, layout.totalSteps - start = left + 1 :=
    ⟨layout.totalSteps - start - 1, by omega⟩
  have left_next : layout.totalSteps - (start + 1) = left := by omega
  rw [sitesFrom, sitesFrom, left_eq, left_next]
  rfl

/-- From every cell of a plate on, its blocks are those of the sites that are left. -/
theorem checkedBlocks_eq (tower : Tower) {layout : Layout} {plate place : Nat} {cells : List Cell}
    (fits : plate * layout.sitesPerPlate + place + cells.length < Word.size) :
    tower.checkedBlocks layout plate place place cells =
      .ok (tower.blocksOf (decide (place = 0))
          (tower.sitesFrom layout (plate * layout.sitesPerPlate + place) cells),
        place +
          (tower.sitesFrom layout (plate * layout.sitesPerPlate + place) cells).length) := by
  induction cells generalizing place with
  | nil => simp [checkedBlocks, sitesFrom, blocksOf, pure, Except.pure]
  | cons cell cells induction =>
      rw [List.length_cons] at fits
      have next : Word.add place 1 = .ok (place + 1) := Word.add_eq_ok (by omega)
      have start : Word.mul plate layout.sitesPerPlate =
          .ok (plate * layout.sitesPerPlate) := Word.mul_eq_ok (by omega)
      have index : Word.add (plate * layout.sitesPerPlate) place =
          .ok (plate * layout.sitesPerPlate + place) := Word.add_eq_ok (by omega)
      have entry : tower.checkedEntry (plate * layout.sitesPerPlate + place) =
          .ok (tower.entry (plate * layout.sitesPerPlate + place)) :=
        tower.checkedEntry_eq (by omega)
      by_cases reached : layout.totalSteps ≤ plate * layout.sitesPerPlate + place
      · rw [tower.sitesFrom_of_le reached]
        simp only [checkedBlocks, next, start, index, if_pos reached, bind, Except.bind, pure,
          Except.pure]
        rfl
      · have rest_fits :
            plate * layout.sitesPerPlate + (place + 1) + cells.length < Word.size := by omega
        have rest := induction rest_fits
        rw [tower.sitesFrom_cons (Nat.lt_of_not_le reached), List.length_cons, blocksOf]
        simp only [checkedBlocks, next, start, index, if_neg reached, entry, checkedHeats_eq, rest,
          bind, Except.bind, pure, Except.pure]
        rw [Nat.add_assoc place 1, Nat.add_comm 1]
        rfl

theorem checkedPlate_eq (tower : Tower) {plate : Nat} (member : plate < tower.layout.plateCount) :
    tower.checkedPlate tower.layout plate =
      .ok (tower.plan tower.layout plate, (tower.plan tower.layout plate).steps) := by
  have plates_le := tower.plateCount_le
  have sites_le := tower.sitesPerPlate_le
  have visited : plate * tower.layout.sitesPerPlate ≤
      maxSweepSteps * (maxCellsPerAxis * maxCellsPerAxis) :=
    Nat.mul_le_mul (by omega) sites_le
  have fits : plate * tower.layout.sitesPerPlate + 0 + tower.layout.cells.length < Word.size :=
    Nat.lt_of_le_of_lt (Nat.add_le_add visited sites_le) (by decide)
  have index : Word.add plate 1 = .ok (plate + 1) :=
    Word.add_eq_ok (Nat.lt_of_le_of_lt (Nat.succ_le_of_lt (Nat.lt_of_lt_of_le member plates_le))
      (by decide))
  have blocks := tower.checkedBlocks_eq fits
  rw [steps_plan, checkedPlate, index]
  simp only [blocks, bind, Except.bind, pure, Except.pure, Nat.zero_add]
  rfl

/-- Whatever the settings and the printer are, grid, sweep and plates stay below their caps, and
neither the layout nor a plate meets an operation that has no result in words. -/
theorem counts_fit (tower : Tower) :
    tower.layout.maxColumns ∈ Set.Icc 1 1000 ∧
      tower.layout.maxRows ∈ Set.Icc 1 1000 ∧
      tower.layout.totalSteps ≤ 100000 ∧
      tower.layout.plateCount ∈ Set.Icc 1 100000 ∧
      tower.checkedLayout = .ok (tower.layout, tower.layout.plateCount) ∧
      ∀ plate < tower.layout.plateCount,
        tower.checkedPlate tower.layout plate =
          .ok (tower.plan tower.layout plate, (tower.plan tower.layout plate).steps) := by
  refine ⟨⟨one_le_cellsAlong _ _, cellsAlong_le _ _⟩, ⟨one_le_cellsAlong _ _, cellsAlong_le _ _⟩,
    tower.totalSteps_le_max, ⟨Nat.le_max_right _ _, tower.plateCount_le⟩, tower.checkedLayout_eq,
    ?_⟩
  intro plate member
  exact tower.checkedPlate_eq member

end Tower

end FlowCalibration
