import FlowCalibration.Printer.Profile

/-!
# Layout of a tower on the bed

The sites of a plate stand on a grid: columns from the left margin, and in each column rows from
the margin at which the direction starts.  Cells whose corner lies in an excluded area are left
out.  The sweep fills plate after plate.
-/

namespace FlowCalibration

/-- A calibration run on a printer. -/
structure Tower where
  /-- Parameters of the run. -/
  settings : Settings
  /-- The printer. -/
  profile : PrinterProfile

/-- A usable cell of the grid. -/
structure Cell where
  /-- Column, from one. -/
  column : Nat
  /-- Row within the column, from one. -/
  row : Nat
  /-- Corner at which the site starts. -/
  corner : Point
  deriving DecidableEq

/-- The grid of a run and its division into plates. -/
structure Layout where
  /-- Number of columns of the grid. -/
  maxColumns : Nat
  /-- Number of rows of the grid. -/
  maxRows : Nat
  /-- Cells that can be used, column by column. -/
  cells : List Cell
  /-- Length of the sweep. -/
  totalSteps : Nat
  deriving DecidableEq

namespace Layout

/-- Number of sites that one plate holds. -/
def sitesPerPlate (layout : Layout) : Nat :=
  layout.cells.length

/-- Number of plates, at least one. -/
def plateCount (layout : Layout) : Nat :=
  max ((layout.totalSteps + layout.sitesPerPlate - 1) / layout.sitesPerPlate) 1

end Layout

namespace Tower

/-- Upper bound on the cells along one axis. -/
def maxCellsPerAxis : Nat := 1000

/-- Number of cells of a pitch that fit a span: at least one, at most `maxCellsPerAxis`. -/
def cellsAlong (span pitch : Float) : Nat :=
  let cells := Double.floor (span / pitch)
  if pitch ≤ 0.0 || !cells.isFinite || cells < 1.0 then 1
  else min (Double.toCount cells) maxCellsPerAxis

/-- Number of columns of the grid. -/
def maxColumns (tower : Tower) : Nat :=
  let settings := tower.settings
  cellsAlong (settings.bedWidth - 2.0 * settings.marginX.abs) settings.columnPitch

/-- Number of rows of the grid. -/
def maxRows (tower : Tower) : Nat :=
  let settings := tower.settings
  cellsAlong (settings.bedLength - 2.0 * settings.marginY.abs) settings.ySpacing

/-- X of a column, counted from zero. -/
def columnX (settings : Settings) (column : Nat) : Float :=
  settings.marginX.abs + Double.ofCount column * settings.columnPitch

/-- Y of a row, counted from zero.  Rows go from the back margin to the front; mirrored rows start
at the front margin and go to the back. -/
def rowY (settings : Settings) (row : Nat) : Float :=
  match settings.direction with
  | .backToFront => settings.bedLength - settings.marginY - Double.ofCount row * settings.ySpacing
  | .mirrored => 0.0 - -settings.marginY - Double.ofCount row * -settings.ySpacing

/-- The cell in a column and a row, both counted from zero. -/
def cell (settings : Settings) (column row : Nat) : Cell :=
  { column := column + 1, row := row + 1,
    corner := ⟨columnX settings column, rowY settings row⟩ }

/-- All cells of the grid, column by column. -/
def grid (tower : Tower) : List Cell :=
  (List.range tower.maxColumns).flatMap fun column =>
    (List.range tower.maxRows).map (cell tower.settings column)

/-- The layout of a run. -/
def layout (tower : Tower) : Layout where
  maxColumns := tower.maxColumns
  maxRows := tower.maxRows
  cells := tower.grid.filter fun cell => !tower.profile.isExcluded cell.corner
  totalSteps := tower.settings.totalSteps

end Tower

end FlowCalibration
