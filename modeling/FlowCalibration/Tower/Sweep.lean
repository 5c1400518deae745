import FlowCalibration.Tower.Layout

/-!
# The sweep

The steps of the sweep run column by column.  A column has one temperature; the flow either rises
over the whole sweep or starts anew in every column.
-/

namespace FlowCalibration

/-- One step of the sweep. -/
structure SweepEntry where
  /-- Place in the sweep, from zero. -/
  index : Nat
  /-- Temperature column, from one. -/
  column : Nat
  /-- Row within the column, from one. -/
  row : Nat
  /-- Nozzle temperature. -/
  temperature : Float
  /-- Flow of the blob. -/
  flow : Float
  deriving DecidableEq

namespace Tower

/-- Number of flow steps in a column, at least one. -/
def stepsPerColumn (tower : Tower) : Nat :=
  max tower.settings.flowSteps 1

/-- The step at a place of the sweep. -/
def entry (tower : Tower) (index : Nat) : SweepEntry :=
  let settings := tower.settings
  let column := index / tower.stepsPerColumn
  let row := index % tower.stepsPerColumn
  let rise :=
    match settings.mode with
    | .fill => index
    | .matrix => row
  { index
    column := column + 1
    row := row + 1
    temperature := settings.startTemp + Double.ofCount column * settings.tempOffset
    flow := settings.startFlow + Double.ofCount rise * settings.flowOffset }

/-- Seconds per minute. -/
def secondsPerMinute : Float := 60.0

/-- Lowest feed rate of a blob. -/
def minBlobFeedRate : Float := 1.0

/-- Feed rate of a blob in millimetres per minute: the speed at which the blob grows to its height
while its filament is extruded at a flow, with two places. -/
def blobFeedRate (settings : Settings) (flow : Float) : Float :=
  let extrusionRate := flow / settings.filamentArea
  let feed := settings.blobHeight * extrusionRate / settings.extrusionAmount * secondsPerMinute
  let rounded := Double.roundTo feed 2
  if rounded.isFinite then Double.max rounded minBlobFeedRate else minBlobFeedRate

end Tower

end FlowCalibration
