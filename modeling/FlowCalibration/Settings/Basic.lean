import FlowCalibration.Decimal.Text
import FlowCalibration.Decimal.Rounding

/-!
# Calibration settings

The parameters of one calibration run and the quantities that follow from them.  Lengths are in
millimetres, speeds in millimetres per second, flows in cubic millimetres per second and
temperatures in degrees Celsius.
-/

namespace FlowCalibration

/-- Order of the rows on the bed. -/
inductive Direction
  /-- From the back margin toward the front. -/
  | backToFront
  /-- Reflected about the front edge, for printers that home in the other corner. -/
  | mirrored
  deriving DecidableEq, Repr

/-- How the flow advances through the sweep. -/
inductive SweepMode
  /-- One ramp across the whole sweep. -/
  | fill
  /-- A ramp that starts anew in every temperature column. -/
  | matrix
  deriving DecidableEq, Repr

namespace Direction

/-- Name of a direction in settings files. -/
def name : Direction → String
  | backToFront => "back_to_front"
  | mirrored => "mirrored"

/-- Number of a direction in programs. -/
def flag : Direction → Nat
  | backToFront => 0
  | mirrored => 1

end Direction

namespace SweepMode

/-- Name of a mode in settings files. -/
def name : SweepMode → String
  | fill => "fill"
  | matrix => "matrix"

end SweepMode

/-- Upper bound on the flow steps, the temperature steps and the whole sweep. -/
def maxSweepSteps : Nat := 100000

/-- Parameters of a calibration run. -/
structure Settings where
  /-- Bed size along X. -/
  bedWidth : Float := 180.0
  /-- Bed size along Y. -/
  bedLength : Float := 180.0
  /-- Margin of both axes, where an axis has none of its own. -/
  bedMargin : Option Float := some 20.0
  /-- Margin along X. -/
  bedMarginX : Option Float := none
  /-- Margin along Y. -/
  bedMarginY : Option Float := none
  /-- Diameter of the filament. -/
  filamentDiameter : Float := 1.75
  /-- Travel speed. -/
  movementSpeed : Float := 60.0
  /-- Dwell before each test in seconds. -/
  stabilizationTime : Float := 3.0
  /-- Temperature of the bed. -/
  bedTemp : Float := 60.0
  /-- Temperature of the first column. -/
  startTemp : Float := 200.0
  /-- Change of temperature from column to column. -/
  tempOffset : Float := 0.0
  /-- Number of temperature columns. -/
  tempSteps : Nat := 1
  /-- Part cooling in percent. -/
  fanSpeed : Float := 0.0
  /-- Length of the priming line. -/
  primeLength : Float := 10.0
  /-- Filament pushed while priming. -/
  primeAmount : Float := 3.0
  /-- Speed of the priming line. -/
  primeSpeed : Float := 5.0
  /-- Length of the wipe. -/
  wipeLength : Float := 10.0
  /-- Length of a retraction. -/
  retractionDistance : Float := 1.0
  /-- Speed of a retraction. -/
  retractionSpeed : Float := 30.0
  /-- Height of a blob. -/
  blobHeight : Float := 5.0
  /-- Filament extruded into a blob. -/
  extrusionAmount : Float := 50.0
  /-- Gap between columns. -/
  xSpacing : Float := 25.0
  /-- Distance between rows. -/
  ySpacing : Float := 25.0
  /-- Order of the rows. -/
  direction : Direction := .backToFront
  /-- First flow of the sweep. -/
  startFlow : Float := 2.0
  /-- Change of flow from step to step. -/
  flowOffset : Float := 2.0
  /-- Number of flow steps in a column. -/
  flowSteps : Nat := 10
  /-- Flow at which the sweep was asked to end. -/
  endFlow : Option Float := none
  /-- Mode of the sweep; without one it follows from the temperatures. -/
  sweepMode : Option SweepMode := none
  deriving DecidableEq

namespace Settings

/-- Margin along X in effect. -/
def marginX (settings : Settings) : Float :=
  (settings.bedMarginX <|> settings.bedMargin).getD 0.0

/-- Margin along Y in effect. -/
def marginY (settings : Settings) : Float :=
  (settings.bedMarginY <|> settings.bedMargin).getD 0.0

/-- Mode of the sweep in effect: one ramp unless the columns differ in temperature. -/
def mode (settings : Settings) : SweepMode :=
  match settings.sweepMode with
  | some mode => mode
  | none => if settings.tempOffset == 0.0 then .fill else .matrix

/-- Number of temperature columns, at least one. -/
def temperatureColumns (settings : Settings) : Nat :=
  max settings.tempSteps 1

/-- Length of the sweep; columns past `maxSweepSteps` are dropped. -/
def totalSteps (settings : Settings) : Nat :=
  min (settings.flowSteps * settings.temperatureColumns) maxSweepSteps

/-- The ratio of a circle's circumference to its diameter, as a double. -/
def pi : Float := Float.ofBits 0x400921fb54442d18

/-- Cross-section of the filament. -/
def filamentArea (settings : Settings) : Float :=
  let radius := settings.filamentDiameter / 2.0
  pi * (radius * radius)

/-- Distance between neighbouring columns. -/
def columnPitch (settings : Settings) : Float :=
  settings.primeLength + settings.wipeLength + settings.xSpacing

/-- Flow after the flow steps of one column. -/
def computedEndFlow (settings : Settings) : Float :=
  settings.startFlow + settings.flowOffset * Double.ofCount (max settings.flowSteps 1 - 1)

/-- Text of a value that may be left out. -/
def optionalNumber (value : Option Float) : String :=
  (value.map Double.number).getD "unset"

/-- Names and values that the head of a program lists. -/
def listing (settings : Settings) : List (String × String) :=
  [ ("bedWidth", Double.number settings.bedWidth),
    ("bedLength", Double.number settings.bedLength),
    ("bedMarginX", Double.number settings.marginX),
    ("bedMarginY", Double.number settings.marginY),
    ("filamentDiameter", Double.number settings.filamentDiameter),
    ("movementSpeed", Double.number settings.movementSpeed),
    ("stabilizationTime", Double.number settings.stabilizationTime),
    ("bedTemp", Double.number settings.bedTemp),
    ("fanSpeed", Double.number settings.fanSpeed),
    ("primeLength", Double.number settings.primeLength),
    ("primeAmount", Double.number settings.primeAmount),
    ("primeSpeed", Double.number settings.primeSpeed),
    ("wipeLength", Double.number settings.wipeLength),
    ("retractionDistance", Double.number settings.retractionDistance),
    ("retractionSpeed", Double.number settings.retractionSpeed),
    ("blobHeight", Double.number settings.blobHeight),
    ("extrusionAmount", Double.number settings.extrusionAmount),
    ("xSpacing", Double.number settings.xSpacing),
    ("ySpacing", Double.number settings.ySpacing),
    ("startFlow", Double.number settings.startFlow),
    ("flowOffset", Double.number settings.flowOffset),
    ("flowSteps", toString settings.flowSteps),
    ("endFlow", optionalNumber settings.endFlow),
    ("startTemp", Double.number settings.startTemp),
    ("tempOffset", Double.number settings.tempOffset),
    ("tempSteps", toString settings.tempSteps),
    ("sweepMode", settings.mode.name),
    ("direction", toString settings.direction.flag) ]

end Settings

end FlowCalibration
