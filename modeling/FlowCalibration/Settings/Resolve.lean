import FlowCalibration.Settings.Raw
import FlowCalibration.Settings.Setting
import FlowCalibration.Text.Case

/-!
# Resolving raw settings

Every setting takes the first value among its keys that can be read, and its default where there is
none.  Values that cannot be read count as missing, so resolving never fails.
-/

namespace FlowCalibration

/-- The finite number that a raw value stands for: a number, or a text that starts with one. -/
def Json.readNumber? : Json → Option Float
  | .number value => if value.toFloat.isFinite then some value.toFloat else none
  | .text value => readLenient? value.toList
  | _ => none

namespace RawSettings

/-- The first readable number among the keys of a setting. -/
def number? (raw : RawSettings) (setting : Setting) : Option Float :=
  setting.keys.findSome? fun key => (raw.get? key).bind Json.readNumber?

/-- The number of a setting, or a default. -/
def numberOr (raw : RawSettings) (setting : Setting) (default : Float) : Float :=
  (raw.number? setting).getD default

/-- A number as a count of steps: rounded up, from zero to `maxSweepSteps`. -/
def toSteps (value : Float) : Nat :=
  if value ≤ 0.0 then 0 else min (Double.toCount (Double.ceil value)) maxSweepSteps

/-- The count of a setting, or a default. -/
def countOr (raw : RawSettings) (setting : Setting) (default : Nat) : Nat :=
  ((raw.number? setting).map toSteps).getD default

/-- The first text among the keys of a setting, without blanks at its ends and in lower case. -/
def text? (raw : RawSettings) (setting : Setting) : Option String :=
  (setting.keys.findSome? fun key => (raw.get? key).bind Json.toText?).map fun text =>
    String.ofList ((trim text.toList).map lowerToAscii)

/-- The order of rows, by name or by number. -/
def direction (raw : RawSettings) : Direction :=
  let byNumber : Direction :=
    match raw.number? .direction with
    | some value => if value == 1.0 then .mirrored else .backToFront
    | none => .backToFront
  match raw.text? .direction with
  | some "mirrored" => .mirrored
  | some "mirror" => .mirrored
  | some "back_to_front" => .backToFront
  | some "normal" => .backToFront
  | _ => byNumber

/-- The mode of the sweep, if it is named. -/
def sweepMode? (raw : RawSettings) : Option SweepMode :=
  match raw.text? .sweepMode with
  | some "fill" => some .fill
  | some "matrix" => some .matrix
  | _ => none

/-- The change of flow from step to step.  Where only the last flow is given, the steps are spread
evenly up to it. -/
def flowOffset (raw : RawSettings) (startFlow : Float) (flowSteps : Nat) : Float :=
  match raw.number? .flowOffset, raw.number? .endFlow with
  | some offset, _ => offset
  | none, some last =>
      if 1 < flowSteps then (last - startFlow) / Double.ofCount (flowSteps - 1) else 0.0
  | none, none => ({} : Settings).flowOffset

/-- The settings that raw input stands for. -/
def resolve (raw : RawSettings) : Settings :=
  let defaults : Settings := {}
  let startFlow := raw.numberOr .startFlow defaults.startFlow
  let flowSteps := raw.countOr .flowSteps defaults.flowSteps
  { bedWidth := raw.numberOr .bedWidth defaults.bedWidth
    bedLength := raw.numberOr .bedLength defaults.bedLength
    bedMargin := some (raw.numberOr .bedMargin (defaults.bedMargin.getD 0.0))
    bedMarginX := raw.number? .bedMarginX
    bedMarginY := raw.number? .bedMarginY
    filamentDiameter := raw.numberOr .filamentDiameter defaults.filamentDiameter
    movementSpeed := raw.numberOr .movementSpeed defaults.movementSpeed
    stabilizationTime := raw.numberOr .stabilizationTime defaults.stabilizationTime
    bedTemp := raw.numberOr .bedTemp defaults.bedTemp
    startTemp := raw.numberOr .startTemp defaults.startTemp
    tempOffset := raw.numberOr .tempOffset defaults.tempOffset
    tempSteps := raw.countOr .tempSteps defaults.tempSteps
    fanSpeed := raw.numberOr .fanSpeed defaults.fanSpeed
    primeLength := raw.numberOr .primeLength defaults.primeLength
    primeAmount := raw.numberOr .primeAmount defaults.primeAmount
    primeSpeed := raw.numberOr .primeSpeed defaults.primeSpeed
    wipeLength := raw.numberOr .wipeLength defaults.wipeLength
    retractionDistance := raw.numberOr .retractionDistance defaults.retractionDistance
    retractionSpeed := raw.numberOr .retractionSpeed defaults.retractionSpeed
    blobHeight := raw.numberOr .blobHeight defaults.blobHeight
    extrusionAmount := raw.numberOr .extrusionAmount defaults.extrusionAmount
    xSpacing := raw.numberOr .xSpacing defaults.xSpacing
    ySpacing := raw.numberOr .ySpacing defaults.ySpacing
    direction := raw.direction
    startFlow
    flowOffset := raw.flowOffset startFlow flowSteps
    flowSteps
    endFlow := raw.number? .endFlow
    sweepMode := raw.sweepMode? }

end RawSettings

end FlowCalibration
