import FlowCalibration.Json.Record
import FlowCalibration.Settings.Basic

/-!
# The table of settings

One constructor per setting.  The table gives each setting its name in files, the keys under which
loose input may hold it, its value in a settings record, and how a strict record stores it.
Reading, writing and resolving all go through this table.
-/

namespace FlowCalibration

/-- The settings, in the order in which files list them. -/
inductive Setting
  | bedWidth | bedLength | bedMargin | bedMarginX | bedMarginY | filamentDiameter | movementSpeed
  | stabilizationTime | bedTemp | startTemp | tempOffset | tempSteps | fanSpeed | primeLength
  | primeAmount | primeSpeed | wipeLength | retractionDistance | retractionSpeed | blobHeight
  | extrusionAmount | xSpacing | ySpacing | direction | startFlow | flowOffset | flowSteps
  | endFlow | sweepMode
  deriving DecidableEq, Repr

/-- The value of one setting. -/
inductive SettingValue
  /-- A number that is always given. -/
  | number (value : Float)
  /-- A number that may be left out. -/
  | optional (value : Option Float)
  /-- A count. -/
  | count (value : Nat)
  /-- An order of rows. -/
  | direction (value : Direction)
  /-- A mode that may be left out. -/
  | mode (value : Option SweepMode)
  deriving DecidableEq

namespace Setting

/-- Every setting, in table order. -/
def all : List Setting :=
  [ bedWidth, bedLength, bedMargin, bedMarginX, bedMarginY, filamentDiameter, movementSpeed,
    stabilizationTime, bedTemp, startTemp, tempOffset, tempSteps, fanSpeed, primeLength,
    primeAmount, primeSpeed, wipeLength, retractionDistance, retractionSpeed, blobHeight,
    extrusionAmount, xSpacing, ySpacing, direction, startFlow, flowOffset, flowSteps, endFlow,
    sweepMode ]

theorem mem_all (setting : Setting) : setting ∈ all := by
  cases setting <;> decide

/-- Name of a setting in files. -/
def name : Setting → String
  | bedWidth => "bedWidth"
  | bedLength => "bedLength"
  | bedMargin => "bedMargin"
  | bedMarginX => "bedMarginX"
  | bedMarginY => "bedMarginY"
  | filamentDiameter => "filamentDiameter"
  | movementSpeed => "movementSpeed"
  | stabilizationTime => "stabilizationTime"
  | bedTemp => "bedTemp"
  | startTemp => "startTemp"
  | tempOffset => "tempOffset"
  | tempSteps => "tempSteps"
  | fanSpeed => "fanSpeed"
  | primeLength => "primeLength"
  | primeAmount => "primeAmount"
  | primeSpeed => "primeSpeed"
  | wipeLength => "wipeLength"
  | retractionDistance => "retractionDistance"
  | retractionSpeed => "retractionSpeed"
  | blobHeight => "blobHeight"
  | extrusionAmount => "extrusionAmount"
  | xSpacing => "xSpacing"
  | ySpacing => "ySpacing"
  | direction => "direction"
  | startFlow => "startFlow"
  | flowOffset => "flowOffset"
  | flowSteps => "flowSteps"
  | endFlow => "endFlow"
  | sweepMode => "sweepMode"

/-- Keys of a setting in loose input, the one that counts first in front.  The short names are
those of the interactive form. -/
def keys : Setting → List String
  | movementSpeed => ["movementSpeed", "travelSpeed"]
  | bedTemp => ["bedTemp", "bedTemperature"]
  | startTemp => ["startTemp", "startTemperature"]
  | tempOffset => ["tempOffset", "temperatureSpacing"]
  | flowOffset => ["offset", "flowOffset"]
  | flowSteps => ["steps", "flowSteps"]
  | setting => [setting.name]

/-- The value of a setting in a record. -/
def value (settings : Settings) : Setting → SettingValue
  | bedWidth => .number settings.bedWidth
  | bedLength => .number settings.bedLength
  | bedMargin => .optional settings.bedMargin
  | bedMarginX => .optional settings.bedMarginX
  | bedMarginY => .optional settings.bedMarginY
  | filamentDiameter => .number settings.filamentDiameter
  | movementSpeed => .number settings.movementSpeed
  | stabilizationTime => .number settings.stabilizationTime
  | bedTemp => .number settings.bedTemp
  | startTemp => .number settings.startTemp
  | tempOffset => .number settings.tempOffset
  | tempSteps => .count settings.tempSteps
  | fanSpeed => .number settings.fanSpeed
  | primeLength => .number settings.primeLength
  | primeAmount => .number settings.primeAmount
  | primeSpeed => .number settings.primeSpeed
  | wipeLength => .number settings.wipeLength
  | retractionDistance => .number settings.retractionDistance
  | retractionSpeed => .number settings.retractionSpeed
  | blobHeight => .number settings.blobHeight
  | extrusionAmount => .number settings.extrusionAmount
  | xSpacing => .number settings.xSpacing
  | ySpacing => .number settings.ySpacing
  | direction => .direction settings.direction
  | startFlow => .number settings.startFlow
  | flowOffset => .number settings.flowOffset
  | flowSteps => .count settings.flowSteps
  | endFlow => .optional settings.endFlow
  | sweepMode => .mode settings.sweepMode

/-- Names of the directions in strict records. -/
def directionNames : List (String × Direction) :=
  [Direction.backToFront, Direction.mirrored].map fun direction => (direction.name, direction)

/-- Names of the modes in strict records. -/
def modeNames : List (String × SweepMode) :=
  [SweepMode.fill, SweepMode.matrix].map fun mode => (mode.name, mode)

/-- Store the value of a setting into a record. -/
def store? (setting : Setting) (document : JsonDocument) (settings : Settings) :
    Option Settings :=
  let number (set : Float → Settings) : Option Settings := document.toFloat?.map set
  let optional (set : Option Float → Settings) : Option Settings :=
    (document.toOptional? JsonDocument.toFloat?).map set
  let count (set : Nat → Settings) : Option Settings := document.toCount?.map set
  match setting with
  | bedWidth => number ({ settings with bedWidth := · })
  | bedLength => number ({ settings with bedLength := · })
  | bedMargin => optional ({ settings with bedMargin := · })
  | bedMarginX => optional ({ settings with bedMarginX := · })
  | bedMarginY => optional ({ settings with bedMarginY := · })
  | filamentDiameter => number ({ settings with filamentDiameter := · })
  | movementSpeed => number ({ settings with movementSpeed := · })
  | stabilizationTime => number ({ settings with stabilizationTime := · })
  | bedTemp => number ({ settings with bedTemp := · })
  | startTemp => number ({ settings with startTemp := · })
  | tempOffset => number ({ settings with tempOffset := · })
  | tempSteps => count ({ settings with tempSteps := · })
  | fanSpeed => number ({ settings with fanSpeed := · })
  | primeLength => number ({ settings with primeLength := · })
  | primeAmount => number ({ settings with primeAmount := · })
  | primeSpeed => number ({ settings with primeSpeed := · })
  | wipeLength => number ({ settings with wipeLength := · })
  | retractionDistance => number ({ settings with retractionDistance := · })
  | retractionSpeed => number ({ settings with retractionSpeed := · })
  | blobHeight => number ({ settings with blobHeight := · })
  | extrusionAmount => number ({ settings with extrusionAmount := · })
  | xSpacing => number ({ settings with xSpacing := · })
  | ySpacing => number ({ settings with ySpacing := · })
  | direction => (document.toConstant? directionNames).map ({ settings with direction := · })
  | startFlow => number ({ settings with startFlow := · })
  | flowOffset => number ({ settings with flowOffset := · })
  | flowSteps => count ({ settings with flowSteps := · })
  | endFlow => optional ({ settings with endFlow := · })
  | sweepMode =>
      (document.toOptional? (JsonDocument.toConstant? modeNames)).map
        ({ settings with sweepMode := · })

/-- The setting as a field of a strict record. -/
def recordField (setting : Setting) : RecordField Settings :=
  { key := setting.name, optional := true, store? := setting.store? }

end Setting

namespace Settings

/-- The settings of a strict record; a setting that is not given has its default. -/
def ofDocument? (document : JsonDocument) : Option Settings :=
  RecordField.read? (Setting.all.map Setting.recordField) {} document

/-- The values of a record, in table order. -/
def values (settings : Settings) : List (Setting × SettingValue) :=
  Setting.all.map fun setting => (setting, setting.value settings)

end Settings

end FlowCalibration
