import FlowCalibration.Geometry
import FlowCalibration.Json.Record
import FlowCalibration.Settings.Resolve

/-!
# Printer profiles

What is known of a printer: its name, the volume it prints in, and hints for the layout.  Choosing
a printer puts the values of its profile under the settings of the run.
-/

namespace FlowCalibration

/-- Printable volume. -/
structure BuildVolume where
  width : Float
  depth : Float
  height : Float
  deriving DecidableEq

/-- Description of a printer. -/
structure PrinterProfile where
  /-- Name of the model. -/
  model : String
  /-- Printable volume. -/
  buildVolume : BuildVolume
  /-- Margin along X. -/
  bedMarginX : Option Float := none
  /-- Margin along Y. -/
  bedMarginY : Option Float := none
  /-- Gap between columns. -/
  xSpacing : Option Float := none
  /-- Distance between rows. -/
  ySpacing : Option Float := none
  /-- Areas of the bed in which nothing may be printed. -/
  excludedAreas : List Rect := []
  deriving DecidableEq

namespace BuildVolume

/-- The volume as a JSON object. -/
def toJson (volume : BuildVolume) : Json :=
  .object
    [ ("width", .ofFloat volume.width), ("depth", .ofFloat volume.depth),
      ("height", .ofFloat volume.height) ]

/-- Fields of a strict record. -/
def fields : List (RecordField BuildVolume) :=
  [ { key := "width", optional := false,
      store? := fun document volume => document.toFloat?.map ({ volume with width := · }) },
    { key := "depth", optional := false,
      store? := fun document volume => document.toFloat?.map ({ volume with depth := · }) },
    { key := "height", optional := false,
      store? := fun document volume => document.toFloat?.map ({ volume with height := · }) } ]

/-- The volume of a strict record. -/
def ofDocument? : JsonDocument → Option BuildVolume :=
  RecordField.read? fields ⟨0.0, 0.0, 0.0⟩

end BuildVolume

namespace Rect

/-- The rectangle as a JSON object. -/
def toJson (rect : Rect) : Json :=
  .object
    [ ("x", .ofFloat rect.x), ("y", .ofFloat rect.y), ("width", .ofFloat rect.width),
      ("depth", .ofFloat rect.depth) ]

/-- Fields of a strict record. -/
def fields : List (RecordField Rect) :=
  [ { key := "x", optional := false,
      store? := fun document rect => document.toFloat?.map ({ rect with x := · }) },
    { key := "y", optional := false,
      store? := fun document rect => document.toFloat?.map ({ rect with y := · }) },
    { key := "width", optional := false,
      store? := fun document rect => document.toFloat?.map ({ rect with width := · }) },
    { key := "depth", optional := false,
      store? := fun document rect => document.toFloat?.map ({ rect with depth := · }) } ]

/-- The rectangle of a strict record. -/
def ofDocument? : JsonDocument → Option Rect :=
  RecordField.read? fields ⟨0.0, 0.0, 0.0, 0.0⟩

end Rect

namespace PrinterProfile

/-- Name of the printer about which nothing is known. -/
def unknownModel : String := "unknown"

/-- The printer about which nothing is known. -/
def unknown : PrinterProfile :=
  { model := unknownModel, buildVolume := ⟨0.0, 0.0, 0.0⟩ }

/-- Whether nothing is known of a printer. -/
def isUnknown (profile : PrinterProfile) : Bool :=
  profile.model == unknownModel && profile.buildVolume.width == 0.0 &&
    profile.buildVolume.depth == 0.0 && profile.buildVolume.height == 0.0

/-- Whether a point lies in an excluded area. -/
def isExcluded (profile : PrinterProfile) (point : Point) : Bool :=
  profile.excludedAreas.any (·.contains point)

/-- Spacing of a printer whose profile has no hint. -/
def defaultSpacing : Float := 20.0

/-- The settings that the choice of a printer brings along; the unknown printer brings none. -/
def overlay (profile : PrinterProfile) : RawSettings :=
  if profile.isUnknown then {}
  else
    let margins :=
      (profile.bedMarginX.map fun margin => ("bedMarginX", Json.ofFloat margin)).toList ++
        (profile.bedMarginY.map fun margin => ("bedMarginY", Json.ofFloat margin)).toList
    RawSettings.ofMembers <|
      [ ("bedWidth", Json.ofFloat profile.buildVolume.width),
        ("bedLength", Json.ofFloat profile.buildVolume.depth) ] ++ margins ++
      [ ("xSpacing", Json.ofFloat (profile.xSpacing.getD defaultSpacing)),
        ("ySpacing", Json.ofFloat (profile.ySpacing.getD defaultSpacing)) ]

/-- The settings of a run: those of the printer below the layers, later layers above earlier
ones. -/
def layeredSettings (profile : PrinterProfile) (layers : List RawSettings) : Settings :=
  (layers.foldl RawSettings.merge profile.overlay).resolve

/-- A member that is left out when it has no value. -/
def optionalMember (key : String) (value : Option Float) : List (String × Json) :=
  (value.map fun value => (key, Json.ofFloat value)).toList

/-- The profile as a JSON object. -/
def toJson (profile : PrinterProfile) : Json :=
  .object <|
    [("model", .text profile.model), ("buildVolume", profile.buildVolume.toJson)] ++
      optionalMember "bedMarginX" profile.bedMarginX ++
      optionalMember "bedMarginY" profile.bedMarginY ++
      optionalMember "xSpacing" profile.xSpacing ++
      optionalMember "ySpacing" profile.ySpacing ++
      if profile.excludedAreas.isEmpty then []
      else [("excludedAreas", .array (profile.excludedAreas.map Rect.toJson))]

/-- Fields of a strict record. -/
def fields : List (RecordField PrinterProfile) :=
  let hint (key : String) (set : PrinterProfile → Option Float → PrinterProfile) :
      RecordField PrinterProfile :=
    { key, optional := true,
      store? := fun document profile =>
        (document.toOptional? JsonDocument.toFloat?).map (set profile) }
  [ { key := "model", optional := false,
      store? := fun document profile => document.toText?.map ({ profile with model := · }) },
    { key := "buildVolume", optional := false,
      store? := fun document profile =>
        (BuildVolume.ofDocument? document).map ({ profile with buildVolume := · }) },
    hint "bedMarginX" fun profile margin => { profile with bedMarginX := margin },
    hint "bedMarginY" fun profile margin => { profile with bedMarginY := margin },
    hint "xSpacing" fun profile spacing => { profile with xSpacing := spacing },
    hint "ySpacing" fun profile spacing => { profile with ySpacing := spacing },
    { key := "excludedAreas", optional := true,
      store? := fun document profile =>
        (document.toList? Rect.ofDocument?).map ({ profile with excludedAreas := · }) } ]

/-- The profile of a strict record. -/
def ofDocument? : JsonDocument → Option PrinterProfile :=
  RecordField.read? fields unknown

end PrinterProfile

end FlowCalibration
