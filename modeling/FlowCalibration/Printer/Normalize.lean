import FlowCalibration.Decimal.Text
import FlowCalibration.Printer.Profile

/-!
# Normalizing loose profiles

Loose profiles come in several shapes.  The build volume stands under one of two keys, perhaps once
more under `single_nozzle`; one of width and depth may be missing and is then the other; a margin
for both axes may stand at the top, in the volume or in its nested variant; the excluded areas
stand under one of two keys.
-/

namespace FlowCalibration

/-- What is wrong with a build volume. -/
inductive VolumeFault
  /-- Neither width nor depth is a number. -/
  | noExtent
  /-- One of the dimensions is negative. -/
  | negative (volume : BuildVolume)
  deriving DecidableEq

/-- What is wrong with an excluded area. -/
inductive AreaFault
  /-- The areas are no list. -/
  | notAList
  /-- The area is no object. -/
  | notAnObject
  /-- A number is missing. -/
  | missing (key : String)
  deriving DecidableEq, Repr

/-- Why a loose profile is refused. -/
inductive ProfileError
  /-- A required value is missing or of the wrong kind. -/
  | missingField (key : String)
  /-- The build volume cannot be used. -/
  | invalidBuildVolume (fault : VolumeFault)
  /-- An excluded area cannot be used. -/
  | invalidExcludedArea (index : Nat) (fault : AreaFault)
  deriving DecidableEq

namespace VolumeFault

/-- Wording of a fault. -/
def message : VolumeFault → String
  | noExtent => "neither width nor depth given"
  | negative volume =>
      "negative dimension " ++ Double.plain volume.width ++ "x" ++ Double.plain volume.depth ++
        "x" ++ Double.plain volume.height

end VolumeFault

namespace AreaFault

/-- Wording of a fault. -/
def message : AreaFault → String
  | notAList => "expected a list"
  | notAnObject => "expected an object"
  | missing key => "missing " ++ key

end AreaFault

namespace ProfileError

/-- Wording of an error. -/
def message : ProfileError → String
  | missingField key => "Missing required field: " ++ key
  | invalidBuildVolume fault => "Invalid build volume: " ++ fault.message
  | invalidExcludedArea index fault =>
      "Invalid excluded area #" ++ toString index ++ ": " ++ fault.message

end ProfileError

namespace PrinterProfile

/-- The finite number under a key of an object. -/
def numberMember? (object : Json) (key : String) : Option Float :=
  ((object.member? key).bind Json.toFloat?).filter Float.isFinite

/-- The first value under one of the keys that is not `null`. -/
def firstPresent? (object : Json) (keys : List String) : Option Json :=
  keys.findSome? fun key =>
    match object.member? key with
    | some .null => none
    | value => value

/-- A value that is an object. -/
def asObject? : Json → Option Json
  | .object members => some (.object members)
  | _ => none

/-- The build volume of an object; a missing width is the depth and the other way round. -/
def volumeOf (object : Json) : Except ProfileError BuildVolume :=
  let width := numberMember? object "width" <|> numberMember? object "depth"
  let depth := numberMember? object "depth" <|> numberMember? object "width"
  match width, depth with
  | some width, some depth =>
      let volume : BuildVolume := ⟨width, depth, (numberMember? object "height").getD 0.0⟩
      if volume.width < 0.0 || volume.depth < 0.0 || volume.height < 0.0 then
        .error (.invalidBuildVolume (.negative volume))
      else .ok volume
  | _, _ => .error (.invalidBuildVolume .noExtent)

/-- The excluded area at a place of the list. -/
def areaOf (index : Nat) (value : Json) : Except ProfileError Rect :=
  let number (key : String) : Except ProfileError Float :=
    match numberMember? value key with
    | some number => .ok number
    | none => .error (.invalidExcludedArea index (.missing key))
  match value with
  | .object _ => do
      let x ← number "x"
      let y ← number "y"
      let width ← number "width"
      let depth ← number "depth"
      return ⟨x, y, width, depth⟩
  | _ => .error (.invalidExcludedArea index .notAnObject)

/-- The excluded areas from a place of the list on; the first fault counts. -/
def areasFrom (index : Nat) : List Json → Except ProfileError (List Rect)
  | [] => .ok []
  | value :: tail => do
      let area ← areaOf index value
      let areas ← areasFrom (index + 1) tail
      return area :: areas

/-- The excluded areas of a profile. -/
def areasOf (object : Json) : Except ProfileError (List Rect) :=
  match firstPresent? object ["excludedAreas", "excluded_areas"] with
  | none => .ok []
  | some (.array elements) => areasFrom 0 elements
  | some _ => .error (.invalidExcludedArea 0 .notAList)

/-- The model name of a profile without blanks at its ends; a blank name counts as missing. -/
def modelOf (object : Json) : Except ProfileError String :=
  match ((object.member? "model").bind Json.toText?).map fun text => trim text.toList with
  | none | some [] => .error (.missingField "model")
  | some model => .ok (String.ofList model)

/-- The profile that a loose profile stands for. -/
def normalize (raw : Json) : Except ProfileError PrinterProfile := do
  let model ← modelOf raw
  match (firstPresent? raw ["buildVolume", "build_volume_mm"]).bind asObject? with
  | none => .error (.missingField "buildVolume")
  | some outer =>
      let inner := ((outer.member? "single_nozzle").bind asObject?).getD outer
      let buildVolume ← volumeOf inner
      let margin :=
        numberMember? raw "bedMargin" <|> numberMember? outer "bedMargin" <|>
          numberMember? inner "bedMargin"
      let excludedAreas ← areasOf raw
      return {
        model
        buildVolume
        bedMarginX := margin <|> numberMember? raw "bedMarginX"
        bedMarginY := margin <|> numberMember? raw "bedMarginY"
        xSpacing := numberMember? raw "xSpacing"
        ySpacing := numberMember? raw "ySpacing"
        excludedAreas }

end PrinterProfile

end FlowCalibration
