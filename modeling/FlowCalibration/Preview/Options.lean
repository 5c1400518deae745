import FlowCalibration.Json.Record
import FlowCalibration.Settings.Basic

/-!
# Options of a preview
-/

namespace FlowCalibration

/-- Colour and width of the strokes of a layer. -/
structure StrokeStyle where
  color : String
  width : Float
  deriving DecidableEq

/-- How a program is drawn.  Lengths are in millimetres. -/
structure ViewOptions where
  /-- Bed size along X. -/
  bedWidth : Float := 220.0
  /-- Bed size along Y. -/
  bedLength : Float := 220.0
  /-- Space around the bed. -/
  margin : Float := 5.0
  /-- Distance of grid lines; without a positive one there is no grid. -/
  gridStep : Float := 20.0
  /-- Diameter of the filament, from which blobs get their size. -/
  filamentDiameter : Float := 1.75
  /-- Least extruded length that is drawn as a blob. -/
  blobMinE : Float := 20.0
  /-- Longest move that still counts as a blob. -/
  blobMaxXY : Float := 0.1
  /-- Factor from the root of a blob's volume to its radius. -/
  blobScale : Float := 0.06
  /-- Strokes of moves without extrusion. -/
  travel : StrokeStyle := ⟨"#F00", 0.6⟩
  /-- Strokes of moves with extrusion. -/
  extrusion : StrokeStyle := ⟨"#0b79d0", 2.0⟩
  /-- Strokes of blobs. -/
  blob : StrokeStyle := ⟨"#cc3300", 3.0⟩
  /-- Fonts of the labels. -/
  fontFamily : String := "Arial, sans-serif"
  /-- Size of the labels. -/
  fontSize : Float := 4.0
  deriving DecidableEq

namespace StrokeStyle

/-- Fields of a strict record. -/
def fields : List (RecordField StrokeStyle) :=
  [ { key := "color", optional := false,
      store? := fun document style => document.toText?.map ({ style with color := · }) },
    { key := "width", optional := false,
      store? := fun document style => document.toFloat?.map ({ style with width := · }) } ]

/-- The style of a strict record. -/
def ofDocument? : JsonDocument → Option StrokeStyle :=
  RecordField.read? fields ⟨"", 0.0⟩

end StrokeStyle

namespace ViewOptions

/-- Cross-section of the filament. -/
def filamentArea (options : ViewOptions) : Float :=
  let radius := options.filamentDiameter / 2.0
  Settings.pi * (radius * radius)

/-- Fields of a strict record. -/
def fields : List (RecordField ViewOptions) :=
  let number (key : String) (set : ViewOptions → Float → ViewOptions) : RecordField ViewOptions :=
    { key, optional := true, store? := fun document options => document.toFloat?.map (set options) }
  let stroke (key : String) (set : ViewOptions → StrokeStyle → ViewOptions) :
      RecordField ViewOptions :=
    { key, optional := true,
      store? := fun document options => (StrokeStyle.ofDocument? document).map (set options) }
  [ number "bed_width" fun options value => { options with bedWidth := value },
    number "bed_length" fun options value => { options with bedLength := value },
    number "margin" fun options value => { options with margin := value },
    number "grid_step" fun options value => { options with gridStep := value },
    number "filament_diameter" fun options value => { options with filamentDiameter := value },
    number "blob_min_e" fun options value => { options with blobMinE := value },
    number "blob_max_xy" fun options value => { options with blobMaxXY := value },
    number "blob_scale" fun options value => { options with blobScale := value },
    stroke "travel" fun options style => { options with travel := style },
    stroke "extrusion" fun options style => { options with extrusion := style },
    stroke "blob" fun options style => { options with blob := style },
    { key := "font_family", optional := true,
      store? := fun document options => document.toText?.map ({ options with fontFamily := · }) },
    number "font_size" fun options value => { options with fontSize := value } ]

/-- The options of a strict record; an option that is not given has its default. -/
def ofDocument? (document : JsonDocument) : Option ViewOptions :=
  RecordField.read? fields {} document

/-- Options that suit a calibration run: its bed, margins and filament, and blobs in the colour of
the extruding moves. -/
def ofSettings (settings : Settings) : ViewOptions :=
  let defaults : ViewOptions := {}
  let blue := "#0b79d0"
  { defaults with
    bedWidth := settings.bedWidth
    bedLength := settings.bedLength
    margin := Double.max settings.marginX settings.marginY
    gridStep := 20.0
    filamentDiameter := settings.filamentDiameter
    blobMinE := 20.0
    blobMaxXY := 0.1
    blobScale := 0.06
    travel := ⟨"#ffff0050", defaults.travel.width⟩
    extrusion := ⟨blue, defaults.extrusion.width⟩
    blob := ⟨blue, defaults.blob.width⟩ }

end ViewOptions

end FlowCalibration
