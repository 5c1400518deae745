import FlowCalibration.Decimal.Text
import FlowCalibration.Preview.Frame
import FlowCalibration.Preview.Label

/-!
# Pictures of programs

The events of a run are first turned into a drawing: the segments, blobs and labels of each layer
in the order of the run.  The drawing is then written as SVG, layer above layer: bed, grid, travel
moves, extruding moves, blobs, labels.
-/

namespace FlowCalibration

/-- A line from point to point. -/
structure Segment where
  start : Point
  finish : Point
  deriving DecidableEq

/-- A blob of an extruded length. -/
structure Blob where
  center : Point
  extruded : Float
  deriving DecidableEq

/-- A text at a point. -/
structure PlacedLabel where
  anchor : Point
  text : String
  deriving DecidableEq

/-- What a run draws, in program coordinates. -/
structure Drawing where
  travel : List Segment := []
  extrusion : List Segment := []
  blobs : List Blob := []
  labels : List PlacedLabel := []
  deriving DecidableEq

namespace Drawing

/-- The drawing of events.  A label waits in `pending` for the next segment, at whose end it is
written; a later label takes its place. -/
def draw (options : ViewOptions) (pending : Option String) : List Event → Drawing
  | [] => {}
  | .status message :: events => draw options (Label.ofMessage? message <|> pending) events
  | .positionSet _ :: events => draw options pending events
  | .motion motion :: events =>
      let blobs := if motion.isBlob options then [⟨motion.start, motion.de⟩] else []
      match motion.segment? with
      | none =>
          let after := draw options pending events
          { after with blobs := blobs ++ after.blobs }
      | some kind =>
          let after := draw options none events
          let segment : Segment := ⟨motion.start, motion.finish⟩
          let labels := pending.toList.map fun text => ⟨motion.finish, text⟩
          { travel := if kind = .travel then segment :: after.travel else after.travel
            extrusion :=
              if kind = .extrusion then segment :: after.extrusion else after.extrusion
            blobs := blobs ++ after.blobs
            labels := labels ++ after.labels }

/-- The drawing of a run. -/
def ofEvents (options : ViewOptions) (events : List Event) : Drawing :=
  draw options none events

end Drawing

namespace Markup

/-- A character as it stands in the text or in an attribute of a document. -/
def escaped (c : Char) : List Char :=
  match c with
  | '&' => "&amp;".toList
  | '<' => "&lt;".toList
  | '>' => "&gt;".toList
  | '"' => "&quot;".toList
  | '\'' => "&apos;".toList
  | c => [c]

/-- A text as it stands in a document. -/
def escape (text : String) : String :=
  String.ofList (text.toList.flatMap escaped)

/-- Attributes of an element, each with a blank in front. -/
def attributes (pairs : List (String × String)) : String :=
  pairs.foldr (fun pair text => " " ++ pair.1 ++ "=\"" ++ pair.2 ++ "\"" ++ text) ""

/-- An element without content. -/
def emptyElement (name : String) (pairs : List (String × String)) : String :=
  "<" ++ name ++ attributes pairs ++ "/>"

/-- An element with a text. -/
def textElement (name : String) (pairs : List (String × String)) (text : String) : String :=
  "<" ++ name ++ attributes pairs ++ ">" ++ text ++ "</" ++ name ++ ">"

end Markup

namespace SceneFrame

open Double (number)
open Markup (escape emptyElement textElement)

/-- Colour of the bed. -/
def bedFill : String := "#3f3f46"

/-- Colour of the grid. -/
def gridStroke : String := "#4b4b53"

/-- Width of grid lines. -/
def gridStrokeWidth : Float := 0.3

/-- Colour of the labels. -/
def labelFill : String := "#FFF"

/-- Offset of a label from its anchor. -/
def labelOffset : Point := ⟨2.0, 10.0⟩

/-- Upper bound on the steps of the grid along one axis. -/
def maxGridSteps : Nat := 1000

/-- The bed and the strip with its front edge. -/
def bedElements (options : ViewOptions) : List String :=
  let rect (y width height : Float) : String :=
    emptyElement "rect"
      [ ("x", number options.margin), ("y", number y), ("width", number width),
        ("height", number height), ("fill", bedFill) ]
  [ rect options.margin options.bedWidth options.bedLength,
    rect (options.margin + options.bedLength) (options.bedWidth / 2.0)
      (options.bedLength / 25.0) ]

/-- Positions of grid lines from a start across a span. -/
def gridPositions (start span step : Float) : List Float :=
  let last := start + span + 0.001
  ((List.range (maxGridSteps + 1)).map fun index => start + Double.ofCount index * step).takeWhile
    (· ≤ last)

/-- The lines of the grid: first across X, then across Y. -/
def gridElements (options : ViewOptions) : List String :=
  let margin := options.margin
  let line (x1 y1 x2 y2 : Float) : String :=
    emptyElement "line"
      [ ("x1", number x1), ("y1", number y1), ("x2", number x2), ("y2", number y2),
        ("stroke", gridStroke), ("stroke-width", number gridStrokeWidth) ]
  if options.gridStep > 0.0 then
    (gridPositions margin options.bedWidth options.gridStep).map
        (fun x => line x margin x (margin + options.bedLength)) ++
      (gridPositions margin options.bedLength options.gridStep).map
        (fun y => line margin y (margin + options.bedWidth) y)
  else []

/-- A segment of a layer. -/
def segmentElement (frame : SceneFrame) (style : StrokeStyle) (segment : Segment) : String :=
  let start := frame.toScene segment.start
  let finish := frame.toScene segment.finish
  emptyElement "line"
    [ ("stroke-dasharray", "2 1"), ("x1", number start.x), ("y1", number start.y),
      ("x2", number finish.x), ("y2", number finish.y), ("stroke", escape style.color),
      ("stroke-width", number style.width), ("stroke-linecap", "round") ]

/-- A blob. -/
def blobElement (frame : SceneFrame) (options : ViewOptions) (blob : Blob) : String :=
  let center := frame.toScene blob.center
  emptyElement "circle"
    [ ("cx", number center.x), ("cy", number center.y),
      ("r", Double.fixed 3 (blobRadius options blob.extruded)), ("fill", "none"),
      ("stroke", escape options.blob.color), ("stroke-width", number options.blob.width) ]

/-- A label. -/
def labelElement (frame : SceneFrame) (options : ViewOptions) (label : PlacedLabel) : String :=
  let anchor := frame.toScene label.anchor
  textElement "text"
    [ ("x", number (anchor.x + labelOffset.x)), ("y", number (anchor.y + labelOffset.y)),
      ("font-family", escape options.fontFamily), ("font-size", number options.fontSize),
      ("fill", labelFill) ]
    (escape label.text)

/-- The elements of a picture from the lowest to the highest. -/
def elements (frame : SceneFrame) (options : ViewOptions) (drawing : Drawing) : List String :=
  bedElements options ++ gridElements options ++
    drawing.travel.map (frame.segmentElement options.travel) ++
    drawing.extrusion.map (frame.segmentElement options.extrusion) ++
    drawing.blobs.map (frame.blobElement options) ++
    drawing.labels.map (frame.labelElement options)

/-- The picture of a drawing. -/
def document (frame : SceneFrame) (options : ViewOptions) (drawing : Drawing) : String :=
  "<svg xmlns=\"http://www.w3.org/2000/svg\" width=\"600px\" viewBox=\"0 0 " ++
    number frame.width ++ " " ++ number frame.height ++ "\">\n" ++
    String.intercalate "\n" (frame.elements options drawing) ++ "\n</svg>"

end SceneFrame

/-- The picture of a program. -/
def render (options : ViewOptions) (program : String) : String :=
  let events := (replay program).1
  (SceneFrame.of options (Extents.ofEvents events)).document options
    (Drawing.ofEvents options events)

end FlowCalibration
