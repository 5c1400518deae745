import FlowCalibration.Preview.Classify

/-!
# Extents and frames

The extents of a program are the bounding box of the places it visits.  The frame makes room for
them and for the bed, and turns program coordinates into those of the picture, in which Y grows
downward.
-/

namespace FlowCalibration

/-- A bounding box. -/
structure Extents where
  minX : Float
  maxX : Float
  minY : Float
  maxY : Float
  deriving DecidableEq

namespace Extents

/-- The box of no point. -/
def empty : Extents :=
  ⟨positiveInfinity, negativeInfinity, positiveInfinity, negativeInfinity⟩

/-- The least box that also holds a point; a point that is not finite is left out. -/
def mark (extents : Extents) (point : Point) : Extents :=
  if point.x.isFinite && point.y.isFinite then
    { minX := Double.min extents.minX point.x
      maxX := Double.max extents.maxX point.x
      minY := Double.min extents.minY point.y
      maxY := Double.max extents.maxY point.y }
  else extents

/-- The box of the origin, where every run starts. -/
def origin : Extents :=
  empty.mark ⟨0.0, 0.0⟩

/-- Whether no point is in the box. -/
def isEmpty (extents : Extents) : Bool :=
  extents.minX > extents.maxX || extents.minY > extents.maxY

/-- Extent along X. -/
def width (extents : Extents) : Float :=
  extents.maxX - extents.minX

/-- Extent along Y. -/
def height (extents : Extents) : Float :=
  extents.maxY - extents.minY

/-- The box after an event: both ends of a move that leaves its place, and every renamed
position. -/
def visit (extents : Extents) : Event → Extents
  | .motion motion =>
      if motion.leaves then (extents.mark motion.start).mark motion.finish else extents
  | .positionSet state => extents.mark state.position
  | .status _ => extents

/-- The box of a run. -/
def ofEvents (events : List Event) : Extents :=
  events.foldl visit origin

end Extents

/-- Size of a picture and the place of program coordinates in it. -/
structure SceneFrame where
  width : Float
  height : Float
  margin : Float
  minX : Float
  maxY : Float
  deriving DecidableEq

namespace SceneFrame

/-- The frame that holds the bed and the extents; without extents it holds the bed alone. -/
def of (options : ViewOptions) (extents : Extents) : SceneFrame :=
  let bounds :=
    if extents.isEmpty then
      (Extents.empty.mark ⟨0.0, 0.0⟩).mark ⟨options.bedWidth, options.bedLength⟩
    else extents
  { width := Double.max options.bedWidth bounds.width + 2.0 * options.margin
    height := Double.max options.bedLength bounds.height + 2.0 * options.margin
    margin := options.margin
    minX := bounds.minX
    maxY := bounds.maxY }

/-- Place of a point in the picture. -/
def toScene (frame : SceneFrame) (point : Point) : Point :=
  ⟨frame.margin - frame.minX + point.x, frame.margin + (frame.maxY - point.y)⟩

end SceneFrame

end FlowCalibration
