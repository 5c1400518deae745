import FlowCalibration.Preview.Options
import FlowCalibration.Program.Machine

/-!
# Which moves are drawn

A move that leaves its place draws a segment; a move that extrudes much while it stays draws a
blob.
-/

namespace FlowCalibration

/-- Moves and extrusions up to this length draw nothing. -/
def motionEpsilon : Float := 1e-6

/-- Kind of a segment. -/
inductive SegmentKind
  /-- Nothing is extruded. -/
  | travel
  /-- Filament is extruded. -/
  | extrusion
  deriving DecidableEq, Repr

namespace Motion

/-- Whether a move leaves its place. -/
def leaves (motion : Motion) : Bool :=
  motion.distance > motionEpsilon

/-- Kind of the segment of a move, if it draws one. -/
def segment? (motion : Motion) : Option SegmentKind :=
  if motion.leaves then
    some (if motion.de > motionEpsilon then .extrusion else .travel)
  else none

/-- Whether a move draws a blob; both bounds count. -/
def isBlob (options : ViewOptions) (motion : Motion) : Bool :=
  motion.de ≥ options.blobMinE && motion.distance ≤ options.blobMaxXY

end Motion

/-- Radius of the blob of an extruded length: the root of its volume, scaled. -/
def blobRadius (options : ViewOptions) (extruded : Float) : Float :=
  (Double.max (options.filamentArea * extruded) 0.0).sqrt * options.blobScale

end FlowCalibration
