import FlowCalibration.Decimal.Rounding

/-!
# Points and rectangles of the bed
-/

namespace FlowCalibration

/-- A point of the bed. -/
structure Point where
  x : Float
  y : Float
  deriving DecidableEq

/-- A rectangle along the axes, by one corner and its extent.  A negative extent describes the same
area as the rectangle from the opposite corner. -/
structure Rect where
  x : Float
  y : Float
  width : Float
  depth : Float
  deriving DecidableEq

namespace Rect

/-- Left border. -/
def minX (rect : Rect) : Float := Double.min rect.x (rect.x + rect.width)

/-- Right border. -/
def maxX (rect : Rect) : Float := Double.max rect.x (rect.x + rect.width)

/-- Front border. -/
def minY (rect : Rect) : Float := Double.min rect.y (rect.y + rect.depth)

/-- Back border. -/
def maxY (rect : Rect) : Float := Double.max rect.y (rect.y + rect.depth)

/-- Whether a point lies inside or on the border. -/
def contains (rect : Rect) (point : Point) : Bool :=
  point.x ≥ rect.minX && point.x ≤ rect.maxX && point.y ≥ rect.minY && point.y ≤ rect.maxY

end Rect

end FlowCalibration
