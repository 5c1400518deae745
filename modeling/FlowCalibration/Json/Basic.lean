import FlowCalibration.Decimal.Rounding
import FlowCalibration.Text.KeyTable

/-!
# JSON values

Numbers are whole numbers of 64 bits or doubles, and objects are tables without repeated keys.
-/

namespace FlowCalibration

/-- A JSON number. -/
inductive JsonNumber
  /-- A whole number of 64 bits, signed or not. -/
  | integer (value : Int)
  /-- Any other number. -/
  | real (value : Float)
  deriving DecidableEq

/-- A JSON value. -/
inductive Json
  | null
  | boolean (value : Bool)
  | number (value : JsonNumber)
  | text (value : String)
  | array (elements : List Json)
  | object (members : List (String × Json))

namespace JsonNumber

/-- The nearest double. -/
def toFloat : JsonNumber → Float
  | integer value => (Binary64.ofSigned (value < 0) value.natAbs).toFloat
  | real value => value

/-- The number of a count that 64 bits hold: a whole number that is not negative. -/
def toCount? : JsonNumber → Option Nat
  | integer (.ofNat count) => some count
  | _ => none

end JsonNumber

namespace Json

/-- The number with a given double; JSON has no number that is not finite. -/
def ofFloat (value : Float) : Json :=
  if value.isFinite then number (.real value) else null

/-- The number of a count. -/
def ofCount (count : Nat) : Json :=
  number (.integer count)

/-- The value under a key of an object. -/
def member? : Json → String → Option Json
  | object members, key => KeyTable.find? members key
  | _, _ => none

/-- The double of a number. -/
def toFloat? : Json → Option Float
  | number value => some value.toFloat
  | _ => none

/-- The elements of an array. -/
def toArray? : Json → Option (List Json)
  | array elements => some elements
  | _ => none

/-- The text of a string. -/
def toText? : Json → Option String
  | text value => some value
  | _ => none

/-- The word for the kind of a value. -/
def kind : Json → String
  | null => "null"
  | boolean _ => "boolean"
  | number _ => "number"
  | text _ => "string"
  | array _ => "array"
  | object _ => "object"

end Json

end FlowCalibration
