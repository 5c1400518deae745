import FlowCalibration.Decimal.Binary64

/-!
# Rounding doubles to whole numbers and to decimal places

Whole parts are taken exactly, on the magnitude in units of `2 ^ -1074`.  Each rounding keeps the
sign of its argument, so a result of zero has the argument's sign.  Infinities and the value that
is no number are left alone.
-/

namespace FlowCalibration

namespace Rounding

/-- A direction of rounding: from the sign, the whole part and what is left of the magnitude in
units of `2 ^ -1074`, the whole magnitude of the result. -/
abbrev Rule := Bool → Nat → Nat → Nat

/-- Toward negative infinity. -/
def down : Rule := fun negative whole rest =>
  if negative && rest != 0 then whole + 1 else whole

/-- Toward positive infinity. -/
def up : Rule := fun negative whole rest =>
  if !negative && rest != 0 then whole + 1 else whole

/-- To the nearest whole number, a half away from zero. -/
def halfAway : Rule := fun _ whole rest =>
  if Magnitude.one ≤ 2 * rest then whole + 1 else whole

end Rounding

namespace Double

/-- The whole number that a rule picks for a double. -/
def wholeBy (rule : Rounding.Rule) (value : Float) : Float :=
  let binary := Binary64.ofFloat value
  if binary.isFinite then
    let units := Magnitude.units binary.code
    (Binary64.ofSigned binary.negative
      (rule binary.negative (units / Magnitude.one) (units % Magnitude.one))).toFloat
  else value

/-- Largest whole number that is not above the argument. -/
def floor : Float → Float := wholeBy Rounding.down

/-- Smallest whole number that is not below the argument. -/
def ceil : Float → Float := wholeBy Rounding.up

/-- Nearest whole number, a half away from zero. -/
def round : Float → Float := wholeBy Rounding.halfAway

/-- Whole part of a positive double as a count of 64 bits: negative values and the value that is
no number give zero, values above the range its largest member. -/
def toCount (value : Float) : Nat :=
  let binary := Binary64.ofFloat value
  if binary.negative || Magnitude.infinity < binary.code then 0
  else if binary.isFinite then
    min (Magnitude.units binary.code / Magnitude.one) 0xffffffffffffffff
  else 0xffffffffffffffff

/-- The double nearest to a natural number. -/
def ofCount (count : Nat) : Float :=
  (Binary64.ofSigned false count).toFloat

/-- The smaller of two doubles; one that is no number loses to any that is. -/
protected def min (a b : Float) : Float :=
  if a < b then a else if b ≤ a then b else if a.isNaN then b else a

/-- The larger of two doubles; one that is no number loses to any that is. -/
protected def max (a b : Float) : Float :=
  if b < a then a else if a ≤ b then b else if a.isNaN then b else a

/-- A power with a natural exponent by repeated squaring: each product is rounded, and the binary
digits of the exponent are used from the lowest. -/
def power (base : Float) (exponent : Nat) : Float :=
  go 1.0 base exponent
where
  /-- Multiply `result` by `base ^ exponent`. -/
  go (result base : Float) (exponent : Nat) : Float :=
    let result := if exponent % 2 = 1 then result * base else result
    if exponent < 2 then result else go result (base * base) (exponent / 2)
  termination_by exponent

/-- A power of ten; a negative one is the reciprocal of the positive one. -/
def powerOfTen (exponent : Int) : Float :=
  if exponent < 0 then 1.0 / power 10.0 exponent.natAbs else power 10.0 exponent.natAbs

/-- Round to a number of decimal places, a half away from zero; the argument is scaled by a power
of ten, rounded to a whole number and scaled back. -/
def roundTo (value : Float) (places : Int) : Float :=
  let factor := powerOfTen places
  round (value * factor) / factor

end Double

end FlowCalibration
