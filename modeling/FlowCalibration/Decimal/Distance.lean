import FlowCalibration.Decimal.Rounding

/-!
# Distances

The length of a vector with double coordinates.  How precise it is on a platform is not specified;
here the exact length is rounded once, and no result about programs or pictures uses how it is
rounded.  Squares are taken of the exact magnitudes, so nothing overflows or vanishes on the way.
-/

namespace FlowCalibration

/-- Improve a guess of a square root from above until it stops falling.  It serves lengths only, of
which no result uses the rounding. -/
def sqrtBelow (value guess : Nat) : Nat :=
  let next := (guess + value / guess) / 2
  if next < guess then sqrtBelow value next else guess
termination_by guess

/-- Largest natural number whose square is not above the argument. -/
def floorSqrt (value : Nat) : Nat :=
  if value = 0 then 0 else sqrtBelow value (1 <<< (Nat.log2 value / 2 + 1))

namespace Magnitude

/-- Code nearest to the square root of a number of squared units. -/
def nearestSqrt (square : Nat) : Nat :=
  let scale := Nat.log2 (floorSqrt square) - 52
  let quotient := floorSqrt (square >>> (2 * scale))
  let root := (2 * quotient + 1) <<< scale
  let middle := root * root
  let rounded :=
    if 4 * square < middle then quotient
    else if middle < 4 * square then quotient + 1
    else quotient + quotient % 2
  rounded + scale * binade

end Magnitude

namespace Double

/-- Length of the vector with two coordinates, rounded to the nearest double: infinite where one of
them is, else no number where one of them is none.  Platforms may round it otherwise. -/
def hypot (x y : Float) : Float :=
  if x.isInf || y.isInf then positiveInfinity
  else if x.isNaN || y.isNaN then notANumber
  else
    let side := Magnitude.units (Binary64.ofFloat x).code
    let other := Magnitude.units (Binary64.ofFloat y).code
    Binary64.toFloat ⟨false, Magnitude.nearestSqrt (side * side + other * other)⟩

end Double

end FlowCalibration
