/-!
# Doubles as sign and magnitude

The 63 low bits of a finite double are a *magnitude code*.  Codes grow with the value they stand
for, and every value is a whole number of units of `2 ^ -1074`, the smallest positive double.  So
the whole grid of doubles is one increasing function `Magnitude.units` on natural numbers, and
rounding a quotient to a double is one natural division.

Rounding goes to the nearest code and resolves a tie toward the even one.
-/

namespace FlowCalibration

/-- Division rounded to the nearest natural number; a half goes to the even neighbour. -/
def roundHalfEven (num den : Nat) : Nat :=
  let quotient := num / den
  let rest := 2 * (num % den)
  if rest < den then quotient
  else if den < rest then quotient + 1
  else quotient + quotient % 2

namespace Magnitude

/-- First code of the second binade, and the weight of the leading bit of a normal mantissa. -/
def binade : Nat := 0x10000000000000

/-- Code of infinity: every smaller code is a finite magnitude. -/
def infinity : Nat := 0x7ff0000000000000

/-- Number of units of `2 ^ -1074` in one. -/
def one : Nat := 1 <<< 1074

/-- Distance of a code's value from its successor's is `2 ^ step code` units. -/
def step (code : Nat) : Nat :=
  code / binade - 1

/-- Value of a magnitude code in units of `2 ^ -1074`. -/
def units (code : Nat) : Nat :=
  (code - step code * binade) <<< step code

/-- Code nearest to `num / den` units; a code from `infinity` on means that no finite one is. -/
def nearest (num den : Nat) : Nat :=
  let scale := Nat.log2 (num / den) - 52
  roundHalfEven num (den <<< scale) + scale * binade

end Magnitude

/-- Sign and magnitude code of a double. -/
structure Binary64 where
  /-- Whether the sign bit is set. -/
  negative : Bool
  /-- The 63 bits below the sign. -/
  code : Nat
  deriving DecidableEq, Repr

namespace Binary64

/-- Sign and magnitude code read off the bits of a double. -/
def ofFloat (value : Float) : Binary64 :=
  let bits := value.toBits.toNat
  { negative := 0x8000000000000000 ≤ bits
    code := bits % 0x8000000000000000 }

/-- The double with a given sign and magnitude; codes past `Magnitude.infinity` are infinite. -/
def toFloat (value : Binary64) : Float :=
  let magnitude := min value.code Magnitude.infinity
  Float.ofBits (UInt64.ofNat (if value.negative then 0x8000000000000000 + magnitude else magnitude))

/-- Whether the magnitude is finite. -/
def isFinite (value : Binary64) : Bool :=
  value.code < Magnitude.infinity

/-- The double nearest to a signed natural number. -/
def ofSigned (negative : Bool) (magnitude : Nat) : Binary64 :=
  { negative, code := Magnitude.nearest (magnitude * Magnitude.one) 1 }

end Binary64

/-- Infinity of the positive sign. -/
def positiveInfinity : Float := Binary64.toFloat ⟨false, Magnitude.infinity⟩

/-- Infinity of the negative sign. -/
def negativeInfinity : Float := Binary64.toFloat ⟨true, Magnitude.infinity⟩

/-- The value that is no number. -/
def notANumber : Float := Float.ofBits 0x7ff8000000000000

end FlowCalibration
