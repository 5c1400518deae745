import FlowCalibration.Decimal.Shortest

/-!
# Doubles as text

Layouts of a decimal: positional, with a fixed number of places, and scientific.  `Double.plain` is
the positional text of the shortest decimal, `Double.number` the variant written into programs,
`Double.inJson` and `Double.inToml` the variants of the two settings formats.
-/

namespace FlowCalibration

namespace Decimal

/-- Digits with the decimal point before the last `places` of them and a leading zero where the
whole part would be empty. -/
def pointed (digits : List Char) (places : Nat) : List Char :=
  if places = 0 then digits
  else if places < digits.length then
    digits.take (digits.length - places) ++ '.' :: digits.drop (digits.length - places)
  else '0' :: '.' :: (List.replicate (places - digits.length) '0' ++ digits)

/-- Positional text of a decimal. -/
def positional (decimal : Decimal) : List Char :=
  let digits := Nat.toDigits 10 decimal.digits
  if 0 ≤ decimal.exponent then digits ++ List.replicate decimal.exponent.toNat '0'
  else pointed digits (-decimal.exponent).toNat

/-- Scientific text of digits that start with one before the point, with a given text of the
power of ten. -/
def scientific (digits : List Char) (power : List Char) : List Char :=
  match digits with
  | [] => power
  | [digit] => digit :: power
  | digit :: fraction => digit :: '.' :: (fraction ++ power)

end Decimal

namespace Double

/-- A text with a leading minus sign when `negative` holds. -/
def signed (negative : Bool) (text : List Char) : String :=
  String.ofList (if negative then '-' :: text else text)

/-- Text of infinities and of the value that is no number. -/
def nonFinite (binary : Binary64) : String :=
  if binary.code = Magnitude.infinity then signed binary.negative "inf".toList else "NaN"

/-- Positional text of the shortest decimal that reads back. -/
def plain (value : Float) : String :=
  let binary := Binary64.ofFloat value
  if binary.isFinite then
    signed binary.negative
      (if binary.code = 0 then ['0'] else (Decimal.shortest .larger binary.code).positional)
  else nonFinite binary

/-- A number as firmware reads it: the plain text, and zero for either sign of zero and for values
that are not finite. -/
def number (value : Float) : String :=
  let binary := Binary64.ofFloat value
  if binary.isFinite && binary.code != 0 then plain value else "0"

/-- Text with a fixed number of places of the exact value, a half to the even neighbour. -/
def fixed (places : Nat) (value : Float) : String :=
  let binary := Binary64.ofFloat value
  if binary.isFinite then
    let digits := roundHalfEven (Magnitude.units binary.code * Nat.pow 10 places) Magnitude.one
    signed binary.negative (Decimal.pointed (Nat.toDigits 10 digits) places)
  else nonFinite binary

/-- Scientific text with `places` digits after the point of the exact value, a half to the even
neighbour; the power of ten has neither a plus sign nor leading zeros. -/
def scientific (places : Nat) (value : Float) : String :=
  let binary := Binary64.ofFloat value
  if binary.isFinite then
    let units := Magnitude.units binary.code
    let point := if binary.code = 0 then 1 else Decimal.pointOf units
    let scaled := Decimal.scaled units (point - (places + 1))
    let digits := roundHalfEven scaled.1 scaled.2
    let (digits, power) :=
      if Nat.pow 10 (places + 1) ≤ digits then (digits / 10, point) else (digits, point - 1)
    let padded := Nat.toDigits 10 digits
    let padded := padded ++ List.replicate (places + 1 - padded.length) '0'
    signed binary.negative (Decimal.scientific padded ('e' :: (toString power).toList))
  else nonFinite binary

/-- A finite double in JSON text: with at least one place when the power of ten of its first digit
is from -5 to 15, otherwise scientific with a signed power.  A value that is not finite is
`null`. -/
def inJson (value : Float) : String :=
  let binary := Binary64.ofFloat value
  if !binary.isFinite then "null"
  else if binary.code = 0 then signed binary.negative "0.0".toList
  else
    let decimal := Decimal.shortest .even binary.code
    let digits := Nat.toDigits 10 decimal.digits
    let power := decimal.exponent + digits.length - 1
    signed binary.negative <|
      if -5 ≤ power ∧ power ≤ 15 then
        if 0 ≤ decimal.exponent then decimal.positional ++ ".0".toList else decimal.positional
      else
        let sign := if power < 0 then '-' else '+'
        Decimal.scientific digits ('e' :: sign :: Nat.toDigits 10 power.natAbs)

/-- A double in TOML text: the plain text, with one place for whole numbers. -/
def inToml (value : Float) : String :=
  let text := plain value
  if value.isNaN then "nan"
  else if value.isInf || text.toList.contains '.' then text
  else text ++ ".0"

end Double

end FlowCalibration
