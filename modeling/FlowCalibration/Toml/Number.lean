import FlowCalibration.Decimal.Reading
import FlowCalibration.Json.Basic
import FlowCalibration.Text.Hexadecimal

/-!
# Numbers of TOML

Whole numbers of 64 bits with a sign, in decimal or, without a sign, in base 16, 8 or 2, and
doubles.  Single underscores may stand between digits.  Infinities and the value that is no number
can be written but have no JSON number; they read as `null`.
-/

namespace FlowCalibration

namespace Toml

/-- Digits after the digits in `seen`, last first, and the text after them.  An underscore has to
be followed by a digit. -/
def scanDigitsAfter? (isDigit : Char → Bool) (seen : List Char) :
    List Char → Option (List Char × List Char)
  | [] => some (seen.reverse, [])
  | ['_'] => none
  | '_' :: c :: tail => if isDigit c then scanDigitsAfter? isDigit (c :: seen) tail else none
  | c :: tail =>
      if isDigit c then scanDigitsAfter? isDigit (c :: seen) tail
      else some (seen.reverse, c :: tail)

/-- A run of digits, of which there is at least one. -/
def scanDigits? (isDigit : Char → Bool) : List Char → Option (List Char × List Char)
  | [] => none
  | c :: tail => if isDigit c then scanDigitsAfter? isDigit [c] tail else none

/-- The digits of a whole number: a zero alone, or digits that start with another one. -/
def scanWhole? : List Char → Option (List Char × List Char)
  | '0' :: tail => some (['0'], tail)
  | text => scanDigits? Char.isDigit text

/-- The digits after a point, if there is one. -/
def scanFraction? : List Char → Option (Option (List Char) × List Char)
  | '.' :: tail => (scanDigits? Char.isDigit tail).map fun (digits, rest) => (some digits, rest)
  | text => some (none, text)

/-- Sign and digits of a power of ten, if there is one. -/
def scanPower? : List Char → Option (Option (Bool × List Char) × List Char)
  | [] => some (none, [])
  | mark :: tail =>
      if mark = 'e' ∨ mark = 'E' then
        let (negative, digits) := NumberText.scanSign tail
        (scanDigits? Char.isDigit digits).map fun (digits, rest) => (some (negative, digits), rest)
      else some (none, mark :: tail)

/-- A whole number that 64 bits with a sign can hold. -/
def integer? (value : Int) : Option Json :=
  if -0x8000000000000000 ≤ value ∧ value < 0x8000000000000000 then
    some (.number (.integer value))
  else none

/-- The value of a decimal number; a double must not be too large. -/
def decimalValue? (negative : Bool) (whole : List Char) (fraction : Option (List Char))
    (power : Option (Bool × List Char)) : Option Json :=
  match fraction, power with
  | none, none =>
      let size : Int := digitsValue whole
      integer? (if negative then -size else size)
  | _, _ =>
      let (powerNegative, powerDigits) := power.getD (false, [])
      let text : NumberText :=
        { negative, whole, fraction := fraction.getD [], powerNegative, power := powerDigits }
      if !negative && Magnitude.infinity ≤ text.decimal.code then none
      else some (.ofFloat text.toFloat)

/-- A decimal number without its sign. -/
def scanDecimal? (negative : Bool) (text : List Char) : Option (Json × List Char) := do
  let (whole, rest) ← scanWhole? text
  let (fraction, rest) ← scanFraction? rest
  let (power, rest) ← scanPower? rest
  let value ← decimalValue? negative whole fraction power
  return (value, rest)

/-- Whether a character is a digit of a base up to 16. -/
def isDigitOf (base : Nat) (c : Char) : Bool :=
  (hexValue? c).any (· < base)

/-- A whole number in a base, of which the mark of the base has been read. -/
def scanBase? (base : Nat) (text : List Char) : Option (Json × List Char) := do
  let (digits, rest) ← scanDigits? (isDigitOf base) text
  let size := digits.foldl (fun size digit => size * base + (hexValue? digit).getD 0) 0
  let value ← integer? size
  return (value, rest)

/-- A number, also an infinite one and the one that is no number. -/
def scanNumber? (text : List Char) : Option (Json × List Char) :=
  match text with
  | '0' :: 'x' :: tail => scanBase? 16 tail
  | '0' :: 'o' :: tail => scanBase? 8 tail
  | '0' :: 'b' :: tail => scanBase? 2 tail
  | _ =>
      let (negative, unsigned) := NumberText.scanSign text
      match unsigned with
      | 'i' :: 'n' :: 'f' :: tail => some (.null, tail)
      | 'n' :: 'a' :: 'n' :: tail => some (.null, tail)
      | _ => scanDecimal? negative unsigned

end Toml

end FlowCalibration
