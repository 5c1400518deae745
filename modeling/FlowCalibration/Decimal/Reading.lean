import FlowCalibration.Decimal.Shortest
import FlowCalibration.Text.Blank
import FlowCalibration.Text.DecimalDigit

/-!
# Reading numbers from text

`NumberText.scan` cuts the longest number off the front of a text.  It takes the decimal digits of
every script, but only numbers written with the ASCII digits have a value, so a foreign digit makes
the whole number unreadable instead of ending it.
-/

namespace FlowCalibration

/-- The value of ASCII digits, read from the left. -/
def digitsValue (digits : List Char) : Nat :=
  Nat.ofDigitChars 10 digits 0

/-- The parts of a written number. -/
structure NumberText where
  /-- Whether a minus sign stands in front. -/
  negative : Bool
  /-- Digits before the point. -/
  whole : List Char
  /-- Digits after the point. -/
  fraction : List Char
  /-- Whether the power of ten has a minus sign. -/
  powerNegative : Bool
  /-- Digits of the power of ten. -/
  power : List Char
  deriving DecidableEq, Repr

namespace NumberText

/-- Cut an optional sign off a text; `true` stands for a minus sign. -/
def scanSign : List Char → Bool × List Char
  | '+' :: tail => (false, tail)
  | '-' :: tail => (true, tail)
  | text => (false, text)

/-- Digits before and after the point at the front of a text, and the text after them.  One of the
two runs has a digit, and a point that follows the first run belongs to the number. -/
def scanMantissa (text : List Char) : Option (List Char × List Char × List Char) :=
  let whole := text.takeWhile isDecimalDigit
  match whole, text.dropWhile isDecimalDigit with
  | [], '.' :: tail =>
      match tail.takeWhile isDecimalDigit with
      | [] => none
      | fraction => some ([], fraction, tail.dropWhile isDecimalDigit)
  | [], _ => none
  | whole, '.' :: tail =>
      some (whole, tail.takeWhile isDecimalDigit, tail.dropWhile isDecimalDigit)
  | whole, rest => some (whole, [], rest)

/-- Sign and digits of a power of ten at the front of a text; without digits there is none. -/
def scanPower : List Char → Bool × List Char × List Char
  | [] => (false, [], [])
  | mark :: tail =>
      if mark = 'e' ∨ mark = 'E' then
        let (negative, digits) := scanSign tail
        match digits.takeWhile isDecimalDigit with
        | [] => (false, [], mark :: tail)
        | power => (negative, power, digits.dropWhile isDecimalDigit)
      else (false, [], mark :: tail)

/-- The longest number at the front of a text, and the text after it. -/
def scan (text : List Char) : Option (NumberText × List Char) :=
  let (negative, unsigned) := scanSign text
  match scanMantissa unsigned with
  | none => none
  | some (whole, fraction, tail) =>
      let (powerNegative, power, rest) := scanPower tail
      some ({ negative, whole, fraction, powerNegative, power }, rest)

/-- Whether every digit is an ASCII digit. -/
def isAscii (number : NumberText) : Bool :=
  number.whole.all Char.isDigit && number.fraction.all Char.isDigit &&
    number.power.all Char.isDigit

/-- The magnitude as a decimal. -/
def decimal (number : NumberText) : Decimal :=
  let power : Int := digitsValue number.power
  { digits := digitsValue (number.whole ++ number.fraction)
    exponent := (if number.powerNegative then -power else power) - number.fraction.length }

/-- The nearest double, infinite where the number is out of range. -/
def toFloat (number : NumberText) : Float :=
  number.decimal.toFloat number.negative

/-- The nearest double if it is finite and the number is written in ASCII digits. -/
def value? (number : NumberText) : Option Float :=
  if number.isAscii && number.decimal.code < Magnitude.infinity then some number.toFloat else none

end NumberText

/-- The number at the front of a text, after blanks. -/
def readNumber? (text : List Char) : Option Float :=
  (NumberText.scan (trimLeft text)).bind (·.1.value?)

/-- The number at the front of a text in which a comma may stand for the decimal point. -/
def readLenient? (text : List Char) : Option Float :=
  match trim text with
  | [] => none
  | trimmed => readNumber? (trimmed.map fun c => if c = ',' then '.' else c)

end FlowCalibration
