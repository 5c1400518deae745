import FlowCalibration.Decimal.Reading

/-!
# Dates and times of TOML

A moment is a date, a time of day, or both with an optional distance from universal time.  Moments
are read into their parts and written in one normal form.
-/

namespace FlowCalibration

namespace Toml

/-- A day of the calendar. -/
structure Date where
  year : Nat
  month : Nat
  day : Nat
  deriving DecidableEq, Repr

/-- A time of day. -/
structure Clock where
  hour : Nat
  minute : Nat
  second : Nat
  /-- Billionths of a second. -/
  nanosecond : Nat
  deriving DecidableEq, Repr

/-- Distance from universal time. -/
inductive Offset
  /-- The letter for none. -/
  | zulu
  /-- Minutes, to the east where positive. -/
  | minutes (value : Int)
  deriving DecidableEq, Repr

/-- A date, a time of day or both. -/
inductive Moment
  | ofDate (date : Date)
  | ofClock (clock : Clock)
  | both (date : Date) (clock : Clock) (offset : Option Offset)
  deriving DecidableEq, Repr

/-! ## Reading -/

/-- A number of exactly `count` digits that lies between two bounds. -/
def scanField? (count low high : Nat) (text : List Char) : Option (Nat × List Char) :=
  let digits := text.take count
  if digits.length = count && digits.all Char.isDigit then
    let value := digitsValue digits
    if low ≤ value ∧ value ≤ high then some (value, text.drop count) else none
  else none

/-- The text after a character. -/
def after? (c : Char) : List Char → Option (List Char)
  | first :: tail => if first = c then some tail else none
  | [] => none

namespace Date

/-- Whether a year has a 29th of February. -/
def isLeapYear (year : Nat) : Bool :=
  year % 4 == 0 && (year % 100 != 0 || year % 400 == 0)

/-- Number of days of a month. -/
def daysOf (year month : Nat) : Nat :=
  if month = 2 then if isLeapYear year then 29 else 28
  else if month = 4 ∨ month = 6 ∨ month = 9 ∨ month = 11 then 30
  else 31

/-- A date `YYYY-MM-DD`. -/
def scan? (text : List Char) : Option (Date × List Char) := do
  let (year, rest) ← scanField? 4 0 9999 text
  let (month, rest) ← scanField? 2 1 12 (← after? '-' rest)
  let (day, rest) ← scanField? 2 1 (daysOf year month) (← after? '-' rest)
  return ({ year, month, day }, rest)

end Date

namespace Clock

/-- Billionths of a second of the digits after the point; digits past the ninth are dropped. -/
def nanoseconds (digits : List Char) : Nat :=
  let kept := digits.take 9
  digitsValue kept * Nat.pow 10 (9 - kept.length)

/-- A time `HH:MM:SS` with an optional fraction of a second. -/
def scan? (text : List Char) : Option (Clock × List Char) := do
  let (hour, rest) ← scanField? 2 0 23 text
  let (minute, rest) ← scanField? 2 0 59 (← after? ':' rest)
  let (second, rest) ← scanField? 2 0 60 (← after? ':' rest)
  match rest with
  | '.' :: c :: tail =>
      if c.isDigit then
        let digits := (c :: tail).takeWhile Char.isDigit
        return ({ hour, minute, second, nanosecond := nanoseconds digits },
          (c :: tail).dropWhile Char.isDigit)
      else return ({ hour, minute, second, nanosecond := 0 }, rest)
  | _ => return ({ hour, minute, second, nanosecond := 0 }, rest)

end Clock

namespace Offset

/-- A distance from universal time: the letter Z, or a signed `HH:MM`. -/
def scan? (text : List Char) : Option (Offset × List Char) :=
  match text with
  | 'Z' :: tail => some (zulu, tail)
  | 'z' :: tail => some (zulu, tail)
  | sign :: tail =>
      if sign = '+' ∨ sign = '-' then do
        let (hour, rest) ← scanField? 2 0 23 tail
        let (minute, rest) ← scanField? 2 0 59 (← after? ':' rest)
        let size : Int := hour * 60 + minute
        return (minutes (if sign = '-' then -size else size), rest)
      else none
  | [] => none

end Offset

namespace Moment

/-- The time after a date, set off by the letter T or a blank, and its offset. -/
def scanTime? (text : List Char) : Option ((Clock × Option Offset) × List Char) :=
  match text with
  | [] => none
  | mark :: tail =>
      if mark = 'T' ∨ mark = 't' ∨ mark = ' ' then
        (Clock.scan? tail).map fun (clock, rest) =>
          match Offset.scan? rest with
          | some (offset, rest) => ((clock, some offset), rest)
          | none => ((clock, none), rest)
      else none

/-- A moment, and the text after it. -/
def scan? (text : List Char) : Option (Moment × List Char) :=
  match Date.scan? text with
  | some (date, rest) =>
      match scanTime? rest with
      | some ((clock, offset), rest) => some (both date clock offset, rest)
      | none => some (ofDate date, rest)
  | none => (Clock.scan? text).map fun (clock, rest) => (ofClock clock, rest)

end Moment

/-! ## Writing -/

/-- A number with leading zeros up to a width. -/
def padded (width value : Nat) : List Char :=
  let digits := Nat.toDigits 10 value
  List.replicate (width - digits.length) '0' ++ digits

namespace Date

/-- Text of a date. -/
def text (date : Date) : List Char :=
  padded 4 date.year ++ '-' :: (padded 2 date.month ++ '-' :: padded 2 date.day)

end Date

namespace Clock

/-- Text of the fraction of a second, without trailing zeros. -/
def fraction (nanosecond : Nat) : List Char :=
  if nanosecond = 0 then []
  else '.' :: ((padded 9 nanosecond).reverse.dropWhile (· == '0')).reverse

/-- Text of a time of day. -/
def text (clock : Clock) : List Char :=
  padded 2 clock.hour ++ ':' :: (padded 2 clock.minute ++ ':' :: (padded 2 clock.second ++
    fraction clock.nanosecond))

end Clock

namespace Offset

/-- Text of a distance from universal time. -/
def text : Offset → List Char
  | zulu => ['Z']
  | minutes value =>
      (if value < 0 then '-' else '+') ::
        (padded 2 (value.natAbs / 60) ++ ':' :: padded 2 (value.natAbs % 60))

end Offset

namespace Moment

/-- Text of a moment. -/
def text : Moment → List Char
  | ofDate date => date.text
  | ofClock clock => clock.text
  | both date clock offset =>
      date.text ++ 'T' :: (clock.text ++ (offset.map Offset.text).getD [])

end Moment

end Toml

end FlowCalibration
