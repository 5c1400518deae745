import FlowCalibration.Text.Blank

/-!
# Labels of sites

A status message that names a flow or a feed rate labels the next site.  In either case the number
is that of the first place at which the pattern fits.  Letters are compared up to their case, where
the long s counts as an s.
-/

namespace FlowCalibration

namespace Label

/-- Code point of the long s. -/
def longS : Nat := 0x17f

/-- Whether a character is a letter of a unit, up to case. -/
def sameLetter (letter c : Char) : Bool :=
  c.toLower == letter || (letter == 's' && c.toNat == longS)

/-- The text after a unit at its front. -/
def afterUnit? : List Char → List Char → Option (List Char)
  | [], text => some text
  | letter :: unit, c :: text => if sameLetter letter c then afterUnit? unit text else none
  | _ :: _, [] => none

/-- A number at the front of a text, digits with perhaps a point and more digits, and the text
after it. -/
def number? (text : List Char) : Option (List Char × List Char) :=
  match text.takeWhile Char.isDigit, text.dropWhile Char.isDigit with
  | [], _ => none
  | whole, '.' :: tail =>
      match tail.takeWhile Char.isDigit with
      | [] => some (whole, '.' :: tail)
      | fraction => some (whole ++ '.' :: fraction, tail.dropWhile Char.isDigit)
  | whole, rest => some (whole, rest)

/-- The number at the front of a text that a unit follows. -/
def measure? (unit text : List Char) : Option (List Char) :=
  match number? text with
  | some (number, rest) => (afterUnit? unit (trimLeft rest)).map fun _ => number
  | none => none

/-- The first number that is followed by `mm3/s`. -/
def flow? : List Char → Option (List Char)
  | [] => none
  | c :: tail => (measure? "mm3/s".toList (c :: tail)).orElse fun _ => flow? tail

/-- The number that follows an `F` and is followed by `mm/min`, at the first such place. -/
def feed? : List Char → Option (List Char)
  | [] => none
  | c :: tail =>
      let here := if sameLetter 'f' c then measure? "mm/min".toList (trimLeft tail) else none
      here.orElse fun _ => feed? tail

/-- The label of a message, if it names a flow or a feed rate. -/
def ofMessage? (message : String) : Option String :=
  let flow := (flow? message.toList).map fun number => "F " ++ String.ofList number
  let feed := (feed? message.toList).map fun number => "FR " ++ String.ofList number
  match flow, feed with
  | some flow, some feed => some (flow ++ " - " ++ feed)
  | some flow, none => some flow
  | none, feed => feed

end Label

end FlowCalibration
