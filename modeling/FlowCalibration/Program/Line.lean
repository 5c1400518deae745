import FlowCalibration.Decimal.Reading
import FlowCalibration.Text.UpperCase

/-!
# Lines of a program

A line is cut into words at blanks after its comment is taken off.  The first word names the
command; each further word is a letter with a number.  The status message of a line is taken from
the whole line, so that it keeps any semicolon.
-/

namespace FlowCalibration

/-- What a line tells the printer. -/
inductive Command
  /-- Axis values are positions. -/
  | absolutePositioning
  /-- Axis values are distances. -/
  | relativePositioning
  /-- Extruder values are positions. -/
  | absoluteExtrusion
  /-- Extruder values are lengths. -/
  | relativeExtrusion
  /-- Rename the current position. -/
  | setPosition
  /-- Move in a straight line. -/
  | linearMove (rapid : Bool)
  /-- Show a message. -/
  | statusMessage
  /-- Anything else. -/
  | other (mnemonic : String)
  deriving DecidableEq, Repr

/-- A letter with a number. -/
structure Word where
  letter : Char
  value : Float
  deriving DecidableEq

/-- A line that has a command. -/
structure ProgramLine where
  /-- What the line tells the printer. -/
  command : Command
  /-- First word in upper case. -/
  mnemonic : String
  /-- Further words in order. -/
  words : List Word
  /-- Text of a status message. -/
  message : Option String
  deriving DecidableEq

namespace Command

/-- Largest number of a mnemonic: numbers have 32 bits. -/
def numberMax : Nat := 0xffffffff

/-- The number after the letter of a mnemonic; a plus sign may stand in front. -/
def number? (digits : List Char) : Option Nat :=
  let unsigned :=
    match digits with
    | '+' :: tail => tail
    | _ => digits
  if unsigned.isEmpty || !unsigned.all Char.isDigit then none
  else if digitsValue unsigned ≤ numberMax then some (digitsValue unsigned)
  else none

/-- The command of a mnemonic in upper case; leading zeros of its number do not matter. -/
def ofMnemonic (mnemonic : List Char) : Command :=
  let unknown := other (String.ofList mnemonic)
  match mnemonic with
  | 'G' :: digits =>
      match number? digits with
      | some 0 => linearMove true
      | some 1 => linearMove false
      | some 90 => absolutePositioning
      | some 91 => relativePositioning
      | some 92 => setPosition
      | _ => unknown
  | 'M' :: digits =>
      match number? digits with
      | some 82 => absoluteExtrusion
      | some 83 => relativeExtrusion
      | some 117 => statusMessage
      | _ => unknown
  | _ => unknown

end Command

namespace ProgramLine

/-- A text without the part from its first semicolon to the next line feed. -/
def stripComment (text : List Char) : List Char :=
  text.takeWhile (· != ';') ++ (text.dropWhile (· != ';')).dropWhile (· != '\n')

/-- The word of a token: its first letter, and the number that follows, or zero. -/
def wordOf? : List Char → Option Word
  | [] => none
  | letter :: digits => some ⟨letter.toUpper, (readNumber? digits).getD 0.0⟩

/-- The text of a status message: the words after the first, with one blank between them. -/
def messageOf (text : List Char) : String :=
  String.ofList (List.intercalate [' '] ((FlowCalibration.words text).drop 1))

/-- The line of a text, if anything but a comment stands in it. -/
def parse? (text : List Char) : Option ProgramLine :=
  match FlowCalibration.words (stripComment text) with
  | [] => none
  | first :: tokens =>
      let mnemonic := upperCase first
      let command := Command.ofMnemonic mnemonic
      some
        { command
          mnemonic := String.ofList mnemonic
          words := tokens.filterMap wordOf?
          message := if command = .statusMessage then some (messageOf text) else none }

/-- Value of the last word with a letter. -/
def value? (line : ProgramLine) (letter : Char) : Option Float :=
  (line.words.reverse.find? (·.letter == letter)).map Word.value

end ProgramLine

/-! ## Lines of a text -/

/-- Lines of a text; `seen` are the characters of the current line so far, last first.  A carriage
return before a line feed belongs to the end of the line. -/
def linesAfter (seen : List Char) : List Char → List (List Char)
  | [] => if seen.isEmpty then [] else [seen.reverse]
  | '\n' :: tail =>
      (match seen with
        | '\r' :: line => line.reverse
        | line => line.reverse) :: linesAfter [] tail
  | c :: tail => linesAfter (c :: seen) tail

/-- Lines of a text, each ended by a line feed or by the end of the text. -/
def splitLines (text : List Char) : List (List Char) :=
  linesAfter [] text

/-- The lines of a program that have a command. -/
def parseProgram (program : String) : List ProgramLine :=
  (splitLines program.toList).filterMap ProgramLine.parse?

end FlowCalibration
