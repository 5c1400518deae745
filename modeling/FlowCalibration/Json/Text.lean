import FlowCalibration.Json.Basic
import FlowCalibration.Decimal.Text
import FlowCalibration.Text.Hexadecimal

/-!
# Writing JSON

A value is written on one line or with each member and element on a line of its own, indented by
two blanks per level.  Members are written in the order of the list.
-/

namespace FlowCalibration

namespace Json

/-- A character as it stands between quotes. -/
def escaped (c : Char) : List Char :=
  match c with
  | '"' => ['\\', '"']
  | '\\' => ['\\', '\\']
  | '\x08' => ['\\', 'b']
  | '\x0c' => ['\\', 'f']
  | '\n' => ['\\', 'n']
  | '\r' => ['\\', 'r']
  | '\t' => ['\\', 't']
  | c =>
      if c.toNat < 0x20 then ['\\', 'u', '0', '0', hexDigit (c.toNat / 16), hexDigit (c.toNat % 16)]
      else [c]

/-- A text between quotes. -/
def quoted (text : String) : List Char :=
  '"' :: (text.toList.flatMap escaped ++ ['"'])

/-- A number as it is written. -/
def numberText : JsonNumber → List Char
  | .integer value => (toString value).toList
  | .real value => (Double.inJson value).toList

mutual

/-- A value on one line. -/
def compact : Json → List Char
  | null => "null".toList
  | boolean value => (toString value).toList
  | number value => numberText value
  | text value => quoted value
  | array elements => '[' :: (compactElements elements ++ [']'])
  | object members => '\x7b' :: (compactMembers members ++ ['\x7d'])

/-- Elements of an array, separated by commas. -/
def compactElements : List Json → List Char
  | [] => []
  | [element] => compact element
  | element :: tail => compact element ++ ',' :: compactElements tail

/-- Members of an object, separated by commas. -/
def compactMembers : List (String × Json) → List Char
  | [] => []
  | [(key, value)] => quoted key ++ ':' :: compact value
  | (key, value) :: tail => quoted key ++ ':' :: (compact value ++ ',' :: compactMembers tail)

end

/-- A line feed and the indentation of a level. -/
def newLine (level : Nat) : List Char :=
  '\n' :: List.replicate (2 * level) ' '

mutual

/-- A value with one line per member and element, at a level of indentation. -/
def indented (level : Nat) : Json → List Char
  | null => "null".toList
  | boolean value => (toString value).toList
  | number value => numberText value
  | text value => quoted value
  | array [] => ['[', ']']
  | array elements => '[' :: (indentedElements (level + 1) elements ++ newLine level ++ [']'])
  | object [] => ['\x7b', '\x7d']
  | object members => '\x7b' :: (indentedMembers (level + 1) members ++ newLine level ++ ['\x7d'])

/-- Elements of an array, each on a line of its own. -/
def indentedElements (level : Nat) : List Json → List Char
  | [] => []
  | [element] => newLine level ++ indented level element
  | element :: tail =>
      newLine level ++ indented level element ++ ',' :: indentedElements level tail

/-- Members of an object, each on a line of its own. -/
def indentedMembers (level : Nat) : List (String × Json) → List Char
  | [] => []
  | [(key, value)] => newLine level ++ quoted key ++ ':' :: ' ' :: indented level value
  | (key, value) :: tail =>
      newLine level ++ quoted key ++ ':' :: ' ' :: (indented level value ++
        ',' :: indentedMembers level tail)

end

/-- The value as a text on one line. -/
def toCompactText (value : Json) : String :=
  String.ofList (compact value)

/-- The value as a text with one line per member. -/
def toIndentedText (value : Json) : String :=
  String.ofList (indented 0 value)

end Json

end FlowCalibration
