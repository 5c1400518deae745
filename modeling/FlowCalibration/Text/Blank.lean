/-!
# Blank characters

The characters with the property `White_Space`, and the cuts made at them: removing them at the
ends of a text and splitting a text into words.
-/

namespace FlowCalibration

/-- Whether a character has the property `White_Space`. -/
def isBlank (c : Char) : Bool :=
  let n := c.toNat
  (9 ≤ n && n ≤ 13) || n == 0x20 || n == 0x85 || n == 0xa0 || n == 0x1680 ||
    (0x2000 ≤ n && n ≤ 0x200a) || n == 0x2028 || n == 0x2029 || n == 0x202f || n == 0x205f ||
    n == 0x3000

/-- The text after its leading blanks. -/
def trimLeft (text : List Char) : List Char :=
  text.dropWhile isBlank

/-- The text before its trailing blanks. -/
def trimRight (text : List Char) : List Char :=
  (text.reverse.dropWhile isBlank).reverse

/-- The text without blanks at its ends. -/
def trim (text : List Char) : List Char :=
  trimRight (trimLeft text)

/-- Maximal runs of characters that are not blank, in order. -/
def words : List Char → List (List Char)
  | [] => []
  | c :: tail =>
      if isBlank c then words tail
      else
        match tail, words tail with
        | d :: _, word :: rest => if isBlank d then [c] :: word :: rest else (c :: word) :: rest
        | _, rest => [c] :: rest

/-- The text without blanks at its ends. -/
def trimText (text : String) : String :=
  String.ofList (trim text.toList)

end FlowCalibration
