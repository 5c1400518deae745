import FlowCalibration.Json.Basic
import FlowCalibration.Decimal.Reading
import FlowCalibration.Text.Hexadecimal

/-!
# JSON texts

`JsonDocument` is the syntax tree of a JSON text: the members of an object stand in the order of
the text, repeated keys included, and a leaf that no value can stand for (a number out of range, a
text with half a surrogate pair) is kept as such.  A record that skips a member never looks at its
leaves, while `JsonDocument.toJson?` needs all of them.

A number is read in two steps.  Its digits are gathered into a 64-bit significand until the next
digit would not fit; the digits after that only count toward the power of ten.  A number with a
point or a power of ten is then the significand as a double, multiplied or divided by a power of
ten in double arithmetic.
-/

namespace FlowCalibration

/-- Syntax tree of a JSON text. -/
inductive JsonDocument
  | null
  | boolean (value : Bool)
  /-- A number, unless it is out of range. -/
  | number (value : Option JsonNumber)
  /-- A text, unless it holds half a surrogate pair. -/
  | text (value : Option String)
  | array (elements : List JsonDocument)
  | object (members : List (Option String × JsonDocument))

namespace JsonDocument

/-! ## Numbers -/

/-- The largest whole number of 64 bits. -/
def wordMax : Nat := 0xffffffffffffffff

/-- The largest power of ten that is written out; larger ones are out of range. -/
def powerMax : Nat := 0x7fffffff

/-- The parts of a JSON number. -/
structure NumberParts where
  /-- Whether a minus sign stands in front. -/
  negative : Bool
  /-- Digits before the point. -/
  whole : List Char
  /-- Digits after the point, of which there is at least one where there is a point. -/
  fraction : List Char
  /-- Sign and digits of the power of ten, if there is one. -/
  power : Option (Bool × List Char)

namespace NumberParts

/-- Append digits to a significand while it fits 64 bits, and count the digits that did. -/
def gather (significand : Nat) : List Char → Nat × Nat
  | [] => (significand, 0)
  | digit :: tail =>
      let next := significand * 10 + (digit.toNat - '0'.toNat)
      if next ≤ wordMax then
        let (gathered, count) := gather next tail
        (gathered, count + 1)
      else (significand, 0)

/-- Multiply a double by a power of ten, or divide it by one; the result is missing when it is
infinite.  Powers beyond the range of doubles are applied in parts. -/
def scale (value : Float) (power : Int) : Option Float :=
  if power.natAbs ≤ 308 then
    if 0 ≤ power then
      let product := value * Decimal.toFloat false ⟨1, power⟩
      if product.isInf then none else some product
    else some (value / Decimal.toFloat false ⟨1, -power⟩)
  else if value == 0.0 then some value
  else if 0 ≤ power then none
  else scale (value / Decimal.toFloat false ⟨1, 308⟩) (power + 308)
termination_by power.natAbs
decreasing_by omega

/-- A double with a sign. -/
def withSign (negative : Bool) (value : Float) : Float :=
  if negative then -value else value

/-- The value of a number, if it is in range. -/
def value? (parts : NumberParts) : Option JsonNumber :=
  let (whole, wholeCount) := gather 0 parts.whole
  let left := parts.whole.length - wholeCount
  let (significand, fractionCount) := gather whole parts.fraction
  let shift : Int := (left : Int) - fractionCount
  match parts.power with
  | none =>
      if left = 0 ∧ parts.fraction = [] then
        if !parts.negative then some (.integer significand)
        else if 0 < significand ∧ significand ≤ 0x8000000000000000 then
          some (.integer (-significand))
        else some (.real (-(Double.ofCount significand)))
      else (scale (Double.ofCount significand) shift).map (.real ∘ withSign parts.negative)
  | some (powerNegative, digits) =>
      let size := digitsValue digits
      if powerMax < size then
        if significand ≠ 0 ∧ !powerNegative then none
        else some (.real (withSign parts.negative 0.0))
      else
        let power : Int := if powerNegative then -size else size
        (scale (Double.ofCount significand) (shift + power)).map
          (.real ∘ withSign parts.negative)

/-- Cut a minus sign off a text. -/
def scanMinus : List Char → Bool × List Char
  | '-' :: tail => (true, tail)
  | unsigned => (false, unsigned)

/-- Whether digits make up a whole number: a zero alone, or digits that start with another one. -/
def isWhole : List Char → Bool
  | [] => false
  | first :: more => first != '0' || more.isEmpty

/-- The digits after a point, if there is one. -/
def scanFraction? : List Char → Option (List Char × List Char)
  | '.' :: tail =>
      if (tail.takeWhile Char.isDigit).isEmpty then none
      else some (tail.takeWhile Char.isDigit, tail.dropWhile Char.isDigit)
  | rest => some ([], rest)

/-- Sign and digits of a power of ten, if there is one. -/
def scanPower? : List Char → Option (Option (Bool × List Char) × List Char)
  | [] => some (none, [])
  | mark :: tail =>
      if mark = 'e' ∨ mark = 'E' then
        let (negative, digits) := NumberText.scanSign tail
        if (digits.takeWhile Char.isDigit).isEmpty then none
        else some (some (negative, digits.takeWhile Char.isDigit), digits.dropWhile Char.isDigit)
      else some (none, mark :: tail)

/-- A number at the front of a text, and the text after it. -/
def scan? (text : List Char) : Option (NumberParts × List Char) := do
  let (negative, unsigned) := scanMinus text
  let whole := unsigned.takeWhile Char.isDigit
  guard (isWhole whole)
  let (fraction, rest) ← scanFraction? (unsigned.dropWhile Char.isDigit)
  let (power, rest) ← scanPower? rest
  return ({ negative, whole, fraction, power }, rest)

end NumberParts

/-! ## Texts -/

/-- A piece of a quoted text: a character, or a 16-bit unit written as an escape. -/
inductive Piece
  | char (value : Char)
  | unit (value : Nat)

namespace Piece

/-- The character of an escape of one letter. -/
def escape? (c : Char) : Option Char :=
  match c with
  | '"' => some '"'
  | '\\' => some '\\'
  | '/' => some '/'
  | 'b' => some '\x08'
  | 'f' => some '\x0c'
  | 'n' => some '\n'
  | 'r' => some '\r'
  | 't' => some '\t'
  | _ => none

/-- The pieces of a quoted text up to its closing quote after the pieces in `seen`, last first, and
the text after the quote. -/
def scanAfter? (seen : List Piece) : List Char → Option (List Piece × List Char)
  | [] => none
  | '"' :: tail => some (seen.reverse, tail)
  | '\\' :: 'u' :: a :: b :: c :: d :: tail =>
      match hexNumber? [a, b, c, d] with
      | none => none
      | some value => scanAfter? (unit value :: seen) tail
  | '\\' :: letter :: tail =>
      match escape? letter with
      | none => none
      | some value => scanAfter? (char value :: seen) tail
  | c :: tail =>
      if c = '\\' ∨ c.toNat < 0x20 then none else scanAfter? (char c :: seen) tail

/-- The pieces of a quoted text up to its closing quote, and the text after the quote. -/
def scan? (text : List Char) : Option (List Piece × List Char) :=
  scanAfter? [] text

/-- The characters of a quoted text after the characters in `seen`, last first. -/
def charactersAfter? (seen : List Char) : List Piece → Option (List Char)
  | [] => some seen.reverse
  | char c :: tail => charactersAfter? (c :: seen) tail
  | unit high :: tail =>
      if high < 0xd800 ∨ 0xdfff < high then charactersAfter? (Char.ofNat high :: seen) tail
      else if 0xdc00 ≤ high then none
      else
        match tail with
        | unit low :: rest =>
            if 0xdc00 ≤ low ∧ low ≤ 0xdfff then
              let code := 0x10000 + (high - 0xd800) * 0x400 + (low - 0xdc00)
              charactersAfter? (Char.ofNat code :: seen) rest
            else none
        | _ => none

/-- The characters of a quoted text; a high and a low surrogate that follow one another are one
character, and any other surrogate makes the text unreadable. -/
def characters? (pieces : List Piece) : Option (List Char) :=
  charactersAfter? [] pieces

/-- The text of pieces. -/
def text? (pieces : List Piece) : Option String :=
  (characters? pieces).map String.ofList

end Piece

/-! ## Values -/

/-- Blanks between the tokens of a JSON text. -/
def isSpace (c : Char) : Bool :=
  c == ' ' || c == '\t' || c == '\n' || c == '\r'

/-- The text after leading blanks. -/
def skip (text : List Char) : List Char :=
  text.dropWhile isSpace

/-- The text after a fixed word at its front. -/
def after? (word text : List Char) : Option (List Char) :=
  if word.isPrefixOf text then some (text.drop word.length) else none

mutual

/-- A value at the front of a text, and the text after it.  `fuel` bounds the number of nested
calls. -/
def scanValue? (fuel : Nat) (text : List Char) : Option (JsonDocument × List Char) :=
  match fuel with
  | 0 => none
  | fuel + 1 =>
      match skip text with
      | [] => none
      | '"' :: tail =>
          (Piece.scan? tail).map fun (pieces, rest) => (.text (Piece.text? pieces), rest)
      | '[' :: tail =>
          match skip tail with
          | ']' :: rest => some (.array [], rest)
          | _ => (scanElements? fuel tail).map fun (elements, rest) => (.array elements, rest)
      | '\x7b' :: tail =>
          match skip tail with
          | '\x7d' :: rest => some (.object [], rest)
          | _ => (scanMembers? fuel tail).map fun (members, rest) => (.object members, rest)
      | 'n' :: tail => (after? "ull".toList tail).map fun rest => (.null, rest)
      | 't' :: tail => (after? "rue".toList tail).map fun rest => (.boolean true, rest)
      | 'f' :: tail => (after? "alse".toList tail).map fun rest => (.boolean false, rest)
      | text => (NumberParts.scan? text).map fun (parts, rest) => (.number parts.value?, rest)

/-- The elements of an array that has one, up to its closing bracket. -/
def scanElements? (fuel : Nat) (text : List Char) : Option (List JsonDocument × List Char) :=
  match fuel with
  | 0 => none
  | fuel + 1 =>
      match scanValue? fuel text with
      | none => none
      | some (element, rest) =>
          match skip rest with
          | ']' :: rest => some ([element], rest)
          | ',' :: rest =>
              (scanElements? fuel rest).map fun (elements, rest) => (element :: elements, rest)
          | _ => none

/-- The members of an object that has one, up to its closing brace. -/
def scanMembers? (fuel : Nat) (text : List Char) :
    Option (List (Option String × JsonDocument) × List Char) :=
  match fuel with
  | 0 => none
  | fuel + 1 =>
      match skip text with
      | '"' :: tail =>
          match Piece.scan? tail with
          | none => none
          | some (key, rest) =>
              match skip rest with
              | ':' :: rest =>
                  match scanValue? fuel rest with
                  | none => none
                  | some (value, rest) =>
                      match skip rest with
                      | '\x7d' :: rest => some ([(Piece.text? key, value)], rest)
                      | ',' :: rest =>
                          (scanMembers? fuel rest).map fun (members, rest) =>
                            ((Piece.text? key, value) :: members, rest)
                      | _ => none
              | _ => none
      | _ => none

end

/-- The document of a whole text: one value between blanks. -/
def parse? (text : String) : Option JsonDocument :=
  let characters := text.toList
  match scanValue? (2 * characters.length + 2) characters with
  | some (document, rest) => if (skip rest).isEmpty then some document else none
  | none => none

/-! ## From documents to values -/

mutual

/-- The value of a document in which at most `depth` arrays and objects are nested. -/
def toJsonWithin? (depth : Nat) : JsonDocument → Option Json
  | null => some .null
  | boolean value => some (.boolean value)
  | number value => value.map .number
  | text value => value.map .text
  | array elements =>
      match depth with
      | 0 => none
      | depth + 1 => (elementsWithin? depth elements).map .array
  | object members =>
      match depth with
      | 0 => none
      | depth + 1 => (membersWithin? depth members).map fun pairs => .object (KeyTable.ofList pairs)

/-- The values of the elements of an array. -/
def elementsWithin? (depth : Nat) : List JsonDocument → Option (List Json)
  | [] => some []
  | element :: tail =>
      match toJsonWithin? depth element, elementsWithin? depth tail with
      | some element, some tail => some (element :: tail)
      | _, _ => none

/-- Keys and values of the members of an object. -/
def membersWithin? (depth : Nat) :
    List (Option String × JsonDocument) → Option (List (String × Json))
  | [] => some []
  | (key, value) :: tail =>
      match key, toJsonWithin? depth value, membersWithin? depth tail with
      | some key, some value, some tail => some ((key, value) :: tail)
      | _, _, _ => none

end

/-- Number of arrays and objects that may be nested in a value. -/
def depthMax : Nat := 127

/-- The value of a document: of repeated keys the last one counts. -/
def toJson? (document : JsonDocument) : Option Json :=
  toJsonWithin? depthMax document

mutual

/-- The document that lists a value as it is. -/
def ofJson : Json → JsonDocument
  | .null => null
  | .boolean value => boolean value
  | .number value => number (some value)
  | .text value => text (some value)
  | .array elements => array (ofElements elements)
  | .object members => object (ofMembers members)

/-- The documents of the elements of an array. -/
def ofElements : List Json → List JsonDocument
  | [] => []
  | element :: tail => ofJson element :: ofElements tail

/-- The documents of the members of an object. -/
def ofMembers : List (String × Json) → List (Option String × JsonDocument)
  | [] => []
  | (key, value) :: tail => (some key, ofJson value) :: ofMembers tail

end

end JsonDocument

/-- The value of a JSON text. -/
def Json.parse? (text : String) : Option Json :=
  (JsonDocument.parse? text).bind JsonDocument.toJson?

end FlowCalibration
