import FlowCalibration.Text.Hexadecimal

/-!
# Blanks, comments, texts and keys of TOML

Scanners over the characters of a document.  Each returns what it read and the rest of the
document, or nothing where the document is not well formed at its front.
-/

namespace FlowCalibration

namespace Toml

/-! ## Blanks and lines -/

/-- Whether a character is a blank within a line. -/
def isSpace (c : Char) : Bool :=
  c == ' ' || c == '\t'

/-- Whether a character may stand in a comment and between quotes: a tab, or no control
character. -/
def isPlain (c : Char) : Bool :=
  c == '\t' || (0x20 ≤ c.toNat && c.toNat != 0x7f)

/-- The text after blanks. -/
def skipSpaces (text : List Char) : List Char :=
  text.dropWhile isSpace

/-- The text after a line break: a line feed, which a carriage return may precede. -/
def afterBreak? : List Char → Option (List Char)
  | '\n' :: tail => some tail
  | '\r' :: '\n' :: tail => some tail
  | _ => none

/-- The text after a comment, if it starts with one. -/
def skipComment : List Char → List Char
  | '#' :: tail => tail.dropWhile isPlain
  | text => text

/-- The text after a line of which only blanks and a comment are left. -/
def afterLine? (text : List Char) : Option (List Char) :=
  match skipComment (skipSpaces text) with
  | [] => some []
  | rest => afterBreak? rest

/-- The text after blanks and line breaks. -/
def skipBreaks : List Char → List Char
  | ' ' :: tail => skipBreaks tail
  | '\t' :: tail => skipBreaks tail
  | '\n' :: tail => skipBreaks tail
  | '\r' :: '\n' :: tail => skipBreaks tail
  | text => text

/-- The text after blanks, line breaks and comments; `inComment` says that a comment has begun,
which a line break has to end. -/
def afterGap? (inComment : Bool) : List Char → Option (List Char)
  | [] => if inComment then none else some []
  | '\n' :: tail => afterGap? false tail
  | '\r' :: '\n' :: tail => afterGap? false tail
  | c :: tail =>
      if inComment then
        if isPlain c then afterGap? true tail else none
      else if isSpace c then afterGap? false tail
      else if c = '#' then afterGap? true tail
      else some (c :: tail)

theorem length_skipBreaks_le (text : List Char) : (skipBreaks text).length ≤ text.length := by
  fun_induction skipBreaks text <;> grind

/-! ## Texts -/

/-- The character of hexadecimal digits, unless they stand for half a surrogate pair or lie beyond
the last character. -/
def character? (digits : List Char) : Option Char :=
  match hexNumber? digits with
  | none => none
  | some code => if code.isValidChar then some (Char.ofNat code) else none

/-- The character of an escape, of which the backslash has been read. -/
def scanEscape? : List Char → Option (Char × List Char)
  | 'b' :: tail => some ('\x08', tail)
  | 'f' :: tail => some ('\x0c', tail)
  | 'n' :: tail => some ('\n', tail)
  | 'r' :: tail => some ('\r', tail)
  | 't' :: tail => some ('\t', tail)
  | '"' :: tail => some ('"', tail)
  | '\\' :: tail => some ('\\', tail)
  | 'u' :: a :: b :: c :: d :: tail => (character? [a, b, c, d]).map (·, tail)
  | 'U' :: a :: b :: c :: d :: e :: f :: g :: h :: tail =>
      (character? [a, b, c, d, e, f, g, h]).map (·, tail)
  | _ => none

theorem length_lt_of_scanEscape? {text rest : List Char} {c : Char}
    (scanned : scanEscape? text = some (c, rest)) : rest.length < text.length := by
  unfold scanEscape? at scanned
  split at scanned <;>
    simp only [Option.map_eq_some_iff, Option.some.injEq, Prod.mk.injEq, reduceCtorEq]
      at scanned <;>
    simp only [List.length_cons] <;> grind

/-- The rest of a text in double quotes; `seen` are the characters before it, last first. -/
def scanQuoted? (seen : List Char) (text : List Char) : Option (List Char × List Char) :=
  match text with
  | [] => none
  | '"' :: tail => some (seen.reverse, tail)
  | '\\' :: tail =>
      match _ : scanEscape? tail with
      | none => none
      | some (c, rest) => scanQuoted? (c :: seen) rest
  | c :: tail => if isPlain c then scanQuoted? (c :: seen) tail else none
termination_by text.length
decreasing_by
  · have := length_lt_of_scanEscape? ‹scanEscape? tail = _›
    simp only [List.length_cons]
    omega
  · simp

/-- A text in single quotes, of which the first quote has been read. -/
def scanLiteral? (text : List Char) : Option (List Char × List Char) :=
  let isContent (c : Char) : Bool := isPlain c && c != '\''
  match text.dropWhile isContent with
  | '\'' :: tail => some (text.takeWhile isContent, tail)
  | _ => none

/-- The end of a text of several lines, of which the three closing quotes have been read: up to two
more quotes stand in front of these and belong to the text. -/
def closeLines (quote : Char) (seen tail : List Char) : List Char × List Char :=
  let quotes := (tail.take 2).takeWhile (· == quote)
  (seen.reverse ++ quotes, tail.drop quotes.length)

/-- The rest of a text of several lines in double quotes.  A backslash at the end of a line takes
the line break with it, and all blanks and line breaks after that. -/
def scanQuotedLines? (seen : List Char) (text : List Char) : Option (List Char × List Char) :=
  match text with
  | [] => none
  | '"' :: '"' :: '"' :: tail => some (closeLines '"' seen tail)
  | '\\' :: tail =>
      if (afterBreak? (skipSpaces tail)).isSome then scanQuotedLines? seen (skipBreaks tail)
      else
        match _ : scanEscape? tail with
        | none => none
        | some (c, rest) => scanQuotedLines? (c :: seen) rest
  | '\r' :: '\n' :: tail => scanQuotedLines? ('\n' :: seen) tail
  | c :: tail => if isPlain c || c == '\n' then scanQuotedLines? (c :: seen) tail else none
termination_by text.length
decreasing_by
  · have := length_skipBreaks_le tail
    simp only [List.length_cons]
    omega
  · have := length_lt_of_scanEscape? ‹scanEscape? tail = _›
    simp only [List.length_cons]
    omega
  · simp only [List.length_cons]
    omega
  · simp

/-- The rest of a text of several lines in single quotes. -/
def scanLiteralLines? (seen : List Char) : List Char → Option (List Char × List Char)
  | [] => none
  | '\'' :: '\'' :: '\'' :: tail => some (closeLines '\'' seen tail)
  | '\r' :: '\n' :: tail => scanLiteralLines? ('\n' :: seen) tail
  | c :: tail => if isPlain c || c == '\n' then scanLiteralLines? (c :: seen) tail else none

/-- The text after a line break, if it starts with one. -/
def skipBreak (text : List Char) : List Char :=
  (afterBreak? text).getD text

/-- A text in quotes.  A line break right after three opening quotes does not count. -/
def scanText? : List Char → Option (List Char × List Char)
  | '"' :: '"' :: '"' :: tail => scanQuotedLines? [] (skipBreak tail)
  | '"' :: tail => scanQuoted? [] tail
  | '\'' :: '\'' :: '\'' :: tail => scanLiteralLines? [] (skipBreak tail)
  | '\'' :: tail => scanLiteral? tail
  | _ => none

/-! ## Keys -/

/-- A dotted key: the table in which it stands, and its name there. -/
structure KeyPath where
  /-- Keys that lead to the table. -/
  table : List String
  /-- The last key. -/
  name : String
  deriving DecidableEq, Repr

/-- Whether a character may stand in a key without quotes. -/
def isBare (c : Char) : Bool :=
  c.isAlphanum || c == '-' || c == '_'

/-- One key: in quotes, or a run of letters, digits, dashes and underscores. -/
def scanKey? : List Char → Option (List Char × List Char)
  | '"' :: tail => scanQuoted? [] tail
  | '\'' :: tail => scanLiteral? tail
  | text =>
      match text.takeWhile isBare with
      | [] => none
      | key => some (key, text.dropWhile isBare)

/-- Number of keys that a dotted key may have. -/
def pathMax : Nat := 79

/-- A dotted key of at most `limit` keys, with the blanks around it. -/
def scanPath? (limit : Nat) (text : List Char) : Option (KeyPath × List Char) :=
  match limit with
  | 0 => none
  | limit + 1 =>
      match scanKey? (skipSpaces text) with
      | none => none
      | some (key, rest) =>
          match skipSpaces rest with
          | '.' :: tail =>
              (scanPath? limit tail).map fun (path, rest) =>
                ({ path with table := String.ofList key :: path.table }, rest)
          | rest => some (⟨[], String.ofList key⟩, rest)

end Toml

end FlowCalibration
