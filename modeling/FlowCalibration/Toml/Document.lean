import FlowCalibration.Toml.Moment
import FlowCalibration.Toml.Number
import FlowCalibration.Toml.Table

/-!
# TOML documents

A document is a list of statements: headers, and pairs that go into the table of the header above
them.  `Toml.scan?` reads the statements, `Toml.build?` fills the tables, and `Toml.parse?` is the
object of both.
-/

namespace FlowCalibration

namespace Toml

/-! ## Values -/

/-- Number of arrays and inline tables that may be nested in a value. -/
def nestingMax : Nat := 79

/-- The member under which a moment stands in the object that represents it. -/
def momentKey : String := "$__toml_private_datetime"

/-- The object that represents a moment. -/
def momentValue (moment : Moment) : Json :=
  .object [(momentKey, .text (String.ofList moment.text))]

/-- The table of the pairs of an inline table. -/
def inlineTable? (pairs : List (KeyPath × Json)) : Option Json :=
  (pairs.foldlM (fun members (path, value) => TomlTable.addPair? path value members) []).map
    TomlTable.toJson

mutual

/-- A value at the front of a text, and the text after it.  At most `depth` arrays and inline
tables are nested in it; `fuel` bounds the number of nested calls. -/
def scanValue? (fuel depth : Nat) (text : List Char) : Option (Json × List Char) :=
  match fuel with
  | 0 => none
  | fuel + 1 =>
      match text with
      | [] => none
      | '[' :: tail =>
          match depth with
          | 0 => none
          | depth + 1 =>
              (scanElements? fuel depth tail).map fun (elements, rest) => (.array elements, rest)
      | '\x7b' :: tail =>
          match depth with
          | 0 => none
          | depth + 1 => do
              let (pairs, rest) ←
                match skipSpaces tail with
                | '\x7d' :: rest => some ([], rest)
                | _ => scanPairs? fuel depth tail
              return (← inlineTable? pairs, rest)
      | 't' :: 'r' :: 'u' :: 'e' :: tail => some (.boolean true, tail)
      | 'f' :: 'a' :: 'l' :: 's' :: 'e' :: tail => some (.boolean false, tail)
      | c :: tail =>
          if c = '"' ∨ c = '\'' then
            (scanText? (c :: tail)).map fun (text, rest) => (.text (String.ofList text), rest)
          else
            match Moment.scan? (c :: tail) with
            | some (moment, rest) => some (momentValue moment, rest)
            | none => scanNumber? (c :: tail)

/-- The elements of an array up to its closing bracket; a comma may follow the last one. -/
def scanElements? (fuel depth : Nat) (text : List Char) : Option (List Json × List Char) :=
  match fuel with
  | 0 => none
  | fuel + 1 =>
      match afterGap? false text with
      | none => none
      | some (']' :: rest) => some ([], rest)
      | some text =>
          match scanValue? fuel depth text with
          | none => none
          | some (element, rest) =>
              match afterGap? false rest with
              | some (']' :: rest) => some ([element], rest)
              | some (',' :: rest) =>
                  (scanElements? fuel depth rest).map fun (elements, rest) =>
                    (element :: elements, rest)
              | _ => none

/-- The pairs of an inline table that has one, up to its closing brace. -/
def scanPairs? (fuel depth : Nat) (text : List Char) :
    Option (List (KeyPath × Json) × List Char) :=
  match fuel with
  | 0 => none
  | fuel + 1 =>
      match scanPath? pathMax text with
      | some (path, '=' :: rest) =>
          match scanValue? fuel depth (skipSpaces rest) with
          | none => none
          | some (value, rest) =>
              match skipSpaces rest with
              | '\x7d' :: rest => some ([(path, value)], rest)
              | ',' :: rest =>
                  (scanPairs? fuel depth rest).map fun (pairs, rest) =>
                    ((path, value) :: pairs, rest)
              | _ => none
      | _ => none

end

/-! ## Statements -/

/-- A statement of a document. -/
inductive Statement
  /-- The header of a table. -/
  | table (path : KeyPath)
  /-- The header of another table of a list. -/
  | element (path : KeyPath)
  /-- A key and its value. -/
  | pair (path : KeyPath) (value : Json)

/-- A statement up to the end of its line. -/
def scanStatement? (text : List Char) : Option (Statement × List Char) :=
  match text with
  | '[' :: '[' :: tail =>
      match scanPath? pathMax tail with
      | some (path, ']' :: ']' :: rest) => (afterLine? rest).map (.element path, ·)
      | _ => none
  | '[' :: tail =>
      match scanPath? pathMax tail with
      | some (path, ']' :: rest) => (afterLine? rest).map (.table path, ·)
      | _ => none
  | _ =>
      match scanPath? pathMax text with
      | some (path, '=' :: rest) =>
          match scanValue? (2 * rest.length + 2) nestingMax (skipSpaces rest) with
          | some (value, rest) => (afterLine? rest).map (.pair path value, ·)
          | none => none
      | _ => none

/-- The statements of a text with at most `lines` lines. -/
def scanStatements? (lines : Nat) (text : List Char) : Option (List Statement) :=
  match skipSpaces text with
  | [] => some []
  | line =>
      match lines with
      | 0 => none
      | lines + 1 =>
          match afterLine? line with
          | some rest => scanStatements? lines rest
          | none =>
              match scanStatement? line with
              | some (statement, rest) => (scanStatements? lines rest).map (statement :: ·)
              | none => none

/-- The statements of a document, in front of which a byte order mark may stand. -/
def scan? (text : List Char) : Option (List Statement) :=
  match text with
  | '\ufeff' :: tail => scanStatements? tail.length tail
  | _ => scanStatements? text.length text

/-! ## Tables -/

/-- Carry out a statement; `header` leads to the table of the last header. -/
def step? (header : List String) (root : TomlTable) : Statement → Option (List String × TomlTable)
  | .table path => (TomlTable.beginTable? path root).map (path.table ++ [path.name], ·)
  | .element path => (TomlTable.beginElement? path root).map (path.table ++ [path.name], ·)
  | .pair path value => (TomlTable.addPairAt? header path value root).map (header, ·)

/-- The table that statements fill. -/
def build? (statements : List Statement) : Option TomlTable :=
  let start : List String × TomlTable := ([], [])
  (statements.foldlM (fun (header, root) statement => step? header root statement) start).map
    Prod.snd

/-- The object of a document. -/
def parse? (text : String) : Option Json :=
  ((scan? text.toList).bind build?).map TomlTable.toJson

end Toml

end FlowCalibration
