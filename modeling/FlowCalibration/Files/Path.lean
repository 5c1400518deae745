/-!
# Paths

A path is a text in which slashes set off the pieces.  Empty pieces and single dots stay where they
are, two dots lead to the directory above, and every other piece is a name.
-/

namespace FlowCalibration

namespace Path

/-- Longest path, in bytes. -/
def lengthMax : Nat := 4095

/-- Whether a text can be followed as a path: it is neither empty nor too long, and no character
of it is the one that ends paths. -/
def isValid (path : String) : Bool :=
  !path.isEmpty && path.utf8ByteSize ≤ lengthMax && !path.toList.contains '\x00'

/-- The texts between the slashes. -/
def split : List Char → List (List Char)
  | [] => [[]]
  | '/' :: tail => [] :: split tail
  | c :: tail =>
      match split tail with
      | [] => [[c]]
      | piece :: rest => (c :: piece) :: rest

/-- The pieces of a path. -/
def pieces (path : String) : List String :=
  (split path.toList).map String.ofList

/-- Whether a piece stays where it is. -/
def stays (piece : String) : Bool :=
  piece == "" || piece == "."

/-- The pieces of a path that do not stay where they are. -/
def parts (path : String) : List String :=
  (pieces path).filter (!stays ·)

/-- Whether a path starts at the root and not in the working directory. -/
def isAbsolute (path : String) : Bool :=
  path.toList.head? == some '/'

/-- The paths that end in a piece that does not stay, the longest first, of pieces in reverse. -/
def prefixesOf : List String → List String
  | [] => []
  | piece :: above =>
      if stays piece then prefixesOf above
      else String.intercalate "/" (piece :: above).reverse :: prefixesOf above

/-- The paths of the directories above a path, the nearest first; the root and the working
directory are left out. -/
def ancestors (path : String) : List String :=
  (prefixesOf (pieces path).reverse).tail

/-- The path of the directory of a path; it is empty for the root and the working directory. -/
def directory (path : String) : String :=
  (ancestors path).head?.getD ""

/-- The last part of a path, unless it is two dots. -/
def name? (path : String) : Option String :=
  match (parts path).getLast? with
  | some ".." => none
  | name => name

/-- The text after the last point of a name; a point in front of the name does not count. -/
def extensionOf? (name : List Char) : Option (List Char) :=
  let after := (name.reverse.takeWhile (· != '.')).reverse
  if after.length + 1 < name.length then some after else none

/-- A name without its extension. -/
def stemOf (name : List Char) : List Char :=
  match extensionOf? name with
  | some after => name.take (name.length - (after.length + 1))
  | none => name

/-- The extension of a path. -/
def extension? (path : String) : Option String :=
  (name? path).bind fun name => (extensionOf? name.toList).map String.ofList

/-- A path whose last part has another extension in place of its own; pieces behind that part that
stay where they are fall away, and a path without a last part is kept as it is. -/
def withExtension (path extension : String) : String :=
  match (pieces path).reverse.dropWhile stays with
  | [] | ".." :: _ => path
  | name :: above =>
      let renamed := String.ofList (stemOf name.toList) ++ "." ++ extension
      String.intercalate "/" (renamed :: above).reverse

/-- The path of a name in a directory. -/
def join (directory name : String) : String :=
  if directory.isEmpty || directory.toList.getLast? == some '/' then directory ++ name
  else directory ++ "/" ++ name

end Path

end FlowCalibration
