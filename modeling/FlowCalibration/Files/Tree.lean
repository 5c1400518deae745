import FlowCalibration.Text.KeyTable
import FlowCalibration.Text.Utf8

/-!
# File trees

Files and directories by their names.  A list of names leads from the top of a tree to one of its
members, and a member is changed by changing it and putting it back into each directory above it.
-/

namespace FlowCalibration

/-- A file, or a directory with its members. -/
inductive FileTree
  | file (content : List UInt8)
  | directory (members : List (String × FileTree))

/-- What is found in a place. -/
inductive FileEntry
  /-- Nothing. -/
  | absent
  /-- A file. -/
  | file (content : List UInt8)
  /-- A directory, or a file that may not be read. -/
  | directory
  deriving DecidableEq, Repr

namespace FileEntry

/-- Whether there is something. -/
def isPresent : FileEntry → Bool
  | absent => false
  | _ => true

/-- The text of a file in UTF-8. -/
def text? : FileEntry → Option String
  | file content => Utf8.decode? content
  | _ => none

end FileEntry

namespace FileTree

/-- The tree without files. -/
def empty : FileTree := directory []

/-- Longest name of a file or directory, in bytes. -/
def nameMax : Nat := 255

/-- The member to which names lead. -/
def member? (tree : FileTree) : List String → Option FileTree
  | [] => some tree
  | name :: names =>
      match tree with
      | file _ => none
      | directory members =>
          match KeyTable.find? members name with
          | some member => member? member names
          | none => none

/-- What is found where names lead. -/
def lookAt (tree : FileTree) (names : List String) : FileEntry :=
  match tree.member? names with
  | some (file content) => .file content
  | some (directory _) => .directory
  | none => .absent

/-- Change the member to which names lead, or put one where there is none.  Directories above it
have to be there. -/
def alterAt? (change : Option FileTree → Option FileTree) (tree : FileTree) :
    List String → Option FileTree
  | [] => change (some tree)
  | name :: names =>
      match tree with
      | file _ => none
      | directory members =>
          match KeyTable.find? members name with
          | some member =>
              (alterAt? change member names).map fun member =>
                directory (KeyTable.insert members name member)
          | none =>
              if names = [] ∧ name.utf8ByteSize ≤ nameMax then
                (change none).map fun member => directory (KeyTable.insert members name member)
              else none

/-- A file with a content in the place of a file or of nothing. -/
def overwrite? (content : List UInt8) : Option FileTree → Option FileTree
  | some (directory _) => none
  | _ => some (file content)

/-- A directory in the place of nothing; one that is there stays as it is. -/
def openDirectory? : Option FileTree → Option FileTree
  | some (file _) => none
  | some (directory members) => some (directory members)
  | none => some empty

/-- Write the file to which names lead. -/
def writeAt? (content : List UInt8) : FileTree → List String → Option FileTree :=
  alterAt? (overwrite? content)

/-- Make the directory to which names lead, unless it is there. -/
def makeDirectoryAt? : FileTree → List String → Option FileTree :=
  alterAt? openDirectory?

mutual

/-- Paths and contents of all files, after the names in `above`, last first. -/
def filesUnder (above : List String) : FileTree → List (String × List UInt8)
  | file content => [(String.intercalate "/" above.reverse, content)]
  | directory members => filesOf above members

/-- Paths and contents of the files of the members of a directory. -/
def filesOf (above : List String) : List (String × FileTree) → List (String × List UInt8)
  | [] => []
  | (name, member) :: tail => filesUnder (name :: above) member ++ filesOf above tail

end

/-- Paths and contents of all files. -/
def files (tree : FileTree) : List (String × List UInt8) :=
  tree.filesUnder []

end FileTree

end FlowCalibration
