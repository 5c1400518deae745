import FlowCalibration.Files.Path
import FlowCalibration.Files.Tree

/-!
# Workspaces

All files together with the working directory, where relative paths start.  A path is followed
piece by piece, and every piece but the last has to lead to a directory that is there: two dots do
not take back a name that leads nowhere.  `Workspace.look` says what a path leads to;
`Workspace.write?` and `Workspace.makeDirectory?` give the workspace after a change, or nothing
where the change is not possible.
-/

namespace FlowCalibration

/-- All files, and the working directory. -/
structure Workspace where
  /-- The files from the root on. -/
  root : FileTree
  /-- Names that lead from the root to the working directory. -/
  here : List String

/-- Why a path cannot be followed. -/
inductive PathFault
  /-- A directory on the way is not there. -/
  | missing
  /-- A file is in the way, or the path or a name in it is not one that can be. -/
  | barred
  deriving DecidableEq, Repr

namespace Workspace

/-- Names that lead from the root to where pieces lead from a place; `place` holds the names of the
place, last first.  The directory above the root is the root. -/
def follow (root : FileTree) (place : List String) : List String → Except PathFault (List String)
  | [] => .ok place.reverse
  | piece :: tail =>
      if Path.stays piece then follow root place tail
      else if piece = ".." then follow root place.tail tail
      else if tail = [] then .ok (piece :: place).reverse
      else
        match root.lookAt (piece :: place).reverse with
        | .directory => follow root (piece :: place) tail
        | .file _ => .error .barred
        | .absent =>
            .error (if piece.utf8ByteSize ≤ FileTree.nameMax then .missing else .barred)

/-- Names that lead from the root to where the pieces of a path lead. -/
def locatePieces (workspace : Workspace) (path : String) (pieces : List String) :
    Except PathFault (List String) :=
  if Path.isValid path then
    let place := if Path.isAbsolute path then [] else workspace.here.reverse
    follow workspace.root place pieces
  else .error .barred

/-- Names that lead from the root to a file; a slash at the end asks for a directory. -/
def locate (workspace : Workspace) (path : String) : Except PathFault (List String) :=
  workspace.locatePieces path (Path.pieces path)

/-- Names that lead from the root to a directory to make; slashes at the end mean nothing. -/
def locateDirectory (workspace : Workspace) (path : String) : Except PathFault (List String) :=
  workspace.locatePieces path ((Path.pieces path).filter (· != ""))

/-- What a path leads to. -/
def look (workspace : Workspace) (path : String) : FileEntry :=
  match workspace.locate path with
  | .ok names => workspace.root.lookAt names
  | .error _ => .absent

/-- The workspace with other files. -/
def withRoot (workspace : Workspace) (root : FileTree) : Workspace :=
  { workspace with root }

/-- Write the file of a path. -/
def write? (workspace : Workspace) (path : String) (content : List UInt8) : Option Workspace :=
  match workspace.locate path with
  | .ok names => (workspace.root.writeAt? content names).map workspace.withRoot
  | .error _ => none

/-- Make the directory of a path in a directory that is there, unless it is there itself. -/
def makeOne (workspace : Workspace) (path : String) : Except PathFault Workspace :=
  match workspace.locateDirectory path with
  | .error fault => .error fault
  | .ok names =>
      match workspace.root.makeDirectoryAt? names with
      | some root => .ok (workspace.withRoot root)
      | none => .error .barred

/-- Make the directory of a path, and before it those of the paths above it, nearest first, where
they are missing. -/
def makeBelow? (workspace : Workspace) (path : String) : List String → Option Workspace
  | [] => (workspace.makeOne path).toOption
  | above :: higher =>
      match workspace.makeOne path with
      | .ok workspace => some workspace
      | .error .barred => none
      | .error .missing =>
          match workspace.makeBelow? above higher with
          | some workspace => (workspace.makeOne path).toOption
          | none => none

/-- Make the directory of a path and those above it; there is nothing to make for no path. -/
def makeDirectory? (workspace : Workspace) (path : String) : Option Workspace :=
  if path.isEmpty then some workspace else workspace.makeBelow? path (Path.ancestors path)

/-- Paths in the working directory and contents of all files in it. -/
def files (workspace : Workspace) : List (String × List UInt8) :=
  ((workspace.root.member? workspace.here).map FileTree.files).getD []

/-- The workspace with an empty working directory. -/
def blank (here : List String) : Workspace where
  root := here.foldr (fun name tree => .directory [(name, tree)]) FileTree.empty
  here := here

/-- The workspace after files are written in order with the directories that they need; files that
do not go together with those before them are left out. -/
def addFiles (workspace : Workspace) (files : List (String × List UInt8)) : Workspace :=
  files.foldl
    (fun workspace (path, content) =>
      ((workspace.makeDirectory? (Path.directory path)).bind (·.write? path content)).getD
        workspace)
    workspace

end Workspace

end FlowCalibration
