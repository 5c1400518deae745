import FlowCalibration.Archive.Zip
import FlowCalibration.CommandLine.Plan

/-!
# The command

Reads what a job needs from the disk, plans the job, and carries the plan out on the disk.
-/

open FlowCalibration

namespace FlowCalibration

namespace Disk

/-- What a path leads to. -/
def look (path : String) : BaseIO FileEntry := do
  match ← EIO.toBaseIO (IO.FS.readBinFile path) with
  | .ok content => return .file content.data.toList
  | .error (.noFileOrDirectory ..) => return .absent
  | .error _ => return .directory

/-- Make a directory in a directory that is there, unless it is there itself. -/
def makeOne (path : String) : BaseIO (Except PathFault Unit) := do
  match ← EIO.toBaseIO (IO.FS.createDir path) with
  | .ok _ => return .ok ()
  | .error (.noFileOrDirectory ..) => return .error .missing
  | .error _ =>
      -- This changes nothing, and succeeds where the directory is there.
      match ← EIO.toBaseIO (IO.FS.createDirAll path) with
      | .ok _ => return .ok ()
      | .error _ => return .error .barred

/-- Make a directory, and before it those of the paths above it, nearest first, where they are
missing. -/
def makeBelow (path : String) : List String → BaseIO Bool
  | [] => return (← makeOne path).isOk
  | above :: higher => do
      match ← makeOne path with
      | .ok _ => return true
      | .error .barred => return false
      | .error .missing =>
          if ← makeBelow above higher then return (← makeOne path).isOk else return false

/-- Carry out a step, and say why where it is not possible. -/
def perform (verbose : Bool) (action : Action) : IO (Option JobError) := do
  match action with
  | .makeDirectory path =>
      if ← makeBelow path (Path.ancestors path) then return none
      else return some (.noDirectory path)
  | .write path content =>
      match ← EIO.toBaseIO (IO.FS.writeBinFile path ⟨content.toArray⟩) with
      | .ok _ =>
          if verbose then IO.eprintln ("Wrote " ++ path)
          return none
      | .error _ => return some (.unwritable path)
  | .print text =>
      IO.print text
      return none
  | .fail error => return some error

/-- Carry out a plan up to the first step that is not possible. -/
def performAll (verbose : Bool) : List Action → IO (Option JobError)
  | [] => return none
  | action :: tail => do
      match ← perform verbose action with
      | some error => return some error
      | none => performAll verbose tail

/-- Path of the settings file of the user, where the user has a place for settings. -/
def userSettings : IO (Option String) := do
  let file (directory : String) : String :=
    Path.join (Path.join directory "flowtower") "settings.toml"
  match ← IO.getEnv "XDG_CONFIG_HOME" with
  | some directory => if Path.isAbsolute directory then return some (file directory)
  | none => pure ()
  match ← IO.getEnv "HOME" with
  | some home => return if home.isEmpty then none else some (file (Path.join home ".config"))
  | none => return none

/-- Plan a job and carry it out; the exit code says whether it failed. -/
def run (invocation : Invocation) : IO UInt32 := do
  let user ← userSettings
  let entries ← (invocation.job.inputs user).mapM fun path => do return (path, ← look path)
  let lookUp (path : String) : FileEntry := (entries.lookup path).getD .absent
  let failure ←
    match invocation.job.plan Zip.writer lookUp user with
    | .error error => pure (some error)
    | .ok actions => performAll invocation.verbose actions
  match failure with
  | none => return 0
  | some error =>
      IO.eprintln ("Error: " ++ error.message)
      return 1

end Disk

end FlowCalibration

/-- Read the command line and run the job. -/
def main (arguments : List String) : IO UInt32 := do
  match Invocation.read arguments with
  | .ok invocation => Disk.run invocation
  | .error .help =>
      IO.print Invocation.usageText
      return 0
  | .error .version =>
      IO.print Invocation.versionText
      return 0
  | .error .misuse =>
      IO.eprint Invocation.usageText
      return 2
