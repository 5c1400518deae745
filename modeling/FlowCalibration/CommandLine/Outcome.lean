import FlowCalibration.Archive.Zip
import FlowCalibration.CommandLine.Plan

/-!
# Outcomes

What becomes of a workspace when a plan is carried out step by step.  The first step that is not
possible ends the job; what was done before it stays.
-/

namespace FlowCalibration

/-- What a job leaves behind. -/
structure Outcome where
  /-- The files and directories. -/
  workspace : Workspace
  /-- The printed text. -/
  output : String := ""
  /-- Why the job failed, if it did. -/
  error : Option JobError := none

namespace Action

/-- Carry out a step: the workspace after it and the printed text. -/
def perform (workspace : Workspace) : Action → Except JobError (Workspace × String)
  | makeDirectory path =>
      match workspace.makeDirectory? path with
      | some workspace => .ok (workspace, "")
      | none => .error (.noDirectory path)
  | write path content =>
      match workspace.write? path content with
      | some workspace => .ok (workspace, "")
      | none => .error (.unwritable path)
  | print text => .ok (workspace, text)
  | fail error => .error error

/-- Carry out a plan. -/
def performAll (workspace : Workspace) : List Action → Outcome
  | [] => { workspace }
  | action :: tail =>
      match action.perform workspace with
      | .error error => { workspace, error }
      | .ok (workspace, text) =>
          let rest := performAll workspace tail
          { rest with output := text ++ rest.output }

end Action

/-- Plan a job, with a library to pack with, and carry it out. -/
def Job.run (job : Job) (userSettings : Option String) (workspace : Workspace)
    (writer : ArchiveWriter := Zip.writer) : Outcome :=
  match job.plan writer workspace.look userSettings with
  | .error error => { workspace, error }
  | .ok actions => Action.performAll workspace actions

end FlowCalibration
