/-!
# File names of a run

Names are made from the model of the printer, of which only letters, digits, underscores and dashes
are kept.
-/

namespace FlowCalibration

namespace FileName

/-- Whether a character may stand in a file name. -/
def isSafe (c : Char) : Bool :=
  c.isAlphanum || c == '_' || c == '-'

/-- A text with one dash for each run of unsafe characters; `inRun` says that the text before ended
in such a run. -/
def dashed (inRun : Bool) : List Char → List Char
  | [] => []
  | c :: tail =>
      if isSafe c then c :: dashed false tail
      else if inRun then dashed true tail
      else '-' :: dashed true tail

/-- A text without dashes at its ends. -/
def trimDashes (text : List Char) : List Char :=
  ((text.dropWhile (· == '-')).reverse.dropWhile (· == '-')).reverse

/-- The part of a file name that stands for a model; a model of which nothing is kept is
`printer`. -/
def slug (model : String) : String :=
  match trimDashes (dashed false model.toList) with
  | [] => "printer"
  | kept => String.ofList kept

/-- Name of the files of a run, without their extension. -/
def run (model : String) : String :=
  "flow-test-" ++ slug model

/-- Name of the files of a plate, without their extension; the only plate of a run has no
number. -/
def stem (model : String) (index plateCount : Nat) : String :=
  if plateCount ≤ 1 then run model else run model ++ "-plate-" ++ toString index

/-- Name of the file of a plate. -/
def plate (model : String) (index plateCount : Nat) : String :=
  stem model index plateCount ++ ".gcode"

/-- Name of the archive of a run. -/
def archive (model : String) : String :=
  run model ++ ".zip"

end FileName

end FlowCalibration
