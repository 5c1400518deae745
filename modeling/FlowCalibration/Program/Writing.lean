/-!
# Writing programs

A program is a list of lines.  No line that is written holds a comma: firmware reads a comma as the
end of a number, so whatever produced a text, its commas become points.
-/

namespace FlowCalibration

/-- A text with points for its commas. -/
def pointed (text : String) : String :=
  String.ofList (text.toList.map fun c => if c = ',' then '.' else c)

/-- A line that the printer skips. -/
def comment (text : String) : String :=
  "; " ++ text

/-- Lines with a line feed between them and none at the end. -/
def joinLines (lines : List String) : String :=
  String.ofList (List.intercalate ['\n'] (lines.map String.toList))

end FlowCalibration
