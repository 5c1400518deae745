import FlowCalibration.Archive.FileName
import FlowCalibration.Archive.Writer
import FlowCalibration.Text.Utf8
import FlowCalibration.Tower.Program

/-!
# Files of a run
-/

namespace FlowCalibration

namespace Plate

/-- The file of a plate, with the name it has among a number of plates. -/
def entry (model : String) (plateCount : Nat) (plate : Plate) : ArchiveEntry :=
  { name := FileName.plate model plate.index plateCount, bytes := Utf8.encode plate.program }

/-- The files of the plates of a run. -/
def entries (model : String) (plates : List Plate) : List ArchiveEntry :=
  plates.map (entry model plates.length)

end Plate

end FlowCalibration
