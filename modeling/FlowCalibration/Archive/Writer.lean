/-!
# Writing archives

Archives are written by a library: a writer is made, files are started in it one after the other,
bytes are written to the file that was started last, and the writer is finished.  How a library does
this is left open here.
-/

namespace FlowCalibration

/-- A named file of an archive. -/
structure ArchiveEntry where
  name : String
  bytes : List UInt8
  deriving DecidableEq

/-- How a file is put into an archive. -/
structure FileOptions where
  /-- Number of the way in which the bytes are packed. -/
  method : Nat
  /-- Time and date of the last change, as archives hold them. -/
  time : Nat
  date : Nat
  deriving DecidableEq

/-- Files are stored as they are and dated the first of January 1980, so equal files give equal
archives. -/
def FileOptions.stored : FileOptions where
  method := 0
  time := 0
  date := 0x0021

/-- Why a library does not go on with an archive. -/
inductive ArchiveFault
  /-- Two files have one name. -/
  | duplicateName (name : String)
  /-- Anything else. -/
  | other (reason : String)
  deriving DecidableEq, Repr

/-- Wording of a fault. -/
def ArchiveFault.text : ArchiveFault → String
  | duplicateName name => "invalid Zip archive: Duplicate filename: " ++ name
  | other reason => reason

/-- Why there is no archive of a list of files. -/
inductive ArchiveError
  /-- The library does not take a file, or does not finish. -/
  | refused (fault : ArchiveFault)
  /-- The bytes of a file are not written. -/
  | unwritten (reason : String)
  deriving DecidableEq, Repr

/-- Wording of an error. -/
def ArchiveError.message : ArchiveError → String
  | refused fault => "Archive error: " ++ fault.text
  | unwritten reason => "I/O error: " ++ reason

/-- A library that writes archives. -/
structure ArchiveWriter where
  /-- What a writer holds. -/
  State : Type
  /-- A writer without files. -/
  new : State
  /-- Start a file. -/
  startFile : State → String → FileOptions → Except ArchiveFault State
  /-- Write bytes to the file that was started last. -/
  writeAll : State → List UInt8 → Except String State
  /-- The bytes of the archive. -/
  finish : State → Except ArchiveFault (List UInt8)

namespace ArchiveWriter

variable (writer : ArchiveWriter)

/-- Write a file behind those that a state holds. -/
def writeFile (state : writer.State) (entry : ArchiveEntry) : Except ArchiveError writer.State := do
  let started ← (writer.startFile state entry.name .stored).mapError .refused
  (writer.writeAll started entry.bytes).mapError .unwritten

/-- The archive of a list of files. -/
def pack (entries : List ArchiveEntry) : Except ArchiveError (List UInt8) := do
  let state ← entries.foldlM writer.writeFile writer.new
  (writer.finish state).mapError .refused

end ArchiveWriter

end FlowCalibration
