import FlowCalibration.Archive.Checksum
import FlowCalibration.Archive.Writer
import FlowCalibration.Text.Utf8

/-!
# ZIP archives

An archive is the local headers with the data after each, the directory that lists where they stand,
and a record at the end that says where the directory stands.  A number that is too large for its
place is shown there as the largest one and kept elsewhere: the place of a local header in a field
behind the name, and the numbers of the end record in a wide end record in front of it, which a
locator points to.
-/

namespace FlowCalibration

namespace Zip

/-! ## Numbers -/

/-- Two bytes of a number, the low one first. -/
def word (value : Nat) : List UInt8 :=
  [UInt8.ofNat value, UInt8.ofNat (value / 0x100)]

/-- Four bytes of a number, the low one first. -/
def long (value : Nat) : List UInt8 :=
  word value ++ word (value / 0x10000)

/-- Eight bytes of a number, the low one first. -/
def quad (value : Nat) : List UInt8 :=
  long value ++ long (value / 0x100000000)

/-- The largest number of two bytes. -/
def wordMax : Nat := 0xffff

/-- The largest number of four bytes. -/
def longMax : Nat := 0xffffffff

/-- Numbers that are kept in the wide field of a header: those that are too large for four bytes, or
as large as the number that stands for them. -/
def wideNumbers (values : List Nat) : List UInt8 :=
  (values.filter (longMax ≤ ·)).flatMap quad

/-- Kind of the wide field. -/
def wideKind : Nat := 1

/-- The wide field of a header, where one is needed. -/
def wideField (values : List Nat) : List UInt8 :=
  match wideNumbers values with
  | [] => []
  | numbers => word wideKind ++ word numbers.length ++ numbers

/-! ## Headers -/

/-- Mark in front of a local header. -/
def localMark : Nat := 0x04034b50

/-- Mark in front of a directory record. -/
def directoryMark : Nat := 0x02014b50

/-- Mark in front of the end record. -/
def endMark : Nat := 0x06054b50

/-- Mark in front of the wide end record. -/
def wideEndMark : Nat := 0x06064b50

/-- Mark in front of the locator of the wide end record. -/
def locatorMark : Nat := 0x07064b50

/-- What a library writes into headers by its own choice. -/
structure Stamp where
  /-- Version of the format that a reader of a file needs. -/
  needed : UInt16
  /-- System and version of the library. -/
  made : UInt16
  /-- Kind and permissions of every file. -/
  attributes : UInt32
  /-- Versions in the wide end record. -/
  wideNeeded : UInt16
  wideMade : UInt16

/-- Flags of an entry: whether its name is in UTF-8 beyond ASCII. -/
def flags (name : String) : Nat :=
  if name.toList.all (·.toNat < 0x80) then 0 else 0x0800

section Layout

variable (stamp : Stamp)

/-- The fields that a local header and a directory record share, where `extra` is the length of
further fields behind the name. -/
def commonFields (entry : ArchiveEntry) (extra : Nat) : List UInt8 :=
  word stamp.needed.toNat ++ word (flags entry.name) ++ word FileOptions.stored.method ++
    word FileOptions.stored.time ++ word FileOptions.stored.date ++
    long (Checksum.ofBytes entry.bytes).toNat ++ long (min entry.bytes.length longMax) ++
    long (min entry.bytes.length longMax) ++ word (Utf8.encode entry.name).length ++ word extra

/-- The local header of an entry and its data. -/
def localPart (entry : ArchiveEntry) : List UInt8 :=
  long localMark ++ commonFields stamp entry 0 ++ Utf8.encode entry.name ++ entry.bytes

/-- The numbers of an entry that may have to be kept in a wide field. -/
def recordNumbers (offset : Nat) (entry : ArchiveEntry) : List Nat :=
  [entry.bytes.length, entry.bytes.length, offset]

/-- The directory record of an entry whose local header stands at an offset. -/
def directoryRecord (offset : Nat) (entry : ArchiveEntry) : List UInt8 :=
  let extra := wideField (recordNumbers offset entry)
  long directoryMark ++ word stamp.made.toNat ++ commonFields stamp entry extra.length ++
    word 0 ++ word 0 ++ word 0 ++ long stamp.attributes.toNat ++ long (min offset longMax) ++
    Utf8.encode entry.name ++ extra

/-- The directory of entries whose local headers follow one another from an offset on. -/
def directory (offset : Nat) : List ArchiveEntry → List UInt8
  | [] => []
  | entry :: tail =>
      directoryRecord stamp offset entry ++
        directory (offset + (localPart stamp entry).length) tail

/-! ## The end -/

/-- The end record of an archive. -/
def endRecord (count size offset : Nat) : List UInt8 :=
  long endMark ++ word 0 ++ word 0 ++ word (min count wordMax) ++ word (min count wordMax) ++
    long (min size longMax) ++ long (min offset longMax) ++ word 0

/-- The wide end record of an archive. -/
def wideEndRecord (count size offset : Nat) : List UInt8 :=
  long wideEndMark ++ quad 44 ++ word stamp.wideMade.toNat ++ word stamp.wideNeeded.toNat ++
    long 0 ++ long 0 ++ quad count ++ quad count ++ quad size ++ quad offset

/-- The locator of a wide end record that stands at an offset. -/
def locator (offset : Nat) : List UInt8 :=
  long locatorMark ++ long 0 ++ quad offset ++ long 1

/-- The end of an archive with a directory of a number of records and of a size at an offset. -/
def endPart (wide : Bool) (count size offset : Nat) : List UInt8 :=
  (if wide then wideEndRecord stamp count size offset ++ locator (offset + size) else []) ++
    endRecord count size offset

/-! ## Archives -/

/-- The archive of entries, with a wide end record or without. -/
def layout (wide : Bool) (entries : List ArchiveEntry) : List UInt8 :=
  let files := entries.flatMap (localPart stamp)
  let records := directory stamp 0 entries
  files ++ records ++ endPart stamp wide entries.length records.length files.length

/-- Whether a number of the end record is too large for it. -/
def isWide (entries : List ArchiveEntry) : Bool :=
  wordMax < entries.length ||
    longMax < max (directory stamp 0 entries).length (entries.flatMap (localPart stamp)).length

end Layout

/-! ## A library -/

/-- The stamp of the library: permissions are those of a file that its owner may write and everyone
may read. -/
def stamp : Stamp where
  needed := 10
  made := 0x030a
  attributes := (0o100644 : UInt32) <<< 16
  wideNeeded := 10
  wideMade := 10

/-- Start a file in front of those that are there, the last one first. -/
def startFile (files : List ArchiveEntry) (name : String) (options : FileOptions) :
    Except ArchiveFault (List ArchiveEntry) :=
  if files.any (·.name == name) then .error (.duplicateName name)
  else if wordMax < (Utf8.encode name).length then .error (.other "File name is too long")
  else if options ≠ .stored then .error (.other "unsupported Zip archive")
  else .ok (⟨name, []⟩ :: files)

/-- Write bytes to the end of the first file. -/
def writeAll (bytes : List UInt8) : List ArchiveEntry → Except String (List ArchiveEntry)
  | [] => .error "No file has been started"
  | file :: files =>
      if longMax < file.bytes.length + bytes.length then .error "Large file option has not been set"
      else .ok ({ file with bytes := file.bytes ++ bytes } :: files)

/-- A library that lays archives out, as far as files are stored. -/
def writer : ArchiveWriter where
  State := List ArchiveEntry
  new := []
  startFile := startFile
  writeAll files bytes := writeAll bytes files
  finish files := .ok (layout stamp (isWide stamp files.reverse) files.reverse)

/-- The archive of a list of entries. -/
def ofEntries (entries : List ArchiveEntry) : Except ArchiveError (List UInt8) :=
  writer.pack entries

end Zip

end FlowCalibration
