import FlowCalibration.Archive.Division
import FlowCalibration.Archive.Writer
import FlowCalibration.Text.Utf8

/-!
# Reading ZIP archives

An archive is read from its end.  The end record, which is the last that fits, tells where the
directory stands; there may be a wide end record in front of it, whose numbers are not cut.  Each
record of the directory tells where the local header of an entry stands, with the data of the entry
behind it.  A local header that does not agree with the directory, and data that do not agree with
the size and the check of their entry, are refused.  Every part is read from the front of the bytes
and comes with the bytes after it.
-/

namespace FlowCalibration

namespace Zip

/-- What a header says of an entry. -/
structure EntryHeader where
  version : Nat
  flags : Nat
  method : Nat
  time : Nat
  date : Nat
  /-- Check of the data. -/
  check : Nat
  /-- Number of bytes that are stored. -/
  storedSize : Nat
  /-- Number of bytes of the data. -/
  size : Nat
  deriving DecidableEq

/-- A record of the directory. -/
structure DirectoryRecord where
  name : String
  header : EntryHeader
  /-- Where the local header of the entry stands. -/
  offset : Nat

/-- A local header, with the data that stand after it. -/
structure LocalEntry where
  name : String
  header : EntryHeader
  data : List UInt8

/-- The record at the end of an archive. -/
structure EndRecord where
  /-- Number of records in the directory. -/
  count : Nat
  /-- Number of bytes of the directory. -/
  size : Nat
  /-- Where the directory stands. -/
  offset : Nat
  deriving DecidableEq

/-- The number that bytes hold, the low one first. -/
def numberOf : List UInt8 → Nat
  | [] => 0
  | byte :: tail => byte.toNat + 0x100 * numberOf tail

/-- A number of bytes at the front. -/
def take? (count : Nat) (bytes : List UInt8) : Option (List UInt8 × List UInt8) :=
  if count ≤ bytes.length then some (bytes.take count, bytes.drop count) else none

/-- The number in a number of bytes at the front. -/
def number? (width : Nat) (bytes : List UInt8) : Option (Nat × List UInt8) :=
  (take? width bytes).map fun (front, rest) => (numberOf front, rest)

/-- The bytes after a mark, which is the letters PK and two bytes for what it marks. -/
def afterMark? (kind : List UInt8) (bytes : List UInt8) : Option (List UInt8) := do
  let (found, rest) ← take? 4 bytes
  guard (found = 0x50 :: 0x4b :: kind)
  return rest

/-- What a local header and a directory record share, with the lengths of the name and of the extra
field. -/
def header? (bytes : List UInt8) : Option ((EntryHeader × Nat × Nat) × List UInt8) := do
  let (version, bytes) ← number? 2 bytes
  let (flags, bytes) ← number? 2 bytes
  let (method, bytes) ← number? 2 bytes
  let (time, bytes) ← number? 2 bytes
  let (date, bytes) ← number? 2 bytes
  let (check, bytes) ← number? 4 bytes
  let (storedSize, bytes) ← number? 4 bytes
  let (size, bytes) ← number? 4 bytes
  let (nameLength, bytes) ← number? 2 bytes
  let (extraLength, bytes) ← number? 2 bytes
  let header := { version, flags, method, time, date, check, storedSize, size }
  return ((header, nameLength, extraLength), bytes)

/-- The name in bytes; one that is not flagged as UTF-8 is read only in ASCII. -/
def nameOf? (flags : Nat) (bytes : List UInt8) : Option String :=
  if flags.testBit 11 || bytes.all (· < 0x80) then Utf8.decode? bytes else none

/-- The data of the first field of a kind among some fields, of which at most `most` are looked
at. -/
def field? (kind : Nat) : Nat → List UInt8 → Option (List UInt8)
  | 0, _ => none
  | most + 1, bytes => do
      let (found, bytes) ← number? 2 bytes
      let (length, bytes) ← number? 2 bytes
      let (data, bytes) ← take? length bytes
      if found = kind then return data else field? kind most bytes

/-- The numbers in the wide field among the fields of a header. -/
def wideOf (fields : List UInt8) : List UInt8 :=
  (field? 1 fields.length fields).getD []

/-- A number of a header: one that is as large as it can be is the next of the wide field, if there
is one.  It comes with the further numbers of that field. -/
def widened (value : Nat) (wide : List UInt8) : Nat × List UInt8 :=
  if value = 0xffffffff then (number? 8 wide).getD (value, wide) else (value, wide)

/-- A local header and the data after it. -/
def localFile? (bytes : List UInt8) : Option LocalEntry := do
  let bytes ← afterMark? [3, 4] bytes
  let ((header, nameLength, extraLength), bytes) ← header? bytes
  let (name, bytes) ← take? nameLength bytes
  let name ← nameOf? header.flags name
  let (extra, bytes) ← take? extraLength bytes
  let (size, wide) := widened header.size (wideOf extra)
  let (storedSize, _) := widened header.storedSize wide
  let (data, _) ← take? storedSize bytes
  return { name, header := { header with size, storedSize }, data }

/-- A record of the directory. -/
def directoryRecord? (bytes : List UInt8) : Option (DirectoryRecord × List UInt8) := do
  let bytes ← afterMark? [1, 2] bytes
  let (_, bytes) ← number? 2 bytes
  let ((header, nameLength, extraLength), bytes) ← header? bytes
  let (commentLength, bytes) ← number? 2 bytes
  let (disk, bytes) ← number? 2 bytes
  guard (disk = 0)
  let (_, bytes) ← number? 2 bytes
  let (_, bytes) ← number? 4 bytes
  let (offset, bytes) ← number? 4 bytes
  let (name, bytes) ← take? nameLength bytes
  let name ← nameOf? header.flags name
  let (extra, bytes) ← take? extraLength bytes
  let (_, bytes) ← take? commentLength bytes
  let (size, wide) := widened header.size (wideOf extra)
  let (storedSize, wide) := widened header.storedSize wide
  let (offset, _) := widened offset wide
  return ({ name, header := { header with size, storedSize }, offset }, bytes)

/-- A number of directory records. -/
def directoryRecords? : Nat → List UInt8 → Option (List DirectoryRecord × List UInt8)
  | 0, bytes => some ([], bytes)
  | count + 1, bytes => do
      let (record, bytes) ← directoryRecord? bytes
      let (records, bytes) ← directoryRecords? count bytes
      return (record :: records, bytes)

/-- An end record with a comment that ends with the bytes. -/
def endRecord? (bytes : List UInt8) : Option EndRecord := do
  let bytes ← afterMark? [5, 6] bytes
  let (disk, bytes) ← number? 2 bytes
  let (directoryDisk, bytes) ← number? 2 bytes
  let (countHere, bytes) ← number? 2 bytes
  let (count, bytes) ← number? 2 bytes
  let (size, bytes) ← number? 4 bytes
  let (offset, bytes) ← number? 4 bytes
  let (commentLength, bytes) ← number? 2 bytes
  guard (disk = 0 ∧ directoryDisk = 0 ∧ countHere = count ∧ commentLength = bytes.length)
  return { count, size, offset }

/-- The last end record, with the number of bytes in front of it. -/
def findEnd? : List UInt8 → Option (Nat × EndRecord)
  | [] => none
  | byte :: tail =>
      match findEnd? tail with
      | some (place, last) => some (place + 1, last)
      | none => (endRecord? (byte :: tail)).map (0, ·)

/-- A wide end record. -/
def wideEndRecord? (bytes : List UInt8) : Option EndRecord := do
  let bytes ← afterMark? [6, 6] bytes
  let (_, bytes) ← number? 8 bytes
  let (_, bytes) ← number? 2 bytes
  let (_, bytes) ← number? 2 bytes
  let (disk, bytes) ← number? 4 bytes
  let (directoryDisk, bytes) ← number? 4 bytes
  let (countHere, bytes) ← number? 8 bytes
  let (count, bytes) ← number? 8 bytes
  let (size, bytes) ← number? 8 bytes
  let (offset, _) ← number? 8 bytes
  guard (disk = 0 ∧ directoryDisk = 0 ∧ countHere = count)
  return { count, size, offset }

/-- The end record that goes with a wide one: numbers that are too large are cut. -/
def EndRecord.narrowed (wide : EndRecord) : EndRecord where
  count := min wide.count 0xffff
  size := min wide.size 0xffffffff
  offset := min wide.offset 0xffffffff

/-- The wide end record in front of an end record that stands at a place.  A locator right in front
of the place tells where it stands, and that is right behind the directory. -/
def wideEnd? (archive : List UInt8) (place : Nat) : Option EndRecord := do
  guard (20 ≤ place)
  let bytes ← afterMark? [6, 7] (archive.drop (place - 20))
  let (disk, bytes) ← number? 4 bytes
  let (offset, bytes) ← number? 8 bytes
  let (disks, _) ← number? 4 bytes
  guard (disk = 0 ∧ disks = 1 ∧ offset < place)
  let wide ← wideEndRecord? (archive.drop offset)
  guard (wide.offset + wide.size = offset)
  return wide

/-- What the end of an archive says of its directory: a wide end record counts if it goes with the
end record. -/
def lastRecord? (archive : List UInt8) : Option EndRecord := do
  let (place, last) ← findEnd? archive
  return ((wideEnd? archive place).filter (·.narrowed = last)).getD last

/-- The records of the directory, which takes up all of its bytes. -/
def directory? (archive : List UInt8) (last : EndRecord) : Option (List DirectoryRecord) :=
  match directoryRecords? last.count ((archive.drop last.offset).take last.size) with
  | some (records, []) => some records
  | _ => none

/-- The entry of a directory record. -/
def file? (archive : List UInt8) (record : DirectoryRecord) : Option ArchiveEntry := do
  let found ← localFile? (archive.drop record.offset)
  guard (found.name = record.name ∧ found.header = record.header)
  guard (found.header.method = 0 ∧ found.data.length = found.header.size)
  guard (Checksum.byDivision found.data = found.header.check)
  return { name := found.name, bytes := found.data }

/-- The entries of an archive. -/
def entries? (archive : List UInt8) : Option (List ArchiveEntry) := do
  let last ← lastRecord? archive
  let records ← directory? archive last
  records.mapM (file? archive)

end Zip

end FlowCalibration
