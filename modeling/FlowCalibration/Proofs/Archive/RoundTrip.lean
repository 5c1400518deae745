import FlowCalibration.Archive.Reading
import FlowCalibration.Archive.Zip
import FlowCalibration.Proofs.Archive.Checksum
import FlowCalibration.Proofs.Text.Utf8
import Mathlib.Data.List.Basic
import Mathlib.Data.List.Forall2
import Mathlib.Data.Option.Basic

/-!
# Archives are read back

From an archive that is laid out for entries these are read back, however many there are: its end
tells where the directory stands, the directory lists the names in order, and every record of it
tells where the header and the data of its entry stand.
-/

namespace FlowCalibration

namespace Zip

/-! ## Numbers -/

theorem take?_append (front rest : List UInt8) :
    take? front.length (front ++ rest) = some (front, rest) := by
  simp [take?]

@[simp]
theorem length_word (value : Nat) : (word value).length = 2 := rfl

@[simp]
theorem length_long (value : Nat) : (long value).length = 4 := rfl

@[simp]
theorem length_quad (value : Nat) : (quad value).length = 8 := rfl

theorem numberOf_append (front rest : List UInt8) :
    numberOf (front ++ rest) = numberOf front + 0x100 ^ front.length * numberOf rest := by
  induction front with
  | nil => simp [numberOf]
  | cons byte front induction =>
      rw [List.cons_append, numberOf, numberOf, induction, List.length_cons, Nat.pow_succ',
        Nat.mul_add, Nat.add_assoc, Nat.mul_assoc]

theorem numberOf_word (value : Nat) : numberOf (word value) = value % 0x10000 := by
  simp only [word, numberOf, UInt8.toNat_ofNat']
  omega

theorem numberOf_long (value : Nat) : numberOf (long value) = value % 0x100000000 := by
  rw [long, numberOf_append, numberOf_word, numberOf_word, length_word]
  omega

theorem numberOf_quad (value : Nat) : numberOf (quad value) = value % 0x10000000000000000 := by
  rw [quad, numberOf_append, numberOf_long, numberOf_long, length_long]
  omega

theorem number?_append (field rest : List UInt8) :
    number? field.length (field ++ rest) = some (numberOf field, rest) := by
  rw [number?, take?_append]
  rfl

theorem number?_word {value : Nat} (fits : value < 0x10000) (rest : List UInt8) :
    number? 2 (word value ++ rest) = some (value, rest) := by
  have read := number?_append (word value) rest
  rwa [numberOf_word, Nat.mod_eq_of_lt fits] at read

theorem number?_long {value : Nat} (fits : value < 0x100000000) (rest : List UInt8) :
    number? 4 (long value ++ rest) = some (value, rest) := by
  have read := number?_append (long value) rest
  rwa [numberOf_long, Nat.mod_eq_of_lt fits] at read

theorem number?_quad {value : Nat} (fits : value < 0x10000000000000000) (rest : List UInt8) :
    number? 8 (quad value ++ rest) = some (value, rest) := by
  have read := number?_append (quad value) rest
  rwa [numberOf_quad, Nat.mod_eq_of_lt fits] at read

theorem afterMark?_long {mark : Nat} {kind : List UInt8} (same : long mark = 0x50 :: 0x4b :: kind)
    (rest : List UInt8) : afterMark? kind (long mark ++ rest) = some rest := by
  have read : take? 4 (long mark ++ rest) = some (long mark, rest) := take?_append (long mark) rest
  rw [afterMark?, read]
  simp [same]

/-! ## Wide fields -/

theorem wideNumbers_cons (value : Nat) (values : List Nat) :
    wideNumbers (value :: values) =
      (if longMax ≤ value then quad value else []) ++ wideNumbers values := by
  rw [wideNumbers, List.filter_cons]
  by_cases large : longMax ≤ value <;> simp [large, wideNumbers]

theorem length_wideNumbers_le (values : List Nat) :
    (wideNumbers values).length ≤ 8 * values.length := by
  induction values with
  | nil => exact Nat.le_refl 0
  | cons value values induction =>
      have own : (if longMax ≤ value then quad value else []).length ≤ 8 := by split <;> simp
      rw [wideNumbers_cons, List.length_append, List.length_cons]
      omega

theorem length_wideField_le (values : List Nat) :
    (wideField values).length ≤ 4 + 8 * values.length := by
  have short := length_wideNumbers_le values
  rw [wideField]
  split
  next => simp
  next =>
    simp only [List.length_append, length_word]
    omega

theorem field?_append {kind : Nat} (kind_fits : kind < 0x10000) {data : List UInt8}
    (fits : data.length < 0x10000) (most : Nat) (rest : List UInt8) :
    field? kind (most + 1) (word kind ++ (word data.length ++ (data ++ rest))) = some data := by
  simp [field?, number?_word kind_fits, number?_word fits, take?_append]

theorem wideOf_wideField {values : List Nat} (few : values.length < 0x1000) :
    wideOf (wideField values) = wideNumbers values := by
  have short := length_wideNumbers_le values
  rw [wideField]
  split
  next none => rw [none]; rfl
  next =>
    have found := field?_append (show wideKind < 0x10000 by decide)
      (show (wideNumbers values).length < 0x10000 by omega) ((wideNumbers values).length + 3) []
    rw [List.append_nil, ← List.append_assoc] at found
    rw [wideOf, List.length_append, List.length_append, length_word, length_word, Nat.add_comm]
    exact congrArg (·.getD []) found

/-- A number of a header is read with the wide field that is written for it and further ones. -/
theorem widened_wideNumbers {value : Nat} (fits : value < 0x10000000000000000)
    (values : List Nat) :
    widened (min value longMax) (wideNumbers (value :: values)) = (value, wideNumbers values) := by
  rw [widened, wideNumbers_cons]
  by_cases large : longMax ≤ value
  · rw [if_pos large, Nat.min_eq_right large, number?_quad fits]
    rfl
  · have small : value ≠ 0xffffffff := fun same => large (Nat.le_of_eq same.symm)
    rw [if_neg large, Nat.min_eq_left (Nat.le_of_not_le large), if_neg small, List.nil_append]

@[simp]
theorem widened_nil (value : Nat) : widened value [] = (value, []) := by
  rw [widened]
  split <;> rfl

/-! ## Headers -/

/-- An entry whose lengths fit the fields of its local header. -/
structure Fits (entry : ArchiveEntry) : Prop where
  name : (Utf8.encode entry.name).length < 0x10000
  bytes : entry.bytes.length < 0x100000000

/-- What the headers of an entry say of it. -/
def headerOf (stamp : Stamp) (entry : ArchiveEntry) : EntryHeader where
  version := stamp.needed.toNat
  flags := flags entry.name
  method := 0
  time := FileOptions.stored.time
  date := FileOptions.stored.date
  check := Checksum.byDivision entry.bytes
  storedSize := entry.bytes.length
  size := entry.bytes.length

variable (stamp : Stamp)

theorem flags_lt (name : String) : flags name < 0x10000 := by
  rw [flags]
  split <;> decide

theorem header?_commonFields {entry : ArchiveEntry} (fits : Fits entry) {extra : Nat}
    (short : extra < 0x10000) (rest : List UInt8) :
    header? (commonFields stamp entry extra ++ rest) =
      some ((headerOf stamp entry, (Utf8.encode entry.name).length, extra), rest) := by
  have check := (Checksum.ofBytes entry.bytes).toNat_lt
  have version := stamp.needed.toNat_lt
  have size : min entry.bytes.length longMax = entry.bytes.length :=
    Nat.min_eq_left (Nat.le_of_lt_succ fits.bytes)
  simp only [header?, commonFields, List.append_assoc, headerOf, Checksum.byDivision_eq, size]
  simp [number?_word, number?_long, fits.name, fits.bytes, check, flags_lt, version, short,
    FileOptions.stored]

theorem nameOf?_flags (name : String) :
    nameOf? (flags name) (Utf8.encode name) = some name := by
  have readable : ((flags name).testBit 11 || (Utf8.encode name).all (· < 0x80)) = true := by
    rw [flags]
    split
    next ascii =>
      rw [Bool.or_eq_true, List.all_eq_true]
      right
      intro byte member
      rw [decide_eq_true_eq]
      apply Utf8.lt_of_mem_encode _ member
      simpa using ascii
    next => rfl
  rw [nameOf?, if_pos readable, Utf8.decode?_encode]

theorem take?_zero (bytes : List UInt8) : take? 0 bytes = some ([], bytes) :=
  take?_append [] bytes

theorem localFile?_localPart {entry : ArchiveEntry} (fits : Fits entry) (rest : List UInt8) :
    localFile? (localPart stamp entry ++ rest) =
      some { name := entry.name, header := headerOf stamp entry, data := entry.bytes } := by
  have name_eq : nameOf? (headerOf stamp entry).flags (Utf8.encode entry.name) = some entry.name :=
    nameOf?_flags entry.name
  have data_eq : take? (headerOf stamp entry).storedSize (entry.bytes ++ rest) =
      some (entry.bytes, rest) := take?_append _ rest
  have none : wideOf [] = [] := rfl
  simp [localFile?, localPart, List.append_assoc,
    afterMark?_long (show long localMark = 0x50 :: 0x4b :: [3, 4] from rfl),
    header?_commonFields stamp fits, take?_append, take?_zero, name_eq, data_eq, none]

theorem directoryRecord?_directoryRecord {entry : ArchiveEntry} (fits : Fits entry) {offset : Nat}
    (near : offset < 0x10000000000000000) (rest : List UInt8) :
    directoryRecord? (directoryRecord stamp offset entry ++ rest) =
      some ({ name := entry.name, header := headerOf stamp entry, offset }, rest) := by
  have extra : (wideField (recordNumbers offset entry)).length < 0x10000 :=
    Nat.lt_of_le_of_lt (length_wideField_le _) (show 4 + 8 * 3 < 0x10000 by decide)
  have size_near : entry.bytes.length < 0x10000000000000000 := Nat.lt_trans fits.bytes (by decide)
  have size : min entry.bytes.length longMax = entry.bytes.length :=
    Nat.min_eq_left (Nat.le_of_lt_succ fits.bytes)
  have size_eq (numbers : List Nat) :
      widened entry.bytes.length (wideNumbers (entry.bytes.length :: numbers)) =
        (entry.bytes.length, wideNumbers numbers) := by
    have read := widened_wideNumbers size_near numbers
    rwa [size] at read
  have name_eq : nameOf? (headerOf stamp entry).flags (Utf8.encode entry.name) = some entry.name :=
    nameOf?_flags entry.name
  have made := stamp.made.toNat_lt
  have attributes := stamp.attributes.toNat_lt
  have offset_fits : min offset longMax < 0x100000000 :=
    Nat.lt_of_le_of_lt (Nat.min_le_right offset longMax) (by decide)
  have wide_eq : wideOf (wideField (recordNumbers offset entry)) =
      wideNumbers (recordNumbers offset entry) := wideOf_wideField (by simp [recordNumbers])
  simp only [directoryRecord?, directoryRecord, List.append_assoc,
    afterMark?_long (show long directoryMark = [0x50, 0x4b, 1, 2] from rfl)]
  simp [header?_commonFields stamp fits extra, take?_append, take?_zero, name_eq, number?_word,
    number?_long, made, attributes, offset_fits, wide_eq]
  simp [headerOf, recordNumbers, size_eq, widened_wideNumbers near]

/-! ## The directory -/

/-- The records of entries whose local headers follow one another from an offset on. -/
def recordsFrom (stamp : Stamp) (offset : Nat) : List ArchiveEntry → List DirectoryRecord
  | [] => []
  | entry :: tail =>
      { name := entry.name, header := headerOf stamp entry, offset } ::
        recordsFrom stamp (offset + (localPart stamp entry).length) tail

theorem directoryRecords?_directory {entries : List ArchiveEntry}
    (fits : ∀ entry ∈ entries, Fits entry) {offset : Nat}
    (near : offset + (entries.flatMap (localPart stamp)).length < 0x10000000000000000)
    (rest : List UInt8) :
    directoryRecords? entries.length (directory stamp offset entries ++ rest) =
      some (recordsFrom stamp offset entries, rest) := by
  induction entries generalizing offset with
  | nil => rfl
  | cons entry entries induction =>
      obtain ⟨own, others⟩ := List.forall_mem_cons.mp fits
      rw [List.flatMap_cons, List.length_append] at near
      have later := @induction others (offset + (localPart stamp entry).length) (by omega)
      rw [directory, List.append_assoc, List.length_cons, directoryRecords?,
        directoryRecord?_directoryRecord stamp own (by omega), recordsFrom]
      simp [later]

/-- The local header of an entry, where a record of the directory tells. -/
structure Located (archive : List UInt8) (record : DirectoryRecord) (entry : ArchiveEntry) :
    Prop where
  /-- The record has the name of the entry, -/
  name : record.name = entry.name
  /-- the check of its bytes, -/
  check : record.header.check = Checksum.byDivision entry.bytes
  /-- and their number, both as data and as they are stored. -/
  size : record.header.size = entry.bytes.length ∧ record.header.storedSize = entry.bytes.length
  /-- At its offset there is a local header with the same name, check and sizes, and after it there
  are the bytes as they are. -/
  header : record.header.method = 0 ∧ localFile? (archive.drop record.offset) =
    some { name := record.name, header := record.header, data := entry.bytes }

theorem Located.file?_eq {archive : List UInt8} {record : DirectoryRecord} {entry : ArchiveEntry}
    (located : Located archive record entry) : Zip.file? archive record = some entry := by
  obtain ⟨stored, found⟩ := located.header
  rw [Zip.file?, found]
  simp [stored, located.name, located.check, located.size.1]

theorem located_recordsFrom {entries : List ArchiveEntry} (fits : ∀ entry ∈ entries, Fits entry)
    (front back : List UInt8) :
    List.Forall₂ (Located (front ++ entries.flatMap (localPart stamp) ++ back))
      (recordsFrom stamp front.length entries) entries := by
  induction entries generalizing front with
  | nil => exact .nil
  | cons entry entries induction =>
      obtain ⟨own, others⟩ := List.forall_mem_cons.mp fits
      have later := induction others (front ++ localPart stamp entry)
      rw [List.length_append, List.append_assoc front] at later
      rw [List.flatMap_cons, recordsFrom]
      refine .cons ⟨rfl, rfl, ⟨rfl, rfl⟩, rfl, ?_⟩ later
      rw [List.append_assoc, List.drop_left, List.append_assoc]
      exact localFile?_localPart stamp own _

/-! ## The end record -/

theorem length_of_take? {width : Nat} {bytes front rest : List UInt8}
    (read : take? width bytes = some (front, rest)) : bytes.length = width + rest.length := by
  obtain ⟨enough, cut⟩ := Option.ite_none_right_eq_some.mp read
  obtain ⟨_, rfl⟩ := Prod.mk.inj (Option.some.inj cut)
  rw [List.length_drop]
  omega

theorem length_of_number? {width value : Nat} {bytes rest : List UInt8}
    (read : number? width bytes = some (value, rest)) : bytes.length = width + rest.length := by
  obtain ⟨⟨front, behind⟩, taken, pair_eq⟩ := Option.map_eq_some_iff.mp read
  obtain ⟨_, rfl⟩ := Prod.mk.inj pair_eq
  exact length_of_take? taken

theorem length_endRecord (count size offset : Nat) : (endRecord count size offset).length = 22 :=
  rfl

theorem le_length_of_endRecord? {bytes : List UInt8} {last : EndRecord}
    (read : endRecord? bytes = some last) : 22 ≤ bytes.length := by
  simp only [endRecord?, afterMark?, Option.bind_eq_bind, Option.bind_eq_some_iff,
    Prod.exists] at read
  obtain ⟨_, ⟨_, _, mark, _, _, behind_mark⟩, _, _, disk, _, _, directoryDisk, _, _, countHere,
    _, _, count, _, _, size, _, _, offset, _, _, comment, _⟩ := read
  obtain rfl := Option.some.inj behind_mark
  have := length_of_take? mark
  have := length_of_number? disk
  have := length_of_number? directoryDisk
  have := length_of_number? countHere
  have := length_of_number? count
  have := length_of_number? size
  have := length_of_number? offset
  have := length_of_number? comment
  omega

theorem findEnd?_eq_none {bytes : List UInt8} (short : bytes.length < 22) :
    findEnd? bytes = none := by
  induction bytes with
  | nil => rfl
  | cons byte bytes induction =>
      have rest := induction (Nat.lt_of_succ_lt short)
      rw [findEnd?, rest]
      cases read : endRecord? (byte :: bytes) with
      | none => rfl
      | some last => exact absurd (le_length_of_endRecord? read) (Nat.not_le_of_lt short)

theorem findEnd?_append {bytes : List UInt8} {place : Nat} {last : EndRecord}
    (found : findEnd? bytes = some (place, last)) (front : List UInt8) :
    findEnd? (front ++ bytes) = some (front.length + place, last) := by
  induction front with
  | nil => rw [List.nil_append, List.length_nil, Nat.zero_add, found]
  | cons byte front induction =>
      rw [List.cons_append, findEnd?, induction, List.length_cons, Nat.succ_add]

theorem endRecord?_endRecord (count size offset : Nat) :
    endRecord? (endRecord count size offset) =
      some (EndRecord.narrowed { count, size, offset }) := by
  have count_fits : min count wordMax < 0x10000 :=
    Nat.lt_of_le_of_lt (Nat.min_le_right count wordMax) (by decide)
  have fits (value : Nat) : min value longMax < 0x100000000 :=
    Nat.lt_of_le_of_lt (Nat.min_le_right value longMax) (by decide)
  have comment : number? 2 (word 0) = some (0, []) := rfl
  simp [endRecord?, endRecord, List.append_assoc,
    afterMark?_long (show long endMark = [0x50, 0x4b, 5, 6] from rfl), number?_word, number?_long,
    count_fits, fits, comment]
  rfl

theorem findEnd?_endRecord (front : List UInt8) (count size offset : Nat) :
    findEnd? (front ++ endRecord count size offset) =
      some (front.length, EndRecord.narrowed { count, size, offset }) := by
  have found : findEnd? (endRecord count size offset) =
      some (0, EndRecord.narrowed { count, size, offset }) := by
    have read := endRecord?_endRecord count size offset
    have length := length_endRecord count size offset
    cases bytes_eq : endRecord count size offset with
    | nil =>
        rw [bytes_eq] at length
        contradiction
    | cons byte tail =>
        rw [bytes_eq] at read length
        have short : tail.length < 22 := by
          rw [List.length_cons] at length
          omega
        rw [findEnd?, findEnd?_eq_none short, read]
        rfl
  exact findEnd?_append found front

/-! ## The wide end record -/

theorem length_wideEndRecord (count size offset : Nat) :
    (wideEndRecord stamp count size offset).length = 56 :=
  rfl

theorem length_locator (offset : Nat) : (locator offset).length = 20 :=
  rfl

theorem wideEndRecord?_wideEndRecord {count size offset : Nat}
    (count_fits : count < 0x10000000000000000) (size_fits : size < 0x10000000000000000)
    (offset_fits : offset < 0x10000000000000000) (rest : List UInt8) :
    wideEndRecord? (wideEndRecord stamp count size offset ++ rest) =
      some { count, size, offset } := by
  have made := stamp.wideMade.toNat_lt
  have needed := stamp.wideNeeded.toNat_lt
  simp [wideEndRecord?, wideEndRecord, List.append_assoc,
    afterMark?_long (show long wideEndMark = [0x50, 0x4b, 6, 6] from rfl), number?_word,
    number?_long, number?_quad, made, needed, count_fits, size_fits, offset_fits]

/-- A wide end record is found right behind the directory, with its locator behind it. -/
theorem wideEnd?_locator {front : List UInt8} {count size offset : Nat}
    (place_eq : front.length = offset + size) (count_fits : count < 0x10000000000000000)
    (fits : offset + size < 0x10000000000000000) (back : List UInt8) :
    wideEnd? (front ++ (wideEndRecord stamp count size offset ++ (locator (offset + size) ++ back)))
      (front.length + 76) = some { count, size, offset } := by
  have length := length_wideEndRecord stamp count size offset
  have enough : 20 ≤ offset + size + 76 := by omega
  have locator_place : (front ++ (wideEndRecord stamp count size offset ++
      (locator (offset + size) ++ back))).drop (offset + size + 76 - 20) =
        locator (offset + size) ++ back := by
    rw [← List.append_assoc]
    apply List.drop_left'
    rw [List.length_append, length, place_eq]
    omega
  have record_place : (front ++ (wideEndRecord stamp count size offset ++
      (locator (offset + size) ++ back))).drop (offset + size) =
        wideEndRecord stamp count size offset ++ (locator (offset + size) ++ back) :=
    List.drop_left' place_eq
  have marked : afterMark? [6, 7] (locator (offset + size) ++ back) =
      some (long 0 ++ (quad (offset + size) ++ (long 1 ++ back))) := by
    simp only [locator, List.append_assoc]
    exact afterMark?_long rfl _
  have in_front : offset + size < offset + size + 76 := by omega
  have record := wideEndRecord?_wideEndRecord stamp count_fits
    (show size < 0x10000000000000000 by omega) (show offset < 0x10000000000000000 by omega)
    (locator (offset + size) ++ back)
  rw [wideEnd?, place_eq, locator_place, marked]
  simp [enough, number?_long, number?_quad fits, in_front, record_place, record]

/-- A wide end record stands in front of the end record and behind the directory that it tells
of. -/
theorem lt_of_wideEnd? {archive : List UInt8} {place : Nat} {wide : EndRecord}
    (found : wideEnd? archive place = some wide) : wide.offset + wide.size < place := by
  simp only [wideEnd?, Option.bind_eq_bind, Option.bind_eq_some_iff, Prod.exists,
    Option.guard_eq_some'] at found
  obtain ⟨_, _, _, _, _, _, _, offset, _, _, _, _, _, _, ⟨_, _, in_front⟩, found, _, _, stands,
    same⟩ := found
  obtain rfl := Option.some.inj same
  exact stands ▸ in_front

/-! ## The end -/

variable {front : List UInt8} {wide : Bool} {count size offset : Nat}

/-- The numbers of an archive are read from its end: from a wide end record, or from an end record
that has room for them. -/
theorem lastRecord?_endPart (place_eq : front.length = offset + size)
    (enough : wide = false → count ≤ wordMax ∧ size ≤ longMax ∧ offset ≤ longMax)
    (count_fits : count < 0x10000000000000000) (fits : offset + size < 0x10000000000000000) :
    lastRecord? (front ++ endPart stamp wide count size offset) =
      some { count, size, offset } := by
  cases wide with
  | true =>
      have length : (front ++ (wideEndRecord stamp count size offset ++
          locator (offset + size))).length = front.length + 76 := by
        rw [List.length_append, List.length_append, length_wideEndRecord, length_locator]
      have found := findEnd?_endRecord (front ++ (wideEndRecord stamp count size offset ++
        locator (offset + size))) count size offset
      rw [length, List.append_assoc, List.append_assoc] at found
      have wide_eq := wideEnd?_locator stamp place_eq count_fits fits
        (endRecord count size offset)
      rw [endPart, if_pos rfl, List.append_assoc, lastRecord?, found]
      simp [wide_eq, Option.filter_some]
  | false =>
      obtain ⟨count_le, size_le, offset_le⟩ := enough rfl
      have narrowed_eq : EndRecord.narrowed { count, size, offset } = { count, size, offset } := by
        rw [EndRecord.narrowed, EndRecord.mk.injEq]
        exact ⟨Nat.min_eq_left count_le, Nat.min_eq_left size_le, Nat.min_eq_left offset_le⟩
      -- what looks like a wide end record would end its directory in front of the end of the
      -- directory, and so cannot go with the end record
      have none : (wideEnd? (front ++ endRecord count size offset) front.length).filter
          (·.narrowed = { count, size, offset }) = none := by
        rw [Option.filter_eq_none_iff]
        intro other found same
        have in_front := lt_of_wideEnd? found
        rw [decide_eq_true_eq, EndRecord.narrowed, EndRecord.mk.injEq] at same
        omega
      have found := findEnd?_endRecord front count size offset
      rw [endPart, if_neg Bool.false_ne_true, List.nil_append, lastRecord?, found, narrowed_eq]
      simp [none]

/-! ## Archives -/

/-- Entries are read from an archive, each where the directory tells. -/
structure Unpacks (archive : List UInt8) (entries : List ArchiveEntry) : Prop where
  /-- The archive is read as the entries. -/
  read : entries? archive = some entries
  /-- Its end tells where a directory stands that lists the names in order, and each record of that
  locates an entry. -/
  located : ∃ last records, lastRecord? archive = some last ∧
    directory? archive last = some records ∧
    records.map (·.name) = entries.map (·.name) ∧ List.Forall₂ (Located archive) records entries

/-- Bytes that are laid out for entries, with a wide end record at least where it is needed. -/
def IsLaidOut (archive : List UInt8) (entries : List ArchiveEntry) : Prop :=
  ∃ (stamp : Stamp) (wide : Bool),
    (isWide stamp entries = true → wide = true) ∧ archive = layout stamp wide entries

theorem mapM_file? {archive : List UInt8} {records : List DirectoryRecord}
    {entries : List ArchiveEntry} (located : List.Forall₂ (Located archive) records entries) :
    records.mapM (file? archive) = some entries := by
  induction located with
  | nil => rfl
  | cons first _ induction =>
      rw [List.mapM_cons, first.file?_eq, induction]
      rfl

theorem length_localPart_le {entry : ArchiveEntry} (fits : Fits entry) :
    (localPart stamp entry).length < 0x100020000 := by
  have name := fits.name
  have bytes := fits.bytes
  simp only [localPart, commonFields, List.length_append, length_word, length_long]
  omega

theorem length_directoryRecord_le {entry : ArchiveEntry} (fits : Fits entry) (offset : Nat) :
    (directoryRecord stamp offset entry).length < 0x100020000 := by
  have name := fits.name
  have extra := length_wideField_le (recordNumbers offset entry)
  have three : (recordNumbers offset entry).length = 3 := rfl
  simp only [directoryRecord, commonFields, List.length_append, length_word, length_long]
  omega

/-- The local parts and the directory of entries that fit are not too large for eight bytes. -/
theorem length_parts_le {entries : List ArchiveEntry} (fits : ∀ entry ∈ entries, Fits entry)
    (offset : Nat) :
    (entries.flatMap (localPart stamp)).length + (directory stamp offset entries).length ≤
      entries.length * 0x200040000 := by
  induction entries generalizing offset with
  | nil => exact Nat.zero_le _
  | cons entry entries induction =>
      obtain ⟨own, others⟩ := List.forall_mem_cons.mp fits
      have part := length_localPart_le stamp own
      have record := length_directoryRecord_le stamp own offset
      have rest := induction others (offset + (localPart stamp entry).length)
      rw [List.flatMap_cons, directory, List.length_append, List.length_append, List.length_cons]
      omega

/-- Entries whose lengths fit are read from the bytes that are laid out for them. -/
theorem unpacks_of_isLaidOut {archive : List UInt8} {entries : List ArchiveEntry}
    (laid : IsLaidOut archive entries) (fits : ∀ entry ∈ entries, Fits entry)
    (few : entries.length < 0x40000000) : Unpacks archive entries := by
  obtain ⟨stamp, wide, needed, rfl⟩ := laid
  have total := length_parts_le stamp fits 0
  have enough : wide = false → entries.length ≤ wordMax ∧
      (directory stamp 0 entries).length ≤ longMax ∧
      (entries.flatMap (localPart stamp)).length ≤ longMax := by
    intro narrow
    have small : isWide stamp entries = false :=
      Bool.eq_false_iff.mpr fun large => Bool.false_ne_true (narrow.symm.trans (needed large))
    simp only [isWide, Bool.or_eq_false_iff, decide_eq_false_iff_not, Nat.not_lt,
      Nat.max_le] at small
    exact small
  have last_eq : lastRecord? (layout stamp wide entries) = some
      { count := entries.length, size := (directory stamp 0 entries).length,
        offset := (entries.flatMap (localPart stamp)).length } :=
    lastRecord?_endPart stamp List.length_append enough (by omega) (by omega)
  have records_eq : directory? (layout stamp wide entries)
      { count := entries.length, size := (directory stamp 0 entries).length,
        offset := (entries.flatMap (localPart stamp)).length } =
      some (recordsFrom stamp 0 entries) := by
    have near : 0 + (entries.flatMap (localPart stamp)).length < 0x10000000000000000 := by omega
    have records := directoryRecords?_directory stamp fits near []
    rw [List.append_nil] at records
    simp only [directory?, layout, List.append_assoc, List.drop_left, List.take_left, records]
  have located : List.Forall₂ (Located (layout stamp wide entries)) (recordsFrom stamp 0 entries)
      entries := by
    rw [layout, List.append_assoc]
    exact located_recordsFrom stamp fits [] _
  have names : (recordsFrom stamp 0 entries).map (·.name) = entries.map (·.name) := by
    rw [← List.forall₂_eq_eq_eq, List.forall₂_map_left_iff, List.forall₂_map_right_iff]
    exact located.imp fun _ _ own => own.name
  refine ⟨?_, _, _, last_eq, records_eq, names, located⟩
  rw [entries?, last_eq, Option.bind_eq_bind, Option.bind_some, records_eq, Option.bind_eq_bind,
    Option.bind_some]
  exact mapM_file? located

end Zip

end FlowCalibration
