import FlowCalibration.Proofs.Archive.RoundTrip
import FlowCalibration.Proofs.Data.Results
import Mathlib.Data.List.Induction
import Mathlib.Data.List.Nodup

/-!
# Files are packed

What is known of a library is told by the files that it holds.  From this follows what becomes of
any list of files: while their names differ and their lengths fit, each is put behind the ones
before it, and the first that has a name again is refused.
-/

namespace FlowCalibration

/-- What is known of a library that writes archives, where `holds` tells the files that a state of
it holds. -/
structure ArchiveWriter.Lays (writer : ArchiveWriter)
    (holds : writer.State → List ArchiveEntry → Prop) : Prop where
  /-- A writer is made without files. -/
  made : holds writer.new []
  /-- A file is not started under a name that another has, -/
  taken {state files name} : holds state files → name ∈ files.map (·.name) →
    writer.startFile state name .stored = .error (.duplicateName name)
  /-- nor under one that is too long for its field. -/
  long {state files name} : holds state files → name ∉ files.map (·.name) →
    0x10000 ≤ (Utf8.encode name).length →
    ∃ reason, writer.startFile state name .stored = .error (.other reason)
  /-- A file is started behind the others and empty. -/
  started {state files name} : holds state files → name ∉ files.map (·.name) →
    (Utf8.encode name).length < 0x10000 →
    ∃ next, writer.startFile state name .stored = .ok next ∧ holds next (files ++ [⟨name, []⟩])
  /-- Bytes are not written to a file that would be too large for its local header. -/
  large {state files file bytes} : holds state (files ++ [file]) →
    0x100000000 ≤ file.bytes.length + bytes.length →
    ∃ reason, writer.writeAll state bytes = .error reason
  /-- Bytes are written to the end of the last file. -/
  written {state files file bytes} : holds state (files ++ [file]) →
    file.bytes.length + bytes.length < 0x100000000 →
    ∃ next, writer.writeAll state bytes = .ok next ∧
      holds next (files ++ [{ file with bytes := file.bytes ++ bytes }])
  /-- The archive is laid out for the files. -/
  finished {state files} : holds state files →
    ∃ archive, writer.finish state = .ok archive ∧ Zip.IsLaidOut archive files

/-! ## A library -/

namespace Zip

variable {files : List ArchiveEntry} {file : ArchiveEntry} {name : String} {bytes : List UInt8}

theorem any_name_iff : files.any (·.name == name) = true ↔ name ∈ files.reverse.map (·.name) := by
  simp

theorem startFile_fresh (fresh : name ∉ files.reverse.map (·.name)) :
    startFile files name .stored =
      if wordMax < (Utf8.encode name).length then .error (.other "File name is too long")
      else .ok (⟨name, []⟩ :: files) := by
  rw [startFile, if_neg (mt any_name_iff.mp fresh), if_neg (not_not_intro rfl)]

theorem lays_writer : writer.Lays fun state files => state = files.reverse where
  made := rfl
  taken := by
    rintro _ files name rfl again
    rw [← files.reverse_reverse] at again
    exact if_pos (any_name_iff.mpr again)
  long := by
    rintro _ files name rfl fresh long
    rw [← files.reverse_reverse] at fresh
    exact ⟨_, (startFile_fresh fresh).trans (if_pos long)⟩
  started := by
    rintro _ files name rfl fresh short
    rw [← files.reverse_reverse] at fresh
    have fits := Nat.not_lt_of_ge (Nat.le_of_lt_succ short)
    exact ⟨_, (startFile_fresh fresh).trans (if_neg fits), List.reverse_concat.symm⟩
  large := by
    rintro _ files file bytes rfl large
    have refused : writeAll bytes (file :: files.reverse) = _ := if_pos large
    exact ⟨_, (congrArg (writeAll bytes) List.reverse_concat).trans refused⟩
  written := by
    rintro _ files file bytes rfl small
    have written : writeAll bytes (file :: files.reverse) = _ :=
      if_neg (Nat.not_lt_of_ge (Nat.le_of_lt_succ small))
    exact ⟨_, (congrArg (writeAll bytes) List.reverse_concat).trans written,
      List.reverse_concat.symm⟩
  finished := by
    rintro _ files rfl
    refine ⟨_, rfl, stamp, _, id, ?_⟩
    rw [List.reverse_reverse]

end Zip

namespace ArchiveWriter

variable {writer : ArchiveWriter} {holds : writer.State → List ArchiveEntry → Prop}
  {state next : writer.State} {files entries : List ArchiveEntry} {entry : ArchiveEntry}

/-! ## One file -/

theorem writeFile_taken (lays : writer.Lays holds) (held : holds state files)
    (again : entry.name ∈ files.map (·.name)) :
    writer.writeFile state entry = .error (.refused (.duplicateName entry.name)) := by
  rw [writeFile, lays.taken held again]
  rfl

theorem exists_writeFile (lays : writer.Lays holds) (held : holds state files)
    (fresh : entry.name ∉ files.map (·.name)) (fits : Zip.Fits entry) :
    ∃ next, writer.writeFile state entry = .ok next ∧ holds next (files ++ [entry]) := by
  obtain ⟨started, start_eq, started_held⟩ := lays.started held fresh fits.name
  have small : ([] : List UInt8).length + entry.bytes.length < 0x100000000 :=
    (Nat.zero_add _).trans_lt fits.bytes
  obtain ⟨next, write_eq, next_held⟩ := lays.written started_held small
  rw [writeFile, start_eq]
  exact ⟨next, congrArg (·.mapError ArchiveError.unwritten) write_eq, next_held⟩

/-- A file with a new name that does not fit is not written, and not for its name. -/
theorem writeFile_not_fits (lays : writer.Lays holds) (held : holds state files)
    (fresh : entry.name ∉ files.map (·.name)) (large : ¬ Zip.Fits entry) :
    ∃ error, writer.writeFile state entry = .error error ∧
      ∀ name, error ≠ .refused (.duplicateName name) := by
  by_cases short : (Utf8.encode entry.name).length < 0x10000
  · obtain ⟨started, start_eq, started_held⟩ := lays.started held fresh short
    have too_large : 0x100000000 ≤ ([] : List UInt8).length + entry.bytes.length := by
      rw [List.length_nil, Nat.zero_add]
      exact Nat.le_of_not_lt fun small => large ⟨short, small⟩
    obtain ⟨reason, write_eq⟩ := lays.large started_held too_large
    rw [writeFile, start_eq]
    exact ⟨.unwritten reason, congrArg (·.mapError ArchiveError.unwritten) write_eq, nofun⟩
  · obtain ⟨reason, start_eq⟩ := lays.long held fresh (Nat.le_of_not_lt short)
    rw [writeFile, start_eq]
    exact ⟨.refused (.other reason), rfl, nofun⟩

/-! ## Many files -/

theorem nodup_names_append_cons :
    ((files ++ entry :: entries).map (·.name)).Nodup ↔
      entry.name ∉ files.map (·.name) ∧ ((files ++ [entry] ++ entries).map (·.name)).Nodup := by
  rw [List.append_assoc, List.singleton_append, iff_and_self]
  intro nodup again
  rw [List.map_append, List.map_cons] at nodup
  exact List.disjoint_of_nodup_append nodup again List.mem_cons_self

theorem exists_foldlM_writeFile (lays : writer.Lays holds) (held : holds state files)
    (nodup : ((files ++ entries).map (·.name)).Nodup) (fits : ∀ entry ∈ entries, Zip.Fits entry) :
    ∃ next, entries.foldlM writer.writeFile state = .ok next ∧ holds next (files ++ entries) := by
  induction entries generalizing state files with
  | nil => exact ⟨state, rfl, by rwa [List.append_nil]⟩
  | cons entry entries induction =>
      obtain ⟨own, others⟩ := List.forall_mem_cons.mp fits
      obtain ⟨fresh, nodup⟩ := nodup_names_append_cons.mp nodup
      obtain ⟨next, write_eq, next_held⟩ := exists_writeFile lays held fresh own
      obtain ⟨last, rest_eq, last_held⟩ := induction next_held nodup others
      refine ⟨last, ?_, List.append_cons .. ▸ last_held⟩
      rw [List.foldlM_cons, write_eq]
      exact rest_eq

theorem holds_of_foldlM_writeFile (lays : writer.Lays holds) (held : holds state files)
    (nodup : (files.map (·.name)).Nodup)
    (run : entries.foldlM writer.writeFile state = .ok next) :
    holds next (files ++ entries) ∧ ((files ++ entries).map (·.name)).Nodup ∧
      ∀ entry ∈ entries, Zip.Fits entry := by
  induction entries generalizing state files with
  | nil =>
      obtain rfl := Except.ok.inj run
      rw [List.append_nil]
      exact ⟨held, nodup, List.forall_mem_nil _⟩
  | cons entry entries induction =>
      obtain ⟨behind, write_eq, rest⟩ := exists_of_bind_eq_ok run
      have fresh : entry.name ∉ files.map (·.name) := by
        intro again
        rw [writeFile_taken lays held again] at write_eq
        contradiction
      have own : Zip.Fits entry := by
        by_contra large
        obtain ⟨error, refused, _⟩ := writeFile_not_fits lays held fresh large
        rw [refused] at write_eq
        contradiction
      obtain ⟨behind', own_eq, behind_held⟩ := exists_writeFile lays held fresh own
      obtain rfl := Except.ok.inj (own_eq.symm.trans write_eq)
      have longer : ((files ++ [entry]).map (·.name)).Nodup := by
        rw [List.map_append, List.map_singleton]
        exact List.nodup_append_comm.mp (List.nodup_cons.mpr ⟨fresh, nodup⟩)
      obtain ⟨last_held, all_nodup, others⟩ := induction behind_held longer rest
      rw [List.append_assoc, List.singleton_append] at last_held all_nodup
      exact ⟨last_held, all_nodup, List.forall_mem_cons.mpr ⟨own, others⟩⟩

theorem foldlM_writeFile_ne_duplicate (lays : writer.Lays holds) (held : holds state files)
    (nodup : ((files ++ entries).map (·.name)).Nodup) (name : String) :
    entries.foldlM writer.writeFile state ≠ .error (.refused (.duplicateName name)) := by
  induction entries generalizing state files with
  | nil => nofun
  | cons entry entries induction =>
      obtain ⟨fresh, nodup⟩ := nodup_names_append_cons.mp nodup
      rw [List.foldlM_cons]
      by_cases own : Zip.Fits entry
      · obtain ⟨next, write_eq, next_held⟩ := exists_writeFile lays held fresh own
        rw [write_eq]
        exact induction next_held nodup
      · obtain ⟨error, refused, other⟩ := writeFile_not_fits lays held fresh own
        rw [refused]
        exact fun same => other name (Except.error.inj same)

/-! ## Archives -/

theorem exists_pack (lays : writer.Lays holds) (nodup : (entries.map (·.name)).Nodup)
    (fits : ∀ entry ∈ entries, Zip.Fits entry) : ∃ archive, writer.pack entries = .ok archive := by
  obtain ⟨state, run, held⟩ := exists_foldlM_writeFile lays lays.made nodup fits
  obtain ⟨archive, finish_eq, _⟩ := lays.finished held
  rw [pack, run]
  exact ⟨archive, congrArg (·.mapError ArchiveError.refused) finish_eq⟩

/-- Files with different names have no archive only where one of them does not fit. -/
theorem exists_not_fits_of_pack {cause : ArchiveError} (lays : writer.Lays holds)
    (nodup : (entries.map (·.name)).Nodup) (refused : writer.pack entries = .error cause) :
    ∃ file ∈ entries, ¬ Zip.Fits file := by
  by_contra fits
  obtain ⟨archive, packed⟩ := exists_pack lays nodup fun file member =>
    not_not.mp fun large => fits ⟨file, member, large⟩
  rw [packed] at refused
  contradiction

/-- An archive is one of files with different names that fit, and is laid out for them. -/
theorem isLaidOut_of_pack {archive : List UInt8} (lays : writer.Lays holds)
    (packed : writer.pack entries = .ok archive) :
    (entries.map (·.name)).Nodup ∧ (∀ entry ∈ entries, Zip.Fits entry) ∧
      Zip.IsLaidOut archive entries := by
  obtain ⟨state, run, finish⟩ := exists_of_bind_eq_ok packed
  obtain ⟨held, nodup, fits⟩ := holds_of_foldlM_writeFile lays lays.made List.nodup_nil run
  obtain ⟨archive', finish_eq, laid⟩ := lays.finished held
  rw [finish_eq] at finish
  obtain rfl := Except.ok.inj finish
  exact ⟨nodup, fits, laid⟩

theorem unpacks_of_pack {archive : List UInt8} (lays : writer.Lays holds)
    (packed : writer.pack entries = .ok archive) (few : entries.length < 0x40000000) :
    Zip.Unpacks archive entries := by
  obtain ⟨_, fits, laid⟩ := isLaidOut_of_pack lays packed
  exact Zip.unpacks_of_isLaidOut laid fits few

theorem pack_ne_duplicate (lays : writer.Lays holds) (nodup : (entries.map (·.name)).Nodup)
    (name : String) : writer.pack entries ≠ .error (.refused (.duplicateName name)) := by
  intro fails
  rcases bind_eq_error_iff.mp fails with fails | ⟨state, run, finish⟩
  · exact foldlM_writeFile_ne_duplicate lays lays.made nodup name fails
  · obtain ⟨held, _, _⟩ := holds_of_foldlM_writeFile lays lays.made List.nodup_nil run
    obtain ⟨archive, finish_eq, _⟩ := lays.finished held
    rw [finish_eq] at finish
    contradiction

theorem pack_writer (nodup : (entries.map (·.name)).Nodup)
    (fits : ∀ entry ∈ entries, Zip.Fits entry) :
    Zip.writer.pack entries =
      .ok (Zip.layout Zip.stamp (Zip.isWide Zip.stamp entries) entries) := by
  obtain ⟨_, run, rfl⟩ := exists_foldlM_writeFile Zip.lays_writer Zip.lays_writer.made nodup fits
  have finish_eq : Zip.writer.finish entries.reverse =
      .ok (Zip.layout Zip.stamp (Zip.isWide Zip.stamp entries) entries) := by
    change Except.ok (Zip.layout Zip.stamp (Zip.isWide Zip.stamp entries.reverse.reverse)
      entries.reverse.reverse) = _
    rw [List.reverse_reverse]
  rw [pack, run]
  exact congrArg (·.mapError ArchiveError.refused) finish_eq

end ArchiveWriter

end FlowCalibration
