import FlowCalibration.Proofs.CommandLine.Refusal

/-!
# What a run writes

A run that does not fail leaves its files in its directory, under names that fit any file system,
and every other file as it was.  Putting a file into a directory is one step; files with different
names are put there one after the other, because no step takes away a directory, so that the paths
of all of them keep leading to one place.
-/

namespace FlowCalibration

namespace Workspace

/-- Files are put into a directory under their names.  Each is found at its path; all other files
are as they were, and no directory is taken away. -/
structure Receives (before after : Workspace) (directory : String) (files : List ArchiveEntry) :
    Prop where
  /-- The working directory is the same. -/
  here : after.here = before.here
  /-- The path of a file leads to its name in the place of the directory. -/
  located : ∀ file ∈ files, ∃ place, after.placeOf directory = .ok place ∧
    after.locate (Path.join directory file.name) = .ok (place ++ [file.name])
  /-- The files are those that were put and, elsewhere, those that were there. -/
  files : ∀ names content, after.root.lookAt names = .file content ↔
    (∃ file ∈ files, after.locate (Path.join directory file.name) = .ok names ∧
      content = file.bytes) ∨
    (∀ file ∈ files, after.locate (Path.join directory file.name) ≠ .ok names) ∧
      before.root.lookAt names = .file content
  /-- Directories stay. -/
  directories : ∀ names, before.root.lookAt names = .directory →
    after.root.lookAt names = .directory

variable {before middle after : Workspace} {directory : String} {file : ArchiveEntry}
  {files : List ArchiveEntry}

theorem Receives.nil (workspace : Workspace) (directory : String) :
    Receives workspace workspace directory [] where
  here := rfl
  located := List.forall_mem_nil _
  files := by simp
  directories _ there := there

theorem receives_write? (is_name : Path.IsName file.name)
    (written : before.write? (Path.join directory file.name) file.bytes = some after) :
    Receives before after directory [file] := by
  rw [write?] at written
  split at written
  next names leads =>
    obtain ⟨root, root_written, rfl⟩ := Option.map_eq_some_iff.mp written
    have kept (place : List String) (there : before.root.lookAt place = .directory) :
        root.lookAt place = .directory := FileTree.lookAt_writeAt? root_written there
    have leads_after :
        (before.withRoot root).locate (Path.join directory file.name) = .ok names :=
      locatePieces_of_lookAt leads rfl kept
    obtain ⟨place, reached, names_eq⟩ := locate_join is_name leads_after
    refine ⟨rfl, ?_, fun found content => ?_, kept⟩
    · exact List.forall_mem_singleton.mpr ⟨place, reached, names_eq ▸ leads_after⟩
    · have found_eq : root.lookAt found =
          if found = names then .file file.bytes else before.root.lookAt found :=
        FileTree.lookAt_writeAt?_eq root_written found
      simp only [List.mem_singleton, exists_eq_left, forall_eq, leads_after, Except.ok.injEq,
        ne_eq]
      refine found_eq ▸ ?_
      by_cases same : found = names
      · rw [if_pos same, FileEntry.file.injEq]
        simp only [same, true_and, not_true, false_and, or_false]
        exact eq_comm
      · rw [if_neg same]
        simp only [Ne.symm same, false_and, false_or, not_false_eq_true, true_and]
  next => contradiction

/-- A file is put into a directory before others that have other names. -/
theorem Receives.cons (first : Receives before middle directory [file])
    (rest : Receives middle after directory files)
    (fresh : file.name ∉ files.map (·.name)) :
    Receives before after directory (file :: files) := by
  obtain ⟨place, reached, leads⟩ := first.located file List.mem_cons_self
  have reached_after := placeOf_of_lookAt reached rest.here rest.directories
  have leads_after : after.locate (Path.join directory file.name) = .ok (place ++ [file.name]) :=
    locatePieces_of_lookAt leads rest.here rest.directories
  -- the other files go to the same place, under other names
  have apart (other : ArchiveEntry) (member : other ∈ files) :
      after.locate (Path.join directory other.name) ≠ .ok (place ++ [file.name]) := by
    intro same
    obtain ⟨other_place, other_reached, other_leads⟩ := rest.located other member
    rw [reached_after] at other_reached
    obtain rfl := Except.ok.inj other_reached
    rw [other_leads] at same
    have names_eq := List.append_cancel_left (Except.ok.inj same)
    exact fresh (List.mem_map.mpr ⟨other, member, (List.cons.inj names_eq).1⟩)
  refine ⟨rest.here.trans first.here, ?_, fun names content => ?_, fun names there =>
    rest.directories names (first.directories names there)⟩
  · exact List.forall_mem_cons.mpr ⟨⟨place, reached_after, leads_after⟩, rest.located⟩
  · rw [rest.files, first.files]
    simp only [List.mem_cons, exists_eq_or_imp, forall_eq_or_imp, leads, leads_after]
    grind

theorem Receives.of_opens (opens : Opens before middle)
    (receives : Receives middle after directory files) :
    Receives before after directory files where
  here := receives.here.trans opens.here
  located := receives.located
  files names content := by rw [receives.files, opens.lookAt_eq_file_iff]
  directories names there := receives.directories names (opens.directories there)

end Workspace

namespace Action

/-- Files with different names that are all put into a directory are received there. -/
theorem receives_performAll {workspace : Workspace} {directory : String}
    {files : List ArchiveEntry} (names : ∀ file ∈ files, Path.IsName file.name)
    (nodup : (files.map (·.name)).Nodup)
    (succeeds : (performAll workspace (files.map (put directory))).error = none) :
    workspace.Receives (performAll workspace (files.map (put directory))).workspace directory
      files := by
  induction files generalizing workspace with
  | nil => exact .nil workspace directory
  | cons file files induction =>
      rw [List.map_cons] at succeeds ⊢
      obtain ⟨after, text, performed, rest, workspace_eq⟩ := exists_of_success succeeds
      obtain ⟨file_name, names⟩ := List.forall_mem_cons.mp names
      obtain ⟨fresh, nodup⟩ := List.nodup_cons.mp nodup
      rw [workspace_eq]
      refine Workspace.Receives.cons ?_ (induction names nodup rest) fresh
      rw [put, perform] at performed
      split at performed
      next written_workspace written =>
        obtain ⟨rfl, _⟩ := Prod.mk.inj (Except.ok.inj performed)
        exact Workspace.receives_write? file_name written
      next => contradiction

/-- Files with different names are received in a directory that is made first. -/
theorem receives_of_success {workspace : Workspace} {directory : String}
    {files : List ArchiveEntry} (names : ∀ file ∈ files, Path.IsName file.name)
    (nodup : (files.map (·.name)).Nodup)
    (succeeds : (performAll workspace
      (.makeDirectory directory :: files.map (put directory))).error = none) :
    workspace.Receives (performAll workspace
      (.makeDirectory directory :: files.map (put directory))).workspace directory files := by
  obtain ⟨opened, text, performed, rest, workspace_eq⟩ := exists_of_success succeeds
  rw [workspace_eq]
  refine Workspace.Receives.of_opens ?_ (receives_performAll names nodup rest)
  rw [perform] at performed
  split at performed
  next made_workspace made =>
    obtain ⟨rfl, _⟩ := Prod.mk.inj (Except.ok.inj performed)
    exact Workspace.opens_makeDirectory? made
  next => contradiction

end Action

namespace GenerateRequest

variable (request : GenerateRequest) (tower : Tower) (packed : List UInt8)

/-- The names of the files that a run writes are among those that it may write. -/
theorem sublist_fileNames :
    ((request.outputs tower packed).map (·.name)).Sublist tower.fileNames := by
  have previews : ((if request.preview then tower.previewFiles else []).map (·.name)).Sublist
      (tower.previewFiles.map (·.name)) := by
    split
    · exact .refl _
    · exact List.nil_sublist _
  rw [outputs, Tower.fileNames, List.map_append]
  split
  · exact (previews.trans (List.sublist_append_right _ _)).cons_cons _
  · exact ((List.Sublist.refl _).append previews).cons _

variable {request} {userSettings : Option String} {workspace : Workspace}
  {writer : ArchiveWriter}

/-- A run that does not fail makes its directory and puts its files there. -/
theorem exists_performed_of_success
    (succeeds : ((Job.generate request).run userSettings workspace writer).error = none) :
    ∃ tower packed, request.tower workspace.look userSettings = .ok tower ∧
      (request.zip = true → writer.pack tower.programFiles = .ok packed) ∧
      (Job.generate request).run userSettings workspace writer =
        Action.performAll workspace (.makeDirectory request.directory ::
          (request.outputs tower packed).map (Action.put request.directory)) := by
  cases planned : request.plan writer workspace.look userSettings with
  | error error =>
      simp only [Job.run, Job.plan, planned] at succeeds
      contradiction
  | ok actions =>
      have outcome_eq : (Job.generate request).run userSettings workspace writer =
          Action.performAll workspace actions := by
        simp only [Job.run, Job.plan, planned]
      rw [outcome_eq] at succeeds ⊢
      obtain ⟨tower, tower_eq, _⟩ := exists_of_bind_eq_ok planned
      obtain ⟨packed, packed_eq⟩ : ∃ packed, request.zip = true →
          writer.pack tower.programFiles = .ok packed := by
        cases packed_eq : writer.pack tower.programFiles with
        | ok packed => exact ⟨packed, fun _ => rfl⟩
        | error cause =>
            refine ⟨[], fun packs => ?_⟩
            have gives_up := request.fail_mem_plateActions_iff.mpr ⟨packs, cause, packed_eq, rfl⟩
            rw [← request.fail_mem_plan_iff tower_eq planned] at gives_up
            exact absurd gives_up (Action.fail_notMem_of_success succeeds _)
      rw [request.plan_of_pack tower_eq packed_eq] at planned
      obtain rfl := Except.ok.inj planned
      exact ⟨tower, packed, tower_eq, packed_eq, rfl⟩

end GenerateRequest

/-- A run fails to pack its plates only where one of them does not fit into an archive, and never
for its name.  A run that does not fail leaves in its directory the programs of its plates or, where
it is to pack them, their archive, from which the programs that it would leave otherwise are read
back in order; and the previews if it is to draw them.  These names differ from one another and fit
any file system, and every other file is as it was. -/
theorem generate_receives {writer : ArchiveWriter}
    {holds : writer.State → List ArchiveEntry → Prop} (lays : writer.Lays holds)
    (request : GenerateRequest) (userSettings : Option String) (workspace : Workspace) :
    let outcome := (Job.generate request).run userSettings workspace writer
    (∀ cause, outcome.error = some (.archive cause) →
      (∀ name, cause ≠ .refused (.duplicateName name)) ∧
      ∃ tower, request.tower workspace.look userSettings = .ok tower ∧
        ∃ file ∈ tower.programFiles, ¬ Zip.Fits file) ∧
    (outcome.error = none → ∃ tower packed,
      request.tower workspace.look userSettings = .ok tower ∧
      { request with zip := false }.tower workspace.look userSettings = .ok tower ∧
      (request.zip = true → writer.pack tower.programFiles = .ok packed ∧
        Zip.Unpacks packed tower.programFiles) ∧
      tower.fileNames.Nodup ∧ (∀ name ∈ tower.fileNames, FileName.IsPortable name) ∧
      workspace.Receives outcome.workspace request.directory (request.outputs tower packed)) := by
  intro outcome
  constructor
  · intro cause fails
    rcases Job.error_of_run fails with impossible | ⟨own, tower, refusal, job_eq, tower_eq,
      refused, error_eq⟩ | ⟨path, impossible⟩ | ⟨path, impossible⟩
    · contradiction
    · obtain rfl := Job.generate.inj job_eq
      obtain rfl := JobError.archive.inj error_eq
      constructor
      · rintro name rfl
        exact ArchiveWriter.pack_ne_duplicate lays tower.nodup_programFiles name refused
      · exact ⟨tower, tower_eq,
          ArchiveWriter.exists_not_fits_of_pack lays tower.nodup_programFiles refused⟩
    · contradiction
    · contradiction
  · intro succeeds
    obtain ⟨tower, packed, tower_eq, packed_eq, outcome_eq⟩ :=
      GenerateRequest.exists_performed_of_success succeeds
    have performed : outcome = _ := outcome_eq
    rw [performed] at succeeds ⊢
    have names := request.sublist_fileNames tower packed
    have portable := tower.isPortable_fileNames
    refine ⟨tower, packed, tower_eq, tower_eq, fun packs => ⟨packed_eq packs, ?_⟩,
      tower.nodup_fileNames, portable, ?_⟩
    · exact ArchiveWriter.unpacks_of_pack lays (packed_eq packs) tower.length_programFiles_lt
    · refine Action.receives_of_success (fun file member => ?_)
        (tower.nodup_fileNames.sublist names) succeeds
      exact (portable file.name (names.mem (List.mem_map_of_mem member))).isName

/-- A run that packs two plates, for a printer whose name has a slash. -/
def twoPlates : GenerateRequest where
  printer := "X1/P1"
  overrides := ["flowSteps=2", "xSpacing=300", "ySpacing=300"]
  directory := "out/deep"
  zip := true
  preview := true

/-- A workspace with a preview of an earlier run and a file beside the directory of the run. -/
def usedWorkspace : Workspace :=
  (Workspace.blank ["home"]).addFiles
    [("out/deep/flow-test-X1-P1-plate-2.svg", [1]), ("out/notes", [2])]

theorem fits_twoPlates {tower : Tower}
    (tower_eq : twoPlates.tower usedWorkspace.look none = .ok tower) :
    ∀ file ∈ tower.programFiles, Zip.Fits file := by
  have short : (twoPlates.tower usedWorkspace.look none).toOption.all (fun tower =>
      tower.programFiles.all (fun file => (Utf8.encode file.name).length < 0x10000) &&
      tower.plans.all fun plan => ((tower.planLines plan).map fun line =>
        (Utf8.encode line).length + 1).sum < 0x100000000) = true := by
    decide +kernel
  rw [tower_eq] at short
  obtain ⟨names, lines⟩ := (Bool.and_eq_true _ _).mp short
  refine Tower.fits_programFiles (fun file member => ?_) fun plan member => ?_
  · exact of_decide_eq_true (List.all_eq_true.mp names file member)
  · exact of_decide_eq_true (List.all_eq_true.mp lines plan member)

theorem generate_receives_twoPlates :
    ((Job.generate twoPlates).run none usedWorkspace Zip.writer).error = none ∧
    ∃ tower packed, twoPlates.tower usedWorkspace.look none = .ok tower ∧
      Zip.writer.pack tower.programFiles = .ok packed ∧ Zip.Unpacks packed tower.programFiles ∧
      usedWorkspace.Receives
        ((Job.generate twoPlates).run none usedWorkspace Zip.writer).workspace "out/deep"
        (twoPlates.outputs tower packed) := by
  have succeeds : ((Job.generate twoPlates).run none usedWorkspace Zip.writer).error = none := by
    -- whether files can be written does not depend on their bytes, which are left as they stand
    have written : (twoPlates.tower usedWorkspace.look none).toOption.any (fun tower =>
        let packed := Zip.layout Zip.stamp (Zip.isWide Zip.stamp tower.programFiles)
          tower.programFiles
        (Action.performAll usedWorkspace (.makeDirectory "out/deep" ::
          (twoPlates.outputs tower packed).map (Action.put "out/deep"))).error = none) = true := by
      decide +kernel
    cases tower_eq : twoPlates.tower usedWorkspace.look none with
    | error error =>
        rw [tower_eq] at written
        contradiction
    | ok tower =>
        rw [tower_eq] at written
        have packed_eq := ArchiveWriter.pack_writer tower.nodup_programFiles
          (fits_twoPlates tower_eq)
        have planned := twoPlates.plan_of_pack tower_eq fun _ => packed_eq
        rw [Job.run, Job.plan, planned]
        exact of_decide_eq_true written
  obtain ⟨tower, packed, tower_eq, _, unpacks, _, _, receives⟩ :=
    (generate_receives Zip.lays_writer twoPlates none usedWorkspace).2 succeeds
  obtain ⟨packed_eq, unpacks⟩ := unpacks rfl
  exact ⟨succeeds, tower, packed, tower_eq, packed_eq, unpacks, receives⟩

end FlowCalibration
