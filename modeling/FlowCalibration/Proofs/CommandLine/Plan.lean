import FlowCalibration.CommandLine.Outcome
import FlowCalibration.Proofs.Archive.FileNames
import FlowCalibration.Proofs.Archive.Packing
import FlowCalibration.Proofs.Tower.Overflow

/-!
# The plan of a run

A run that knows its tower makes its directory and then puts files into it: those of the plates or
their archive, and those of the previews.  No two of these files have one name, so they are never
refused for their names, and a plan gives up only where a plate does not fit into an archive.
-/

namespace FlowCalibration

theorem length_encode_joinLines_le (lines : List String) :
    (Utf8.encode (joinLines lines)).length ≤
      (lines.map fun line => (Utf8.encode line).length + 1).sum := by
  simp only [Utf8.encode_eq_flatMap, joinLines, String.toList_ofList]
  induction lines with
  | nil => exact Nat.le_refl 0
  | cons line lines induction =>
      cases lines with
      | nil => simp [List.intercalate]
      | cons next lines =>
          simp only [List.map_cons, List.intercalate_cons_cons, List.flatMap_append,
            List.length_append, List.sum_cons] at induction ⊢
          have feed : (['\n'].flatMap String.utf8EncodeChar).length = 1 := rfl
          omega

namespace Tower

/-- A file for each plate of a run, with an extension and a text. -/
def filesOf (tower : Tower) (extension : String) (text : Plate → String) : List ArchiveEntry :=
  tower.plates.map fun plate =>
    { name := FileName.stem tower.profile.model plate.index tower.plates.length ++ extension
      bytes := Utf8.encode (text plate) }

/-- The programs of a run. -/
def programFiles (tower : Tower) : List ArchiveEntry :=
  tower.filesOf ".gcode" Plate.program

/-- The previews of a run. -/
def previewFiles (tower : Tower) : List ArchiveEntry :=
  tower.filesOf ".svg" fun plate => render (ViewOptions.ofSettings tower.settings) plate.program

/-- The names of all files that a run may write, the archive first. -/
def fileNames (tower : Tower) : List String :=
  FileName.archive tower.profile.model ::
    (tower.programFiles.map (·.name) ++ tower.previewFiles.map (·.name))

theorem length_plates (tower : Tower) : tower.plates.length = tower.layout.plateCount := by
  have indices := congrArg List.length tower.index_plates.2
  simpa using indices

theorem nodup_index_plates (tower : Tower) : (tower.plates.map Plate.index).Nodup := by
  rw [tower.index_plates.2]
  exact List.nodup_range.map fun _ _ same => Nat.succ.inj same

theorem map_name_filesOf (tower : Tower) (extension : String) (text : Plate → String) :
    (tower.filesOf extension text).map (·.name) = (tower.plates.map Plate.index).map fun index =>
      FileName.stem tower.profile.model index (tower.plates.map Plate.index).length ++
        extension := by
  rw [filesOf, List.map_map, List.map_map, List.length_map]
  rfl

theorem nodup_fileNames (tower : Tower) : tower.fileNames.Nodup := by
  rw [fileNames, programFiles, previewFiles, map_name_filesOf, map_name_filesOf]
  exact FileName.nodup_names tower.nodup_index_plates

theorem isPortable_fileNames (tower : Tower) :
    ∀ name ∈ tower.fileNames, FileName.IsPortable name := by
  simp only [fileNames, programFiles, previewFiles, filesOf, List.map_map, List.forall_mem_cons,
    List.forall_mem_append, List.forall_mem_map, Function.comp_apply]
  exact ⟨FileName.isPortable_archive _, fun _ _ => FileName.isPortable_stem _ _ _ (by simp),
    fun _ _ => FileName.isPortable_stem _ _ _ (by simp)⟩

theorem nodup_programFiles (tower : Tower) : (tower.programFiles.map (·.name)).Nodup :=
  (List.nodup_cons.mp tower.nodup_fileNames).2.of_append_left

theorem length_programFiles_lt (tower : Tower) : tower.programFiles.length < 0x40000000 := by
  have few := tower.plateCount_le
  rw [programFiles, filesOf, List.length_map, length_plates]
  exact few.trans_lt (show maxSweepSteps < 0x40000000 by decide)

/-- Programs fit into an archive if their names and the lines of their plates are not too long. -/
theorem fits_programFiles {tower : Tower}
    (names : ∀ file ∈ tower.programFiles, (Utf8.encode file.name).length < 0x10000)
    (lines : ∀ plan ∈ tower.plans,
      ((tower.planLines plan).map fun line => (Utf8.encode line).length + 1).sum < 0x100000000) :
    ∀ file ∈ tower.programFiles, Zip.Fits file := by
  intro file member
  refine ⟨names file member, ?_⟩
  obtain ⟨plate, inside, rfl⟩ := List.mem_map.mp member
  obtain ⟨plan, planned, rfl⟩ := List.mem_map.mp inside
  have program_eq : (tower.plate plan).program = joinLines (tower.planLines plan) := rfl
  dsimp only
  rw [program_eq]
  exact Nat.lt_of_le_of_lt (length_encode_joinLines_le _) (lines plan planned)

end Tower

namespace Action

/-- Write a file into a directory. -/
def put (directory : String) (file : ArchiveEntry) : Action :=
  .write (Path.join directory file.name) file.bytes

variable {workspace : Workspace} {action : Action} {actions : List Action}

theorem exists_of_error {error : JobError}
    (fails : (performAll workspace actions).error = some error) :
    ∃ action ∈ actions, ∃ before, action.perform before = .error error := by
  induction actions generalizing workspace with
  | nil => contradiction
  | cons action actions induction =>
      rw [performAll] at fails
      split at fails
      next cause refused =>
        obtain rfl := Option.some.inj fails
        exact ⟨action, List.mem_cons_self, workspace, refused⟩
      next =>
        obtain ⟨later, member, refused⟩ := induction fails
        exact ⟨later, List.mem_cons_of_mem action member, refused⟩

/-- A plan fails where it gives up, a directory cannot be made or a file not be written. -/
theorem error_of_performAll {error : JobError}
    (fails : (performAll workspace actions).error = some error) :
    .fail error ∈ actions ∨ (∃ path, error = .noDirectory path) ∨
      ∃ path, error = .unwritable path := by
  obtain ⟨action, member, before, refused⟩ := exists_of_error fails
  cases action with
  | makeDirectory path =>
      rw [perform] at refused
      split at refused
      · contradiction
      · exact .inr (.inl ⟨path, (Except.error.inj refused).symm⟩)
  | write path content =>
      rw [perform] at refused
      split at refused
      · contradiction
      · exact .inr (.inr ⟨path, (Except.error.inj refused).symm⟩)
  | print text => contradiction
  | fail cause =>
      obtain rfl := Except.error.inj refused
      exact .inl member

theorem performAll_cons {after : Workspace} {text : String}
    (performed : action.perform workspace = .ok (after, text)) :
    performAll workspace (action :: actions) =
      { performAll after actions with output := text ++ (performAll after actions).output } := by
  rw [performAll, performed]

theorem exists_of_success (succeeds : (performAll workspace (action :: actions)).error = none) :
    ∃ after text, action.perform workspace = .ok (after, text) ∧
      (performAll after actions).error = none ∧
      (performAll workspace (action :: actions)).workspace =
        (performAll after actions).workspace := by
  cases performed : action.perform workspace with
  | error cause =>
      rw [performAll, performed] at succeeds
      contradiction
  | ok result =>
      rw [performAll_cons performed] at succeeds ⊢
      exact ⟨result.1, result.2, rfl, succeeds, rfl⟩

theorem fail_notMem_of_success (succeeds : (performAll workspace actions).error = none)
    (error : JobError) : .fail error ∉ actions := by
  induction actions generalizing workspace with
  | nil => exact List.not_mem_nil
  | cons action actions induction =>
      obtain ⟨after, text, performed, rest, _⟩ := exists_of_success succeeds
      rw [List.mem_cons, not_or]
      refine ⟨?_, induction rest⟩
      rintro rfl
      contradiction

end Action

namespace GenerateRequest

/-- The files that a run writes, where `packed` is the archive of its plates. -/
def outputs (request : GenerateRequest) (tower : Tower) (packed : List UInt8) :
    List ArchiveEntry :=
  (if request.zip then [⟨FileName.archive tower.profile.model, packed⟩]
    else tower.programFiles) ++
    if request.preview then tower.previewFiles else []

theorem previewPath_eq (directory model : String) (index plateCount : Nat) :
    Path.withExtension (Path.join directory (FileName.plate model index plateCount)) "svg" =
      Path.join directory (FileName.stem model index plateCount ++ ".svg") :=
  Path.withExtension_join (FileName.stem_ne_empty model index plateCount)
    (by decide : '.' ∉ "gcode".toList) rfl rfl
    (FileName.isPortable_stem model index plateCount (by simp)).isName
    (FileName.isPortable_stem model index plateCount (by simp)).isName

theorem previewActions_eq (request : GenerateRequest) (tower : Tower) :
    request.previewActions tower = tower.previewFiles.map (Action.put request.directory) := by
  rw [previewActions, Tower.previewFiles, Tower.filesOf, List.map_map]
  refine List.map_congr_left fun plate _ => ?_
  exact congrArg (Action.write · _)
    (previewPath_eq request.directory tower.profile.model plate.index tower.plates.length)

variable {request : GenerateRequest} {writer : ArchiveWriter} {tower : Tower}
  {look : String → FileEntry} {userSettings : Option String}

theorem plateActions_eq {packed : List UInt8}
    (packed_eq : request.zip = true → writer.pack tower.programFiles = .ok packed) :
    request.plateActions writer tower =
      (if request.zip then [⟨FileName.archive tower.profile.model, packed⟩]
        else tower.programFiles).map (Action.put request.directory) := by
  have entries_eq : Plate.entries tower.profile.model tower.plates = tower.programFiles := rfl
  rw [plateActions, entries_eq]
  split
  next packs => rw [packed_eq packs]; rfl
  next => rfl

/-- Plates are given up where they are to be packed and the library does not do so. -/
theorem fail_mem_plateActions_iff {error : JobError} :
    .fail error ∈ request.plateActions writer tower ↔ request.zip = true ∧
      ∃ cause, writer.pack tower.programFiles = .error cause ∧ error = .archive cause := by
  have entries_eq : Plate.entries tower.profile.model tower.plates = tower.programFiles := rfl
  rw [plateActions, entries_eq]
  split
  next packs =>
    cases writer.pack tower.programFiles with
    | ok packed => simp
    | error cause => simp [packs]
  next separate => simp [separate]

theorem plan_eq (tower_eq : request.tower look userSettings = .ok tower) :
    request.plan writer look userSettings = .ok (.makeDirectory request.directory ::
      (request.plateActions writer tower ++
        (if request.preview then tower.previewFiles else []).map
          (Action.put request.directory))) := by
  have previews_eq : (if request.preview then request.previewActions tower else []) =
      (if request.preview then tower.previewFiles else []).map
        (Action.put request.directory) := by
    split
    · exact previewActions_eq request tower
    · rfl
  rw [plan, tower_eq, ← previews_eq]
  rfl

theorem plan_of_pack {packed : List UInt8} (tower_eq : request.tower look userSettings = .ok tower)
    (packed_eq : request.zip = true → writer.pack tower.programFiles = .ok packed) :
    request.plan writer look userSettings = .ok (.makeDirectory request.directory ::
      (request.outputs tower packed).map (Action.put request.directory)) := by
  rw [plan_eq tower_eq, plateActions_eq packed_eq, ← List.map_append]
  rfl

theorem fail_mem_plan_iff {error : JobError} {actions : List Action}
    (tower_eq : request.tower look userSettings = .ok tower)
    (planned : request.plan writer look userSettings = .ok actions) :
    .fail error ∈ actions ↔ .fail error ∈ request.plateActions writer tower := by
  rw [plan_eq tower_eq] at planned
  obtain rfl := Except.ok.inj planned
  simp [Action.put]

end GenerateRequest

theorem Job.fail_mem_plan {job : Job} {writer : ArchiveWriter} {look : String → FileEntry}
    {userSettings : Option String} {actions : List Action} {error : JobError}
    (planned : job.plan writer look userSettings = .ok actions) (gives_up : .fail error ∈ actions) :
    ∃ request tower cause, job = .generate request ∧
      request.tower look userSettings = .ok tower ∧
      writer.pack tower.programFiles = .error cause ∧ error = .archive cause := by
  cases job with
  | printers path =>
      obtain ⟨catalog, _, planned⟩ := exists_of_bind_eq_ok planned
      obtain rfl := Except.ok.inj planned
      simp at gives_up
  | generate request =>
      obtain ⟨tower, tower_eq, _⟩ := exists_of_bind_eq_ok planned
      rw [request.fail_mem_plan_iff tower_eq planned,
        request.fail_mem_plateActions_iff] at gives_up
      obtain ⟨_, cause, refused, error_eq⟩ := gives_up
      exact ⟨request, tower, cause, rfl, tower_eq, refused, error_eq⟩
  | preview request =>
      obtain ⟨program, _, planned⟩ := exists_of_bind_eq_ok planned
      obtain ⟨options, _, planned⟩ := exists_of_bind_eq_ok planned
      split at planned <;>
        · obtain rfl := Except.ok.inj planned
          simp at gives_up

end FlowCalibration
