import FlowCalibration.Proofs.CommandLine.Plan

/-!
# Input that is refused

A job reads all of its input before it changes anything.  Where some of the input is refused, the
job fails with one of the reasons, and files and directories stay as they were.
-/

namespace FlowCalibration

/-- Whether an error lies in what a job reads and not in what it writes. -/
def JobError.isInput : JobError → Bool
  | catalog .. | printer _ | settings .. | badPair _ | options _ | unreadable _ => true
  | noDirectory _ | archive _ | unwritable _ => false

/-- The catalog of a path cannot be read or is none. -/
def PrinterCatalog.IsRefused (look : String → FileEntry) (path : String) (cause : CatalogError) :
    Prop :=
  (look path).text? = none ∧ cause = .unreadable ∨
    ∃ text, (look path).text? = some text ∧ parse text = .error cause

/-- Reasons for which the input of a job is refused. -/
inductive Job.Refused (look : String → FileEntry) (userSettings : Option String) :
    Job → JobError → Prop
  /-- A catalog whose printers are to be listed. -/
  | listing {path : String} {cause : CatalogError} :
      PrinterCatalog.IsRefused look path cause →
      Refused look userSettings (.printers (some path)) (.catalog path cause)
  /-- The catalog of a run. -/
  | catalog {request : GenerateRequest} {path : String} {cause : CatalogError} :
      request.catalog = some path → PrinterCatalog.IsRefused look path cause →
      Refused look userSettings (.generate request) (.catalog path cause)
  /-- A printer that the catalog does not have. -/
  | printer {request : GenerateRequest} {catalog : PrinterCatalog} {cause : CatalogError} :
      PrinterCatalog.load look request.catalog = .ok catalog →
      catalog.select request.printer = .error cause →
      Refused look userSettings (.generate request) (.printer request.printer)
  /-- The settings file that is given. -/
  | settings {request : GenerateRequest} {path : String} {cause : SettingsError} :
      request.settings = some path → RawSettings.load look path = .error cause →
      Refused look userSettings (.generate request) (.settings path cause)
  /-- The settings file of the user, where none is given. -/
  | userSettings {request : GenerateRequest} {path : String} {cause : SettingsError} :
      request.settings = none → userSettings = some path → (look path).isPresent →
      RawSettings.load look path = .error cause →
      Refused look userSettings (.generate request) (.settings path cause)
  /-- A pair without a key or without an equality sign, at any place in the list. -/
  | pair {request : GenerateRequest} {pair : String} :
      pair ∈ request.overrides → RawSettings.splitPair? pair = none →
      Refused look userSettings (.generate request) (.badPair pair)
  /-- The program to preview. -/
  | program {request : PreviewRequest} :
      (look request.input).text? = none →
      Refused look userSettings (.preview request) (.unreadable request.input)
  /-- View options that cannot be read. -/
  | unreadableOptions {request : PreviewRequest} {path : String} :
      request.options = some path → (look path).text? = none →
      Refused look userSettings (.preview request) (.unreadable path)
  /-- View options that are none. -/
  | options {request : PreviewRequest} {path text : String} :
      request.options = some path → (look path).text? = some text →
      (JsonDocument.parse? text).bind ViewOptions.ofDocument? = none →
      Refused look userSettings (.preview request) (.options path)

variable {writer : ArchiveWriter} {look : String → FileEntry} {userSettings : Option String}
  {error : JobError}

/-! ## Catalogs and pairs -/

theorem PrinterCatalog.load_some_eq_error_iff {path : String} :
    load look (some path) = .error error ↔
      ∃ cause, IsRefused look path cause ∧ error = .catalog path cause := by
  rw [load]
  constructor
  · intro fails
    split at fails
    next unread =>
      exact ⟨.unreadable, .inl ⟨unread, rfl⟩, (Except.error.inj fails).symm⟩
    next text read =>
      split at fails
      next => contradiction
      next cause refused =>
        exact ⟨cause, .inr ⟨text, read, refused⟩, (Except.error.inj fails).symm⟩
  · rintro ⟨cause, ⟨unread, rfl⟩ | ⟨text, read, refused⟩, rfl⟩
    · rw [unread]
    · rw [read]
      simp only [refused]

theorem PrinterCatalog.load_none_ne_error : load look none ≠ .error error :=
  nofun

namespace GenerateRequest

variable {request : GenerateRequest}

/-- Pairs are refused where one of them is none, whatever the others are. -/
theorem exists_of_overrideLayer_eq_error (fails : request.overrideLayer = .error error) :
    ∃ pair ∈ request.overrides, RawSettings.splitPair? pair = none ∧ error = .badPair pair := by
  obtain ⟨pair, member, raw, refused⟩ := exists_of_foldlM_eq_error fails
  refine ⟨pair, member, ?_⟩
  split at refused
  next => contradiction
  next cause pair_refused =>
    rw [RawSettings.setPair] at pair_refused
    split at pair_refused
    next none => exact ⟨none, (Except.error.inj refused).symm⟩
    next => contradiction

theorem splitPair?_of_overrideLayer_eq_ok {layer : RawSettings}
    (run : request.overrideLayer = .ok layer) :
    ∀ pair ∈ request.overrides, RawSettings.splitPair? pair ≠ none := by
  intro pair member none
  obtain ⟨raw, next, step⟩ := exists_of_foldlM_eq_ok run pair member
  simp only [RawSettings.setPair, none] at step
  contradiction

/-! ## The settings file that counts -/

/-- The settings file that counts is the one that is given, else that of the user. -/
theorem settingsPath?_eq_some_iff {path : String} :
    request.settingsPath? look userSettings = some path ↔
      request.settings = some path ∨
        request.settings = none ∧ userSettings = some path ∧ (look path).isPresent := by
  rw [settingsPath?]
  cases request.settings with
  | some given => simp
  | none => simp [Option.filter_eq_some_iff]

theorem fileLayer_eq_error_iff :
    request.fileLayer look userSettings = .error error ↔
      ∃ path cause, request.settingsPath? look userSettings = some path ∧
        RawSettings.load look path = .error cause ∧ error = .settings path cause := by
  rw [fileLayer]
  cases request.settingsPath? look userSettings with
  | none => simp
  | some path =>
      cases loaded : RawSettings.load look path with
      | ok raw => simp [loaded]
      | error cause => simp [loaded, eq_comm]

/-! ## Runs -/

theorem refused_of_tower_eq_error (fails : request.tower look userSettings = .error error) :
    Job.Refused look userSettings (.generate request) error := by
  rw [tower] at fails
  rcases bind_eq_error_iff.mp fails with fails | ⟨profile, _, fails⟩
  · rw [profile] at fails
    rcases bind_eq_error_iff.mp fails with fails | ⟨catalog, loaded, fails⟩
    · cases given : request.catalog with
      | none =>
          rw [given] at fails
          exact absurd fails PrinterCatalog.load_none_ne_error
      | some path =>
          rw [given, PrinterCatalog.load_some_eq_error_iff] at fails
          obtain ⟨cause, refused, rfl⟩ := fails
          exact .catalog given refused
    · split at fails
      next => contradiction
      next cause unknown =>
        obtain rfl := Except.error.inj fails
        exact .printer loaded unknown
  · rcases bind_eq_error_iff.mp fails with fails | ⟨layers, _, fails⟩
    · obtain ⟨path, cause, counts, refused, rfl⟩ := fileLayer_eq_error_iff.mp fails
      rcases settingsPath?_eq_some_iff.mp counts with given | ⟨none, of_user, present⟩
      · exact .settings given refused
      · exact .userSettings none of_user present refused
    · rcases bind_eq_error_iff.mp fails with fails | ⟨overrides, _, fails⟩
      · obtain ⟨pair, member, none, rfl⟩ := exists_of_overrideLayer_eq_error fails
        exact .pair member none
      · contradiction

theorem not_refused_of_tower_eq_ok {tower : Tower}
    (run : request.tower look userSettings = .ok tower) :
    ¬ Job.Refused look userSettings (.generate request) error := by
  rw [GenerateRequest.tower] at run
  obtain ⟨profile, profile_eq, run⟩ := exists_of_bind_eq_ok run
  obtain ⟨layers, layers_eq, run⟩ := exists_of_bind_eq_ok run
  obtain ⟨overrides, overrides_eq, _⟩ := exists_of_bind_eq_ok run
  rw [GenerateRequest.profile] at profile_eq
  obtain ⟨catalog, loaded, selected⟩ := exists_of_bind_eq_ok profile_eq
  have file_loads {path : String} {cause : SettingsError}
      (counts : request.settingsPath? look userSettings = some path) :
      RawSettings.load look path ≠ .error cause := by
    intro refused
    rw [fileLayer_eq_error_iff.mpr ⟨path, cause, counts, refused, rfl⟩] at layers_eq
    contradiction
  rintro (_ | ⟨given, refused⟩ | ⟨loaded', unknown⟩ | ⟨given, refused⟩ |
    ⟨none, of_user, present, refused⟩ | ⟨member, none⟩)
  · rw [given, PrinterCatalog.load_some_eq_error_iff.mpr ⟨_, refused, rfl⟩] at loaded
    contradiction
  · obtain rfl := Except.ok.inj (loaded.symm.trans loaded')
    rw [unknown] at selected
    contradiction
  · exact file_loads (settingsPath?_eq_some_iff.mpr (.inl given)) refused
  · exact file_loads (settingsPath?_eq_some_iff.mpr (.inr ⟨none, of_user, present⟩)) refused
  · exact splitPair?_of_overrideLayer_eq_ok overrides_eq _ member none

end GenerateRequest

namespace PreviewRequest

variable {request : PreviewRequest}

theorem readText_eq_error_iff {path : String} :
    readText look path = .error error ↔ (look path).text? = none ∧ error = .unreadable path := by
  rw [readText]
  cases (look path).text? with
  | some text => simp
  | none => simp [eq_comm]

theorem refused_of_plan_eq_error (fails : request.plan look = .error error) :
    Job.Refused look userSettings (.preview request) error := by
  rw [plan] at fails
  rcases bind_eq_error_iff.mp fails with fails | ⟨program, _, fails⟩
  · obtain ⟨unread, rfl⟩ := readText_eq_error_iff.mp fails
    exact .program unread
  · rcases bind_eq_error_iff.mp fails with fails | ⟨options, _, fails⟩
    · rw [viewOptions] at fails
      split at fails
      next => contradiction
      next path given =>
        rcases bind_eq_error_iff.mp fails with fails | ⟨text, read, fails⟩
        · obtain ⟨unread, rfl⟩ := readText_eq_error_iff.mp fails
          exact .unreadableOptions given unread
        · split at fails
          next => contradiction
          next none =>
            obtain rfl := Except.error.inj fails
            rw [readText] at read
            split at read
            next content content_eq =>
              obtain rfl := Except.ok.inj read
              exact .options given content_eq none
            next => contradiction
    · split at fails <;> contradiction

/-- A preview that has a plan has nothing that is refused, and prints a drawing or writes it. -/
theorem not_refused_of_plan_eq_ok {actions : List Action}
    (run : request.plan look = .ok actions) :
    ¬ Job.Refused look userSettings (.preview request) error := by
  rw [plan] at run
  obtain ⟨program, program_eq, run⟩ := exists_of_bind_eq_ok run
  obtain ⟨options, options_eq, _⟩ := exists_of_bind_eq_ok run
  rintro (_ | _ | _ | _ | _ | _ | unread | ⟨given, unread⟩ | ⟨given, read, unread⟩)
  · rw [readText_eq_error_iff.mpr ⟨unread, rfl⟩] at program_eq
    contradiction
  · simp only [viewOptions, given] at options_eq
    obtain ⟨text, text_eq, _⟩ := exists_of_bind_eq_ok options_eq
    rw [readText_eq_error_iff.mpr ⟨unread, rfl⟩] at text_eq
    contradiction
  · simp only [viewOptions, given] at options_eq
    obtain ⟨text, text_eq, options_eq⟩ := exists_of_bind_eq_ok options_eq
    rw [readText, read] at text_eq
    obtain rfl := Except.ok.inj text_eq
    rw [unread] at options_eq
    contradiction

end PreviewRequest

namespace Job

theorem isInput_of_refused {job : Job} (refused : job.Refused look userSettings error) :
    error.isInput := by
  cases refused <;> rfl

/-- A job has no plan where its input is refused, and for no other reason. -/
theorem refused_of_plan_eq_error {job : Job}
    (fails : job.plan writer look userSettings = .error error) :
    job.Refused look userSettings error := by
  cases job with
  | printers path =>
      rcases bind_eq_error_iff.mp fails with fails | ⟨catalog, _, fails⟩
      · cases path with
        | none => exact absurd fails PrinterCatalog.load_none_ne_error
        | some path =>
            obtain ⟨cause, refused, rfl⟩ := PrinterCatalog.load_some_eq_error_iff.mp fails
            exact .listing refused
      · contradiction
  | generate request =>
      rcases bind_eq_error_iff.mp fails with fails | ⟨tower, _, fails⟩
      · exact request.refused_of_tower_eq_error fails
      · contradiction
  | preview request => exact request.refused_of_plan_eq_error fails

theorem not_refused_of_plan_eq_ok {job : Job} {actions : List Action}
    (planned : job.plan writer look userSettings = .ok actions) :
    ¬ job.Refused look userSettings error := by
  cases job with
  | printers path =>
      obtain ⟨catalog, loaded, _⟩ := exists_of_bind_eq_ok planned
      rintro ⟨refused⟩
      rw [PrinterCatalog.load_some_eq_error_iff.mpr ⟨_, refused, rfl⟩] at loaded
      contradiction
  | generate request =>
      obtain ⟨tower, tower_eq, _⟩ := exists_of_bind_eq_ok planned
      exact request.not_refused_of_tower_eq_ok tower_eq
  | preview request => exact request.not_refused_of_plan_eq_ok planned

/-- A job fails for what it reads, where the plates of a run are not packed, or where a directory
cannot be made or a file not be written. -/
theorem error_of_run {job : Job} {workspace : Workspace}
    (fails : (job.run userSettings workspace writer).error = some error) :
    error.isInput ∨
    (∃ request tower cause, job = .generate request ∧
      request.tower workspace.look userSettings = .ok tower ∧
      writer.pack tower.programFiles = .error cause ∧ error = .archive cause) ∨
    (∃ path, error = .noDirectory path) ∨ ∃ path, error = .unwritable path := by
  rw [run] at fails
  split at fails
  next cause planned =>
    obtain rfl := Option.some.inj fails
    exact .inl (isInput_of_refused (refused_of_plan_eq_error planned))
  next actions planned =>
    rcases Action.error_of_performAll fails with gives_up | impossible
    · exact .inr (.inl (fail_mem_plan planned gives_up))
    · exact .inr (.inr impossible)

/-- A job whose input is refused fails with one of the reasons, prints nothing and leaves all files
and directories as they were: whatever is refused, and however much of it.  No job fails with such a
reason otherwise. -/
theorem run_refused (job : Job) (userSettings : Option String) (workspace : Workspace)
    (writer : ArchiveWriter) :
    ((∃ error, job.Refused workspace.look userSettings error) →
      ∃ error, job.Refused workspace.look userSettings error ∧
        job.run userSettings workspace writer = { workspace, error }) ∧
    ∀ error, (job.run userSettings workspace writer).error = some error → error.isInput →
      job.Refused workspace.look userSettings error ∧
        job.run userSettings workspace writer = { workspace, error } := by
  rw [run]
  cases planned : job.plan writer workspace.look userSettings with
  | error cause =>
      have refused := refused_of_plan_eq_error planned
      refine ⟨fun _ => ⟨cause, refused, rfl⟩, fun error same _ => ?_⟩
      obtain rfl := Option.some.inj same
      exact ⟨refused, rfl⟩
  | ok actions =>
      refine ⟨fun ⟨error, refused⟩ => absurd refused (not_refused_of_plan_eq_ok planned), ?_⟩
      intro error fails is_input
      rcases Action.error_of_performAll fails with gives_up | ⟨path, rfl⟩ | ⟨path, rfl⟩
      · obtain ⟨_, _, _, _, _, _, rfl⟩ := fail_mem_plan planned gives_up
        contradiction
      · contradiction
      · contradiction

/-- A run with a settings file of the user in no known format, and with a pair that is none. -/
theorem run_refused_pair :
    let request : GenerateRequest :=
      { printer := "A1", overrides := ["flowSteps=3", " =4"], directory := "out" }
    let workspace := (Workspace.blank ["home"]).addFiles [("settings.yaml", [])]
    ∃ error, (Job.generate request).Refused workspace.look (some "settings.yaml") error ∧
      (Job.generate request).run (some "settings.yaml") workspace = { workspace, error } := by
  intro request workspace
  have pair : (Job.generate request).Refused workspace.look (some "settings.yaml")
      (.badPair " =4") := .pair (by decide) (by decide)
  exact (run_refused (.generate request) (some "settings.yaml") workspace Zip.writer).1 ⟨_, pair⟩

end Job

end FlowCalibration
