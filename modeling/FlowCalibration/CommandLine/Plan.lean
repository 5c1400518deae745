import FlowCalibration.Archive.Bundle
import FlowCalibration.CommandLine.Job
import FlowCalibration.Preview.Scene
import FlowCalibration.Printer.Catalog
import FlowCalibration.Settings.File

/-!
# Plans

A job is first planned and then carried out.  A plan is the list of everything that the job will
make, write and print.  All that a job reads, it reads while the plan is made, so a job that fails
for what it read has no plan and changes nothing.
-/

namespace FlowCalibration

/-- Why a job fails. -/
inductive JobError
  /-- The catalog of a path cannot be used. -/
  | catalog (path : String) (cause : CatalogError)
  /-- No printer has the name. -/
  | printer (selector : String)
  /-- The settings of a path cannot be used. -/
  | settings (path : String) (cause : SettingsError)
  /-- A pair given on the command line is none. -/
  | badPair (pair : String)
  /-- The view options of a path cannot be used. -/
  | options (path : String)
  /-- A file cannot be read. -/
  | unreadable (path : String)
  /-- A directory cannot be made. -/
  | noDirectory (path : String)
  /-- The plates cannot be packed. -/
  | archive (cause : ArchiveError)
  /-- A file cannot be written. -/
  | unwritable (path : String)
  deriving DecidableEq

namespace JobError

/-- Wording of an error. -/
def message : JobError → String
  | catalog path _ => "Failed to load printer catalog " ++ path
  | printer selector => "Unknown printer '" ++ selector ++ "'"
  | settings path _ => "Failed to load settings " ++ path
  | badPair pair => "Invalid --set value '" ++ pair ++ "'"
  | options path => "Invalid view options in " ++ path
  | unreadable path => "Failed to read " ++ path
  | noDirectory path => "Failed to create " ++ path
  | archive _ => "Failed to build plate archive"
  | unwritable path => "Failed to write " ++ path

end JobError

/-- One step of a plan. -/
inductive Action
  /-- Make a directory and those above it. -/
  | makeDirectory (path : String)
  /-- Write a file. -/
  | write (path : String) (content : List UInt8)
  /-- Print a text. -/
  | print (text : String)
  /-- Give up. -/
  | fail (error : JobError)
  deriving DecidableEq

namespace PrinterCatalog

/-- The catalog of a path, the built-in one without a path. -/
def load (look : String → FileEntry) : Option String → Except JobError PrinterCatalog
  | none => .ok builtin
  | some path =>
      match (look path).text? with
      | none => .error (.catalog path .unreadable)
      | some text =>
          match parse text with
          | .ok catalog => .ok catalog
          | .error cause => .error (.catalog path cause)

/-- A text with blanks in front up to a width. -/
def padLeft (width : Nat) (text : String) : String :=
  String.ofList (List.replicate (width - text.length) ' ') ++ text

/-- A text with blanks behind up to a width. -/
def padRight (width : Nat) (text : String) : String :=
  text ++ String.ofList (List.replicate (width - text.length) ' ')

/-- The line of a printer in the list of a catalog. -/
def line (index : Nat) (profile : PrinterProfile) : String :=
  padLeft 3 (toString index) ++ "  " ++ padRight 12 profile.model ++ " " ++
    Double.plain profile.buildVolume.width ++ " x " ++ Double.plain profile.buildVolume.depth ++
    " mm  " ++ toString profile.excludedAreas.length ++ " excluded area(s)\n"

/-- The list of the printers of a catalog. -/
def listing (catalog : PrinterCatalog) : String :=
  String.join (catalog.profiles.zipIdx.map fun (profile, index) => line index profile)

end PrinterCatalog

namespace GenerateRequest

/-- The chosen printer. -/
def profile (request : GenerateRequest) (look : String → FileEntry) :
    Except JobError PrinterProfile := do
  let catalog ← PrinterCatalog.load look request.catalog
  match catalog.select request.printer with
  | .ok index => .ok (catalog.getOrUnknown index)
  | .error _ => .error (.printer request.printer)

/-- Path of the settings file that counts: the one that is given, else the user's if it is
there. -/
def settingsPath? (request : GenerateRequest) (look : String → FileEntry)
    (userSettings : Option String) : Option String :=
  request.settings <|> userSettings.filter fun path => (look path).isPresent

/-- The settings of the settings file that counts. -/
def fileLayer (request : GenerateRequest) (look : String → FileEntry)
    (userSettings : Option String) : Except JobError (List RawSettings) :=
  match request.settingsPath? look userSettings with
  | none => .ok []
  | some path =>
      match RawSettings.load look path with
      | .ok raw => .ok [raw]
      | .error cause => .error (.settings path cause)

/-- The settings of the pairs, later ones above earlier ones. -/
def overrideLayer (request : GenerateRequest) : Except JobError RawSettings :=
  request.overrides.foldlM
    (fun raw pair =>
      match RawSettings.setPair raw pair with
      | .ok raw => .ok raw
      | .error _ => .error (.badPair pair))
    {}

/-- The tower of the run. -/
def tower (request : GenerateRequest) (look : String → FileEntry)
    (userSettings : Option String) : Except JobError Tower := do
  let profile ← request.profile look
  let layers ← request.fileLayer look userSettings
  let overrides ← request.overrideLayer
  return { settings := profile.layeredSettings (layers ++ [overrides]), profile }

/-- Path of a file in the directory of the run. -/
def pathOf (request : GenerateRequest) (name : String) : String :=
  Path.join request.directory name

/-- Write the plates, each into a file of its own or all into one archive. -/
def plateActions (request : GenerateRequest) (writer : ArchiveWriter) (tower : Tower) :
    List Action :=
  let model := tower.profile.model
  let entries := Plate.entries model tower.plates
  if request.zip then
    match writer.pack entries with
    | .ok content => [.write (request.pathOf (FileName.archive model)) content]
    | .error cause => [.fail (.archive cause)]
  else entries.map fun entry => .write (request.pathOf entry.name) entry.bytes

/-- Write a preview of each plate, under the name of the plate with another extension. -/
def previewActions (request : GenerateRequest) (tower : Tower) : List Action :=
  let plates := tower.plates
  let options := ViewOptions.ofSettings tower.settings
  plates.map fun plate =>
    let path := request.pathOf (FileName.plate tower.profile.model plate.index plates.length)
    .write (Path.withExtension path "svg") (Utf8.encode (render options plate.program))

/-- The plan of a run. -/
def plan (request : GenerateRequest) (writer : ArchiveWriter) (look : String → FileEntry)
    (userSettings : Option String) : Except JobError (List Action) := do
  let tower ← request.tower look userSettings
  let previews := if request.preview then request.previewActions tower else []
  return .makeDirectory request.directory :: (request.plateActions writer tower ++ previews)

end GenerateRequest

namespace PreviewRequest

/-- The text of a file. -/
def readText (look : String → FileEntry) (path : String) : Except JobError String :=
  match (look path).text? with
  | some text => .ok text
  | none => .error (.unreadable path)

/-- The view options of the request. -/
def viewOptions (request : PreviewRequest) (look : String → FileEntry) :
    Except JobError ViewOptions :=
  match request.options with
  | none => .ok {}
  | some path => do
      let text ← readText look path
      match (JsonDocument.parse? text).bind ViewOptions.ofDocument? with
      | some options => .ok options
      | none => .error (.options path)

/-- The plan of a preview. -/
def plan (request : PreviewRequest) (look : String → FileEntry) :
    Except JobError (List Action) := do
  let program ← readText look request.input
  let options ← request.viewOptions look
  let drawing := render options program
  match request.output with
  | some path => return [.write path (Utf8.encode drawing)]
  | none => return [.print (drawing ++ "\n")]

end PreviewRequest

namespace Job

/-- Paths that a job may read. -/
def inputs (userSettings : Option String) : Job → List String
  | printers catalog => catalog.toList
  | generate request =>
      request.catalog.toList ++ request.settings.toList ++ userSettings.toList
  | preview request => request.input :: request.options.toList

/-- The plan of a job that packs with a library, where `look` says what paths lead to. -/
def plan (writer : ArchiveWriter) (look : String → FileEntry) (userSettings : Option String) :
    Job → Except JobError (List Action)
  | printers path => do
      let catalog ← PrinterCatalog.load look path
      return [.print catalog.listing]
  | generate request => request.plan writer look userSettings
  | preview request => request.plan look

end Job

end FlowCalibration
