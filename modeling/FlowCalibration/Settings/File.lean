import FlowCalibration.Files.Workspace
import FlowCalibration.Json.Text
import FlowCalibration.Settings.Resolve
import FlowCalibration.Text.Case
import FlowCalibration.Toml.Document

/-!
# Settings files

Settings are kept in JSON or in TOML; the extension of the file tells which.  A file is read into
raw settings, and a record is written with one line per setting.
-/

namespace FlowCalibration

/-- Formats of settings files. -/
inductive SettingsFormat
  | json
  | toml
  deriving DecidableEq, Repr

namespace SettingsFormat

/-- The format of a path. -/
def ofPath (path : String) : Except SettingsError SettingsFormat :=
  match Path.extension? path with
  | none => .error (.unsupportedFormat "<none>")
  | some extension =>
      if equalIgnoringCase extension "json" then .ok json
      else if equalIgnoringCase extension "toml" then .ok toml
      else .error (.unsupportedFormat extension)

/-- The raw settings of a text. -/
def read (format : SettingsFormat) (text : String) : Except SettingsError RawSettings :=
  match format with
  | json =>
      match Json.parse? text with
      | some value => RawSettings.ofJson value
      | none => .error .json
  | toml =>
      match Toml.parse? text with
      | some value => RawSettings.ofJson value
      | none => .error .toml

end SettingsFormat

namespace SettingValue

/-- The value in JSON; what is left out is `null`. -/
def toJson : SettingValue → Json
  | number value => .ofFloat value
  | optional value => (value.map Json.ofFloat).getD .null
  | count value => .ofCount value
  | direction value => .text value.name
  | mode value => (value.map fun mode => Json.text mode.name).getD .null

/-- A text as TOML writes it; the names of constants need no escapes. -/
def tomlText (text : String) : String :=
  "\"" ++ text ++ "\""

/-- The value in TOML: nothing for what is left out, and no value for counts that are too large. -/
def toToml : SettingValue → Except SettingsError (Option String)
  | number value => .ok (some (Double.inToml value))
  | optional value => .ok (value.map Double.inToml)
  | count value =>
      if value < 0x8000000000000000 then .ok (some (toString value)) else .error .tomlRange
  | direction value => .ok (some (tomlText value.name))
  | mode value => .ok (value.map fun mode => tomlText mode.name)

/-- Whether two values are equal, numbers as numbers: zero has no sign, and what is no number is
equal to nothing. -/
def same : SettingValue → SettingValue → Bool
  | number left, number right => left == right
  | optional (some left), optional (some right) => left == right
  | optional none, optional none => true
  | count left, count right => left == right
  | direction left, direction right => left == right
  | mode left, mode right => left == right
  | _, _ => false

end SettingValue

namespace Settings

/-- Whether two records have equal values. -/
def same (left right : Settings) : Bool :=
  Setting.all.all fun setting => (setting.value left).same (setting.value right)

/-- The record as a JSON object in table order. -/
def toJson (settings : Settings) : Json :=
  .object (settings.values.map fun (setting, value) => (setting.name, value.toJson))

/-- The lines of a TOML document in table order. -/
def tomlLines (settings : Settings) : Except SettingsError (List String) := do
  let lines ← settings.values.mapM fun (setting, value) => do
    return (← value.toToml).map fun text => setting.name ++ " = " ++ text ++ "\n"
  return lines.filterMap id

/-- The text of a settings file. -/
def write (settings : Settings) : SettingsFormat → Except SettingsError String
  | .json => .ok settings.toJson.toIndentedText
  | .toml => settings.tomlLines.map String.join

end Settings

/-- The raw settings of the file of a path. -/
def RawSettings.load (look : String → FileEntry) (path : String) :
    Except SettingsError RawSettings := do
  let format ← SettingsFormat.ofPath path
  match (look path).text? with
  | some text => format.read text
  | none => .error .unreadable

/-- The settings of the file of a path. -/
def Settings.load (look : String → FileEntry) (path : String) : Except SettingsError Settings :=
  (RawSettings.load look path).map RawSettings.resolve

/-- The workspace with settings saved to a path; directories that are missing are made. -/
def Settings.save (settings : Settings) (workspace : Workspace) (path : String) :
    Except SettingsError Workspace := do
  let format ← SettingsFormat.ofPath path
  let text ← settings.write format
  match workspace.makeDirectory? (Path.directory path) with
  | none => .error .noDirectory
  | some workspace =>
      match workspace.write? path (Utf8.encode text) with
      | none => .error .unwritable
      | some workspace => .ok workspace

end FlowCalibration
