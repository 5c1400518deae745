import FlowCalibration.Json.Document
import FlowCalibration.Settings.Basic

/-!
# Raw settings

Settings as they are read from a file, from the command line or from a printer: values of any kind
under keys of any name.
-/

namespace FlowCalibration

/-- What can go wrong with the settings of a run. -/
inductive SettingsError
  /-- A pair `key=value` without a key or without the equality sign. -/
  | invalidPair (pair : String)
  /-- A file name with an extension of no known format. -/
  | unsupportedFormat (extension : String)
  /-- Settings that are not an object but a value of another kind. -/
  | notAnObject (kind : String)
  /-- A file that cannot be read. -/
  | unreadable
  /-- A file that cannot be written. -/
  | unwritable
  /-- A directory that cannot be made. -/
  | noDirectory
  /-- A text that is no JSON of the expected shape. -/
  | json
  /-- A text that is no TOML of the expected shape. -/
  | toml
  /-- A value that TOML cannot hold. -/
  | tomlRange
  deriving DecidableEq, Repr

namespace SettingsError

/-- Wording of the errors that this library words itself. -/
def message? : SettingsError → Option String
  | invalidPair pair => some ("Invalid override '" ++ pair ++ "': expected key=value")
  | unsupportedFormat extension =>
      some ("Config error: Unsupported settings format: " ++ extension)
  | notAnObject kind =>
      some ("Config error: Settings must be a key/value object, found " ++ kind)
  | _ => none

end SettingsError

/-- Values under keys. -/
structure RawSettings where
  /-- Keys and values. -/
  entries : KeyTable Json
  /-- The order of the keys. -/
  ascending : entries.Ascending

namespace RawSettings

instance : EmptyCollection RawSettings where
  emptyCollection := ⟨[], .nil⟩

/-- The settings of a list of members; of two members with one key the later one stays. -/
def ofMembers (members : List (String × Json)) : RawSettings :=
  ⟨KeyTable.ofList members, KeyTable.ascending_ofList members⟩

/-- The settings of an object. -/
def ofJson : Json → Except SettingsError RawSettings
  | .object members => .ok (ofMembers members)
  | value => .error (.notAnObject value.kind)

/-- Write the value of a key. -/
def insert (raw : RawSettings) (key : String) (value : Json) : RawSettings :=
  ⟨KeyTable.insert raw.entries key value, raw.ascending.insert key value⟩

/-- The value of a key. -/
def get? (raw : RawSettings) (key : String) : Option Json :=
  KeyTable.find? raw.entries key

/-- The settings without a key. -/
def erase (raw : RawSettings) (key : String) : RawSettings :=
  ⟨KeyTable.erase raw.entries key, raw.ascending.erase key⟩

/-- Whether a key has a value. -/
def contains (raw : RawSettings) (key : String) : Bool :=
  KeyTable.contains raw.entries key

/-- Number of keys. -/
def size (raw : RawSettings) : Nat :=
  raw.entries.length

/-- Whether there is no key. -/
def isEmpty (raw : RawSettings) : Bool :=
  raw.entries.isEmpty

/-- The settings with those of another layer written over them. -/
def merge (raw layer : RawSettings) : RawSettings :=
  ⟨KeyTable.insertAll raw.entries layer.entries, raw.ascending.insertAll layer.entries⟩

/-- Key and value of a pair `key=value`, cut at the first equality sign.  The value is a JSON value
where it reads as one, else a text. -/
def splitPair? (pair : String) : Option (String × Json) :=
  match pair.toList.dropWhile (· != '=') with
  | [] => none
  | _ :: valueText =>
      match trim (pair.toList.takeWhile (· != '=')) with
      | [] => none
      | key =>
          let value := String.ofList (trim valueText)
          some (String.ofList key, (Json.parse? value).getD (.text value))

/-- Write the value of a pair `key=value`. -/
def setPair (raw : RawSettings) (pair : String) : Except SettingsError RawSettings :=
  match splitPair? pair with
  | none => .error (.invalidPair pair)
  | some (key, value) => .ok (raw.insert key value)

end RawSettings

end FlowCalibration
