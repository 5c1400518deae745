import FlowCalibration.Proofs.Data.Results
import FlowCalibration.Proofs.Files.Workspace
import FlowCalibration.Proofs.Json.RoundTrip
import FlowCalibration.Proofs.Settings.Members
import FlowCalibration.Proofs.Text.Utf8
import FlowCalibration.Proofs.Toml.RoundTrip

/-!
# Loading undoes saving

A resolved record that is saved to a file is loaded from it again, in both formats and by both
readers.  In JSON this rests on the digits of its numbers: the reader of numbers rounds twice, so
not all digits that are written for a double are read as the double.
-/

namespace FlowCalibration

theorem map_filterMap_sublist {α β γ : Type} {f : α → Option β} {key : β → γ} {own : α → γ}
    (same : ∀ item result, f item = some result → key result = own item) (items : List α) :
    ((items.filterMap f).map key).Sublist (items.map own) := by
  induction items with
  | nil => exact .slnil
  | cons item items induction =>
      rw [List.filterMap_cons, List.map_cons]
      cases result : f item with
      | none => exact induction.cons _
      | some value =>
          rw [List.map_cons, same item value result]
          exact induction.cons_cons _

/-- The doubles of a value. -/
def SettingValue.floats : SettingValue → List Float
  | number value => [value]
  | optional value => value.toList
  | _ => []

/-- The doubles of a record. -/
def Settings.floats (settings : Settings) : List Float :=
  settings.values.flatMap fun (_, value) => value.floats

/-- The record that is read strictly from a text. -/
def SettingsFormat.readStrict? (format : SettingsFormat) (text : String) : Option Settings :=
  match format with
  | json => (JsonDocument.parse? text).bind Settings.ofDocument?
  | toml => (Toml.parse? text).bind fun value => Settings.ofDocument? (.ofJson value)

namespace SettingValue

theorem toJsonWithin?_toJson (value : SettingValue) (depth : Nat) :
    JsonDocument.toJsonWithin? depth (.ofJson value.toJson) = some value.toJson := by
  have leaf (given : Float) :
      JsonDocument.toJsonWithin? depth (.ofJson (.ofFloat given)) = some (.ofFloat given) := by
    rw [Json.ofFloat]
    split <;> cases depth <;> rfl
  cases value with
  | number given => exact leaf given
  | optional given =>
      cases given with
      | none => cases depth <;> rfl
      | some given => exact leaf given
  | count given => cases depth <;> rfl
  | direction given => cases depth <;> rfl
  | mode given => cases given <;> cases depth <;> rfl

theorem numbers_ofFloat {value : Float} {number : JsonNumber}
    (member : number ∈ (Json.ofFloat value).numbers) : number = .real value := by
  rw [Json.ofFloat] at member
  split at member
  · exact List.mem_singleton.mp member
  · contradiction

theorem readsBack_of_mem_numbers {value : SettingValue} (inRange : value.InRange)
    (digits : ∀ given ∈ value.floats, (JsonNumber.real given).ReadsBack) {number : JsonNumber}
    (member : number ∈ value.toJson.numbers) : number.ReadsBack := by
  cases value with
  | number given =>
      rw [numbers_ofFloat member]
      exact digits given List.mem_cons_self
  | optional given =>
      cases given with
      | none => contradiction
      | some given =>
          rw [numbers_ofFloat member]
          exact digits given List.mem_cons_self
  | count given =>
      rw [List.mem_singleton.mp member]
      exact JsonNumber.readsBack_count (Nat.le_trans inRange (by decide))
  | direction given => contradiction
  | mode given => cases given <;> contradiction

end SettingValue

namespace Settings

variable {settings : Settings}

theorem mem_values (settings : Settings) (setting : Setting) :
    (setting, setting.value settings) ∈ settings.values :=
  List.mem_map.mpr ⟨setting, Setting.mem_all setting, rfl⟩

theorem mem_floats (setting : Setting) {value : Float}
    (member : value ∈ (setting.value settings).floats) : value ∈ settings.floats :=
  List.mem_flatMap.mpr ⟨_, settings.mem_values setting, member⟩

theorem lists_toJson (settings : Settings) :
    settings.Lists (settings.values.map fun (setting, value) => (setting.name, value.toJson)) where
  nodup := by
    rw [values, List.map_map, List.map_map]
    exact Setting.nodup_names
  sound pair member := by
    rw [values, List.map_map] at member
    obtain ⟨setting, _, rfl⟩ := List.mem_map.mp member
    exact ⟨setting, rfl⟩
  complete setting _ := List.mem_map.mpr ⟨_, settings.mem_values setting, rfl⟩

/-- Members in the order of a table give the same record. -/
theorem Lists.ofList {members : List (String × Json)} (lists : settings.Lists members) :
    settings.Lists (KeyTable.ofList members) :=
  lists.perm (KeyTable.ofList_perm lists.nodup)

theorem parse?_toIndentedText (settled : settings.IsSettled)
    (digits : ∀ value ∈ settings.floats, (JsonNumber.real value).ReadsBack) :
    JsonDocument.parse? settings.toJson.toIndentedText = some (.ofJson settings.toJson) := by
  apply JsonDocument.parse?_toIndentedText
  intro number member
  obtain ⟨pair, listed, member⟩ := Json.mem_numbersOfMembers.mp member
  obtain ⟨setting, rfl⟩ := settings.lists_toJson.sound pair listed
  exact SettingValue.readsBack_of_mem_numbers (settled.inRange setting)
    (fun given inside => digits given (mem_floats setting inside)) member

end Settings

/-! ## TOML -/

namespace SettingValue

/-- The text of a value in TOML, unless it is left out. -/
def tomlText? : SettingValue → Option String
  | number value => some (Double.inToml value)
  | optional value => value.map Double.inToml
  | count value => some (toString value)
  | direction value => some (tomlText value.name)
  | mode value => value.map fun mode => tomlText mode.name

theorem toToml_eq {value : SettingValue} (inRange : value.InRange) :
    value.toToml = .ok value.tomlText? := by
  cases value with
  | count given => exact if_pos (Nat.lt_of_le_of_lt inRange (by decide))
  | _ => rfl

theorem isGiven_eq_isSome (value : SettingValue) : value.isGiven = value.tomlText?.isSome := by
  cases value with
  | optional given => cases given <;> rfl
  | mode given => cases given <;> rfl
  | _ => rfl

theorem isVerbatim_direction (direction : Direction) :
    ∀ c ∈ direction.name.toList, Toml.isVerbatim c = true :=
  List.all_eq_true.mp (by cases direction <;> rfl)

theorem isVerbatim_mode (mode : SweepMode) :
    ∀ c ∈ mode.name.toList, Toml.isVerbatim c = true :=
  List.all_eq_true.mp (by cases mode <;> rfl)

theorem readsAs_tomlText? {value : SettingValue} (inRange : value.InRange) {text : String}
    (written : value.tomlText? = some text) : Toml.ReadsAs text value.toJson := by
  cases value with
  | number given =>
      obtain rfl := Option.some.inj written
      exact Toml.readsAs_inToml inRange
  | optional given =>
      obtain ⟨given, rfl, rfl⟩ := Option.map_eq_some_iff.mp written
      exact Toml.readsAs_inToml (inRange given rfl)
  | count given =>
      obtain rfl := Option.some.inj written
      exact Toml.readsAs_toString (Nat.lt_of_le_of_lt inRange (by decide))
  | direction given =>
      obtain rfl := Option.some.inj written
      exact Toml.readsAs_quoted (isVerbatim_direction given)
  | mode given =>
      obtain ⟨given, rfl, rfl⟩ := Option.map_eq_some_iff.mp written
      exact Toml.readsAs_quoted (isVerbatim_mode given)

/-- The line of a setting in TOML, unless it is left out. -/
def line? (setting : Setting) (value : SettingValue) : Option Toml.PairLine :=
  value.tomlText?.map fun text => ⟨setting.name, text, value.toJson⟩

end SettingValue

namespace Setting

theorem name_ne_nil (setting : Setting) : setting.name.toList ≠ [] := by
  cases setting <;> decide

theorem isBare_name (setting : Setting) : ∀ c ∈ setting.name.toList, Toml.isBare c = true :=
  List.all_eq_true.mp (by cases setting <;> rfl)

end Setting

namespace Settings

variable {settings : Settings}

/-- The lines of the TOML document. -/
def pairLines (settings : Settings) : List Toml.PairLine :=
  settings.values.filterMap fun (setting, value) => value.line? setting

theorem mem_pairLines {line : Toml.PairLine} :
    line ∈ settings.pairLines ↔
      ∃ setting : Setting, (setting.value settings).line? setting = some line := by
  rw [pairLines, List.mem_filterMap]
  constructor
  · rintro ⟨pair, listed, line_eq⟩
    obtain ⟨setting, _, rfl⟩ := List.mem_map.mp listed
    exact ⟨setting, line_eq⟩
  · rintro ⟨setting, line_eq⟩
    exact ⟨_, settings.mem_values setting, line_eq⟩

theorem tomlLines_eq (settled : settings.IsSettled) :
    settings.tomlLines = .ok (settings.pairLines.map Toml.PairLine.written) := by
  have written : (settings.values.mapM fun (setting, value) => do
        return (← value.toToml).map fun text => setting.name ++ " = " ++ text ++ "\n") =
      Except.ok (settings.values.map fun (setting, value) =>
        (value.line? setting).map Toml.PairLine.written) := by
    apply mapM_eq_ok
    intro pair listed
    obtain ⟨setting, _, rfl⟩ := List.mem_map.mp listed
    simp only [SettingValue.toToml_eq (settled.inRange setting), SettingValue.line?]
    cases (setting.value settings).tomlText? <;> rfl
  rw [tomlLines, written, pairLines, List.map_filterMap]
  exact congrArg Except.ok List.filterMap_map

theorem nodup_pairLines (settings : Settings) :
    (settings.pairLines.map Toml.PairLine.key).Nodup := by
  have names : (settings.pairLines.map Toml.PairLine.key).Sublist
      (settings.values.map fun (setting, _) => setting.name) := by
    apply map_filterMap_sublist
    rintro ⟨setting, value⟩ line line_eq
    obtain ⟨text, _, rfl⟩ := Option.map_eq_some_iff.mp line_eq
    rfl
  refine names.nodup ?_
  rw [values, List.map_map]
  exact Setting.nodup_names

theorem isSound_of_mem_pairLines (settled : settings.IsSettled) {line : Toml.PairLine}
    (member : line ∈ settings.pairLines) : line.IsSound := by
  obtain ⟨setting, line_eq⟩ := mem_pairLines.mp member
  obtain ⟨text, written, rfl⟩ := Option.map_eq_some_iff.mp line_eq
  exact ⟨setting.name_ne_nil, setting.isBare_name,
    SettingValue.readsAs_tomlText? (settled.inRange setting) written⟩

theorem lists_pairLines (settings : Settings) :
    settings.Lists (settings.pairLines.map fun line => (line.key, line.value)) where
  nodup := by
    rw [List.map_map]
    exact settings.nodup_pairLines
  sound pair member := by
    obtain ⟨line, inside, rfl⟩ := List.mem_map.mp member
    obtain ⟨setting, line_eq⟩ := mem_pairLines.mp inside
    obtain ⟨text, written, rfl⟩ := Option.map_eq_some_iff.mp line_eq
    exact ⟨setting, rfl⟩
  complete setting given := by
    rw [SettingValue.isGiven_eq_isSome] at given
    obtain ⟨text, written⟩ := Option.isSome_iff_exists.mp given
    refine List.mem_map.mpr ⟨⟨setting.name, text, _⟩, mem_pairLines.mpr ⟨setting, ?_⟩, rfl⟩
    rw [SettingValue.line?, written]
    rfl

end Settings

/-! ## Files -/

/-- Settings that are saved are written as a text to the path, in its format. -/
theorem Settings.exists_of_save {settings : Settings} {workspace saved : Workspace} {path : String}
    (saves : settings.save workspace path = .ok saved) :
    ∃ format text, ∃ opened : Workspace, SettingsFormat.ofPath path = .ok format ∧
      settings.write format = .ok text ∧
      opened.write? path (Utf8.encode text) = some saved := by
  obtain ⟨format, format_eq, saves⟩ := exists_of_bind_eq_ok saves
  obtain ⟨text, written, saves⟩ := exists_of_bind_eq_ok saves
  split at saves
  next => contradiction
  next opened _ =>
    split at saves
    next => contradiction
    next stored =>
      obtain rfl := Except.ok.inj saves
      exact ⟨format, text, opened, format_eq, written, stored⟩

namespace SettingsFormat

variable {settings : Settings}

/-- A settled record is read back from the text that is written for it, loosely and strictly. -/
theorem read_write {format : SettingsFormat} (settled : settings.IsSettled)
    (digits : format = .json → ∀ value ∈ settings.floats, (JsonNumber.real value).ReadsBack)
    {text : String} (written : settings.write format = .ok text) :
    (format.read text).map RawSettings.resolve = .ok settings ∧
      format.readStrict? text = some settings := by
  cases format with
  | json =>
      obtain rfl := Except.ok.inj written
      have lists := settings.lists_toJson
      have parsed := Settings.parse?_toIndentedText settled (digits rfl)
      have leaves (pair : String × Json) (member : pair ∈ settings.values.map
            fun (setting, value) => (setting.name, value.toJson)) (depth : Nat) :
          JsonDocument.toJsonWithin? depth (.ofJson pair.2) = some pair.2 := by
        obtain ⟨setting, rfl⟩ := lists.sound pair member
        exact SettingValue.toJsonWithin?_toJson _ depth
      constructor
      · have value := JsonDocument.toJson?_object leaves
        have read : Json.parse? settings.toJson.toIndentedText = _ :=
          (congrArg (Option.bind · JsonDocument.toJson?) parsed).trans value
        rw [SettingsFormat.read, read]
        exact congrArg Except.ok (RawSettings.resolve_of_lists settled lists.ofList)
      · rw [readStrict?, parsed]
        exact Settings.ofDocument?_of_lists settled lists
  | toml =>
      have lists := settings.lists_pairLines.ofList
      rw [Settings.write, Settings.tomlLines_eq settled] at written
      obtain rfl := Except.ok.inj written
      have parsed := Toml.parse?_join (fun _ => Settings.isSound_of_mem_pairLines settled)
        settings.nodup_pairLines
      constructor
      · rw [SettingsFormat.read, parsed]
        exact congrArg Except.ok (RawSettings.resolve_of_lists settled lists)
      · rw [readStrict?, parsed]
        exact Settings.ofDocument?_of_lists settled lists

end SettingsFormat

namespace RawSettings

theorem isSettled_resolve {raw : RawSettings}
    (finite : ∀ value ∈ raw.resolve.floats, value.isFinite = true) : raw.resolve.IsSettled where
  inRange setting := by
    by_cases offset : setting = .flowOffset
    · subst offset
      exact finite _ (Settings.mem_floats .flowOffset List.mem_cons_self)
    · exact raw.inRange_of_ne_flowOffset offset
  margin := Option.some_ne_none _

/-- Settings that are saved to a file are loaded from it as they were, and its text is a strict
record of them. -/
theorem load_save {raw : RawSettings} {workspace saved : Workspace} {path : String}
    (finite : ∀ value ∈ raw.resolve.floats, value.isFinite = true)
    (digits : SettingsFormat.ofPath path = .ok .json →
      ∀ value ∈ raw.resolve.floats, (JsonNumber.real value).ReadsBack)
    (saves : raw.resolve.save workspace path = .ok saved) :
    Settings.load saved.look path = .ok raw.resolve ∧
      ∃ format text, SettingsFormat.ofPath path = .ok format ∧
        (saved.look path).text? = some text ∧ format.readStrict? text = some raw.resolve := by
  obtain ⟨format, text, opened, format_eq, written, stored⟩ := Settings.exists_of_save saves
  have content : (saved.look path).text? = some text := by
    rw [Workspace.look_write? stored]
    exact Utf8.decode?_encode text
  obtain ⟨loose, strict⟩ := SettingsFormat.read_write (isSettled_resolve finite)
    (fun json => digits (json ▸ format_eq)) written
  refine ⟨?_, format, text, format_eq, content, strict⟩
  rw [Settings.load, RawSettings.load, format_eq]
  simp only [content]
  exact loose

/-- Raw settings with names, numbers as texts, short keys and a last flow. -/
def looseSettings : RawSettings :=
  .ofMembers [("direction", .text " Mirror "), ("sweepMode", .text "matrix"),
    ("travelSpeed", .text "42,5 mm"), ("steps", .ofCount 4), ("endFlow", .ofFloat 20.0)]

theorem load_save_looseSettings :
    ∃ saved, looseSettings.resolve.save (.blank ["home"]) "runs/loose.json" = .ok saved ∧
      Settings.load saved.look "runs/loose.json" = .ok looseSettings.resolve ∧
      ∃ format text, SettingsFormat.ofPath "runs/loose.json" = .ok format ∧
        (saved.look "runs/loose.json").text? = some text ∧
        format.readStrict? text = some looseSettings.resolve := by
  have finite : ∀ value ∈ looseSettings.resolve.floats, value.isFinite = true := by decide +kernel
  have digits : ∀ value ∈ looseSettings.resolve.floats, (JsonNumber.real value).ReadsBack := by
    decide +kernel
  have works : (looseSettings.resolve.save (.blank ["home"]) "runs/loose.json").isOk = true := by
    decide +kernel
  cases saves : looseSettings.resolve.save (.blank ["home"]) "runs/loose.json" with
  | error fault =>
      rw [saves] at works
      exact absurd works Bool.false_ne_true
  | ok saved => exact ⟨saved, rfl, load_save finite (fun _ => digits) saves⟩

end RawSettings

end FlowCalibration
