import FlowCalibration.Proofs.Settings.Layers

/-!
# Entries that do not count

An entry of raw settings is idle when no setting has its key, or when a number is wanted under its
key and its value is none.  Resolving never sees such an entry: it neither hides a value under
another key of its setting nor counts as given where another setting depends on it.  So raw
settings can be stripped of their idle entries.
-/

namespace FlowCalibration

theorem findSome?_congr {α β : Type} {keys : List α} {read other : α → Option β}
    (same : ∀ key ∈ keys, read key = other key) : keys.findSome? read = keys.findSome? other := by
  induction keys with
  | nil => rfl
  | cons key keys induction =>
      obtain ⟨first, rest⟩ := List.forall_mem_cons.mp same
      rw [List.findSome?_cons, List.findSome?_cons, first, induction rest]

/-! ## Values that are no number -/

/-- Values that no finite number can be read from. -/
inductive Json.IsUnreadable : Json → Prop
  | null : IsUnreadable .null
  | boolean (value : Bool) : IsUnreadable (.boolean value)
  | array (elements : List Json) : IsUnreadable (.array elements)
  | object (members : List (String × Json)) : IsUnreadable (.object members)
  /-- A number whose double is not finite. -/
  | number {value : JsonNumber} : value.toFloat.isFinite = false → IsUnreadable (.number value)
  /-- A text without a number in front, or with one whose double is not finite. -/
  | text {value : String} : readLenient? value.toList = none → IsUnreadable (.text value)

theorem Json.isUnreadable_iff {value : Json} : value.IsUnreadable ↔ value.readNumber? = none := by
  constructor
  · rintro (_ | _ | _ | _ | infinite | unread)
    · rfl
    · rfl
    · rfl
    · rfl
    · exact if_neg (by simp [infinite])
    · exact unread
  · intro unread
    cases value with
    | null => exact .null
    | boolean value => exact .boolean value
    | array elements => exact .array elements
    | object members => exact .object members
    | number value => exact .number (by simpa [readNumber?] using unread)
    | text value => exact .text unread

instance (value : Json) : Decidable value.IsUnreadable :=
  decidable_of_iff _ Json.isUnreadable_iff.symm

/-! ## Entries -/

namespace Setting

/-- Whether a setting is a number or a count, and never a name. -/
def IsNumeric (setting : Setting) : Prop :=
  setting ∉ [direction, sweepMode]

instance : DecidablePred IsNumeric :=
  fun setting => inferInstanceAs (Decidable (setting ∉ _))

theorem eq_of_mem_keys {setting other : Setting} {key : String} (member : key ∈ setting.keys)
    (other_member : key ∈ other.keys) : setting = other := by
  have disjoint : ∀ setting ∈ all, ∀ other ∈ all, ∀ key ∈ setting.keys, key ∈ other.keys →
      setting = other := by
    decide +kernel
  exact disjoint setting (mem_all setting) other (mem_all other) key member other_member

end Setting

namespace RawSettings

/-- Entries that resolving does not see. -/
inductive Idle (key : String) (value : Json) : Prop
  /-- The key belongs to no setting. -/
  | unknown : (∀ setting : Setting, key ∉ setting.keys) → Idle key value
  /-- No number can be read under a key of a number. -/
  | unreadable {setting : Setting} : setting.IsNumeric → key ∈ setting.keys →
      value.IsUnreadable → Idle key value

theorem idle_iff {key : String} {value : Json} :
    Idle key value ↔ (∀ setting ∈ Setting.all, key ∉ setting.keys) ∨
      ∃ setting ∈ Setting.all, setting.IsNumeric ∧ key ∈ setting.keys ∧ value.IsUnreadable := by
  constructor
  · rintro (unknown | ⟨numeric, member, unreadable⟩)
    · exact .inl fun setting _ => unknown setting
    · exact .inr ⟨_, Setting.mem_all _, numeric, member, unreadable⟩
  · rintro (unknown | ⟨setting, _, numeric, member, unreadable⟩)
    · exact .unknown fun setting => unknown setting (Setting.mem_all setting)
    · exact .unreadable numeric member unreadable

instance (key : String) (value : Json) : Decidable (Idle key value) :=
  decidable_of_iff _ idle_iff.symm

/-- The raw settings without their idle entries. -/
def active (raw : RawSettings) : RawSettings where
  entries := raw.entries.filter fun (key, value) => ¬ Idle key value
  ascending := raw.ascending.filter _

theorem get?_active (raw : RawSettings) (key : String) :
    raw.active.get? key = (raw.get? key).filter fun value => ¬ Idle key value :=
  KeyTable.find?_filter raw.ascending (fun key value => ¬ Idle key value) key

theorem get?_active_eq_some_iff {raw : RawSettings} {key : String} {value : Json} :
    raw.active.get? key = some value ↔ raw.get? key = some value ∧ ¬ Idle key value := by
  rw [get?_active, Option.filter_eq_some_iff, decide_eq_true_iff]

/-! ## What is read -/

/-- The number under a key of a setting is never that of an idle entry. -/
theorem numberAt?_active (raw : RawSettings) {setting : Setting} {key : String}
    (member : key ∈ setting.keys) : raw.active.numberAt? key = raw.numberAt? key := by
  rw [numberAt?, numberAt?, get?_active]
  cases raw.get? key with
  | none => rfl
  | some value =>
      by_cases idle : Idle key value
      · rw [Option.filter_some_neg (by simpa using idle)]
        cases idle with
        | unknown unknown => exact absurd member (unknown setting)
        | unreadable _ _ unreadable => exact (Json.isUnreadable_iff.mp unreadable).symm
      · rw [Option.filter_some_pos (by simpa using idle)]

theorem number?_active (raw : RawSettings) (setting : Setting) :
    raw.active.number? setting = raw.number? setting :=
  findSome?_congr fun _ member => raw.numberAt?_active member

theorem text?_active (raw : RawSettings) {setting : Setting} (named : ¬ setting.IsNumeric) :
    raw.active.text? setting = raw.text? setting := by
  have held (key : String) (member : key ∈ setting.keys) : raw.active.get? key = raw.get? key := by
    ext value
    rw [get?_active_eq_some_iff, and_iff_left_iff_imp]
    rintro - (unknown | ⟨numeric, other_member, _⟩)
    · exact unknown setting member
    · exact named (Setting.eq_of_mem_keys member other_member ▸ numeric)
  rw [text?, text?, findSome?_congr fun key member => congrArg (Option.bind · Json.toText?)
    (held key member)]

/-- The settings depend on the numbers that are read, and on the two names. -/
theorem resolve_congr {left right : RawSettings}
    (numbers : ∀ setting : Setting, left.number? setting = right.number? setting)
    (names : ∀ setting : Setting, ¬ setting.IsNumeric →
      left.text? setting = right.text? setting) : left.resolve = right.resolve := by
  have direction_eq : left.direction = right.direction := by
    rw [direction, direction, numbers, names .direction (by decide)]
  have mode_eq : left.sweepMode? = right.sweepMode? := by
    rw [sweepMode?, sweepMode?, names .sweepMode (by decide)]
  have offset_eq : left.flowOffset = right.flowOffset := by
    funext startFlow flowSteps
    rw [flowOffset, flowOffset, numbers, numbers]
  simp only [resolve, numberOr, countOr, numbers, offset_eq, direction_eq, mode_eq]

/-- Stripping raw settings of their idle entries, and of no others, keeps all settings that they
stand for. -/
theorem resolve_active (raw : RawSettings) :
    (∀ key value, raw.active.get? key = some value ↔
      raw.get? key = some value ∧ ¬ Idle key value) ∧
    raw.active.resolve = raw.resolve :=
  ⟨fun _ _ => get?_active_eq_some_iff,
    resolve_congr raw.number?_active fun _ named => raw.text?_active named⟩

end RawSettings

end FlowCalibration
