import FlowCalibration.Proofs.Decimal.Order
import FlowCalibration.Proofs.Json.Record
import FlowCalibration.Proofs.Settings.Finite
import FlowCalibration.Settings.File

/-!
# Members that give a record

A file lists the settings of a record under their names.  Whatever their order, and whether what is
not given is null or left out, both readers get the record back: the strict one, which stores member
by member, and the loose one, which looks every setting up under all of its keys.  The names of the
settings are keys of no other setting, so nothing but the own member of a setting is found for it.
-/

namespace FlowCalibration

/-! ## Members -/

/-- Whether a value is given at all. -/
def SettingValue.isGiven : SettingValue → Bool
  | optional none => false
  | mode none => false
  | _ => true

theorem SettingValue.toJson_of_not_isGiven {value : SettingValue} (absent : value.isGiven = false) :
    value.toJson = .null := by
  cases value with
  | optional given => cases given <;> first | rfl | contradiction
  | mode given => cases given <;> first | rfl | contradiction
  | _ => contradiction

theorem SettingValue.eq_none_of_not_isGiven {value : Option Float}
    (absent : (optional value).isGiven = false) : value = none := by
  cases value with
  | none => rfl
  | some value => contradiction

/-- Members that hold the settings of a record under their names, in any order.  What is not given
is null or left out. -/
structure Settings.Lists (settings : Settings) (members : List (String × Json)) : Prop where
  nodup : (members.map Prod.fst).Nodup
  sound : ∀ pair ∈ members, ∃ setting : Setting,
    pair = (setting.name, (setting.value settings).toJson)
  complete : ∀ setting : Setting, (setting.value settings).isGiven = true →
    (setting.name, (setting.value settings).toJson) ∈ members

/-- A record whose numbers are finite, whose counts are bounded, and which has a margin. -/
structure Settings.IsSettled (settings : Settings) : Prop where
  inRange : ∀ setting : Setting, (setting.value settings).InRange
  margin : settings.bedMargin ≠ none

namespace Setting

theorem nodup_names : (all.map name).Nodup := by
  decide +kernel

theorem name_injective {setting other : Setting} (same : setting.name = other.name) :
    setting = other :=
  List.inj_on_of_nodup_map nodup_names (mem_all setting) (mem_all other) same

theorem name_mem_keys (setting : Setting) : setting.name ∈ setting.keys := by
  cases setting <;> decide

theorem eq_name_of_mem_keys {setting other : Setting} (member : other.name ∈ setting.keys) :
    other = setting := by
  have names : ∀ setting ∈ all, ∀ other ∈ all, other.name ∈ setting.keys → other = setting := by
    decide +kernel
  exact names setting (mem_all setting) other (mem_all other) member

end Setting

namespace Settings

variable {settings : Settings} {members : List (String × Json)}

theorem Lists.perm (lists : settings.Lists members) {others : List (String × Json)}
    (perm : others.Perm members) : settings.Lists others where
  nodup := (perm.map Prod.fst).nodup_iff.mpr lists.nodup
  sound pair member := lists.sound pair (perm.mem_iff.mp member)
  complete setting given := perm.mem_iff.mpr (lists.complete setting given)

/-- Records with equal values are equal. -/
theorem ext_value {left right : Settings}
    (same : ∀ setting : Setting, setting.value left = setting.value right) : left = right := by
  cases left
  cases right
  rw [mk.injEq]
  open SettingValue in
  exact ⟨
    number.inj (same .bedWidth), number.inj (same .bedLength), optional.inj (same .bedMargin),
    optional.inj (same .bedMarginX), optional.inj (same .bedMarginY),
    number.inj (same .filamentDiameter), number.inj (same .movementSpeed),
    number.inj (same .stabilizationTime), number.inj (same .bedTemp), number.inj (same .startTemp),
    number.inj (same .tempOffset), count.inj (same .tempSteps), number.inj (same .fanSpeed),
    number.inj (same .primeLength), number.inj (same .primeAmount), number.inj (same .primeSpeed),
    number.inj (same .wipeLength), number.inj (same .retractionDistance),
    number.inj (same .retractionSpeed), number.inj (same .blobHeight),
    number.inj (same .extrusionAmount), number.inj (same .xSpacing), number.inj (same .ySpacing),
    direction.inj (same .direction), number.inj (same .startFlow), number.inj (same .flowOffset),
    count.inj (same .flowSteps), optional.inj (same .endFlow), mode.inj (same .sweepMode)⟩

end Settings

/-! ## Strict records -/

namespace JsonDocument

theorem toOptional?_optional {value : Option Float}
    (inRange : (SettingValue.optional value).InRange) :
    (ofJson (SettingValue.optional value).toJson).toOptional? toFloat? = some value := by
  cases value with
  | none => rfl
  | some value =>
      have finite : value.isFinite = true := inRange value rfl
      have given : (SettingValue.optional (some value)).toJson = .number (.real value) :=
        if_pos finite
      rw [given]
      rfl

theorem toConstant?_direction (direction : Direction) :
    (ofJson (SettingValue.direction direction).toJson).toConstant? Setting.directionNames =
      some direction := by
  cases direction <;> rfl

theorem toOptional?_mode (mode : Option SweepMode) :
    (ofJson (SettingValue.mode mode).toJson).toOptional? (toConstant? Setting.modeNames) =
      some mode := by
  rcases mode with _ | mode
  · rfl
  · cases mode <;> rfl

end JsonDocument

namespace Setting

/-- Storing one setting leaves the others as they are. -/
theorem value_of_store? {setting other : Setting} {document : JsonDocument}
    {record stored : Settings} (stores : setting.store? document record = some stored)
    (different : other ≠ setting) : other.value stored = other.value record := by
  cases setting
  all_goals
    obtain ⟨_, _, rfl⟩ := Option.map_eq_some_iff.mp stores
    cases other <;> first | rfl | exact absurd rfl different

theorem store?_value (setting : Setting) {settings : Settings} (record : Settings)
    (inRange : (setting.value settings).InRange) :
    ∃ stored, setting.store? (JsonDocument.ofJson (setting.value settings).toJson) record =
        some stored ∧ setting.value stored = setting.value settings := by
  cases setting
  case bedMargin | bedMarginX | bedMarginY | endFlow =>
    exact ⟨_, congrArg (Option.map _) (JsonDocument.toOptional?_optional inRange), rfl⟩
  case tempSteps | flowSteps => exact ⟨_, rfl, rfl⟩
  case direction => exact ⟨_, congrArg (Option.map _) (JsonDocument.toConstant?_direction _), rfl⟩
  case sweepMode => exact ⟨_, congrArg (Option.map _) (JsonDocument.toOptional?_mode _), rfl⟩
  all_goals exact ⟨_, congrArg (Option.map _) (JsonDocument.toFloat?_ofFloat inRange), rfl⟩

theorem find?_recordField (setting : Setting) :
    (all.map recordField).find? (·.key == setting.name) = some setting.recordField := by
  have found : all.find? (fun other => other.name == setting.name) = some setting := by
    cases setting <;> decide
  rw [List.find?_map]
  exact congrArg (Option.map recordField) found

end Setting

namespace Settings

variable {settings : Settings} {members : List (String × Json)}

/-- Members that give settings of a record are stored one after the other. -/
theorem storeMembers?_ofMembers (inRange : ∀ setting : Setting, (setting.value settings).InRange)
    (nodup : (members.map Prod.fst).Nodup)
    (sound : ∀ pair ∈ members, ∃ setting : Setting,
      pair = (setting.name, (setting.value settings).toJson))
    {seen : List String} (fresh : ∀ key ∈ seen, key ∉ members.map Prod.fst) (record : Settings) :
    ∃ keys stored,
      RecordField.storeMembers? (Setting.all.map Setting.recordField) seen record
        (JsonDocument.ofMembers members) = some (keys, stored) ∧
      (∀ setting : Setting, setting.name ∈ members.map Prod.fst →
        setting.value stored = setting.value settings) ∧
      ∀ setting : Setting, setting.name ∉ members.map Prod.fst →
        setting.value stored = setting.value record := by
  induction members generalizing seen record with
  | nil => exact ⟨seen, record, rfl, fun _ member => absurd member List.not_mem_nil, fun _ _ => rfl⟩
  | cons pair members induction =>
      obtain ⟨⟨setting, rfl⟩, others⟩ := List.forall_mem_cons.mp sound
      obtain ⟨notLater, nodup⟩ := List.nodup_cons.mp nodup
      obtain ⟨copied, stores, own⟩ := setting.store?_value record (inRange setting)
      have notSeen : ¬ seen.contains setting.name = true := by
        rw [List.contains_iff_mem]
        exact fun member => fresh _ member List.mem_cons_self
      have still_fresh : ∀ key ∈ setting.name :: seen, key ∉ members.map Prod.fst := by
        refine List.forall_mem_cons.mpr ⟨notLater, fun key member later => ?_⟩
        exact fresh key member (List.mem_cons_of_mem _ later)
      obtain ⟨keys, stored, run, given, absent⟩ := induction nodup others still_fresh copied
      refine ⟨keys, stored, ?_, ?_, ?_⟩
      · rw [JsonDocument.ofMembers, RecordField.storeMembers?, Setting.find?_recordField]
        simp only [if_neg notSeen]
        exact (congrArg (Option.bind · _) stores).trans run
      · intro other member
        by_cases later : other.name ∈ members.map Prod.fst
        · exact given other later
        · rcases List.mem_cons.mp member with same | later
          · obtain rfl := Setting.name_injective same
            rw [absent other later, own]
          · exact given other later
      · intro other notMember
        have different : other.name ≠ setting.name := List.ne_of_not_mem_cons notMember
        have notLater : other.name ∉ members.map Prod.fst :=
          List.not_mem_of_not_mem_cons notMember
        rw [absent other notLater]
        exact Setting.value_of_store? stores fun same => different (congrArg Setting.name same)

theorem IsSettled.value_default (settled : settings.IsSettled) {setting : Setting}
    (absent : (setting.value settings).isGiven = false) :
    setting.value {} = setting.value settings := by
  cases setting
  case bedMargin =>
    cases margin : settings.bedMargin with
    | none => exact absurd margin settled.margin
    | some value =>
        rw [Setting.value, margin] at absent
        contradiction
  case bedMarginX | bedMarginY | endFlow =>
    exact congrArg SettingValue.optional (SettingValue.eq_none_of_not_isGiven absent).symm
  case sweepMode =>
    rw [Setting.value, Setting.value]
    cases mode : settings.sweepMode with
    | none => rfl
    | some value =>
        rw [Setting.value, mode] at absent
        contradiction
  all_goals contradiction

theorem ofDocument?_of_lists (settled : settings.IsSettled) (lists : settings.Lists members) :
    ofDocument? (JsonDocument.ofJson (.object members)) = some settings := by
  obtain ⟨keys, stored, run, given, absent⟩ := storeMembers?_ofMembers settled.inRange lists.nodup
    lists.sound (List.forall_mem_nil _) {}
  have stored_eq : stored = settings := by
    apply ext_value
    intro setting
    by_cases member : setting.name ∈ members.map Prod.fst
    · exact given setting member
    · rw [absent setting member]
      apply settled.value_default
      by_contra given
      rw [Bool.not_eq_false] at given
      exact member (List.mem_map.mpr ⟨_, lists.complete setting given, rfl⟩)
  have optional : ((Setting.all.map Setting.recordField).all fun field =>
      field.optional || keys.contains field.key) = true := by
    simp [Setting.recordField]
  rw [ofDocument?, JsonDocument.ofJson, RecordField.read?, run]
  simp only [optional, if_true, stored_eq]

end Settings

/-! ## Raw settings -/

/-- A search finds what each of its places holds, if it holds anything. -/
theorem findSome?_eq_of_forall {α β : Type} {keys : List α} {read : α → Option β} {found : Option β}
    (holds : ∀ key ∈ keys, read key = found ∨ read key = none) {own : α} (member : own ∈ keys)
    (own_eq : read own = found) : keys.findSome? read = found := by
  cases found with
  | none =>
      rw [List.findSome?_eq_none_iff]
      exact fun key member => (holds key member).elim id id
  | some value =>
      have somewhere : (keys.findSome? read).isSome = true := by
        rw [List.findSome?_isSome_iff]
        exact ⟨own, member, own_eq ▸ rfl⟩
      obtain ⟨result, found⟩ := Option.isSome_iff_exists.mp somewhere
      obtain ⟨key, key_member, read_eq⟩ := List.exists_of_findSome?_eq_some found
      rw [found, ← read_eq]
      rcases holds key key_member with same | absent
      · exact same
      · rw [absent] at read_eq
        contradiction

namespace RawSettings

variable {settings : Settings} {members : List (String × Json)} {setting : Setting}

theorem get?_ofMembers (nodup : (members.map Prod.fst).Nodup) {key : String} {value : Json} :
    (ofMembers members).get? key = some value ↔ (key, value) ∈ members := by
  have perm := KeyTable.ofList_perm nodup
  exact (KeyTable.find?_eq_some_iff ((perm.map Prod.fst).nodup_iff.mpr nodup)).trans perm.mem_iff

theorem findSome?_of_lists (lists : settings.Lists members) {β : Type} {read : Json → Option β}
    (null : read .null = none) (setting : Setting) :
    (setting.keys.findSome? fun key => ((ofMembers members).get? key).bind read) =
      read (setting.value settings).toJson := by
  have own : ((ofMembers members).get? setting.name).bind read =
      read (setting.value settings).toJson := by
    cases held : (ofMembers members).get? setting.name with
    | some json =>
        obtain ⟨other, pair_eq⟩ := lists.sound _ ((get?_ofMembers lists.nodup).mp held)
        obtain ⟨name_eq, rfl⟩ := Prod.mk.inj pair_eq
        rw [Setting.name_injective name_eq, Option.bind_some]
    | none =>
        have absent : (setting.value settings).isGiven = false := by
          by_contra given
          rw [Bool.not_eq_false] at given
          rw [(get?_ofMembers lists.nodup).mpr (lists.complete setting given)] at held
          contradiction
        rw [SettingValue.toJson_of_not_isGiven absent, null]
        rfl
  refine findSome?_eq_of_forall ?_ setting.name_mem_keys own
  intro key member
  cases held : (ofMembers members).get? key with
  | none => exact .inr rfl
  | some json =>
      obtain ⟨other, pair_eq⟩ := lists.sound _ ((get?_ofMembers lists.nodup).mp held)
      obtain ⟨rfl, rfl⟩ := Prod.mk.inj pair_eq
      rw [Setting.eq_name_of_mem_keys member]
      exact .inl rfl

theorem number?_of_lists (lists : settings.Lists members) (setting : Setting) :
    (ofMembers members).number? setting = (setting.value settings).toJson.readNumber? :=
  findSome?_of_lists lists rfl setting

end RawSettings

theorem Json.readNumber?_ofFloat {value : Float} (finite : value.isFinite = true) :
    (ofFloat value).readNumber? = some value := by
  rw [ofFloat, if_pos finite]
  exact if_pos finite

theorem Json.readNumber?_optional {value : Option Float}
    (inRange : (SettingValue.optional value).InRange) :
    (SettingValue.optional value).toJson.readNumber? = value := by
  cases value with
  | none => rfl
  | some value => exact readNumber?_ofFloat (inRange value rfl)

theorem Double.not_ofCount_le_zero {count : Nat} (positive : 0 < count) (bounded : count < 2 ^ 53) :
    ¬ ofCount count ≤ 0.0 := by
  obtain ⟨mantissa_pos, unpacked⟩ := Binary64.unpack_ofCount positive bounded
  rw [Binary64.le_iff_unpack, unpacked, Binary64.unpack_zero]
  exact Bool.false_ne_true

theorem RawSettings.toSteps_ofCount {count : Nat} (bounded : count ≤ maxSweepSteps) :
    toSteps (Double.ofCount count) = count := by
  rcases Nat.eq_zero_or_pos count with rfl | positive
  · exact if_pos (by decide)
  · have small : count < 2 ^ 53 := Nat.lt_of_le_of_lt bounded (by decide)
    rw [toSteps, if_neg (Double.not_ofCount_le_zero positive small),
      Double.ceil_ofCount positive small, Double.toCount_ofCount small, Nat.min_eq_left bounded]

theorem JsonNumber.toFloat_count (count : Nat) :
    (integer count).toFloat = Double.ofCount count := by
  have notNegative : decide ((count : Int) < 0) = false := decide_eq_false (by omega)
  have same : Binary64.ofSigned (decide ((count : Int) < 0)) (count : Int).natAbs =
      Binary64.ofSigned false count := by
    rw [notNegative, Int.natAbs_natCast]
  rw [toFloat, same, Double.ofCount]

theorem Json.readNumber?_ofCount {count : Nat} (bounded : count ≤ maxSweepSteps) :
    (ofCount count).readNumber? = some (Double.ofCount count) := by
  have finite : (Double.ofCount count).isFinite = true := by
    rcases Nat.eq_zero_or_pos count with rfl | positive
    · decide
    · exact Double.isFinite_ofCount positive (Nat.lt_of_le_of_lt bounded (by decide))
  have value_eq := JsonNumber.toFloat_count count
  rw [ofCount, readNumber?, value_eq]
  exact if_pos finite

/-- A value of the kind of a default is read from what is written for it. -/
theorem SettingValue.readAs_number {default value : Float} (inRange : (number value).InRange) :
    (number default).readAs (number value).toJson.readNumber? = number value := by
  rw [toJson, Json.readNumber?_ofFloat inRange]
  rfl

theorem SettingValue.readAs_optional {default : Option Float} {value : Float}
    (inRange : (optional (some value)).InRange) :
    (optional default).readAs (optional (some value)).toJson.readNumber? =
      optional (some value) := by
  rw [Json.readNumber?_optional inRange]
  rfl

theorem SettingValue.readAs_count {default value : Nat} (inRange : (count value).InRange) :
    (count default).readAs (count value).toJson.readNumber? = count value := by
  have steps := RawSettings.toSteps_ofCount inRange
  rw [toJson, Json.readNumber?_ofCount inRange, readAs, Option.map_some, Option.getD_some, steps]

namespace RawSettings

variable {settings : Settings} {members : List (String × Json)}

theorem direction_of_lists (lists : settings.Lists members) :
    (ofMembers members).direction = settings.direction := by
  have text_eq : (ofMembers members).text? .direction = some settings.direction.name := by
    rw [text?, findSome?_of_lists lists rfl, Setting.value]
    cases settings.direction <;> decide
  rw [direction, text_eq]
  cases settings.direction <;> rfl

theorem sweepMode?_of_lists (lists : settings.Lists members) :
    (ofMembers members).sweepMode? = settings.sweepMode := by
  have text_eq : (ofMembers members).text? .sweepMode = settings.sweepMode.map SweepMode.name := by
    rw [text?, findSome?_of_lists lists rfl, Setting.value]
    rcases settings.sweepMode with _ | mode
    · rfl
    · cases mode <;> decide
  rw [sweepMode?, text_eq]
  rcases settings.sweepMode with _ | mode
  · rfl
  · cases mode <;> rfl

/-- Raw settings of all members that give a settled record resolve to the record. -/
theorem resolve_of_lists (settled : settings.IsSettled) (lists : settings.Lists members) :
    (ofMembers members).resolve = settings := by
  apply Settings.ext_value
  intro setting
  have inRange := settled.inRange setting
  have number_eq := number?_of_lists lists setting
  by_cases fixed : setting.HasFixedDefault
  · rw [value_resolve _ fixed, number_eq]
    cases setting
    case bedMargin =>
      cases margin : settings.bedMargin with
      | none => exact absurd margin settled.margin
      | some value =>
          have value_eq : Setting.bedMargin.value settings = .optional (some value) :=
            congrArg SettingValue.optional margin
          rw [value_eq] at inRange ⊢
          exact SettingValue.readAs_optional inRange
    case tempSteps | flowSteps => exact SettingValue.readAs_count inRange
    case bedMarginX | bedMarginY | direction | flowOffset | endFlow | sweepMode =>
      exact absurd fixed (by decide)
    all_goals exact SettingValue.readAs_number inRange
  · cases setting
    case bedMarginX | bedMarginY | endFlow =>
      exact congrArg SettingValue.optional (number_eq.trans (Json.readNumber?_optional inRange))
    case direction => exact congrArg SettingValue.direction (direction_of_lists lists)
    case sweepMode => exact congrArg SettingValue.mode (sweepMode?_of_lists lists)
    case flowOffset =>
      have given : (ofMembers members).number? .flowOffset = some settings.flowOffset :=
        number_eq.trans (Json.readNumber?_ofFloat inRange)
      refine congrArg SettingValue.number ?_
      rw [resolve]
      simp only [flowOffset, given]
    all_goals exact absurd (by decide) fixed

end RawSettings

end FlowCalibration
