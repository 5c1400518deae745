import FlowCalibration.Printer.Profile

/-!
# Layers of settings

The layers of a run lie on the settings of the printer, the last layer on top.  They are merged key
by key before anything is read, so what counts for a setting is the topmost value of each of its
keys, and of these the first that reads as a number.  It is the topmost number of the setting unless
that one is obstructed: by a value of the same key above it, or by a number under an earlier key.
-/

namespace FlowCalibration

/-! ## Topmost values -/

section Topmost

variable {α β : Type} {read : α → Option β} {stack : List α}

/-- What the topmost layer that gives anything gives, with the number of layers above it. -/
def topmost? (read : α → Option β) : List α → Option (Nat × β)
  | [] => none
  | layer :: below =>
      match read layer with
      | some found => some (0, found)
      | none => (topmost? read below).map fun (depth, found) => (depth + 1, found)

theorem topmost?_cons_of_some {layer : α} {found : β} (given : read layer = some found) :
    topmost? read (layer :: stack) = some (0, found) := by
  rw [topmost?, given]

theorem topmost?_cons_of_none {layer : α} (absent : read layer = none) :
    topmost? read (layer :: stack) =
      (topmost? read stack).map fun (depth, found) => (depth + 1, found) := by
  rw [topmost?, absent]

theorem map_snd_topmost? (read : α → Option β) (stack : List α) :
    (topmost? read stack).map Prod.snd = stack.findSome? read := by
  induction stack with
  | nil => rfl
  | cons layer below induction =>
      cases given : read layer with
      | some found =>
          rw [topmost?_cons_of_some given, List.findSome?_cons, given]
          rfl
      | none =>
          rw [topmost?_cons_of_none given, List.findSome?_cons, given, ← induction, Option.map_map]
          rfl

theorem topmost?_eq_none_iff : topmost? read stack = none ↔ ∀ layer ∈ stack, read layer = none := by
  rw [← Option.map_eq_none_iff, map_snd_topmost?, List.findSome?_eq_none_iff]

theorem topmost?_eq_some_iff {depth : Nat} {found : β} :
    topmost? read stack = some (depth, found) ↔
      (∃ layer, stack[depth]? = some layer ∧ read layer = some found) ∧
        ∀ layer ∈ stack.take depth, read layer = none := by
  induction stack generalizing depth with
  | nil => simp [topmost?]
  | cons layer below induction =>
      cases given : read layer with
      | some value =>
          rw [topmost?_cons_of_some given]
          cases depth with
          | zero => simp [given]
          | succ depth => simp [given]
      | none =>
          rw [topmost?_cons_of_none given]
          cases depth with
          | zero => simp [given]
          | succ depth =>
              have below_iff := @induction depth
              simp only [Option.map_eq_some_iff, Prod.exists, Prod.mk.injEq,
                Nat.add_right_cancel_iff, List.getElem?_cons_succ, List.take_succ_cons,
                List.forall_mem_cons, given, true_and]
              rw [← below_iff]
              constructor
              · rintro ⟨_, _, same, rfl, rfl⟩
                exact same
              · intro same
                exact ⟨depth, found, same, rfl, rfl⟩

end Topmost

/-! ## Merged layers -/

namespace RawSettings

theorem get?_merge (raw layer : RawSettings) (key : String) :
    (raw.merge layer).get? key = (layer.get? key).or (raw.get? key) :=
  KeyTable.find?_insertAll raw.entries layer.ascending key

/-- Merged layers hold the topmost value of every key. -/
theorem get?_foldl_merge (base : RawSettings) (layers : List RawSettings) (key : String) :
    (layers.foldl merge base).get? key =
      (layers.reverse ++ [base]).findSome? fun layer => layer.get? key := by
  induction layers generalizing base with
  | nil => simp
  | cons layer layers induction =>
      rw [List.foldl_cons, induction, List.reverse_cons, List.append_assoc, List.findSome?_append,
        List.findSome?_append, List.findSome?_singleton, get?_merge]
      cases held : layer.get? key <;> simp [held]

/-- The number under a key. -/
def numberAt? (raw : RawSettings) (key : String) : Option Float :=
  (raw.get? key).bind Json.readNumber?

/-- The first number among the keys of a setting, with its key. -/
def reading? (raw : RawSettings) (setting : Setting) : Option (String × Float) :=
  setting.keys.findSome? fun key => (raw.numberAt? key).map (Prod.mk key)

end RawSettings

/-- The layers of a run, the topmost in front and the settings of the printer last. -/
def PrinterProfile.stack (profile : PrinterProfile) (layers : List RawSettings) :
    List RawSettings :=
  layers.reverse ++ [profile.overlay]

/-- A number that a stack of layers holds. -/
structure Reading where
  /-- Number of layers above the one that holds it. -/
  depth : Nat
  /-- Key of the number. -/
  key : String
  /-- The number. -/
  value : Float
  deriving DecidableEq

/-- The number that the topmost value of a key reads as. -/
def keyReading? (stack : List RawSettings) (key : String) : Option Reading :=
  (topmost? (fun layer => layer.get? key) stack).bind fun (depth, held) =>
    held.readNumber?.map (Reading.mk depth key)

namespace Setting

variable {setting : Setting} {stack : List RawSettings}

/-- The topmost number of a setting: in the topmost layer that holds one, the first in the order of
the keys. -/
def topReading? (setting : Setting) (stack : List RawSettings) : Option Reading :=
  (topmost? (fun layer => layer.reading? setting) stack).map fun (depth, key, value) =>
    ⟨depth, key, value⟩

/-- The number that counts for a setting: in the order of the keys, the first that the topmost value
of a key reads as. -/
def usedReading? (setting : Setting) (stack : List RawSettings) : Option Reading :=
  setting.keys.findSome? (keyReading? stack)

/-- Nothing is in the way of the topmost number of a setting: no layer above it holds its key, and
the topmost values of the keys before its own are no numbers. -/
def Unobstructed (setting : Setting) (stack : List RawSettings) : Prop :=
  ∀ reading, setting.topReading? stack = some reading →
    (∀ layer ∈ stack.take reading.depth, layer.get? reading.key = none) ∧
      ∀ key ∈ setting.keys.takeWhile (· != reading.key), keyReading? stack key = none

theorem nodup_keys (setting : Setting) : setting.keys.Nodup := by
  cases setting <;> decide

theorem takeWhile_keys {before after : List String} {key : String}
    (keys_eq : setting.keys = before ++ key :: after) :
    setting.keys.takeWhile (· != key) = before := by
  have nodup := setting.nodup_keys
  rw [keys_eq, List.nodup_append] at nodup
  have others (other : String) (member : other ∈ before) : (other != key) = true :=
    bne_iff_ne.mpr (nodup.2.2 other member key List.mem_cons_self)
  rw [keys_eq, List.takeWhile_append_of_pos others]
  simp

theorem keyReading?_eq_some_iff {key : String} {reading : Reading} :
    keyReading? stack key = some reading ↔
      reading.key = key ∧
        (∃ layer, stack[reading.depth]? = some layer ∧ layer.numberAt? key = some reading.value) ∧
        ∀ layer ∈ stack.take reading.depth, layer.get? key = none := by
  obtain ⟨depth, own, value⟩ := reading
  simp only [keyReading?, RawSettings.numberAt?, Option.bind_eq_some_iff, Prod.exists,
    topmost?_eq_some_iff, Option.map_eq_some_iff, Reading.mk.injEq]
  constructor
  · rintro ⟨_, held, ⟨⟨layer, place, found⟩, above⟩, _, number, rfl, rfl, rfl⟩
    exact ⟨rfl, ⟨layer, place, held, found, number⟩, above⟩
  · rintro ⟨rfl, ⟨layer, place, held, found, number⟩, above⟩
    exact ⟨depth, held, ⟨⟨layer, place, found⟩, above⟩, value, number, rfl, rfl, rfl⟩

theorem keyReading?_eq_none {key : String} (unread : ∀ layer ∈ stack, layer.numberAt? key = none) :
    keyReading? stack key = none := by
  rw [Option.eq_none_iff_forall_ne_some]
  intro reading found
  obtain ⟨_, ⟨layer, place, number⟩, _⟩ := keyReading?_eq_some_iff.mp found
  rw [unread layer (List.mem_of_getElem? place)] at number
  contradiction

theorem topReading?_eq_none_iff :
    setting.topReading? stack = none ↔
      ∀ layer ∈ stack, ∀ key ∈ setting.keys, layer.numberAt? key = none := by
  simp only [topReading?, RawSettings.reading?, Option.map_eq_none_iff, topmost?_eq_none_iff,
    List.findSome?_eq_none_iff]

theorem topReading?_eq_some_iff {reading : Reading} :
    setting.topReading? stack = some reading ↔
      (∃ layer before after, stack[reading.depth]? = some layer ∧
        setting.keys = before ++ reading.key :: after ∧
        layer.numberAt? reading.key = some reading.value ∧
        ∀ key ∈ before, layer.numberAt? key = none) ∧
      ∀ layer ∈ stack.take reading.depth, ∀ key ∈ setting.keys, layer.numberAt? key = none := by
  obtain ⟨depth, key, value⟩ := reading
  simp only [topReading?, RawSettings.reading?, Option.map_eq_some_iff, Prod.exists,
    topmost?_eq_some_iff, List.findSome?_eq_some_iff, Option.map_eq_none_iff,
    List.findSome?_eq_none_iff, Reading.mk.injEq, Prod.mk.injEq]
  constructor
  · rintro ⟨_, _, _, ⟨held, above⟩, rfl, rfl, rfl⟩
    obtain ⟨layer, place, before, _, after, keys_eq, ⟨_, number, rfl, rfl⟩, unread⟩ := held
    exact ⟨⟨layer, before, after, place, keys_eq, number, unread⟩, above⟩
  · rintro ⟨⟨layer, before, after, place, keys_eq, number, unread⟩, above⟩
    exact ⟨depth, key, value,
      ⟨⟨layer, place, before, key, after, keys_eq, ⟨value, number, rfl, rfl⟩, unread⟩, above⟩,
      rfl, rfl, rfl⟩

/-- The number that counts is the topmost one exactly when nothing is in the way of that. -/
theorem usedReading?_eq_topReading?_iff :
    setting.usedReading? stack = setting.topReading? stack ↔ setting.Unobstructed stack := by
  cases top : setting.topReading? stack with
  | none =>
      have unread := topReading?_eq_none_iff.mp top
      have used : setting.usedReading? stack = none := by
        rw [usedReading?, List.findSome?_eq_none_iff]
        exact fun key member =>
          keyReading?_eq_none fun layer inside => unread layer inside key member
      simp [used, Unobstructed, top]
  | some reading =>
      obtain ⟨⟨layer, before, after, place, keys_eq, number, _⟩, _⟩ :=
        topReading?_eq_some_iff.mp top
      simp only [Unobstructed, top, Option.some.injEq, forall_eq', takeWhile_keys keys_eq,
        usedReading?, List.findSome?_eq_some_iff]
      constructor
      · rintro ⟨earlier, key, later, split_eq, found, unread⟩
        obtain ⟨rfl, _, above⟩ := keyReading?_eq_some_iff.mp found
        have same : earlier = before := by
          rw [← takeWhile_keys split_eq, takeWhile_keys keys_eq]
        exact ⟨above, same ▸ unread⟩
      · rintro ⟨above, unread⟩
        exact ⟨before, reading.key, after, keys_eq,
          keyReading?_eq_some_iff.mpr ⟨rfl, ⟨layer, place, number⟩, above⟩, unread⟩

/-- The numbers and counts with a default that does not depend on other settings. -/
def HasFixedDefault (setting : Setting) : Prop :=
  setting ∉ [bedMarginX, bedMarginY, direction, flowOffset, endFlow, sweepMode]

instance : DecidablePred HasFixedDefault :=
  fun setting => inferInstanceAs (Decidable (setting ∉ _))

end Setting

/-- A value of the kind of a default: the one that a number stands for, else the default. -/
def SettingValue.readAs (default : SettingValue) (number? : Option Float) : SettingValue :=
  match default with
  | number value => .number (number?.getD value)
  | optional value => .optional (some (number?.getD (value.getD 0.0)))
  | count value => .count ((number?.map RawSettings.toSteps).getD value)
  | direction value => .direction value
  | mode value => .mode value

namespace RawSettings

theorem value_resolve (raw : RawSettings) {setting : Setting} (fixed : setting.HasFixedDefault) :
    setting.value raw.resolve = (setting.value {}).readAs (raw.number? setting) := by
  cases setting
  case bedMarginX | bedMarginY | direction | flowOffset | endFlow | sweepMode =>
    exact absurd fixed (by decide)
  all_goals rfl

theorem number?_foldl_merge (base : RawSettings) (layers : List RawSettings) (setting : Setting) :
    (layers.foldl merge base).number? setting =
      (setting.usedReading? (layers.reverse ++ [base])).map Reading.value := by
  have read (key : String) :
      ((layers.foldl merge base).get? key).bind Json.readNumber? =
        (keyReading? (layers.reverse ++ [base]) key).map Reading.value := by
    rw [get?_foldl_merge, ← map_snd_topmost?, keyReading?]
    cases topmost? (fun layer => layer.get? key) (layers.reverse ++ [base]) with
    | none => rfl
    | some held => simp [Function.comp_def]
  rw [number?, Setting.usedReading?, List.map_findSome?]
  simp only [read, Function.comp_def]

end RawSettings

/-- A number or a count of a run is the one that counts for it in the stack of the layers, and this
is the topmost one exactly when nothing is in its way. -/
theorem value_layeredSettings (profile : PrinterProfile) (layers : List RawSettings)
    {setting : Setting} (fixed : setting.HasFixedDefault) :
    setting.value (profile.layeredSettings layers) =
        (setting.value {}).readAs
          ((setting.usedReading? (profile.stack layers)).map Reading.value) ∧
      (setting.usedReading? (profile.stack layers) = setting.topReading? (profile.stack layers) ↔
        setting.Unobstructed (profile.stack layers)) := by
  refine ⟨?_, Setting.usedReading?_eq_topReading?_iff⟩
  rw [PrinterProfile.layeredSettings, RawSettings.value_resolve _ fixed,
    RawSettings.number?_foldl_merge, PrinterProfile.stack]

/-- Two layers that give the travel speed under different keys. -/
def speedLayers : List RawSettings :=
  [ .ofMembers [("movementSpeed", .ofFloat 100.0)], .ofMembers [("travelSpeed", .ofFloat 50.0)] ]

theorem value_layeredSettings_speedLayers :
    Setting.movementSpeed.value (PrinterProfile.unknown.layeredSettings speedLayers) =
        (Setting.movementSpeed.value {}).readAs
          ((Setting.movementSpeed.usedReading? (PrinterProfile.unknown.stack speedLayers)).map
            Reading.value) ∧
      (Setting.movementSpeed.usedReading? (PrinterProfile.unknown.stack speedLayers) =
          Setting.movementSpeed.topReading? (PrinterProfile.unknown.stack speedLayers) ↔
        Setting.movementSpeed.Unobstructed (PrinterProfile.unknown.stack speedLayers)) :=
  value_layeredSettings PrinterProfile.unknown speedLayers (by decide)

/-- A lower layer can win: here the speed is not the one of the topmost layer that has one. -/
theorem movementSpeed_speedLayers_ne :
    Setting.movementSpeed.value (PrinterProfile.unknown.layeredSettings speedLayers) ≠
      (Setting.movementSpeed.value {}).readAs
        ((PrinterProfile.unknown.stack speedLayers).findSome? fun layer =>
          layer.number? .movementSpeed) := by
  decide

end FlowCalibration
