import FlowCalibration.Proofs.Settings.Saving
import FlowCalibration.Proofs.Tower.Accounting

/-!
# The head of a program records the run

The head of a program lists the settings that are in effect: the margin of both axes and a mode that
is left out stand there only as what follows from them.  Nothing else in a program depends on them
either, and numbers are told apart by their texts, so settings that are listed alike make the same
plates.
-/

namespace FlowCalibration

/-! ## Texts of values -/

namespace Double

/-- The word for a value that is left out is no number. -/
theorem number_ne_unset (value : Float) : number value ≠ "unset" := by
  intro same
  have letter : 'u' ∈ (number value).toList := by
    rw [same]
    decide
  exact ne_of_isNumberChar (isNumberChar_of_mem_number letter) (by decide) rfl

theorem optionalNumber_injective {left right : Option Float}
    (left_proper : ∀ value ∈ left, IsProper value) (right_proper : ∀ value ∈ right, IsProper value)
    (same : Settings.optionalNumber left = Settings.optionalNumber right) : left = right := by
  cases left with
  | none =>
      cases right with
      | none => rfl
      | some right => exact absurd same.symm (number_ne_unset right)
  | some left =>
      cases right with
      | none => exact absurd same (number_ne_unset left)
      | some right =>
          rw [number_injective (left_proper left rfl) (right_proper right rfl) same]

end Double

theorem Direction.flag_injective {left right : Direction} (same : left.flag = right.flag) :
    left = right := by
  cases left <;> cases right <;> first | rfl | contradiction

/-- Text of a mode that may be left out. -/
def SweepMode.optionalName (mode : Option SweepMode) : String :=
  (mode.map SweepMode.name).getD "unset"

theorem SweepMode.optionalName_injective {left right : Option SweepMode}
    (same : optionalName left = optionalName right) : left = right := by
  rcases left with _ | _ | _ <;> rcases right with _ | _ | _ <;>
    first | rfl | exact absurd same (by decide)

namespace SettingValue

/-- The text that the head of a program lists for a value. -/
def listed : SettingValue → String
  | number value => Double.number value
  | optional value => Settings.optionalNumber value
  | count value => toString value
  | direction value => toString value.flag
  | mode value => SweepMode.optionalName value

/-- All doubles of a value are finite and none is negative zero. -/
def IsProper (value : SettingValue) : Prop :=
  ∀ given ∈ value.floats, Double.IsProper given

theorem isProper_optional {given : Option Float} :
    (optional given).IsProper ↔ ∀ value ∈ given, Double.IsProper value := by
  simp only [IsProper, floats, Option.mem_toList, Option.mem_def]

theorem number_eq_of_listed_eq {left right : Float} (left_proper : (number left).IsProper)
    (right_proper : (number right).IsProper)
    (same : (number left).listed = (number right).listed) : number left = number right :=
  congrArg number (Double.number_injective (left_proper left List.mem_cons_self)
    (right_proper right List.mem_cons_self) same)

theorem optional_eq_of_listed_eq {left right : Option Float}
    (left_proper : (optional left).IsProper) (right_proper : (optional right).IsProper)
    (same : (optional left).listed = (optional right).listed) : optional left = optional right :=
  congrArg optional (Double.optionalNumber_injective (isProper_optional.mp left_proper)
    (isProper_optional.mp right_proper) same)

end SettingValue

namespace Settings

/-! ## Settings in effect -/

/-- The settings with nothing left to follow from others: each axis has its margin, and the sweep
has its mode. -/
def effective (settings : Settings) : Settings :=
  { settings with
    bedMargin := none
    bedMarginX := some settings.marginX
    bedMarginY := some settings.marginY
    sweepMode := some settings.mode }

theorem listing_effective (settings : Settings) : settings.effective.listing = settings.listing :=
  rfl

/-- All doubles of a record are finite and none is negative zero. -/
def IsProper (settings : Settings) : Prop :=
  ∀ value ∈ settings.floats, Double.IsProper value

instance (settings : Settings) : Decidable settings.IsProper :=
  inferInstanceAs (Decidable (∀ value ∈ settings.floats, Double.IsProper value))

theorem IsProper.value {settings : Settings} (proper : settings.IsProper) (setting : Setting) :
    (setting.value settings).IsProper :=
  fun value member => proper value (mem_floats setting member)

theorem isProper_margin {own shared : Option Float}
    (own_proper : ∀ value ∈ own, Double.IsProper value)
    (shared_proper : ∀ value ∈ shared, Double.IsProper value) :
    Double.IsProper ((own <|> shared).getD 0.0) := by
  cases own with
  | some value => exact own_proper value rfl
  | none =>
      cases shared with
      | some value => exact shared_proper value rfl
      | none => decide

/-- What follows from other settings. -/
def derived : List Setting :=
  [.bedMargin, .bedMarginX, .bedMarginY, .sweepMode]

theorem value_effective (settings : Settings) {setting : Setting} (own : setting ∉ derived) :
    setting.value settings.effective = setting.value settings := by
  cases setting
  case bedMargin | bedMarginX | bedMarginY | sweepMode => exact absurd (by decide) own
  all_goals rfl

theorem IsProper.effective {settings : Settings} (proper : settings.IsProper) :
    settings.effective.IsProper := by
  intro value member
  obtain ⟨pair, listed, member⟩ := List.mem_flatMap.mp member
  obtain ⟨setting, _, rfl⟩ := List.mem_map.mp listed
  by_cases follows : setting ∈ derived
  · have shared := SettingValue.isProper_optional.mp (proper.value .bedMargin)
    simp only [derived, List.mem_cons, List.not_mem_nil, or_false] at follows
    rcases follows with rfl | rfl | rfl | rfl
    · contradiction
    · rw [List.mem_singleton.mp member]
      exact isProper_margin (SettingValue.isProper_optional.mp (proper.value .bedMarginX)) shared
    · rw [List.mem_singleton.mp member]
      exact isProper_margin (SettingValue.isProper_optional.mp (proper.value .bedMarginY)) shared
    · contradiction
  · rw [value_effective settings follows] at member
    exact proper.value setting value member

/-- Every setting but the margin of both axes is listed with its value in effect. -/
theorem lookup_listing (settings : Settings) {setting : Setting} (own : setting ≠ .bedMargin) :
    settings.listing.lookup setting.name = some (setting.value settings.effective).listed := by
  cases setting
  case bedMargin => contradiction
  all_goals rfl

theorem value_eq_of_listed_eq {left right : Settings} {setting : Setting}
    (left_proper : (setting.value left).IsProper) (right_proper : (setting.value right).IsProper)
    (same : (setting.value left).listed = (setting.value right).listed) :
    setting.value left = setting.value right := by
  cases setting
  case tempSteps | flowSteps => exact congrArg SettingValue.count (Nat.repr_inj.mp same)
  case direction =>
    exact congrArg SettingValue.direction (Direction.flag_injective (Nat.repr_inj.mp same))
  case sweepMode => exact congrArg SettingValue.mode (SweepMode.optionalName_injective same)
  case bedMargin | bedMarginX | bedMarginY | endFlow =>
    exact SettingValue.optional_eq_of_listed_eq left_proper right_proper same
  all_goals exact SettingValue.number_eq_of_listed_eq left_proper right_proper same

/-- Two records whose doubles are all proper are listed alike exactly when they are the same in
effect. -/
theorem listing_eq_iff {left right : Settings} (left_proper : left.IsProper)
    (right_proper : right.IsProper) :
    left.listing = right.listing ↔ left.effective = right.effective := by
  constructor
  · intro same
    apply ext_value
    intro setting
    by_cases shared : setting = .bedMargin
    · rw [shared]
      rfl
    · have found := lookup_listing left shared
      rw [same, lookup_listing right shared] at found
      exact value_eq_of_listed_eq (left_proper.effective.value setting)
        (right_proper.effective.value setting) (Option.some.inj found).symm
  · intro same
    rw [← listing_effective left, same, listing_effective right]

end Settings

/-! ## Plates -/

namespace Tower

/-- The tower whose settings are those in effect. -/
def effective (tower : Tower) : Tower :=
  { tower with settings := tower.settings.effective }

/-- What is printed depends on the settings in effect only. -/
theorem plans_effective (tower : Tower) : tower.effective.plans = tower.plans :=
  plans_congr rfl rfl rfl

theorem title_effective (tower : Tower) : tower.effective.title = tower.title :=
  rfl

theorem preparation_effective (settings : Settings) :
    preparation settings.effective = preparation settings :=
  rfl

theorem blockLines_effective (settings : Settings) :
    blockLines settings.effective = blockLines settings := by
  funext block
  cases block <;> rfl

theorem footer_effective (settings : Settings) : footer settings.effective = footer settings :=
  rfl

theorem planLines_effective (tower : Tower) : tower.effective.planLines = tower.planLines := by
  funext plan
  have settings_eq : tower.effective.settings = tower.settings.effective := rfl
  rw [planLines, planLines, settings_eq, title_effective, preparation_effective,
    blockLines_effective, footer_effective]

theorem plates_effective (tower : Tower) : tower.effective.plates = tower.plates := by
  have plate_eq : tower.effective.plate = tower.plate := by
    funext plan
    rw [plate, plate, planLines_effective]
  rw [plates, plates, plans_effective, plate_eq]

/-- The head of a program records the run: settings that are listed alike are the same in effect and
make the same plates on every printer. -/
theorem plates_eq_of_listing_eq {left right : Settings} (left_proper : left.IsProper)
    (right_proper : right.IsProper) (same : left.listing = right.listing) :
    left.effective = right.effective ∧
      ∀ profile : PrinterProfile,
        (Tower.mk left profile).plates = (Tower.mk right profile).plates := by
  have effective_eq := (Settings.listing_eq_iff left_proper right_proper).mp same
  refine ⟨effective_eq, fun profile => ?_⟩
  rw [← plates_effective ⟨left, profile⟩, ← plates_effective ⟨right, profile⟩]
  simp only [effective, effective_eq]

/-- Margins of the axes hide another margin of both, and the mode is the one that follows. -/
def hiddenMargin : Settings :=
  { bedMargin := some 7.5
    bedMarginX := some 20.0
    bedMarginY := some 20.0
    sweepMode := some .fill }

/-- These settings are listed as the default ones are, although they are others. -/
theorem plates_eq_of_listing_eq_hiddenMargin :
    hiddenMargin ≠ {} ∧ hiddenMargin.IsProper ∧ ({} : Settings).IsProper ∧
      hiddenMargin.listing = ({} : Settings).listing ∧
      ∀ profile : PrinterProfile,
        (Tower.mk hiddenMargin profile).plates = (Tower.mk {} profile).plates := by
  have hidden_proper : hiddenMargin.IsProper := by decide
  have default_proper : ({} : Settings).IsProper := by decide
  have same : hiddenMargin.listing = ({} : Settings).listing := by
    rw [← Settings.listing_effective {}]
    rfl
  exact ⟨by decide, hidden_proper, default_proper, same,
    (plates_eq_of_listing_eq hidden_proper default_proper same).2⟩

end Tower

end FlowCalibration
