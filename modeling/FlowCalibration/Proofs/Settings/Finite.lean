import FlowCalibration.Proofs.Decimal.Counts
import FlowCalibration.Proofs.Decimal.Quotient
import FlowCalibration.Proofs.Decimal.Scanning
import FlowCalibration.Proofs.Settings.Layers

/-!
# Resolved settings are finite

Whatever raw settings hold, every number that is read from them is finite and every count is
bounded.  The one number that is computed is the change of flow that leads to the last flow: it is
finite exactly when the distance between the first flow and the last one is.
-/

namespace FlowCalibration

/-- A value whose numbers are finite and whose counts are at most `maxSweepSteps`. -/
def SettingValue.InRange : SettingValue → Prop
  | number value => value.isFinite = true
  | optional value => ∀ given ∈ value, given.isFinite = true
  | count value => value ≤ maxSweepSteps
  | direction _ => True
  | mode _ => True

instance : DecidablePred SettingValue.InRange
  | .number _ => inferInstanceAs (Decidable (_ = true))
  | .optional none => isTrue nofun
  | .optional (some value) =>
      decidable_of_iff (value.isFinite = true) (by simp [SettingValue.InRange])
  | .count _ => inferInstanceAs (Decidable (_ ≤ _))
  | .direction _ => isTrue trivial
  | .mode _ => isTrue trivial

theorem Json.isFinite_of_readNumber? {json : Json} {value : Float}
    (read : json.readNumber? = some value) : value.isFinite = true := by
  cases json with
  | number given =>
      obtain ⟨finite, value_eq⟩ := Option.ite_none_right_eq_some.mp read
      obtain rfl := Option.some.inj value_eq
      exact finite
  | text given =>
      rw [readNumber?, readLenient?] at read
      split at read
      · contradiction
      · exact FlowCalibration.isFinite_of_readNumber? read
  | null => contradiction
  | boolean _ => contradiction
  | array _ => contradiction
  | object _ => contradiction

namespace RawSettings

variable {raw : RawSettings} {setting : Setting}

theorem isFinite_of_number? {value : Float} (read : raw.number? setting = some value) :
    value.isFinite = true := by
  obtain ⟨key, _, held⟩ := List.exists_of_findSome?_eq_some read
  obtain ⟨json, _, number⟩ := Option.bind_eq_some_iff.mp held
  exact Json.isFinite_of_readNumber? number

theorem toSteps_le (value : Float) : toSteps value ≤ maxSweepSteps := by
  rw [toSteps]
  split
  · exact Nat.zero_le _
  · exact Nat.min_le_right _ _

end RawSettings

/-- A value in range stays in range when a finite number is read for it. -/
theorem SettingValue.InRange.readAs {default : SettingValue} (inRange : default.InRange)
    {number? : Option Float} (finite : ∀ value ∈ number?, value.isFinite = true) :
    (default.readAs number?).InRange := by
  cases number? with
  | none =>
      cases default with
      | optional value =>
          rintro given ⟨⟩
          cases value with
          | none => exact (by decide : (0.0 : Float).isFinite = true)
          | some value => exact inRange value rfl
      | _ => exact inRange
  | some value =>
      have value_finite : value.isFinite = true := finite value rfl
      cases default with
      | number _ => exact value_finite
      | optional _ =>
          rintro given ⟨⟩
          exact value_finite
      | count _ => exact RawSettings.toSteps_le value
      | direction _ => trivial
      | mode _ => trivial

theorem Setting.inRange_default (setting : Setting) : (setting.value {}).InRange := by
  cases setting <;> decide

/-- Dividing by a count of steps keeps a number finite, and makes none finite. -/
theorem Double.isFinite_div_ofCount_iff {value : Float} {count : Nat} (positive : 0 < count)
    (bounded : count ≤ maxSweepSteps) :
    (value / ofCount count).isFinite = true ↔ value.isFinite = true := by
  have small : count < 2 ^ 53 := Nat.lt_of_le_of_lt bounded (by decide)
  obtain ⟨mantissa_pos, unpacked⟩ := Binary64.unpack_ofCount positive small
  refine ⟨Binary64.isFinite_of_isFinite_div unpacked, fun finite => ?_⟩
  apply Binary64.isFinite_div finite unpacked
  by_cases one : count = 1
  · subst one
    exact .inr ⟨rfl, rfl⟩
  · have log_pos : 1 ≤ count.log2 := (Nat.le_log2 (by omega)).mpr (by omega)
    rw [Magnitude.log2_mantissa_codeOfCount positive small]
    exact .inl (by omega)

namespace RawSettings

theorem inRange_of_ne_flowOffset (raw : RawSettings) {setting : Setting}
    (other : setting ≠ .flowOffset) : (setting.value raw.resolve).InRange := by
  by_cases fixed : setting.HasFixedDefault
  · rw [value_resolve raw fixed]
    exact setting.inRange_default.readAs fun _ read => isFinite_of_number? read
  · cases setting
    case bedMarginX | bedMarginY | endFlow => exact fun _ read => isFinite_of_number? read
    case direction | sweepMode => trivial
    case flowOffset => exact absurd rfl other
    all_goals exact absurd (by decide) fixed

/-- The change of flow is finite exactly when it is not computed from flows too far apart. -/
theorem isFinite_flowOffset_iff (raw : RawSettings) (startFlow : Float) {flowSteps : Nat}
    (bounded : flowSteps ≤ maxSweepSteps) :
    (raw.flowOffset startFlow flowSteps).isFinite = true ↔
      (raw.number? .flowOffset = none → ∀ last ∈ raw.number? .endFlow, 1 < flowSteps →
        (last - startFlow).isFinite = true) := by
  rw [flowOffset]
  cases offset : raw.number? .flowOffset with
  | some value => simp [isFinite_of_number? offset]
  | none =>
      cases raw.number? .endFlow with
      | none =>
          have default : ({} : Settings).flowOffset.isFinite = true := by decide
          simp [default]
      | some last =>
          simp only [forall_const, Option.mem_some_iff, forall_eq']
          split
          next several =>
            rw [Double.isFinite_div_ofCount_iff (by omega) (by omega)]
            exact ⟨fun finite _ => finite, fun finite => finite several⟩
          next one =>
            have zero : (0.0 : Float).isFinite = true := by decide
            exact ⟨fun _ several => absurd several one, fun _ => zero⟩

/-- Resolved settings are in range, but for a change of flow that is computed from a first and a
last flow too far apart. -/
theorem inRange_resolve (raw : RawSettings) :
    (∀ setting : Setting, setting ≠ .flowOffset → (setting.value raw.resolve).InRange) ∧
      ((Setting.flowOffset.value raw.resolve).InRange ↔
        (raw.number? .flowOffset = none → ∀ last ∈ raw.number? .endFlow,
          1 < raw.resolve.flowSteps → (last - raw.resolve.startFlow).isFinite = true)) := by
  have bounded : raw.resolve.flowSteps ≤ maxSweepSteps :=
    raw.inRange_of_ne_flowOffset (show Setting.flowSteps ≠ .flowOffset by decide)
  exact ⟨fun _ other => raw.inRange_of_ne_flowOffset other, raw.isFinite_flowOffset_iff _ bounded⟩

/-- Raw settings whose first and last flow are as far apart as doubles can be. -/
def wideFlows : RawSettings :=
  .ofMembers [("startFlow", .ofFloat (-1e308)), ("endFlow", .ofFloat 1e308)]

/-- Their change of flow is infinite. -/
theorem not_inRange_wideFlows : ¬ (Setting.flowOffset.value wideFlows.resolve).InRange := by
  decide +kernel

end RawSettings

end FlowCalibration
