import FlowCalibration.Proofs.Decimal.Arithmetic
import FlowCalibration.Proofs.Tower.Sweep

/-!
# The end of the sweep

The end flow of the settings is that of the last step of the first column.  The sweep ends with it
where one ramp ends with the first column, or where every column has its own ramp and the sweep
ends with a whole column; else it ends with another number of rises.
-/

namespace FlowCalibration

namespace Tower

/-- The sweep ends with the first column where the flow rises over the whole sweep, and with a whole
column where it starts anew in every column. -/
def EndsColumn (tower : Tower) : Prop :=
  match tower.settings.mode with
  | .fill => tower.settings.totalSteps = tower.settings.flowSteps
  | .matrix => tower.settings.flowSteps ∣ tower.settings.totalSteps

/-- The run with another ramp of flows. -/
def withRamp (tower : Tower) (startFlow flowOffset : Float) : Tower :=
  { tower with settings := { tower.settings with startFlow, flowOffset } }

/-- The end flow of the settings is reached after the rises of one column. -/
theorem computedEndFlow_eq (tower : Tower) :
    tower.settings.computedEndFlow = flowAfter tower.settings (tower.stepsPerColumn - 1) :=
  congrArg (tower.settings.startFlow + ·) (Double.mul_comm _ _)

theorem rises_first_column (tower : Tower) :
    tower.rises (tower.stepsPerColumn - 1) = tower.stepsPerColumn - 1 := by
  have positive : 0 < tower.stepsPerColumn := Nat.le_max_right _ _
  rw [rises]
  cases tower.settings.mode with
  | fill => rfl
  | matrix => exact Nat.mod_eq_of_lt (by omega)

/-- The flow has risen as often in the last step as in a whole column exactly when the sweep ends
with one. -/
theorem rises_last_eq_iff {tower : Tower} (nonempty : 1 ≤ tower.settings.totalSteps) :
    tower.rises (tower.settings.totalSteps - 1) = tower.stepsPerColumn - 1 ↔ tower.EndsColumn := by
  obtain ⟨before, total_eq⟩ : ∃ before, tower.settings.totalSteps = before + 1 :=
    ⟨tower.settings.totalSteps - 1, by omega⟩
  have product_pos : 0 < tower.settings.flowSteps * tower.settings.temperatureColumns :=
    Nat.lt_of_lt_of_le nonempty (Nat.min_le_left _ _)
  obtain ⟨within, steps_eq⟩ : ∃ within, tower.settings.flowSteps = within + 1 :=
    ⟨tower.settings.flowSteps - 1, by have := Nat.pos_of_mul_pos_right product_pos; omega⟩
  have column_eq : tower.stepsPerColumn = within + 1 := by
    rw [stepsPerColumn, steps_eq]
    exact Nat.max_eq_left (Nat.le_add_left 1 within)
  rw [rises, EndsColumn, total_eq, column_eq, steps_eq, Nat.add_sub_cancel, Nat.add_sub_cancel]
  cases tower.settings.mode with
  | fill => exact Nat.succ_inj.symm
  | matrix => rw [Nat.dvd_iff_mod_eq_zero, Nat.succ_mod_succ_eq_zero_iff]

/-- On the ramp of the whole numbers the flow tells how often it has risen. -/
theorem flowAfter_inj {tower : Tower} {rises other : Nat} (bounded : other < 2 ^ 53)
    (same : flowAfter (tower.withRamp 0.0 1.0).settings rises =
      flowAfter (tower.withRamp 0.0 1.0).settings other) : rises = other := by
  have flow_eq (count : Nat) :
      flowAfter (tower.withRamp 0.0 1.0).settings count = Double.ofCount count := by
    calc
      flowAfter (tower.withRamp 0.0 1.0).settings count = 0.0 + Double.ofCount count * 1.0 := rfl
      _ = Double.ofCount count := by
        rw [Double.mul_one, Double.zero_add (Double.ofCount_ne_negative_zero count)]
  rw [flow_eq, flow_eq] at same
  exact Double.eq_of_ofCount_eq bounded same

/-- The end flow of the settings is that of the last step of the first column.  It is that of the
last step of the sweep for all ramps of flows exactly when the sweep ends with the first column, or
with a whole column where every column has its own ramp. -/
theorem computedEndFlow_eq_last_iff {tower : Tower}
    (nonempty : 1 ≤ tower.settings.totalSteps) :
    tower.settings.computedEndFlow = (tower.entry (tower.stepsPerColumn - 1)).flow ∧
      ((∀ startFlow flowOffset : Float,
          (tower.withRamp startFlow flowOffset).settings.computedEndFlow =
            ((tower.withRamp startFlow flowOffset).entry (tower.settings.totalSteps - 1)).flow) ↔
        tower.EndsColumn) := by
  constructor
  · rw [computedEndFlow_eq, flow_entry, rises_first_column]
  · rw [← rises_last_eq_iff nonempty]
    constructor
    · intro agrees
      have same := agrees 0.0 1.0
      rw [computedEndFlow_eq, flow_entry] at same
      have bounded : tower.rises (tower.settings.totalSteps - 1) < 2 ^ 53 := by
        calc
          tower.rises (tower.settings.totalSteps - 1) ≤ tower.settings.totalSteps - 1 :=
            tower.rises_le _
          _ ≤ tower.settings.totalSteps := Nat.sub_le _ _
          _ ≤ maxSweepSteps := Nat.min_le_right _ _
          _ < 2 ^ 53 := by decide
      exact (flowAfter_inj bounded same).symm
    · intro rises_eq startFlow flowOffset
      rw [computedEndFlow_eq, flow_entry]
      exact congrArg _ rises_eq.symm

/-- A run of three columns, each with its own ramp. -/
def threeRamps : Tower :=
  ⟨{ flowSteps := 4, tempSteps := 3, tempOffset := -5.0 }, .unknown⟩

theorem computedEndFlow_eq_last_iff_threeRamps :
    1 ≤ threeRamps.settings.totalSteps ∧
      threeRamps.settings.computedEndFlow =
        (threeRamps.entry (threeRamps.stepsPerColumn - 1)).flow ∧
      ((∀ startFlow flowOffset : Float,
          (threeRamps.withRamp startFlow flowOffset).settings.computedEndFlow =
            ((threeRamps.withRamp startFlow flowOffset).entry
              (threeRamps.settings.totalSteps - 1)).flow) ↔
        threeRamps.EndsColumn) := by
  have nonempty : 1 ≤ threeRamps.settings.totalSteps := by decide
  exact ⟨nonempty, computedEndFlow_eq_last_iff nonempty⟩

/-- A run of two columns with one ramp over both. -/
def longRamp : Tower :=
  ⟨{ flowSteps := 2, tempSteps := 2 }, .unknown⟩

/-- Its sweep ends two rises above the end flow of its settings. -/
theorem computedEndFlow_longRamp_ne :
    1 ≤ longRamp.settings.totalSteps ∧
      longRamp.settings.computedEndFlow ≠
        (longRamp.entry (longRamp.settings.totalSteps - 1)).flow := by
  decide +kernel

end Tower

end FlowCalibration
