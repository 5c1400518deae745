import FlowCalibration.Proofs.Data.Columnwise
import FlowCalibration.Proofs.Tower.Heating

/-!
# The order of the sweep

The sweep visits the pairs of a temperature column and a row column by column, rows ascending, from
the first pair on and as far as the cap on its length lets it.  The column of a step fixes its
temperature, and where the flow starts anew in every column its row fixes its flow.
-/

namespace FlowCalibration

namespace SweepEntry

/-- Column and row of a step. -/
def place (entry : SweepEntry) : Nat × Nat :=
  (entry.column, entry.row)

end SweepEntry

namespace Tower

/-- The steps of the sweep. -/
def sweepEntries (tower : Tower) : List SweepEntry :=
  (List.range tower.settings.totalSteps).map tower.entry

/-- How many times the flow has risen at a place of the sweep. -/
def rises (tower : Tower) (index : Nat) : Nat :=
  match tower.settings.mode with
  | .fill => index
  | .matrix => index % tower.stepsPerColumn

theorem rises_le (tower : Tower) (index : Nat) : tower.rises index ≤ index := by
  rw [rises]
  cases tower.settings.mode with
  | fill => exact Nat.le_refl _
  | matrix => exact Nat.mod_le _ _

/-- Flow after a number of rises. -/
def flowAfter (settings : Settings) (rises : Nat) : Float :=
  settings.startFlow + Double.ofCount rises * settings.flowOffset

theorem flow_entry (tower : Tower) (index : Nat) :
    (tower.entry index).flow = flowAfter tower.settings (tower.rises index) := by
  rw [entry, rises]
  cases tower.settings.mode <;> rfl

/-- Where every column has its own ramp, the row of a step tells its flow. -/
theorem flow_of_mem {tower : Tower} (ramps : tower.settings.mode = .matrix) {entry : SweepEntry}
    (member : entry ∈ tower.sweepEntries) :
    entry.flow = flowAfter tower.settings (entry.row - 1) := by
  obtain ⟨index, _, rfl⟩ := List.mem_map.mp member
  rw [flow_entry, rises, ramps]
  rfl

/-- The sweep visits the places column by column until it is cut off. -/
theorem map_place_sweepEntries (tower : Tower) :
    tower.sweepEntries.map SweepEntry.place =
      (columnwise tower.settings.temperatureColumns tower.settings.flowSteps).take
        maxSweepSteps := by
  rw [columnwise_eq_map_range, ← List.map_take, List.take_range, Nat.min_comm, sweepEntries,
    List.map_map]
  refine List.map_congr_left fun index inside => ?_
  have index_lt : index < tower.settings.flowSteps * tower.settings.temperatureColumns :=
    Nat.lt_of_lt_of_le (List.mem_range.mp inside) (Nat.min_le_left _ _)
  have steps_eq : tower.stepsPerColumn = tower.settings.flowSteps :=
    Nat.max_eq_left (Nat.pos_of_mul_pos_right (Nat.zero_lt_of_lt index_lt))
  rw [← steps_eq]
  rfl

theorem place_mem_columnwise {tower : Tower} {entry : SweepEntry}
    (member : entry ∈ tower.sweepEntries) :
    entry.place ∈ columnwise tower.settings.temperatureColumns tower.settings.flowSteps := by
  have visited : entry.place ∈ tower.sweepEntries.map SweepEntry.place :=
    List.mem_map_of_mem member
  rw [map_place_sweepEntries] at visited
  exact List.mem_of_mem_take visited

/-- A sweep that is not cut off visits every place. -/
theorem exists_entry_of_uncut {tower : Tower}
    (uncut : tower.settings.flowSteps * tower.settings.temperatureColumns ≤ maxSweepSteps)
    {place : Nat × Nat}
    (inside : place ∈
      columnwise tower.settings.temperatureColumns tower.settings.flowSteps) :
    ∃ entry ∈ tower.sweepEntries, entry.place = place := by
  have visited := tower.map_place_sweepEntries
  rw [List.take_of_length_le] at visited
  · rw [← visited] at inside
    exact List.mem_map.mp inside
  · rwa [columnwise_eq_map_range, List.length_map, List.length_range]

/-- Every row that is visited is visited in the first column. -/
theorem entry_row_mem {tower : Tower} {entry : SweepEntry} (member : entry ∈ tower.sweepEntries) :
    tower.entry (entry.row - 1) ∈ tower.sweepEntries ∧
      (tower.entry (entry.row - 1)).place = (1, entry.row) := by
  obtain ⟨index, inside, rfl⟩ := List.mem_map.mp member
  have row_lt : index % tower.stepsPerColumn < tower.stepsPerColumn :=
    Nat.mod_lt _ (Nat.le_max_right _ _)
  have row_le : index % tower.stepsPerColumn ≤ index := Nat.mod_le _ _
  constructor
  · exact List.mem_map_of_mem
      (List.mem_range.mpr (Nat.lt_of_le_of_lt row_le (List.mem_range.mp inside)))
  · show (index % tower.stepsPerColumn / tower.stepsPerColumn + 1,
      index % tower.stepsPerColumn % tower.stepsPerColumn + 1) =
        (1, index % tower.stepsPerColumn + 1)
    rw [Nat.div_eq_of_lt row_lt, Nat.mod_eq_of_lt row_lt]

/-- The sweep visits places of its grid in strictly ascending order, all of them where they are no
more than the cap.  Steps of one column have one temperature.  Where every column has its own ramp,
steps of one row have one flow, which is that of the row in the first column. -/
theorem sweepEntries_in_order (tower : Tower) :
    tower.sweepEntries.map SweepEntry.place =
        (columnwise tower.settings.temperatureColumns tower.settings.flowSteps).take
          maxSweepSteps ∧
    (∀ entry ∈ tower.sweepEntries,
      (1 ≤ entry.column ∧ entry.column ≤ tower.settings.temperatureColumns) ∧
        1 ≤ entry.row ∧ entry.row ≤ tower.settings.flowSteps) ∧
    (tower.sweepEntries.map SweepEntry.place).Pairwise Precedes ∧
    (tower.settings.flowSteps * tower.settings.temperatureColumns ≤ maxSweepSteps →
      ∀ column row, 1 ≤ column → column ≤ tower.settings.temperatureColumns →
        1 ≤ row → row ≤ tower.settings.flowSteps →
          ∃ entry ∈ tower.sweepEntries, entry.column = column ∧ entry.row = row) ∧
    (∀ first ∈ tower.sweepEntries, ∀ second ∈ tower.sweepEntries,
      first.column = second.column → first.temperature = second.temperature) ∧
    (tower.settings.mode = .matrix →
      (∀ first ∈ tower.sweepEntries, ∀ second ∈ tower.sweepEntries,
        first.row = second.row → first.flow = second.flow) ∧
      ∀ entry ∈ tower.sweepEntries, ∃ head ∈ tower.sweepEntries,
        head.column = 1 ∧ head.row = entry.row ∧ head.flow = entry.flow) := by
  have visited := tower.map_place_sweepEntries
  refine ⟨visited, fun entry member => mem_columnwise.mp (place_mem_columnwise member), ?_, ?_, ?_,
    ?_⟩
  · rw [visited]
    exact (pairwise_columnwise _ _).sublist (List.take_sublist _ _)
  · intro uncut column row column_pos column_le row_pos row_le
    obtain ⟨entry, member, place_eq⟩ := exists_entry_of_uncut uncut
      (mem_columnwise.mpr ⟨⟨column_pos, column_le⟩, row_pos, row_le⟩)
    exact ⟨entry, member, congrArg Prod.fst place_eq, congrArg Prod.snd place_eq⟩
  · intro first first_mem second second_mem same
    obtain ⟨_, _, rfl⟩ := List.mem_map.mp first_mem
    obtain ⟨_, _, rfl⟩ := List.mem_map.mp second_mem
    rw [temperature_entry, temperature_entry, same]
  · intro ramps
    constructor
    · intro first first_mem second second_mem same
      rw [flow_of_mem ramps first_mem, flow_of_mem ramps second_mem, same]
    · intro entry member
      obtain ⟨head_mem, head_place⟩ := entry_row_mem member
      have row_eq := congrArg Prod.snd head_place
      refine ⟨_, head_mem, congrArg Prod.fst head_place, row_eq, ?_⟩
      rw [flow_of_mem ramps head_mem, flow_of_mem ramps member]
      exact congrArg (fun row => flowAfter tower.settings (row - 1)) row_eq

end Tower

end FlowCalibration
