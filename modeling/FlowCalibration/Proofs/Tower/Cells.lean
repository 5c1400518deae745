import FlowCalibration.Proofs.Data.Columnwise
import FlowCalibration.Proofs.Tower.Overflow

/-!
# Cells beside excluded areas

The grid of a run does not depend on the excluded areas of its printer; they only take cells out of
it.  So a cell can be used exactly when none of the areas covers its corner, whatever their order
and however often an area is listed.
-/

namespace FlowCalibration

namespace Rect

/-- Whether a number lies between two others, whichever of these is the smaller. -/
def Between (first second value : Float) : Prop :=
  first ≤ value ∧ value ≤ second ∨ second ≤ value ∧ value ≤ first

theorem between_iff {first second : Float} (first_finite : first.isFinite = true)
    (second_finite : second.isFinite = true) (value : Float) :
    Double.min first second ≤ value ∧ value ≤ Double.max first second ↔
      Between first second value := by
  obtain ⟨least, lower⟩ := Double.isLeast_min first_finite second_finite
  obtain ⟨greatest, upper⟩ := Double.isGreatest_max first_finite second_finite
  rw [Set.mem_insert_iff, Set.mem_singleton_iff] at least greatest
  have above_iff : Double.min first second ≤ value ↔ first ≤ value ∨ second ≤ value := by
    constructor
    · intro above
      rcases least with same | same <;> rw [same] at above
      · exact .inl above
      · exact .inr above
    · exact Or.rec (Double.le_trans (lower (.inl rfl))) (Double.le_trans (lower (.inr rfl)))
  have below_iff : value ≤ Double.max first second ↔ value ≤ first ∨ value ≤ second := by
    constructor
    · intro below
      rcases greatest with same | same <;> rw [same] at below
      · exact .inl below
      · exact .inr below
    · exact Or.rec (Double.le_trans · (upper (.inl rfl))) (Double.le_trans · (upper (.inr rfl)))
  have ordered : first ≤ second ∨ second ≤ first :=
    or_iff_not_imp_left.mpr (Double.le_of_not_le first_finite second_finite)
  rw [above_iff, below_iff]
  constructor
  · rintro ⟨above | above, below | below⟩
    · rcases ordered with ordered | ordered
      · exact .inl ⟨above, Double.le_trans below ordered⟩
      · exact .inr ⟨Double.le_trans ordered above, below⟩
    · exact .inl ⟨above, below⟩
    · exact .inr ⟨above, below⟩
    · rcases ordered with ordered | ordered
      · exact .inl ⟨Double.le_trans ordered above, below⟩
      · exact .inr ⟨above, Double.le_trans below ordered⟩
  · rintro (⟨above, below⟩ | ⟨above, below⟩)
    · exact ⟨.inl above, .inr below⟩
    · exact ⟨.inr above, .inl below⟩

/-- A rectangle covers the points between its corner and the opposite one.  Its borders belong to
it, and a negative extent puts the opposite corner on the other side. -/
theorem contains_iff {rect : Rect} (x : rect.x.isFinite = true)
    (across : (rect.x + rect.width).isFinite = true) (y : rect.y.isFinite = true)
    (along : (rect.y + rect.depth).isFinite = true) (point : Point) :
    rect.contains point = true ↔
      Between rect.x (rect.x + rect.width) point.x ∧
        Between rect.y (rect.y + rect.depth) point.y := by
  rw [← between_iff x across, ← between_iff y along, contains]
  simp only [Bool.and_eq_true, decide_eq_true_eq, and_assoc]
  exact Iff.rfl

end Rect

namespace Cell

/-- Column and row of a cell. -/
def place (cell : Cell) : Nat × Nat :=
  (cell.column, cell.row)

end Cell

namespace Tower

/-- The run on a printer with other excluded areas. -/
def withAreas (tower : Tower) (areas : List Rect) : Tower :=
  { tower with profile := { tower.profile with excludedAreas := areas } }

/-- Corner of the cell in a column and a row, both counted from one. -/
def cornerAt (settings : Settings) (place : Nat × Nat) : Point :=
  ⟨columnX settings (place.1 - 1), rowY settings (place.2 - 1)⟩

theorem grid_eq (tower : Tower) :
    tower.grid = (columnwise tower.maxColumns tower.maxRows).map fun place =>
      ⟨place.1, place.2, cornerAt tower.settings place⟩ := by
  simp only [grid, columnwise, List.range'_eq_map_range, List.flatMap_map, List.map_flatMap,
    List.map_map]
  refine List.flatMap_congr fun column _ => List.map_congr_left fun row _ => ?_
  simp only [cell, cornerAt, Function.comp_apply, Nat.add_comm 1, Nat.add_sub_cancel]

theorem map_place_grid (tower : Tower) :
    tower.grid.map Cell.place = columnwise tower.maxColumns tower.maxRows := by
  rw [grid_eq, List.map_map]
  exact List.map_id _

/-- A cell can be used when no area covers its corner. -/
theorem cells_withAreas (tower : Tower) (areas : List Rect) :
    (tower.withAreas areas).layout.cells =
      tower.grid.filter fun cell => areas.all fun area => !area.contains cell.corner := by
  refine List.filter_congr fun cell _ => ?_
  rw [PrinterProfile.isExcluded, List.not_any_eq_all_not]
  rfl

/-- Further areas take out the cells that they cover. -/
theorem cells_withAreas_append (tower : Tower) (areas further : List Rect) :
    (tower.withAreas (areas ++ further)).layout.cells =
      (tower.withAreas areas).layout.cells.filter fun cell =>
        further.all fun area => !area.contains cell.corner := by
  simp only [cells_withAreas, List.filter_filter, List.all_append, Bool.and_comm]

/-- Only which areas are listed counts. -/
theorem cells_withAreas_congr (tower : Tower) {areas others : List Rect}
    (same : ∀ area, area ∈ areas ↔ area ∈ others) :
    (tower.withAreas areas).layout.cells = (tower.withAreas others).layout.cells := by
  rw [cells_withAreas, cells_withAreas]
  refine List.filter_congr fun cell _ => ?_
  rw [Bool.eq_iff_iff, List.all_eq_true, List.all_eq_true]
  exact forall_congr' fun area => imp_congr_left (same area)

theorem pairwise_cells (tower : Tower) :
    (tower.layout.cells.map Cell.place).Pairwise Precedes := by
  have ascending := pairwise_columnwise tower.maxColumns tower.maxRows
  rw [← map_place_grid] at ascending
  exact ascending.sublist (List.filter_sublist.map Cell.place)

/-- Every cell of the grid can be used or is excluded. -/
theorem sitesPerPlate_add_countP (tower : Tower) :
    tower.layout.sitesPerPlate +
        (columnwise tower.maxColumns tower.maxRows).countP
          (fun place => tower.profile.isExcluded (cornerAt tower.settings place)) =
      tower.maxColumns * tower.maxRows := by
  have excluded : (columnwise tower.maxColumns tower.maxRows).countP
      (fun place => tower.profile.isExcluded (cornerAt tower.settings place)) =
        tower.grid.countP fun cell => tower.profile.isExcluded cell.corner := by
    rw [grid_eq, List.countP_map]
    rfl
  have split := tower.grid.length_eq_countP_add_countP
    fun cell => tower.profile.isExcluded cell.corner
  rw [excluded, ← length_grid, split, Nat.add_comm, Layout.sitesPerPlate, layout,
    ← List.countP_eq_length_filter]
  simp only [Bool.not_eq_true, Bool.decide_eq_false]

/-- Excluded areas only remove the cells that they cover.  With further areas the cells are those
from before that none of these covers; the order of the areas and their repetition do not matter;
the size of the grid does not depend on them.  The cells are in strictly ascending order, and with
the excluded ones they make up the grid. -/
theorem layout_withAreas (tower : Tower) :
    (∀ areas further : List Rect,
      (tower.withAreas (areas ++ further)).layout.cells =
        (tower.withAreas areas).layout.cells.filter fun cell =>
          further.all fun area => !area.contains cell.corner) ∧
    (∀ areas others : List Rect, (∀ area, area ∈ areas ↔ area ∈ others) →
      (tower.withAreas areas).layout = (tower.withAreas others).layout) ∧
    (∀ areas others : List Rect,
      (tower.withAreas areas).layout.maxColumns = (tower.withAreas others).layout.maxColumns ∧
      (tower.withAreas areas).layout.maxRows = (tower.withAreas others).layout.maxRows) ∧
    (∀ areas : List Rect,
      ((tower.withAreas areas).layout.cells.map Cell.place).Pairwise Precedes) ∧
    ∀ areas : List Rect,
      (tower.withAreas areas).layout.sitesPerPlate +
          (columnwise (tower.withAreas areas).layout.maxColumns
            (tower.withAreas areas).layout.maxRows).countP
            (fun place => areas.any (·.contains (cornerAt tower.settings place))) =
        (tower.withAreas areas).layout.maxColumns * (tower.withAreas areas).layout.maxRows := by
  refine ⟨tower.cells_withAreas_append, ?_, fun _ _ => ⟨rfl, rfl⟩,
    fun areas => (tower.withAreas areas).pairwise_cells,
    fun areas => (tower.withAreas areas).sitesPerPlate_add_countP⟩
  intro areas others same
  exact congrArg (Layout.mk tower.maxColumns tower.maxRows · tower.settings.totalSteps)
    (tower.cells_withAreas_congr same)

/-- An area of negative extents takes out the one cell whose corner is the corner of the area. -/
example :
    let tower : Tower := ⟨{}, { model := "A", buildVolume := ⟨180.0, 180.0, 180.0⟩ }⟩
    let area (corner : Point) : Rect := ⟨corner.x, corner.y, -5.0, -5.0⟩
    tower.layout.cells.head?.map (fun first =>
      (tower.withAreas [area first.corner]).layout.cells) = some tower.layout.cells.tail := by
  decide +kernel

end Tower

end FlowCalibration
