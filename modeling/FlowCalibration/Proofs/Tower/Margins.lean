import FlowCalibration.Proofs.Decimal.Counts
import FlowCalibration.Tower.Layout
import Mathlib.Data.Rat.Floor
import Mathlib.Tactic.Linarith

/-!
# Cells and margins of the bed

The layout is computed with doubles.  Here the same computation is written for any numbers, so that
it can be read once with doubles, where it is the layout of the program, and once with rational
numbers, where nothing is rounded.  Computed exactly, every calibration line keeps the margins
along X, and a cell keeps those along Y exactly when its row is not pushed over the border by a
negative margin.
-/

namespace FlowCalibration

namespace Double

/-- The rational number that a finite double stands for; zero for any other double. -/
def exact (value : Float) : ℚ :=
  let binary := Binary64.ofFloat value
  if binary.isFinite then
    (if binary.negative then -1 else 1) * (Magnitude.units binary.code / Magnitude.one)
  else 0

theorem exact_ofCount {count : Nat} (positive : 0 < count) (bounded : count < 2 ^ 53) :
    exact (ofCount count) = count := by
  have one_ne : (Magnitude.one : ℚ) ≠ 0 := Nat.cast_ne_zero.mpr (by decide)
  have finite : Binary64.isFinite ⟨false, Magnitude.codeOfCount count⟩ = true :=
    decide_eq_true (Magnitude.codeOfCount_lt positive bounded)
  rw [exact, Binary64.ofFloat_ofCount positive bounded, finite]
  rw [Magnitude.units_codeOfCount positive bounded, Nat.cast_mul, mul_div_cancel_right₀ _ one_ne]
  exact one_mul _

theorem exact_zero : exact 0.0 = 0 := by
  have parts : Binary64.ofFloat 0.0 = ⟨false, 0⟩ := by decide +kernel
  have units_zero : Magnitude.units 0 = 0 := by decide
  rw [exact, parts, units_zero, Nat.cast_zero, zero_div, mul_zero]
  exact ite_self _

theorem exact_two : exact 2.0 = 2 := by
  have two : (2.0 : Float) = ofCount 2 := by decide +kernel
  rw [two, exact_ofCount Nat.two_pos (by decide), Nat.cast_ofNat]

end Double

/-- What the layout asks of numbers besides their arithmetic. -/
class Measure (α : Type) where
  /-- A setting as a number. -/
  ofFloat : Float → α
  /-- A count as a number. -/
  ofCount : Nat → α
  /-- Absolute value. -/
  abs : α → α
  /-- Largest whole number that is not above. -/
  floor : α → α
  /-- The smaller of two numbers. -/
  min : α → α → α
  /-- The larger of two numbers. -/
  max : α → α → α
  /-- Whether the number is neither infinite nor undefined. -/
  isFinite : α → Bool
  /-- Whole part as a count. -/
  toCount : α → Nat

instance : Measure Float where
  ofFloat := id
  ofCount := Double.ofCount
  abs := Float.abs
  floor := Double.floor
  min := Double.min
  max := Double.max
  isFinite := Float.isFinite
  toCount := Double.toCount

instance : Measure ℚ where
  ofFloat := Double.exact
  ofCount := Nat.cast
  abs value := |value|
  floor value := ⌊value⌋
  min := min
  max := max
  isFinite _ := true
  toCount value := ⌊value⌋.toNat

/-- A cell of the grid, with numbers of any kind. -/
structure Spot (α : Type) where
  /-- Column, from one. -/
  column : Nat
  /-- Row within the column, from one. -/
  row : Nat
  /-- X of the corner. -/
  x : α
  /-- Y of the corner. -/
  y : α

namespace Measure

open Double

section

variable (α : Type) [Add α] [Sub α] [Mul α] [Div α] [Neg α] [LE α] [LT α] [DecidableLE α]
  [DecidableLT α] [Measure α]

/-- Distance between neighbouring columns. -/
def columnPitch (settings : Settings) : α :=
  ofFloat settings.primeLength + ofFloat settings.wipeLength + ofFloat settings.xSpacing

/-- Number of cells of a pitch that fit a span. -/
def cellsAlong (span pitch : α) : Nat :=
  let cells := floor (span / pitch)
  if pitch ≤ ofFloat 0.0 || !isFinite cells || cells < ofFloat 1.0 then 1
  else Nat.min (toCount cells) Tower.maxCellsPerAxis

/-- Number of columns of the grid. -/
def maxColumns (settings : Settings) : Nat :=
  cellsAlong α (ofFloat settings.bedWidth - ofFloat 2.0 * abs (ofFloat settings.marginX))
    (columnPitch α settings)

/-- Number of rows of the grid. -/
def maxRows (settings : Settings) : Nat :=
  cellsAlong α (ofFloat settings.bedLength - ofFloat 2.0 * abs (ofFloat settings.marginY))
    (ofFloat settings.ySpacing)

/-- X of a column, counted from zero. -/
def columnX (settings : Settings) (column : Nat) : α :=
  abs (ofFloat settings.marginX) + ofCount column * columnPitch α settings

/-- Y of a row, counted from zero. -/
def rowY (settings : Settings) (row : Nat) : α :=
  match settings.direction with
  | .backToFront =>
      ofFloat settings.bedLength - ofFloat settings.marginY -
        ofCount row * ofFloat settings.ySpacing
  | .mirrored =>
      ofFloat 0.0 - -ofFloat settings.marginY - ofCount row * -ofFloat settings.ySpacing

/-- Whether a point lies in a rectangle or on its border. -/
def contains (rect : Rect) (x y : α) : Bool :=
  let right := ofFloat rect.x + ofFloat rect.width
  let back := ofFloat rect.y + ofFloat rect.depth
  decide (x ≥ min (ofFloat rect.x) right) && decide (x ≤ max (ofFloat rect.x) right) &&
    decide (y ≥ min (ofFloat rect.y) back) && decide (y ≤ max (ofFloat rect.y) back)

/-- The cells that can be used, column by column. -/
def spots (tower : Tower) : List (Spot α) :=
  ((List.range (maxColumns α tower.settings)).flatMap fun column =>
    (List.range (maxRows α tower.settings)).map fun row =>
      { column := column + 1, row := row + 1
        x := columnX α tower.settings column, y := rowY α tower.settings row }).filter
    fun spot => !tower.profile.excludedAreas.any fun rect => contains α rect spot.x spot.y

end

/-- A cell of the program's layout. -/
def ofCell (cell : Cell) : Spot Float :=
  ⟨cell.column, cell.row, cell.corner.x, cell.corner.y⟩

theorem spots_float (tower : Tower) : spots Float tower = tower.layout.cells.map ofCell := by
  have excluded (cell : Cell) :
      (tower.profile.excludedAreas.any fun rect =>
        contains Float rect (ofCell cell).x (ofCell cell).y) =
        tower.profile.isExcluded cell.corner := rfl
  have cells : tower.grid.map ofCell =
      (List.range (maxColumns Float tower.settings)).flatMap fun column =>
        (List.range (maxRows Float tower.settings)).map fun row =>
          ⟨column + 1, row + 1, columnX Float tower.settings column,
            rowY Float tower.settings row⟩ := by
    rw [Tower.grid, List.map_flatMap]
    simp only [List.map_map]
    rfl
  rw [spots, ← cells, List.filter_map]
  simp only [Function.comp_def, excluded]
  rfl

/-! ## Exact cells -/

/-- The cells along an axis fill at most the span, where one of them fits. -/
theorem cellsAlong_mul_le {span pitch : ℚ} (positive : 0 < pitch) (fits : pitch ≤ span) :
    cellsAlong ℚ span pitch * pitch ≤ span := by
  have quotient_pos : 0 ≤ span / pitch := div_nonneg (positive.le.trans fits) positive.le
  simp only [cellsAlong]
  split
  next => rwa [Nat.cast_one, one_mul]
  next =>
    have count_le : Nat.min (toCount (floor (span / pitch))) Tower.maxCellsPerAxis ≤
        ⌊span / pitch⌋.toNat := by
      calc
        Nat.min (toCount (floor (span / pitch))) Tower.maxCellsPerAxis
            ≤ ⌊((⌊span / pitch⌋ : ℤ) : ℚ)⌋.toNat := Nat.min_le_left _ _
        _ = ⌊span / pitch⌋.toNat := by rw [Int.floor_intCast]
    have whole_le : (⌊span / pitch⌋.toNat : ℚ) ≤ span / pitch := by
      have whole : ((⌊span / pitch⌋.toNat : ℤ) : ℚ) = ⌊span / pitch⌋ := by
        rw [Int.toNat_of_nonneg (Int.floor_nonneg.mpr quotient_pos)]
      calc
        (⌊span / pitch⌋.toNat : ℚ) = ⌊span / pitch⌋ := by exact_mod_cast whole
        _ ≤ span / pitch := Int.floor_le _
    calc
      (Nat.min (toCount (floor (span / pitch))) Tower.maxCellsPerAxis : ℚ) * pitch
          ≤ span / pitch * pitch :=
        mul_le_mul_of_nonneg_right ((Nat.cast_le.mpr count_le).trans whole_le) positive.le
      _ = span := div_mul_cancel₀ span positive.ne'

theorem succ_mul_le {span pitch : ℚ} (positive : 0 < pitch) (fits : pitch ≤ span) {index : Nat}
    (inside : index < cellsAlong ℚ span pitch) : (index + 1) * pitch ≤ span := by
  have succ_le : (index + 1 : ℚ) ≤ cellsAlong ℚ span pitch := by exact_mod_cast inside
  calc
    (index + 1) * pitch ≤ cellsAlong ℚ span pitch * pitch :=
      mul_le_mul_of_nonneg_right succ_le positive.le
    _ ≤ span := cellsAlong_mul_le positive fits

theorem exists_of_mem_spots {tower : Tower} {spot : Spot ℚ} (member : spot ∈ spots ℚ tower) :
    ∃ column < maxColumns ℚ tower.settings, ∃ row < maxRows ℚ tower.settings,
      spot = ⟨column + 1, row + 1, columnX ℚ tower.settings column,
        rowY ℚ tower.settings row⟩ := by
  obtain ⟨member, -⟩ := List.mem_filter.mp member
  obtain ⟨column, column_lt, member⟩ := List.mem_flatMap.mp member
  obtain ⟨row, row_lt, spot_eq⟩ := List.mem_map.mp member
  exact ⟨column, List.mem_range.mp column_lt, row, List.mem_range.mp row_lt, spot_eq.symm⟩

/-- A distance from the border at which the rows start keeps both margins exactly when a negative
margin does not reach beyond it. -/
theorem distance_within_iff {length margin offset : ℚ} (nonneg : 0 ≤ offset)
    (fits : offset ≤ length - 2 * |margin|) :
    (|margin| ≤ margin + offset ∧ margin + offset ≤ length - |margin|) ↔
      0 ≤ margin ∨ 2 * |margin| ≤ offset := by
  rcases le_or_gt 0 margin with positive | negative
  · rw [abs_of_nonneg positive] at fits ⊢
    constructor
    · intro
      exact .inl positive
    · intro
      constructor <;> linarith
  · rw [abs_of_neg negative] at fits ⊢
    constructor
    · rintro ⟨front, -⟩
      right
      linarith
    · rintro (positive | beyond)
      · exact absurd positive negative.not_ge
      · constructor <;> linarith

/-- Computed exactly, the bed fits at least one column and one row between its margins. -/
structure HasRoom (settings : Settings) : Prop where
  /-- Columns are not closer than their calibration lines. -/
  gap : 0 ≤ exact settings.xSpacing
  /-- A column takes some width. -/
  column_pos : 0 < columnPitch ℚ settings
  /-- A column fits between the margins along X. -/
  column_le : columnPitch ℚ settings ≤
    exact settings.bedWidth - 2 * |exact settings.marginX|
  /-- A row takes some depth. -/
  row_pos : 0 < exact settings.ySpacing
  /-- A row fits between the margins along Y. -/
  row_le : exact settings.ySpacing ≤
    exact settings.bedLength - 2 * |exact settings.marginY|

variable {settings : Settings}

/-- A row lies within the margins exactly when a negative margin does not push it over the
border. -/
theorem rowY_within_iff (room : HasRoom settings) {row : Nat}
    (inside : row < maxRows ℚ settings) :
    (|exact settings.marginY| ≤ rowY ℚ settings row ∧
        rowY ℚ settings row ≤ exact settings.bedLength - |exact settings.marginY|) ↔
      0 ≤ exact settings.marginY ∨
        2 * |exact settings.marginY| ≤ row * exact settings.ySpacing := by
  have span : (row + 1) * exact settings.ySpacing ≤
      exact settings.bedLength - 2 * |exact settings.marginY| := by
    apply succ_mul_le room.row_pos room.row_le
    rw [← exact_two]
    exact inside
  have offset_nonneg : 0 ≤ (row : ℚ) * exact settings.ySpacing :=
    mul_nonneg row.cast_nonneg room.row_pos.le
  have offset_le : (row : ℚ) * exact settings.ySpacing ≤
      exact settings.bedLength - 2 * |exact settings.marginY| := by linarith [room.row_pos]
  have distance := distance_within_iff offset_nonneg offset_le
  cases direction : settings.direction with
  | backToFront =>
      have row_eq : rowY ℚ settings row = exact settings.bedLength - exact settings.marginY -
          row * exact settings.ySpacing := by
        rw [rowY, direction]
        rfl
      rw [row_eq, ← distance]
      constructor <;> rintro ⟨front, back⟩ <;> constructor <;> linarith
  | mirrored =>
      have row_eq : rowY ℚ settings row =
          exact settings.marginY + row * exact settings.ySpacing := by
        calc
          rowY ℚ settings row =
              exact 0.0 - -exact settings.marginY - row * -exact settings.ySpacing := by
            rw [rowY, direction]
            rfl
          _ = exact settings.marginY + row * exact settings.ySpacing := by
            rw [exact_zero]
            ring
      rw [row_eq]
      exact distance

theorem columnX_within (room : HasRoom settings) {column : Nat}
    (inside : column < maxColumns ℚ settings) :
    |exact settings.marginX| ≤ columnX ℚ settings column ∧
      columnX ℚ settings column + exact settings.primeLength + exact settings.wipeLength ≤
        exact settings.bedWidth - |exact settings.marginX| := by
  have span : (column + 1) * columnPitch ℚ settings ≤
      exact settings.bedWidth - 2 * |exact settings.marginX| := by
    apply succ_mul_le room.column_pos room.column_le
    rw [← exact_two]
    exact inside
  have offset_nonneg : 0 ≤ (column : ℚ) * columnPitch ℚ settings :=
    mul_nonneg column.cast_nonneg room.column_pos.le
  have column_eq : columnX ℚ settings column =
      |exact settings.marginX| + column * columnPitch ℚ settings := rfl
  have pitch_eq : columnPitch ℚ settings =
      exact settings.primeLength + exact settings.wipeLength + exact settings.xSpacing := rfl
  constructor
  · linarith
  · calc
      columnX ℚ settings column + exact settings.primeLength + exact settings.wipeLength
          ≤ |exact settings.marginX| + (column + 1) * columnPitch ℚ settings := by
        rw [column_eq, add_one_mul]
        linarith [room.gap]
      _ ≤ exact settings.bedWidth - |exact settings.marginX| := by linarith

end Measure

namespace Tower

open Double

/-- Computed exactly, on a bed that fits at least one cell, every calibration line keeps the
margins along X, and it keeps those along Y exactly when the margin is not negative or its row lies
at least twice that far from the border. -/
theorem spots_within_margins_iff {tower : Tower} (room : Measure.HasRoom tower.settings) :
    Measure.spots Float tower = tower.layout.cells.map Measure.ofCell ∧
      ∀ spot ∈ Measure.spots ℚ tower,
        (|exact tower.settings.marginX| ≤ spot.x ∧
          spot.x + exact tower.settings.primeLength + exact tower.settings.wipeLength ≤
            exact tower.settings.bedWidth - |exact tower.settings.marginX|) ∧
        ((|exact tower.settings.marginY| ≤ spot.y ∧
            spot.y ≤ exact tower.settings.bedLength - |exact tower.settings.marginY|) ↔
          0 ≤ exact tower.settings.marginY ∨
            2 * |exact tower.settings.marginY| ≤
              (spot.row - 1 : Nat) * exact tower.settings.ySpacing) := by
  refine ⟨Measure.spots_float tower, ?_⟩
  intro spot member
  obtain ⟨column, column_lt, row, row_lt, rfl⟩ := Measure.exists_of_mem_spots member
  exact ⟨Measure.columnX_within room column_lt, Measure.rowY_within_iff room row_lt⟩

/-- A run whose margin along Y is negative. -/
def negativeMargin : Tower :=
  ⟨{ bedWidth := 100.0, bedLength := 100.0, bedMarginX := some 10.0, bedMarginY := some (-10.0)
     flowSteps := 3 },
    { model := "A", buildVolume := ⟨100.0, 100.0, 100.0⟩ }⟩

theorem negativeMargin_hasRoom : Measure.HasRoom negativeMargin.settings where
  gap := by decide +kernel
  column_pos := by decide +kernel
  column_le := by decide +kernel
  row_pos := by decide +kernel
  row_le := by decide +kernel

theorem spots_within_margins_iff_negativeMargin :
    Measure.HasRoom negativeMargin.settings ∧
    Measure.spots Float negativeMargin = negativeMargin.layout.cells.map Measure.ofCell ∧
      ∀ spot ∈ Measure.spots ℚ negativeMargin,
        (|exact negativeMargin.settings.marginX| ≤ spot.x ∧
          spot.x + exact negativeMargin.settings.primeLength +
              exact negativeMargin.settings.wipeLength ≤
            exact negativeMargin.settings.bedWidth - |exact negativeMargin.settings.marginX|) ∧
        ((|exact negativeMargin.settings.marginY| ≤ spot.y ∧
            spot.y ≤ exact negativeMargin.settings.bedLength -
              |exact negativeMargin.settings.marginY|) ↔
          0 ≤ exact negativeMargin.settings.marginY ∨
            2 * |exact negativeMargin.settings.marginY| ≤
              (spot.row - 1 : Nat) * exact negativeMargin.settings.ySpacing) :=
  ⟨negativeMargin_hasRoom, spots_within_margins_iff negativeMargin_hasRoom⟩

/-- The bed of this run fits a column and a row, with every length positive, but the first of its
three rows lies behind the bed. -/
theorem negativeMargin_outside :
    (0 ≤ exact negativeMargin.settings.primeLength ∧
      0 ≤ exact negativeMargin.settings.wipeLength ∧ Measure.HasRoom negativeMargin.settings) ∧
    (¬ ∀ spot ∈ Measure.spots ℚ negativeMargin,
      |exact negativeMargin.settings.marginY| ≤ spot.y ∧
        spot.y ≤ exact negativeMargin.settings.bedLength -
          |exact negativeMargin.settings.marginY|) ∧
    negativeMargin.layout.cells.map (fun cell => cell.corner.y) = [110.0, 85.0, 60.0] := by
  refine ⟨⟨?prime, ?wipe, negativeMargin_hasRoom⟩, ?outside, ?layout⟩
  case prime => decide +kernel
  case wipe => decide +kernel
  case outside => decide +kernel
  case layout => decide +kernel

end Tower

end FlowCalibration
