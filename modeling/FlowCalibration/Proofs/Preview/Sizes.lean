import FlowCalibration.Proofs.Decimal.Arithmetic
import FlowCalibration.Proofs.Decimal.Canonical
import FlowCalibration.Proofs.Preview.Bounds
import FlowCalibration.Proofs.Preview.Labels

/-!
# Sizes of pictures

A run that stays on the bed does not change the size of the picture: that is the bed with the margin
on both sides.  The box of such a run starts at zero, so its extents are not rounded; the larger of
the extent and the size of the bed is the size of the bed, up to the sign of zero.  Only a bed of
negative size, on which no run stays that goes anywhere, gives way to the box of the origin.
-/

namespace FlowCalibration

open Double (number unsignedZero)

/-- Whether a point lies on the bed or on its border. -/
def OnBed (options : ViewOptions) (point : Point) : Prop :=
  0.0 ≤ point.x ∧ point.x ≤ options.bedWidth ∧ 0.0 ≤ point.y ∧ point.y ≤ options.bedLength

instance (options : ViewOptions) (point : Point) : Decidable (OnBed options point) :=
  inferInstanceAs (Decidable (_ ∧ _ ∧ _ ∧ _))

/-- Room that a bed takes along one axis: its size, or none if that is negative. -/
def bedRoom (size : Float) : Float :=
  if size < 0.0 then 0.0 else size

/-- The sizes that a picture states. -/
def viewBox? (document : String) : Option String :=
  (Markup.elements document).head?.bind fun root => root.attributes.lookup "viewBox"

/-! ## One axis -/

section

variable {size : Float} (size_finite : size.isFinite = true)
include size_finite

theorem isGreatest_bedRoom : IsGreatest {0.0, size} (bedRoom size) := by
  have zero_finite : (0.0 : Float).isFinite = true := by decide
  have zero_le : (0.0 : Float) ≤ 0.0 := by decide
  rw [bedRoom]
  split
  next negative =>
    exact ⟨.inl rfl, by simp [upperBounds, zero_le, Double.le_of_lt negative]⟩
  next notNegative =>
    rw [Double.lt_iff_not_le size_finite zero_finite, not_not] at notNegative
    exact ⟨.inr rfl, by simp [upperBounds, notNegative, Double.le_refl size_finite]⟩

theorem zero_le_bedRoom : 0.0 ≤ bedRoom size :=
  (isGreatest_bedRoom size_finite).2 (.inl rfl)

theorem le_bedRoom : size ≤ bedRoom size :=
  (isGreatest_bedRoom size_finite).2 (.inr rfl)

/-- An extent that the bed has room for does not matter beside the size of the bed. -/
theorem unsignedZero_max_eq {extent : Float} (extent_finite : extent.isFinite = true)
    (nonnegative : 0.0 ≤ extent) (fits : extent ≤ bedRoom size) :
    unsignedZero (Double.max size extent) = unsignedZero (bedRoom size) := by
  obtain ⟨chosen, above⟩ := Double.isGreatest_max size_finite extent_finite
  apply Double.le_antisymm
  · rcases chosen with own | other
    · rw [own]
      exact le_bedRoom size_finite
    · rwa [other]
  · rcases (isGreatest_bedRoom size_finite).1 with zero | own
    · rw [zero]
      exact Double.le_trans nonnegative (above (.inr rfl))
    · rw [own]
      exact above (.inl rfl)

/-- Coordinates on the bed, zero among them, leave it at the size of the bed. -/
theorem number_max_extent {values : Set Float} {least greatest : Float} (margin : Float)
    (finite : ∀ value ∈ values, value.isFinite = true) (start : 0.0 ∈ values)
    (within : ∀ value ∈ values, 0.0 ≤ value ∧ value ≤ bedRoom size)
    (isLeast : IsLeast values least) (isGreatest : IsGreatest values greatest) :
    number (Double.max size (greatest - least) + margin) = number (bedRoom size + margin) := by
  have least_zero : unsignedZero least = 0.0 :=
    Double.le_antisymm (isLeast.2 start) (within least isLeast.1).1
  -- Taking the least coordinate away does not round, as it is a zero.
  have extent_eq : unsignedZero (greatest - least) = unsignedZero greatest :=
    Double.unsignedZero_sub_zero least_zero greatest
  obtain ⟨nonnegative, fits⟩ := within greatest isGreatest.1
  have extent_nonnegative : 0.0 ≤ greatest - least := by
    rwa [← Double.le_unsignedZero_iff, extent_eq, Double.le_unsignedZero_iff]
  have extent_fits : greatest - least ≤ bedRoom size := by
    rwa [← Double.unsignedZero_le_iff, extent_eq, Double.unsignedZero_le_iff]
  have extent_finite : (greatest - least).isFinite = true := by
    rw [← Double.isFinite_unsignedZero, extent_eq, Double.isFinite_unsignedZero]
    exact finite greatest isGreatest.1
  calc
    number (Double.max size (greatest - least) + margin)
      = number (unsignedZero (Double.max size (greatest - least)) + margin) := by
        rw [← Double.number_unsignedZero, ← Double.unsignedZero_add, Double.number_unsignedZero]
    _ = number (unsignedZero (bedRoom size) + margin) := by
        rw [unsignedZero_max_eq size_finite extent_finite extent_nonnegative extent_fits]
    _ = number (bedRoom size + margin) := by
        rw [← Double.number_unsignedZero, Double.unsignedZero_add, Double.number_unsignedZero]

end

/-! ## Both axes -/

theorem viewBox_render (options : ViewOptions) (program : String) :
    let frame := SceneFrame.of options (Extents.ofEvents (replay program).1)
    viewBox? (render options program) =
      some ("0 0 " ++ number frame.width ++ " " ++ number frame.height) := by
  intro frame
  rw [viewBox?, elements_render]
  rfl

/-- The points that a run on the bed visits, the origin among them, lie in the room of the bed. -/
theorem within_of_onBed {options : ViewOptions} {events : List Event}
    (width_finite : options.bedWidth.isFinite = true)
    (length_finite : options.bedLength.isFinite = true)
    (onBed : ∀ event ∈ events, ∀ point ∈ event.visited, OnBed options point) :
    ∀ point ∈ visitedPoints events,
      (0.0 ≤ point.x ∧ point.x ≤ bedRoom options.bedWidth) ∧
        0.0 ≤ point.y ∧ point.y ≤ bedRoom options.bedLength := by
  have zero_le : (0.0 : Float) ≤ 0.0 := by decide
  rintro point (rfl | ⟨event, event_mem, point_mem⟩)
  · exact ⟨⟨zero_le, zero_le_bedRoom width_finite⟩, zero_le, zero_le_bedRoom length_finite⟩
  · obtain ⟨x_nonnegative, x_le, y_nonnegative, y_le⟩ := onBed event event_mem point point_mem
    exact ⟨⟨x_nonnegative, Double.le_trans x_le (le_bedRoom width_finite)⟩,
      y_nonnegative, Double.le_trans y_le (le_bedRoom length_finite)⟩

/-- A run that stays on the bed, wherever it renames its position or makes a move that leaves its
place, has a picture of the size of the bed and the margins, whatever else its program does. -/
theorem viewBox_render_of_onBed (options : ViewOptions) (program : String)
    (width_finite : options.bedWidth.isFinite = true)
    (length_finite : options.bedLength.isFinite = true)
    (onBed : ∀ event ∈ (replay program).1, ∀ point ∈ event.visited, OnBed options point) :
    viewBox? (render options program) =
      some ("0 0 " ++ number (bedRoom options.bedWidth + 2.0 * options.margin) ++ " " ++
        number (bedRoom options.bedLength + 2.0 * options.margin)) := by
  have events_finite : ∀ event ∈ (replay program).1, event.Finite :=
    MachineState.finite_start.events fun _ member => finite_of_mem_parseProgram member
  have points_finite := finite_of_mem_visitedPoints events_finite
  have tight := Extents.tightAround_ofEvents events_finite
  have notEmpty := tight.isEmpty_eq_false points_finite
  obtain ⟨xs_finite, ys_finite⟩ := Extents.finite_coordinates points_finite
  have within := within_of_onBed width_finite length_finite onBed
  have start : startPosition ∈ visitedPoints (replay program).1 := .inl rfl
  have width := number_max_extent width_finite (2.0 * options.margin) xs_finite
    ⟨startPosition, start, rfl⟩ (Set.forall_mem_image.mpr fun point member =>
      (within point member).1) tight.minX tight.maxX
  have height := number_max_extent length_finite (2.0 * options.margin) ys_finite
    ⟨startPosition, start, rfl⟩ (Set.forall_mem_image.mpr fun point member =>
      (within point member).2) tight.minY tight.maxY
  rw [viewBox_render, ← width, ← height]
  simp [SceneFrame.of, notEmpty, Extents.width, Extents.height]

/-- A program that prints on the bed, renames its position, and makes a move outside of the bed
that is too short to leave its place. -/
def bedProgram : String := "G0 X10 Y10\nG1 X220 Y0.1 E5\nG92 X0 Y220\nG1 X-0.0000001 E30"

theorem viewBox_render_bedProgram :
    (∀ event ∈ (replay bedProgram).1, ∀ point ∈ event.visited, OnBed {} point) ∧
      viewBox? (render {} bedProgram) = some "0 0 230 230" := by
  have onBed : ∀ event ∈ (replay bedProgram).1, ∀ point ∈ event.visited, OnBed {} point := by
    decide +kernel
  have sizes : "0 0 " ++ number (bedRoom 220.0 + 2.0 * 5.0) ++ " " ++
      number (bedRoom 220.0 + 2.0 * 5.0) = "0 0 230 230" := by decide +kernel
  exact ⟨onBed, sizes ▸ viewBox_render_of_onBed {} bedProgram (by decide) (by decide) onBed⟩

/-- A bed of negative width and a program that goes nowhere: the picture has the width of its
margins alone, which is not the width of the bed with the margins. -/
theorem viewBox_render_negative_bed :
    let options : ViewOptions := { bedWidth := -10.0 }
    (∀ value ∈ options.numbers, value.isFinite = true) ∧
      (∀ event ∈ (replay "").1, ∀ point ∈ event.visited, OnBed options point) ∧
      viewBox? (render options "") = some "0 0 10 230" ∧
      viewBox? (render options "") ≠
        some ("0 0 " ++ number (options.bedWidth + 2.0 * options.margin) ++ " " ++
          number (options.bedLength + 2.0 * options.margin)) := by
  intro options
  have drawn : viewBox? (render options "") = some "0 0 10 230" := by
    rw [viewBox_render]
    decide +kernel
  have expected : "0 0 " ++ number (options.bedWidth + 2.0 * options.margin) ++ " " ++
      number (options.bedLength + 2.0 * options.margin) = "0 0 0 230" := by decide +kernel
  refine ⟨by decide +kernel, by decide +kernel, drawn, ?_⟩
  rw [drawn, expected]
  decide

end FlowCalibration
