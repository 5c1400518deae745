import FlowCalibration.Proofs.Decimal.Order
import FlowCalibration.Proofs.Preview.Layers
import FlowCalibration.Proofs.Program.Continuity
import Mathlib.Data.Set.Image

/-!
# The box of a run

The box of a run is the tight one around the points that the run visits.  Segments and labels are
drawn at such points only, so nothing of them lies outside the box that the frame was made for.
-/

namespace FlowCalibration

/-- Points that an event visits: both ends of a motion that leaves its place, and a renamed
position. -/
def Event.visited : Event → List Point
  | .motion move => if move.leaves then [move.start, move.finish] else []
  | .positionSet state => [state.position]
  | .status _ => []

/-- Points that a run visits, from the origin on. -/
def visitedPoints (events : List Event) : Set Point :=
  {point | point = startPosition ∨ ∃ event ∈ events, point ∈ event.visited}

theorem Event.Finite.of_mem_visited {event : Event} (finite : event.Finite) :
    ∀ point ∈ event.visited, point.Finite := by
  cases event with
  | status message => exact List.forall_mem_nil _
  | positionSet state => exact List.forall_mem_singleton.mpr (MachineState.Finite.position finite)
  | motion move =>
      rw [Event.visited]
      split
      · exact List.forall_mem_cons.mpr ⟨finite.1, List.forall_mem_singleton.mpr finite.2⟩
      · exact List.forall_mem_nil _

theorem finite_of_mem_visitedPoints {events : List Event}
    (finite : ∀ event ∈ events, event.Finite) :
    ∀ point ∈ visitedPoints events, point.Finite := by
  rintro point (rfl | ⟨event, event_mem, point_mem⟩)
  · exact ⟨by decide, by decide⟩
  · exact (finite event event_mem).of_mem_visited point point_mem

namespace Double

variable {values : Set Float} {outer value : Float}

theorem isLeast_insert (finite : ∀ other ∈ values, other.isFinite = true)
    (value_finite : value.isFinite = true) (least : IsLeast values outer) :
    IsLeast (insert value values) (Double.min outer value) := by
  obtain ⟨chosen, below⟩ := isLeast_min (finite outer least.1) value_finite
  refine ⟨?_, ?_⟩
  · rcases chosen with own | new
    · rw [own]
      exact .inr least.1
    · exact .inl new
  · rintro other (rfl | member)
    · exact below (.inr rfl)
    · exact le_trans (below (.inl rfl)) (least.2 member)

theorem isGreatest_insert (finite : ∀ other ∈ values, other.isFinite = true)
    (value_finite : value.isFinite = true) (greatest : IsGreatest values outer) :
    IsGreatest (insert value values) (Double.max outer value) := by
  obtain ⟨chosen, above⟩ := isGreatest_max (finite outer greatest.1) value_finite
  refine ⟨?_, ?_⟩
  · rcases chosen with own | new
    · rw [own]
      exact .inr greatest.1
    · exact .inl new
  · rintro other (rfl | member)
    · exact above (.inr rfl)
    · exact le_trans (greatest.2 member) (above (.inl rfl))

theorem not_gt_of_isLeast {least greatest : Float}
    (finite : ∀ value ∈ values, value.isFinite = true) (isLeast : IsLeast values least)
    (isGreatest : IsGreatest values greatest) : ¬ least > greatest := by
  rw [gt_iff_lt, lt_iff_not_le (finite _ isGreatest.1) (finite _ isLeast.1), not_not]
  exact isLeast.2 isGreatest.1

end Double

namespace Extents

/-- Whether a point lies inside a box or on its border. -/
def Holds (extents : Extents) (point : Point) : Prop :=
  extents.minX ≤ point.x ∧ point.x ≤ extents.maxX ∧
    extents.minY ≤ point.y ∧ point.y ≤ extents.maxY

/-- Whether a box is the tight one around points: each of its borders goes through the outermost
of them. -/
structure TightAround (extents : Extents) (points : Set Point) : Prop where
  minX : IsLeast (Point.x '' points) extents.minX
  maxX : IsGreatest (Point.x '' points) extents.maxX
  minY : IsLeast (Point.y '' points) extents.minY
  maxY : IsGreatest (Point.y '' points) extents.maxY

variable {extents : Extents} {points : Set Point}

/-- A tight box holds its points. -/
theorem TightAround.holds (tight : extents.TightAround points) {point : Point}
    (member : point ∈ points) : extents.Holds point :=
  ⟨tight.minX.2 ⟨point, member, rfl⟩, tight.maxX.2 ⟨point, member, rfl⟩,
    tight.minY.2 ⟨point, member, rfl⟩, tight.maxY.2 ⟨point, member, rfl⟩⟩

theorem finite_coordinates (finite : ∀ point ∈ points, point.Finite) :
    (∀ value ∈ Point.x '' points, value.isFinite = true) ∧
      ∀ value ∈ Point.y '' points, value.isFinite = true := by
  constructor
  · rintro _ ⟨point, member, rfl⟩
    exact (finite point member).1
  · rintro _ ⟨point, member, rfl⟩
    exact (finite point member).2

theorem TightAround.isEmpty_eq_false (tight : extents.TightAround points)
    (finite : ∀ point ∈ points, point.Finite) : extents.isEmpty = false := by
  obtain ⟨finite_x, finite_y⟩ := finite_coordinates finite
  have across := Double.not_gt_of_isLeast finite_x tight.minX tight.maxX
  have along := Double.not_gt_of_isLeast finite_y tight.minY tight.maxY
  simp [isEmpty, across, along]

/-- Marking a finite point keeps a box tight. -/
theorem TightAround.mark (tight : extents.TightAround points)
    (finite : ∀ point ∈ points, point.Finite) {point : Point} (point_finite : point.Finite) :
    (extents.mark point).TightAround (insert point points) := by
  obtain ⟨finite_x, finite_y⟩ := finite_coordinates finite
  obtain ⟨x_finite, y_finite⟩ := point_finite
  rw [Extents.mark, if_pos (by rw [x_finite, y_finite]; rfl)]
  constructor <;> rw [Set.image_insert_eq]
  · exact Double.isLeast_insert finite_x x_finite tight.minX
  · exact Double.isGreatest_insert finite_x x_finite tight.maxX
  · exact Double.isLeast_insert finite_y y_finite tight.minY
  · exact Double.isGreatest_insert finite_y y_finite tight.maxY

theorem visit_eq (extents : Extents) (event : Event) :
    extents.visit event = event.visited.foldl Extents.mark extents := by
  cases event with
  | status message => rfl
  | positionSet state => rfl
  | motion move =>
      rw [visit, Event.visited]
      split <;> rfl

theorem TightAround.foldl_mark (tight : extents.TightAround points)
    (finite : ∀ point ∈ points, point.Finite) {marked : List Point}
    (marked_finite : ∀ point ∈ marked, point.Finite) :
    (marked.foldl Extents.mark extents).TightAround {point | point ∈ points ∨ point ∈ marked} := by
  induction marked generalizing extents points with
  | nil => simpa using tight
  | cons first marked induction =>
      obtain ⟨first_finite, rest_finite⟩ := List.forall_mem_cons.mp marked_finite
      have all := induction (tight.mark finite first_finite)
        (Set.forall_mem_insert.mpr ⟨first_finite, finite⟩) rest_finite
      have same : {point | point ∈ insert first points ∨ point ∈ marked} =
          {point | point ∈ points ∨ point ∈ first :: marked} := by
        ext point
        simp [or_assoc, or_left_comm]
      rwa [same] at all

/-- The box of finite events is the tight one around the points that they visit. -/
theorem tightAround_ofEvents {events : List Event} (finite : ∀ event ∈ events, event.Finite) :
    (ofEvents events).TightAround (visitedPoints events) := by
  have start : origin.TightAround {startPosition} := by
    have origin_eq : origin = ⟨0.0, 0.0, 0.0, 0.0⟩ := by decide
    have zero : (0.0 : Float) ≤ 0.0 := by decide
    rw [origin_eq]
    constructor <;> simp [startPosition, IsLeast, IsGreatest, lowerBounds, upperBounds, zero]
  have all_finite := finite_of_mem_visitedPoints finite
  have start_finite : ∀ point ∈ ({startPosition} : Set Point), point.Finite :=
    fun point member => all_finite point (.inl member)
  have visited_finite : ∀ point ∈ events.flatMap Event.visited, point.Finite :=
    fun point member => all_finite point (.inr (List.mem_flatMap.mp member))
  have folded : ofEvents events = (events.flatMap Event.visited).foldl Extents.mark origin := by
    rw [List.foldl_flatMap, ofEvents]
    exact congrArg (fun visit => events.foldl visit origin) (funext₂ visit_eq)
  have points_eq : visitedPoints events =
      {point | point ∈ ({startPosition} : Set Point) ∨ point ∈ events.flatMap Event.visited} := by
    ext point
    simp [visitedPoints]
  rw [folded, points_eq]
  exact start.foldl_mark start_finite visited_finite

end Extents

/-! ## What is drawn lies in the box -/

theorem mem_visitedPoints_of_leaves {events : List Event} {motion : Motion}
    (member : Event.motion motion ∈ events) (leaves : motion.leaves = true) :
    motion.start ∈ visitedPoints events ∧ motion.finish ∈ visitedPoints events := by
  have visited : (Event.motion motion).visited = [motion.start, motion.finish] := if_pos leaves
  constructor <;> exact .inr ⟨_, member, by simp [visited]⟩

theorem mem_motions_iff {events : List Event} {motion : Motion} :
    motion ∈ motions events ↔ Event.motion motion ∈ events := by
  rw [motions, List.mem_filterMap]
  constructor
  · rintro ⟨event, member, moves⟩
    cases event with
    | motion move => exact Option.some.inj moves ▸ member
    | status message => contradiction
    | positionSet state => contradiction
  · exact fun member => ⟨_, member, rfl⟩

theorem Motion.leaves_of_segment? {motion : Motion} {kind : SegmentKind}
    (drawn : motion.segment? = some kind) : motion.leaves = true := by
  rw [Motion.segment?, Option.ite_none_right_eq_some] at drawn
  exact drawn.1

namespace Drawing

variable {options : ViewOptions} {events : List Event}

theorem visited_of_mem_segments {kind : SegmentKind} {segment : Segment}
    (member : segment ∈ (ofEvents options events).segments kind) :
    segment.start ∈ visitedPoints events ∧ segment.finish ∈ visitedPoints events := by
  rw [ofEvents, segments_draw, List.mem_map] at member
  obtain ⟨motion, motion_mem, rfl⟩ := member
  obtain ⟨among, drawn⟩ := List.mem_filter.mp motion_mem
  exact mem_visitedPoints_of_leaves (mem_motions_iff.mp among)
    (Motion.leaves_of_segment? (of_decide_eq_true drawn))

theorem visited_of_mem_labels {label : PlacedLabel}
    (member : label ∈ (ofEvents options events).labels) :
    label.anchor ∈ visitedPoints events := by
  rw [labels_ofEvents, placedLabels, List.mem_filterMap] at member
  obtain ⟨⟨past, event⟩, pair_mem, placed⟩ := member
  have event_mem := (List.of_mem_zip pair_mem).2
  cases event with
  | status message => contradiction
  | positionSet state => contradiction
  | motion motion =>
      obtain ⟨leaves, placed⟩ := Option.ite_none_right_eq_some.mp placed
      obtain ⟨text, _, rfl⟩ := Option.map_eq_some_iff.mp placed
      exact (mem_visitedPoints_of_leaves event_mem leaves).2

end Drawing

/-- The box of every program is the tight one around the origin, the renamed positions and both
ends of the motions that leave their place.  The picture is drawn in the frame of this box, and
both ends of all its segments and the anchors of all its labels lie in it. -/
theorem render_within (options : ViewOptions) (program : String) :
    let events := (replay program).1
    let extents := Extents.ofEvents events
    let frame := SceneFrame.of options extents
    let drawing := Drawing.ofEvents options events
    extents.TightAround (visitedPoints events) ∧
    render options program = frame.document options drawing ∧
    frame.minX = extents.minX ∧ frame.maxY = extents.maxY ∧
    (∀ kind, ∀ segment ∈ drawing.segments kind,
      extents.Holds segment.start ∧ extents.Holds segment.finish) ∧
    ∀ label ∈ drawing.labels, extents.Holds label.anchor := by
  intro events extents frame drawing
  have finite : ∀ event ∈ events, event.Finite :=
    MachineState.finite_start.events fun _ member => finite_of_mem_parseProgram member
  have tight : extents.TightAround (visitedPoints events) := Extents.tightAround_ofEvents finite
  have notEmpty := tight.isEmpty_eq_false (finite_of_mem_visitedPoints finite)
  have bounds : frame.minX = extents.minX ∧ frame.maxY = extents.maxY := by
    simp [frame, SceneFrame.of, notEmpty]
  refine ⟨tight, render_eq options program, bounds.1, bounds.2, ?_, ?_⟩
  · intro kind segment member
    obtain ⟨start_mem, finish_mem⟩ := Drawing.visited_of_mem_segments member
    exact ⟨tight.holds start_mem, tight.holds finish_mem⟩
  · intro label member
    exact tight.holds (Drawing.visited_of_mem_labels member)

end FlowCalibration
