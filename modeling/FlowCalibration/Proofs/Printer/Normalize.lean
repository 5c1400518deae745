import FlowCalibration.Printer.Normalize
import FlowCalibration.Proofs.Data.Results
import FlowCalibration.Proofs.Decimal.Order
import FlowCalibration.Proofs.Text.Trimming

/-!
# Accepted profiles

Every number of an accepted profile is finite, its sizes are not negative, and its name has no blank
at either end.  Where the excluded areas of a profile are refused, the error tells the place of the
first one that is no area.
-/

namespace FlowCalibration

namespace BuildVolume

/-- Sizes of a volume. -/
def sizes (volume : BuildVolume) : List Float :=
  [volume.width, volume.depth, volume.height]

end BuildVolume

namespace Rect

/-- Numbers of a rectangle. -/
def numbers (rect : Rect) : List Float :=
  [rect.x, rect.y, rect.width, rect.depth]

end Rect

namespace PrinterProfile

/-- Hints of a profile for the layout. -/
def hints (profile : PrinterProfile) : List (Option Float) :=
  [profile.bedMarginX, profile.bedMarginY, profile.xSpacing, profile.ySpacing]

/-- A profile that can be laid out: it has a name, which has no blank at either end, and its numbers
are finite, its sizes moreover not negative. -/
structure Sound (profile : PrinterProfile) : Prop where
  named : ∃ c ∈ profile.model.toList, isBlank c = false
  first : ∀ c ∈ profile.model.toList.head?, isBlank c = false
  last : ∀ c ∈ profile.model.toList.getLast?, isBlank c = false
  sizes : ∀ size ∈ profile.buildVolume.sizes, size.isFinite = true ∧ 0.0 ≤ size
  hints : ∀ hint ∈ profile.hints, ∀ value ∈ hint, value.isFinite = true
  areas : ∀ area ∈ profile.excludedAreas, ∀ number ∈ area.numbers, number.isFinite = true

/-! ## Numbers of loose profiles -/

theorem isFinite_numberMember? (object : Json) (key : String) :
    ∀ value ∈ numberMember? object key, value.isFinite = true := fun _ read =>
  (Option.filter_eq_some_iff.mp read).2

theorem isFinite_orElse {first second : Option Float}
    (first_finite : ∀ value ∈ first, value.isFinite = true)
    (second_finite : ∀ value ∈ second, value.isFinite = true) :
    ∀ value ∈ first <|> second, value.isFinite = true := by
  cases first with
  | none => exact second_finite
  | some own => exact first_finite

theorem volumeOf_eq_ok {object : Json} {volume : BuildVolume}
    (read : volumeOf object = .ok volume) :
    ∀ size ∈ volume.sizes, size.isFinite = true ∧ 0.0 ≤ size := by
  have zero_finite : (0.0 : Float).isFinite = true := by decide
  have member_finite := isFinite_numberMember? object
  rw [volumeOf] at read
  split at read
  next width depth width_eq depth_eq =>
    have width_finite : width.isFinite = true :=
      isFinite_orElse (member_finite "width") (member_finite "depth") width width_eq
    have depth_finite : depth.isFinite = true :=
      isFinite_orElse (member_finite "depth") (member_finite "width") depth depth_eq
    have height_finite : ((numberMember? object "height").getD 0.0).isFinite = true := by
      cases height : numberMember? object "height" with
      | none => exact zero_finite
      | some value => exact member_finite "height" value height
    have atLeast {size : Float} (finite : size.isFinite = true) (notBelow : ¬ size < 0.0) :
        0.0 ≤ size := by rwa [Double.lt_iff_not_le finite zero_finite, not_not] at notBelow
    dsimp only at read
    split at read
    next => contradiction
    next notNegative =>
      obtain rfl := Except.ok.inj read
      simp only [Bool.or_eq_true, decide_eq_true_eq, not_or] at notNegative
      obtain ⟨⟨width_least, depth_least⟩, height_least⟩ := notNegative
      simp only [BuildVolume.sizes, List.forall_mem_cons]
      exact ⟨⟨width_finite, atLeast width_finite width_least⟩,
        ⟨depth_finite, atLeast depth_finite depth_least⟩,
        ⟨height_finite, atLeast height_finite height_least⟩, List.forall_mem_nil _⟩
  next => contradiction

theorem volumeOf_eq_error {object : Json} {error : ProfileError}
    (refused : volumeOf object = .error error) : ∃ fault, error = .invalidBuildVolume fault := by
  rw [volumeOf] at refused
  split at refused
  next =>
    dsimp only at refused
    split at refused
    next => exact ⟨_, (Except.error.inj refused).symm⟩
    next => cases refused
  next => exact ⟨_, (Except.error.inj refused).symm⟩

/-! ## Excluded areas -/

/-- Keys of the numbers of an area. -/
def areaKeys : List String := ["x", "y", "width", "depth"]

/-- What is wrong with a value as an area: it is no object, or the first of the numbers that it has
not. -/
def areaFault? : Json → Option AreaFault
  | .object members =>
      (areaKeys.find? fun key => (numberMember? (.object members) key).isNone).map .missing
  | _ => some .notAnObject

/-- Where the excluded areas of a loose profile go wrong: they are no list, or one of them is no
area and those before it are. -/
inductive WrongArea (raw : Json) : Nat → AreaFault → Prop
  /-- The areas are no list. -/
  | notAList {value : Json} (present : firstPresent? raw ["excludedAreas", "excluded_areas"] =
      some value) (other : value.toArray? = none) : WrongArea raw 0 .notAList
  /-- An entry is no area. -/
  | entry {front back : List Json} {value : Json} {fault : AreaFault}
      (present : firstPresent? raw ["excludedAreas", "excluded_areas"] =
        some (.array (front ++ value :: back)))
      (before : ∀ earlier ∈ front, areaFault? earlier = none)
      (wrong : areaFault? value = some fault) : WrongArea raw front.length fault

theorem areaOf_cases (value : Json) :
    (areaFault? value = none ∧ ∃ area : Rect, (∀ number ∈ area.numbers, number.isFinite = true) ∧
        ∀ index, areaOf index value = .ok area) ∨
      ∃ fault, areaFault? value = some fault ∧
        ∀ index, areaOf index value = .error (.invalidExcludedArea index fault) := by
  cases value with
  | object members =>
      have finite := isFinite_numberMember? (.object members)
      simp only [areaFault?, areaKeys, areaOf, List.find?_cons, List.find?_nil]
      cases x : numberMember? (.object members) "x" with
      | none => exact .inr ⟨_, rfl, fun _ => rfl⟩
      | some x_value =>
      cases y : numberMember? (.object members) "y" with
      | none => exact .inr ⟨_, rfl, fun _ => rfl⟩
      | some y_value =>
      cases width : numberMember? (.object members) "width" with
      | none => exact .inr ⟨_, rfl, fun _ => rfl⟩
      | some width_value =>
      cases depth : numberMember? (.object members) "depth" with
      | none => exact .inr ⟨_, rfl, fun _ => rfl⟩
      | some depth_value =>
          refine .inl ⟨rfl, ⟨x_value, y_value, width_value, depth_value⟩, ?_, fun _ => rfl⟩
          simp only [Rect.numbers, List.forall_mem_cons]
          exact ⟨finite "x" _ x, finite "y" _ y, finite "width" _ width, finite "depth" _ depth,
            List.forall_mem_nil _⟩
  | _ => exact .inr ⟨.notAnObject, rfl, fun _ => rfl⟩

/-- The areas of a list are read one after the other. -/
theorem areasFrom_eq (index : Nat) (values : List Json) :
    areasFrom index values =
      (values.zipIdx index).mapM fun (value, place) => areaOf place value := by
  induction values generalizing index with
  | nil => rfl
  | cons value values induction =>
      rw [areasFrom, induction, List.zipIdx_cons, List.mapM_cons]

theorem areasOf_eq_ok {raw : Json} {areas : List Rect} (read : areasOf raw = .ok areas) :
    ∀ area ∈ areas, ∀ number ∈ area.numbers, number.isFinite = true := by
  rw [areasOf] at read
  split at read
  next =>
    obtain rfl := Except.ok.inj read
    exact List.forall_mem_nil _
  next elements _ =>
    rw [areasFrom_eq, mapM_eq_ok_iff] at read
    intro area member
    have accepted : (.ok area : Except ProfileError Rect) ∈ areas.map .ok :=
      List.mem_map_of_mem member
    rw [← read] at accepted
    obtain ⟨⟨value, place⟩, _, area_eq⟩ := List.mem_map.mp accepted
    rcases areaOf_cases value with ⟨_, own, finite, own_eq⟩ | ⟨fault, _, refused⟩
    · obtain rfl := Except.ok.inj ((own_eq place).symm.trans area_eq)
      exact finite
    · cases (refused place).symm.trans area_eq
  next => contradiction

theorem wrongArea_of_areasOf {raw : Json} {error : ProfileError}
    (refused : areasOf raw = .error error) :
    ∃ index fault, error = .invalidExcludedArea index fault ∧ WrongArea raw index fault := by
  rw [areasOf] at refused
  split at refused
  next => contradiction
  next elements present =>
    rw [areasFrom_eq, mapM_eq_error_iff] at refused
    obtain ⟨front, ⟨value, place⟩, back, split, before, value_refused⟩ := refused
    obtain ⟨earlier, later, rfl, rfl, rest⟩ := List.zipIdx_eq_append_iff.mp split
    obtain ⟨first, others, rfl, first_eq, _⟩ := List.zipIdx_eq_cons_iff.mp rest.symm
    obtain ⟨rfl, rfl⟩ := Prod.mk.inj first_eq
    rcases areaOf_cases value with ⟨_, area, _, area_eq⟩ | ⟨fault, wrong, own_refused⟩
    · cases (area_eq _).symm.trans value_refused
    · obtain rfl := Except.error.inj ((own_refused _).symm.trans value_refused)
      refine ⟨_, fault, rfl, ?_⟩
      rw [Nat.zero_add]
      refine .entry present (fun other member => ?_) wrong
      obtain ⟨index, found⟩ := List.mem_iff_getElem?.mp member
      obtain ⟨area, accepted⟩ := before _ (List.mk_mem_zipIdx_iff_getElem?.mpr found)
      rcases areaOf_cases other with ⟨none_eq, _⟩ | ⟨_, _, other_refused⟩
      · exact none_eq
      · cases (other_refused _).symm.trans accepted
  next value notArray present =>
    obtain rfl := Except.error.inj refused
    refine ⟨0, .notAList, rfl, .notAList present ?_⟩
    cases value with
    | array elements => exact absurd rfl (notArray elements)
    | _ => rfl

/-! ## Profiles -/

theorem modelOf_eq_ok {raw : Json} {model : String} (read : modelOf raw = .ok model) :
    ∃ text, model.toList = trim text ∧ trim text ≠ [] := by
  rw [modelOf] at read
  split at read
  next => contradiction
  next => contradiction
  next trimmed named trimmed_eq =>
    obtain rfl := Except.ok.inj read
    obtain ⟨text, _, rfl⟩ := Option.map_eq_some_iff.mp trimmed_eq
    exact ⟨text.toList, String.toList_ofList, named⟩

theorem modelOf_eq_error {raw : Json} {error : ProfileError}
    (refused : modelOf raw = .error error) : error = .missingField "model" := by
  rw [modelOf] at refused
  split at refused
  next => exact (Except.error.inj refused).symm
  next => exact (Except.error.inj refused).symm
  next => cases refused

/-- Accepted profiles can be laid out. -/
theorem sound_of_normalize {raw : Json} {profile : PrinterProfile}
    (accepted : normalize raw = .ok profile) : profile.Sound := by
  obtain ⟨model, model_eq, accepted⟩ := exists_of_bind_eq_ok accepted
  obtain ⟨text, trimmed, named⟩ := modelOf_eq_ok model_eq
  split at accepted
  next => contradiction
  next outer _ =>
    obtain ⟨volume, volume_eq, accepted⟩ := exists_of_bind_eq_ok accepted
    obtain ⟨areas, areas_eq, accepted⟩ := exists_of_bind_eq_ok accepted
    obtain rfl := Except.ok.inj accepted
    obtain ⟨first, rest, name_eq⟩ := List.exists_cons_of_ne_nil named
    have first_notBlank : isBlank first = false :=
      (isBlank_ends_trim text).1 first (by rw [name_eq]; rfl)
    have number_finite (object : Json) (key : String) := isFinite_numberMember? object key
    have margin_finite := isFinite_orElse (number_finite raw "bedMargin")
      (isFinite_orElse (number_finite outer "bedMargin")
        (number_finite (((outer.member? "single_nozzle").bind asObject?).getD outer) "bedMargin"))
    exact
      { named := ⟨first, by rw [trimmed, name_eq]; exact List.mem_cons_self, first_notBlank⟩
        first := by simpa only [trimmed] using (isBlank_ends_trim text).1
        last := by simpa only [trimmed] using (isBlank_ends_trim text).2
        sizes := volumeOf_eq_ok volume_eq
        hints := by
          simp only [hints, List.forall_mem_cons]
          exact ⟨isFinite_orElse margin_finite (number_finite raw "bedMarginX"),
            isFinite_orElse margin_finite (number_finite raw "bedMarginY"),
            number_finite raw "xSpacing", number_finite raw "ySpacing", List.forall_mem_nil _⟩
        areas := areasOf_eq_ok areas_eq }

theorem wrongArea_of_normalize {raw : Json} {index : Nat} {fault : AreaFault}
    (refused : normalize raw = .error (.invalidExcludedArea index fault)) :
    WrongArea raw index fault := by
  rcases bind_eq_error_iff.mp refused with model_refused | ⟨model, _, refused⟩
  · cases modelOf_eq_error model_refused
  · split at refused
    next => cases refused
    next outer _ =>
      rcases bind_eq_error_iff.mp refused with volume_refused | ⟨volume, _, refused⟩
      · obtain ⟨volumeFault, impossible⟩ := volumeOf_eq_error volume_refused
        cases impossible
      · rcases bind_eq_error_iff.mp refused with areas_refused | ⟨areas, _, impossible⟩
        · obtain ⟨place, own, error_eq, wrong⟩ := wrongArea_of_areasOf areas_refused
          obtain ⟨rfl, rfl⟩ := ProfileError.invalidExcludedArea.inj error_eq
          exact wrong
        · cases impossible

end PrinterProfile

end FlowCalibration
