import FlowCalibration.Proofs.Json.Record
import FlowCalibration.Proofs.Printer.Normalize

/-!
# Written profiles

A profile that can be laid out is written as a JSON value from which both readers get it back: the
loose one, which looks for its numbers in several places, and the strict one, which stores member by
member.  This holds whether the members stand as they are listed or in the order of a table.
-/

namespace FlowCalibration

namespace PrinterProfile

/-! ## Members in order -/

@[simp]
theorem numberMember?_ordered (object : Json) (key : String) :
    numberMember? object.ordered key = numberMember? object key := by
  simp [numberMember?, Option.bind_map]

theorem firstPresent?_ordered (object : Json) (keys : List String) :
    firstPresent? object.ordered keys = (firstPresent? object keys).map Json.ordered := by
  rw [firstPresent?, firstPresent?, List.map_findSome?]
  congr 1
  funext key
  rw [Json.member?_ordered, Function.comp_apply]
  cases object.member? key with
  | none => rfl
  | some value => cases value <;> rfl

theorem asObject?_ordered (value : Json) :
    asObject? value.ordered = (asObject? value).map Json.ordered := by
  cases value <;> rfl

theorem volumeOf_ordered (object : Json) : volumeOf object.ordered = volumeOf object := by
  simp only [volumeOf, numberMember?_ordered]

theorem areaOf_ordered (index : Nat) (value : Json) :
    areaOf index value.ordered = areaOf index value := by
  have numbers := numberMember?_ordered value
  cases value with
  | object members => simp only [areaOf, Json.ordered] at numbers ⊢; simp only [numbers]
  | _ => rfl

theorem areasFrom_ordered (index : Nat) (values : List Json) :
    areasFrom index (values.map Json.ordered) = areasFrom index values := by
  induction values generalizing index with
  | nil => rfl
  | cons value values induction =>
      rw [List.map_cons, areasFrom, areasFrom, areaOf_ordered, induction]

theorem areasOf_ordered (object : Json) : areasOf object.ordered = areasOf object := by
  rw [areasOf, areasOf, firstPresent?_ordered]
  cases firstPresent? object ["excludedAreas", "excluded_areas"] with
  | none => rfl
  | some value =>
      cases value with
      | array elements =>
          rw [Option.map_some, Json.ordered, Json.orderedElements_eq]
          exact areasFrom_ordered 0 elements
      | _ => rfl

theorem modelOf_ordered (object : Json) : modelOf object.ordered = modelOf object := by
  have text_eq : (object.ordered.member? "model").bind Json.toText? =
      (object.member? "model").bind Json.toText? := by
    simp [Option.bind_map]
  rw [modelOf, modelOf, text_eq]

/-- The order of members does not matter to a loose profile. -/
theorem normalize_ordered (raw : Json) : normalize raw.ordered = normalize raw := by
  have outer_eq : (firstPresent? raw.ordered ["buildVolume", "build_volume_mm"]).bind asObject? =
      ((firstPresent? raw ["buildVolume", "build_volume_mm"]).bind asObject?).map Json.ordered := by
    rw [firstPresent?_ordered, Option.bind_map, Option.map_bind]
    exact congrArg _ (funext asObject?_ordered)
  have inner_eq (outer : Json) :
      ((outer.ordered.member? "single_nozzle").bind asObject?).getD outer.ordered =
        (((outer.member? "single_nozzle").bind asObject?).getD outer).ordered := by
    rw [Json.member?_ordered]
    cases outer.member? "single_nozzle" with
    | none => rfl
    | some inner =>
        rw [Option.map_some, Option.bind_some, Option.bind_some, asObject?_ordered, Option.getD_map]
  rw [normalize, normalize, modelOf_ordered, outer_eq]
  cases (firstPresent? raw ["buildVolume", "build_volume_mm"]).bind asObject? with
  | none => rfl
  | some outer =>
      simp only [Option.map_some, inner_eq, volumeOf_ordered, areasOf_ordered,
        numberMember?_ordered]

/-! ## Members of written profiles -/

/-- The members of a written profile, with its volume and areas as they are written. -/
def listed (profile : PrinterProfile) (volume : Json) (areas : List Json) : List (String × Json) :=
  [("model", .text profile.model), ("buildVolume", volume)] ++
    optionalMember "bedMarginX" profile.bedMarginX ++
    optionalMember "bedMarginY" profile.bedMarginY ++
    optionalMember "xSpacing" profile.xSpacing ++
    optionalMember "ySpacing" profile.ySpacing ++
    if profile.excludedAreas.isEmpty then [] else [("excludedAreas", .array areas)]

theorem toJson_eq (profile : PrinterProfile) :
    profile.toJson = .object
      (profile.listed profile.buildVolume.toJson (profile.excludedAreas.map Rect.toJson)) :=
  rfl

theorem find?_optionalMember (key : String) (value : Option Float) (wanted : String) :
    KeyTable.find? (optionalMember key value) wanted =
      if wanted = key then value.map .ofFloat else none := by
  cases value with
  | none => simp [optionalMember]
  | some value => simp [optionalMember, KeyTable.find?_cons]

theorem find?_listed (profile : PrinterProfile) (volume : Json) (areas : List Json) (key : String) :
    KeyTable.find? (profile.listed volume areas) key =
      if key = "model" then some (.text profile.model)
      else if key = "buildVolume" then some volume
      else if key = "bedMarginX" then profile.bedMarginX.map .ofFloat
      else if key = "bedMarginY" then profile.bedMarginY.map .ofFloat
      else if key = "xSpacing" then profile.xSpacing.map .ofFloat
      else if key = "ySpacing" then profile.ySpacing.map .ofFloat
      else if key = "excludedAreas" ∧ profile.excludedAreas ≠ [] then some (.array areas)
      else none := by
  have append (left right : KeyTable Json) : KeyTable.find? (left ++ right) key =
      (KeyTable.find? left key).or (KeyTable.find? right key) := List.lookup_append
  simp only [listed, append, find?_optionalMember, KeyTable.find?_cons, KeyTable.find?_nil]
  have areas_eq : KeyTable.find? (if profile.excludedAreas.isEmpty then []
        else [("excludedAreas", Json.array areas)]) key =
      if key = "excludedAreas" ∧ profile.excludedAreas ≠ [] then some (.array areas) else none := by
    cases profile.excludedAreas <;> simp [KeyTable.find?_cons]
  rw [areas_eq]
  clear append areas_eq
  grind

theorem numberMember?_eq {object : Json} {key : String} {value : Option Float}
    (member : object.member? key = value.map .ofFloat)
    (finite : ∀ number ∈ value, number.isFinite = true) : numberMember? object key = value := by
  rw [numberMember?, member]
  cases value with
  | none => rfl
  | some number =>
      have number_finite := finite number rfl
      rw [Option.map_some, Json.ofFloat, if_pos number_finite]
      exact Option.filter_some_pos number_finite

theorem volumeOf_toJson {volume : BuildVolume}
    (sizes : ∀ size ∈ volume.sizes, size.isFinite = true ∧ 0.0 ≤ size) :
    volumeOf volume.toJson = .ok volume := by
  have zero_finite : (0.0 : Float).isFinite = true := by decide
  have member (key : String) {size : Float} (inside : size ∈ volume.sizes)
      (found : volume.toJson.member? key = some (.ofFloat size)) :
      numberMember? volume.toJson key = some size :=
    numberMember?_eq found (by simpa using (sizes size inside).1)
  have notBelow {size : Float} (inside : size ∈ volume.sizes) : ¬ size < 0.0 := by
    obtain ⟨finite, least⟩ := sizes size inside
    rwa [Double.lt_iff_not_le finite zero_finite, not_not]
  have width : volume.width ∈ volume.sizes := by simp [BuildVolume.sizes]
  have depth : volume.depth ∈ volume.sizes := by simp [BuildVolume.sizes]
  have height : volume.height ∈ volume.sizes := by simp [BuildVolume.sizes]
  rw [volumeOf, member "width" width rfl, member "depth" depth rfl, member "height" height rfl]
  simp [notBelow width, notBelow depth, notBelow height]

theorem areaOf_toJson {area : Rect} (finite : ∀ number ∈ area.numbers, number.isFinite = true)
    (index : Nat) : areaOf index area.toJson = .ok area := by
  have member (key : String) {number : Float} (inside : number ∈ area.numbers)
      (found : area.toJson.member? key = some (.ofFloat number)) :
      numberMember? area.toJson key = some number :=
    numberMember?_eq found (by simpa using finite number inside)
  have x := member "x" (by simp [Rect.numbers]) rfl
  have y := member "y" (by simp [Rect.numbers]) rfl
  have width := member "width" (by simp [Rect.numbers]) rfl
  have depth := member "depth" (by simp [Rect.numbers]) rfl
  rw [Rect.toJson] at x y width depth ⊢
  simp only [areaOf, x, y, width, depth]
  rfl

theorem areasFrom_toJson {areas : List Rect}
    (finite : ∀ area ∈ areas, ∀ number ∈ area.numbers, number.isFinite = true) (index : Nat) :
    areasFrom index (areas.map Rect.toJson) = .ok areas := by
  induction areas generalizing index with
  | nil => rfl
  | cons area areas induction =>
      obtain ⟨own, others⟩ := List.forall_mem_cons.mp finite
      rw [List.map_cons, areasFrom, areaOf_toJson own, induction others]
      rfl

theorem member?_toJson (profile : PrinterProfile) (key : String) :
    profile.toJson.member? key = KeyTable.find?
      (profile.listed profile.buildVolume.toJson (profile.excludedAreas.map Rect.toJson)) key :=
  rfl

theorem Sound.modelOf_toJson {profile : PrinterProfile} (sound : profile.Sound) :
    modelOf profile.toJson = .ok profile.model := by
  have trimmed := trim_eq_self sound.first sound.last
  obtain ⟨c, inside, _⟩ := sound.named
  have found : profile.toJson.member? "model" = some (.text profile.model) := by
    rw [member?_toJson, find?_listed, if_pos rfl]
  rw [modelOf, found]
  simp only [Option.bind_some, Json.toText?, Option.map_some, trimmed]
  split
  next impossible => contradiction
  next empty =>
    rw [Option.some.inj empty] at inside
    contradiction
  next model _ model_eq => rw [← Option.some.inj model_eq, String.ofList_toList]

theorem Sound.areasOf_toJson {profile : PrinterProfile} (sound : profile.Sound) :
    areasOf profile.toJson = .ok profile.excludedAreas := by
  have absent : profile.toJson.member? "excluded_areas" = none := by
    rw [member?_toJson, find?_listed]
    simp
  have found : profile.toJson.member? "excludedAreas" =
      if profile.excludedAreas = [] then none
      else some (.array (profile.excludedAreas.map Rect.toJson)) := by
    rw [member?_toJson, find?_listed]
    simp [ite_not]
  rw [areasOf, firstPresent?, List.findSome?_cons, found, List.findSome?_cons, absent]
  by_cases empty : profile.excludedAreas = []
  · rw [if_pos empty, empty]
    rfl
  · rw [if_neg empty]
    exact areasFrom_toJson sound.areas 0

/-- A profile that can be laid out is what its written form is normalized to. -/
theorem Sound.normalize_toJson {profile : PrinterProfile} (sound : profile.Sound) :
    normalize profile.toJson = .ok profile := by
  have hint (key : String) {value : Option Float} (inside : value ∈ profile.hints)
      (found : profile.toJson.member? key = value.map .ofFloat) :
      numberMember? profile.toJson key = value :=
    numberMember?_eq found (sound.hints value inside)
  have marginX : numberMember? profile.toJson "bedMarginX" = profile.bedMarginX :=
    hint _ (by simp [PrinterProfile.hints]) (by rw [member?_toJson, find?_listed]; simp)
  have marginY : numberMember? profile.toJson "bedMarginY" = profile.bedMarginY :=
    hint _ (by simp [PrinterProfile.hints]) (by rw [member?_toJson, find?_listed]; simp)
  have spacingX : numberMember? profile.toJson "xSpacing" = profile.xSpacing :=
    hint _ (by simp [PrinterProfile.hints]) (by rw [member?_toJson, find?_listed]; simp)
  have spacingY : numberMember? profile.toJson "ySpacing" = profile.ySpacing :=
    hint _ (by simp [PrinterProfile.hints]) (by rw [member?_toJson, find?_listed]; simp)
  have margin : numberMember? profile.toJson "bedMargin" = none := by
    rw [numberMember?, member?_toJson, find?_listed]
    rfl
  have volume_eq : profile.toJson.member? "buildVolume" = some profile.buildVolume.toJson := by
    rw [member?_toJson, find?_listed]
    simp
  have present : (firstPresent? profile.toJson ["buildVolume", "build_volume_mm"]).bind asObject? =
      some profile.buildVolume.toJson := by
    rw [firstPresent?, List.findSome?_cons, volume_eq]
    rfl
  have inner : ((profile.buildVolume.toJson.member? "single_nozzle").bind asObject?).getD
      profile.buildVolume.toJson = profile.buildVolume.toJson := rfl
  have noMargin : numberMember? profile.buildVolume.toJson "bedMargin" = none := rfl
  rw [normalize, sound.modelOf_toJson, present]
  simp only [inner, noMargin, volumeOf_toJson sound.sizes, sound.areasOf_toJson, margin, marginX,
    marginY, spacingX, spacingY]
  rfl

end PrinterProfile

/-! ## Strict records -/

section Strict

open RecordField

theorem BuildVolume.independent_fields : fields.Pairwise Independent := by
  simp only [fields, List.pairwise_cons, List.forall_mem_cons, List.not_mem_nil, false_implies,
    implies_true, List.Pairwise.nil, and_true]
  and_intros
  all_goals exact fun _ _ => bind_map_comm fun _ _ _ => rfl

theorem Rect.independent_fields : fields.Pairwise Independent := by
  simp only [fields, List.pairwise_cons, List.forall_mem_cons, List.not_mem_nil, false_implies,
    implies_true, List.Pairwise.nil, and_true]
  and_intros
  all_goals exact fun _ _ => bind_map_comm fun _ _ _ => rfl

theorem PrinterProfile.independent_fields : fields.Pairwise Independent := by
  simp only [fields, List.pairwise_cons, List.forall_mem_cons, List.not_mem_nil, false_implies,
    implies_true, List.Pairwise.nil, and_true]
  and_intros
  all_goals exact fun _ _ => bind_map_comm fun _ _ _ => rfl

/-- A volume is read back from its written form, whatever the order of its members. -/
theorem BuildVolume.ofDocument?_toJson {volume : BuildVolume}
    (finite : ∀ size ∈ volume.sizes, size.isFinite = true) :
    ofDocument? (.ofJson volume.toJson) = some volume ∧
      ofDocument? (.ofJson volume.toJson.ordered) = some volume := by
  have ordered_eq : ofDocument? (.ofJson volume.toJson.ordered) =
      ofDocument? (.ofJson volume.toJson) :=
    read?_ordered_of_leaves independent_fields (by simp) (by simp [Json.ordered_ofFloat]) _
  simp only [sizes, List.forall_mem_cons] at finite
  obtain ⟨width, depth, height, _⟩ := finite
  have read : ofDocument? (.ofJson volume.toJson) = some volume := by
    rw [toJson, Json.ofFloat, if_pos width, Json.ofFloat, if_pos depth, Json.ofFloat, if_pos height]
    rfl
  exact ⟨read, ordered_eq.trans read⟩

/-- An area is read back from its written form, whatever the order of its members. -/
theorem Rect.ofDocument?_toJson {rect : Rect}
    (finite : ∀ number ∈ rect.numbers, number.isFinite = true) :
    ofDocument? (.ofJson rect.toJson) = some rect ∧
      ofDocument? (.ofJson rect.toJson.ordered) = some rect := by
  have ordered_eq : ofDocument? (.ofJson rect.toJson.ordered) = ofDocument? (.ofJson rect.toJson) :=
    read?_ordered_of_leaves independent_fields (by simp) (by simp [Json.ordered_ofFloat]) _
  simp only [numbers, List.forall_mem_cons] at finite
  obtain ⟨x, y, width, depth, _⟩ := finite
  have read : ofDocument? (.ofJson rect.toJson) = some rect := by
    rw [toJson, Json.ofFloat, if_pos x, Json.ofFloat, if_pos y, Json.ofFloat, if_pos width,
      Json.ofFloat, if_pos depth]
    rfl
  exact ⟨read, ordered_eq.trans read⟩

theorem JsonDocument.toList?_ofJson {α : Type} {read? : JsonDocument → Option α}
    {written : List Json} {values : List α}
    (each : List.Forall₂ (fun json value => read? (.ofJson json) = some value) written values) :
    (ofJson (.array written)).toList? read? = some values := by
  rw [ofJson, toList?]
  induction each with
  | nil => rfl
  | cons first _ induction =>
      rw [ofElements, List.mapM_cons, first, induction]
      rfl

namespace PrinterProfile

theorem nodup_keys_listed (profile : PrinterProfile) (volume : Json) (areas : List Json) :
    ((profile.listed volume areas).map Prod.fst).Nodup := by
  have keys (key : String) (value : Option Float) :
      ((optionalMember key value).map Prod.fst).Sublist [key] := by
    cases value with
    | none => exact List.nil_sublist _
    | some value => exact List.Sublist.refl _
  have areas_key : ((if profile.excludedAreas.isEmpty then []
        else [("excludedAreas", Json.array areas)]).map Prod.fst).Sublist ["excludedAreas"] := by
    split
    · exact List.nil_sublist _
    · exact List.Sublist.refl _
  have sublist : ((profile.listed volume areas).map Prod.fst).Sublist
      (["model", "buildVolume"] ++ ["bedMarginX"] ++ ["bedMarginY"] ++ ["xSpacing"] ++
        ["ySpacing"] ++ ["excludedAreas"]) := by
    simp only [listed, List.map_append]
    exact (((((List.Sublist.refl _).append (keys _ _)).append (keys _ _)).append (keys _ _)).append
      (keys _ _)).append areas_key
  exact sublist.nodup (by decide)

theorem foldlM_optionalMember {key : String} {value : Option Float}
    (finite : ∀ number ∈ value, number.isFinite = true) (set : Option Float → PrinterProfile)
    (stores : ∀ number, storeMember? fields (set none) (key, .number (.real number)) =
      some (set (some number))) :
    (optionalMember key value).foldlM (storeMember? fields) (set none) = some (set value) := by
  cases value with
  | none => rfl
  | some number =>
      rw [optionalMember, Option.map_some, Json.ofFloat, if_pos (finite number rfl),
        Option.toList_some, List.foldlM_cons, stores]
      rfl

/-- A profile is read back from its members where its volume and its areas are. -/
theorem ofDocument?_listed {profile : PrinterProfile}
    (finite : ∀ hint ∈ profile.hints, ∀ value ∈ hint, value.isFinite = true) {volume : Json}
    (volume_eq : BuildVolume.ofDocument? (.ofJson volume) = some profile.buildVolume)
    {areas : List Json}
    (areas_eq : List.Forall₂ (fun json area => Rect.ofDocument? (.ofJson json) = some area)
      areas profile.excludedAreas) :
    ofDocument? (.ofJson (.object (profile.listed volume areas))) = some profile := by
  obtain ⟨model, buildVolume, marginX, marginY, spacingX, spacingY, excludedAreas⟩ := profile
  simp only [hints, List.forall_mem_cons] at finite
  obtain ⟨marginX_finite, marginY_finite, spacingX_finite, spacingY_finite, _⟩ := finite
  have given : ∀ field ∈ fields, field.optional = true ∨
      field.key ∈ (listed ⟨model, buildVolume, marginX, marginY, spacingX, spacingY, excludedAreas⟩
        volume areas).map Prod.fst := by
    simp [fields, listed]
  have first : [("model", Json.text model), ("buildVolume", volume)].foldlM
      (storeMember? fields) unknown = some ⟨model, buildVolume, none, none, none, none, []⟩ := by
    have stores : storeMember? fields { unknown with model } ("buildVolume", volume) =
        some ⟨model, buildVolume, none, none, none, none, []⟩ :=
      congrArg (Option.map _) volume_eq
    simp only [List.foldlM_cons, List.foldlM_nil]
    exact congrArg (Option.bind · pure) stores
  have last : (if excludedAreas.isEmpty then [] else [("excludedAreas", Json.array areas)]).foldlM
      (storeMember? fields) ⟨model, buildVolume, marginX, marginY, spacingX, spacingY, []⟩ =
      some ⟨model, buildVolume, marginX, marginY, spacingX, spacingY, excludedAreas⟩ := by
    cases excludedAreas with
    | nil => rfl
    | cons area others =>
        exact congrArg (Option.bind · pure)
          (congrArg (Option.map _) (JsonDocument.toList?_ofJson areas_eq))
  rw [ofDocument?, read?_object (nodup_keys_listed _ _ _), if_pos given, listed]
  simp only [List.foldlM_append, first, Option.bind_eq_bind, Option.bind_some]
  rw [foldlM_optionalMember marginX_finite
      (fun hint => ⟨model, buildVolume, hint, none, none, none, []⟩) fun _ => rfl, Option.bind_some,
    foldlM_optionalMember marginY_finite
      (fun hint => ⟨model, buildVolume, marginX, hint, none, none, []⟩) fun _ => rfl,
    Option.bind_some, foldlM_optionalMember spacingX_finite
      (fun hint => ⟨model, buildVolume, marginX, marginY, hint, none, []⟩) fun _ => rfl,
    Option.bind_some, foldlM_optionalMember spacingY_finite
      (fun hint => ⟨model, buildVolume, marginX, marginY, spacingX, hint, []⟩) fun _ => rfl,
    Option.bind_some, last]

theorem map_ordered_listed (profile : PrinterProfile) (volume : Json) (areas : List Json) :
    ((profile.listed volume areas).map fun (key, value) => (key, value.ordered)) =
      profile.listed volume.ordered (areas.map Json.ordered) := by
  have hint (key : String) (value : Option Float) :
      (optionalMember key value).map (fun (key, value) => (key, value.ordered)) =
        optionalMember key value := by
    cases value with
    | none => rfl
    | some value => simp [optionalMember, Json.ordered_ofFloat]
  simp only [listed, List.map_append, hint, List.map_cons, List.map_nil, Json.ordered]
  congr 1
  cases profile.excludedAreas with
  | nil => rfl
  | cons area others => simp [Json.ordered, Json.orderedElements_eq]

/-- A profile that can be laid out is read back from its written form, whatever the order of the
members. -/
theorem Sound.ofDocument?_toJson {profile : PrinterProfile} (sound : profile.Sound) :
    ofDocument? (.ofJson profile.toJson) = some profile ∧
      ofDocument? (.ofJson profile.toJson.ordered) = some profile := by
  have volume_eq := BuildVolume.ofDocument?_toJson fun size inside => (sound.sizes size inside).1
  have area_eq (area : Rect) (inside : area ∈ profile.excludedAreas) :=
    Rect.ofDocument?_toJson (sound.areas area inside)
  constructor
  · refine ofDocument?_listed sound.hints volume_eq.1 ?_
    rw [List.forall₂_map_left_iff, List.forall₂_same]
    exact fun area inside => (area_eq area inside).1
  · rw [ofDocument?, toJson_eq, read?_ordered independent_fields (nodup_keys_listed _ _ _),
      map_ordered_listed]
    refine ofDocument?_listed sound.hints volume_eq.2 ?_
    rw [List.map_map, List.forall₂_map_left_iff, List.forall₂_same]
    exact fun area inside => (area_eq area inside).2

end PrinterProfile

end Strict

namespace PrinterProfile

/-- Both readers get a profile from a value. -/
structure Restores (value : Json) (profile : PrinterProfile) : Prop where
  /-- The value is a loose profile that stands for it, -/
  loose : normalize value = .ok profile
  /-- and a strict record of it. -/
  strict : ofDocument? (.ofJson value) = some profile

/-- An accepted profile is got back from the value that it is written as, with its members as they
are listed and in the order of a table. -/
theorem restores_toJson {raw : Json} {profile : PrinterProfile}
    (accepted : normalize raw = .ok profile) :
    Restores profile.toJson profile ∧ Restores profile.toJson.ordered profile := by
  have sound := sound_of_normalize accepted
  obtain ⟨listed_eq, ordered_eq⟩ := sound.ofDocument?_toJson
  exact ⟨⟨sound.normalize_toJson, listed_eq⟩,
    (normalize_ordered _).trans sound.normalize_toJson, ordered_eq⟩

/-- A loose profile with a nested volume of one size, a margin for both axes, and an area. -/
def nestedVolume : Json :=
  .object
    [ ("build_volume_mm", .object
        [ ("bedMargin", .number (.integer 12)),
          ("single_nozzle", .object [("depth", .number (.real 320.5))]) ]),
      ("excluded_areas", .array
        [ .object
          [ ("depth", .number (.integer 28)), ("width", .number (.integer (-18))),
            ("x", .number (.integer 0)), ("y", .number (.real (-0.0))) ] ]),
      ("model", .text " H2D\u00a0"),
      ("ySpacing", .number (.integer 25)) ]

theorem restores_toJson_nestedVolume :
    ∃ profile, normalize nestedVolume = .ok profile ∧
      Restores profile.toJson profile ∧ Restores profile.toJson.ordered profile := by
  have accepted : normalize nestedVolume = .ok
      { model := "H2D", buildVolume := ⟨320.5, 320.5, 0.0⟩, bedMarginX := some 12.0,
        bedMarginY := some 12.0, ySpacing := some 25.0,
        excludedAreas := [⟨0.0, -0.0, -18.0, 28.0⟩] } := by
    decide +kernel
  exact ⟨_, accepted, restores_toJson accepted⟩

end PrinterProfile

end FlowCalibration
