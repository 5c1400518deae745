import FlowCalibration.Printer.Normalize
import Mathlib.Logic.Relation

/-!
# Shapes of loose profiles

Two keys of a loose profile have two spellings each, and its build volume may stand one level
deeper, as the variant for a single nozzle.  A profile is read from the value of either spelling and
from the variant, and the margin of a volume counts in the variant as well.  So a key may be
respelled and a volume nested without any change to the profile that is read, or to the error.
-/

namespace FlowCalibration

namespace KeyTable

variable {α : Type}

/-- The table in which the value of a key stands under another key. -/
def rename (table : KeyTable α) (key other : String) : KeyTable α :=
  match find? table key with
  | some value => insert (erase table key) other value
  | none => table

theorem find?_rename {table : KeyTable α} {key other : String}
    (free : find? table other = none) (wanted : String) :
    find? (rename table key other) wanted =
      if wanted = other then find? table key
      else if wanted = key then none
      else find? table wanted := by
  rw [rename]
  split
  next value held => rw [find?_insert, find?_erase, held]
  next absent =>
    split
    next same => rw [same, free, absent]
    next =>
      split
      next same => rw [same, absent]
      next => rfl

end KeyTable

namespace PrinterProfile

/-! ## Changes of shape -/

/-- Both spellings of the key of the build volume. -/
def volumeSpellings : String × String := ("buildVolume", "build_volume_mm")

/-- Both spellings of the key of the excluded areas. -/
def areasSpellings : String × String := ("excludedAreas", "excluded_areas")

/-- Keys with two spellings. -/
def spellings : List (String × String) := [volumeSpellings, areasSpellings]

/-- Whether two keys are the spellings of one. -/
def Respelled (key other : String) : Prop :=
  (key, other) ∈ spellings ∨ (other, key) ∈ spellings

/-- Key of the variant of a volume for a single nozzle. -/
def variantKey : String := "single_nozzle"

/-- A volume one level deeper. -/
def nested (volume : Json) : Json :=
  .object [(variantKey, volume)]

/-- Whether members hold no key in both of its spellings. -/
def SinglySpelled (members : List (String × Json)) : Prop :=
  ∀ pair ∈ spellings,
    KeyTable.find? members pair.1 = none ∨ KeyTable.find? members pair.2 = none

/-- A change of the shape of members. -/
inductive Reshaped (members : List (String × Json)) : List (String × Json) → Prop
  /-- A key is written in its other spelling. -/
  | respell {key other : String} (spelled : Respelled key other) :
      Reshaped members (KeyTable.rename members key other)
  /-- A volume that is an object without an object for a single nozzle becomes that object. -/
  | nest {key : String} {volume : List (String × Json)}
      (spelled : key = volumeSpellings.1 ∨ key = volumeSpellings.2)
      (held : KeyTable.find? members key = some (.object volume))
      (plain : ∀ inner, KeyTable.find? volume variantKey ≠ some (.object inner)) :
      Reshaped members (KeyTable.insert members key (nested (.object volume)))

/-! ## What is read of a profile -/

/-- A value unless it is `null`. -/
def present? : Option Json → Option Json
  | some .null => none
  | value => value

/-- The value under either spelling of a key. -/
def spelled? (raw : Json) (pair : String × String) : Option Json :=
  (present? (raw.member? pair.1)).or (present? (raw.member? pair.2))

theorem firstPresent?_pair (raw : Json) (pair : String × String) :
    firstPresent? raw [pair.1, pair.2] = spelled? raw pair := by
  show [pair.1, pair.2].findSome? (fun key => present? (raw.member? key)) = _
  rw [spelled?, List.findSome?_cons, List.findSome?_singleton]
  cases present? (raw.member? pair.1) <;> rfl

theorem spelled?_eq_object {raw : Json} {pair : String × String} {value : List (String × Json)}
    (held : raw.member? pair.1 = some (.object value) ∨
      raw.member? pair.1 = none ∧ raw.member? pair.2 = some (.object value)) :
    spelled? raw pair = some (.object value) := by
  rcases held with first | ⟨absent, second⟩
  · rw [spelled?, first]
    rfl
  · rw [spelled?, absent, second]
    rfl

/-- What is read of an object that holds a volume: its variant for a single nozzle, or the object
itself without one, and the margin. -/
def variant (outer : Json) : Json × Option Float :=
  let inner := ((outer.member? variantKey).bind asObject?).getD outer
  (inner, numberMember? outer "bedMargin" <|> numberMember? inner "bedMargin")

/-- What is read of the volume of a profile. -/
def volume? (raw : Json) : Option (Json × Option Float) :=
  ((spelled? raw volumeSpellings).bind asObject?).map variant

theorem variant_nested {volume : List (String × Json)}
    (plain : ∀ inner, KeyTable.find? volume variantKey ≠ some (.object inner)) :
    variant (nested (.object volume)) = variant (.object volume) := by
  have unvaried : ((Json.object volume).member? variantKey).bind asObject? = none := by
    cases found : (Json.object volume).member? variantKey with
    | none => rfl
    | some inner =>
        cases inner with
        | object inner => exact absurd found (plain inner)
        | _ => rfl
  have varied : ((nested (.object volume)).member? variantKey).bind asObject? =
      some (.object volume) := by
    rw [nested, Json.member?, KeyTable.find?_cons, if_pos rfl]
    rfl
  have unmargined : numberMember? (nested (.object volume)) "bedMargin" = none := by
    rw [nested, numberMember?, Json.member?, KeyTable.find?_cons, if_neg (by decide)]
    rfl
  rw [variant, variant, unvaried, varied, unmargined]
  cases margin : numberMember? (.object volume) "bedMargin" <;> simp [margin]

theorem normalize_eq (raw : Json) :
    normalize raw = (do
      let model ← modelOf raw
      match volume? raw with
      | none => .error (.missingField "buildVolume")
      | some (inner, own) =>
          let buildVolume ← volumeOf inner
          let margin := numberMember? raw "bedMargin" <|> own
          let excludedAreas ← areasOf raw
          return {
            model
            buildVolume
            bedMarginX := margin <|> numberMember? raw "bedMarginX"
            bedMarginY := margin <|> numberMember? raw "bedMarginY"
            xSpacing := numberMember? raw "xSpacing"
            ySpacing := numberMember? raw "ySpacing"
            excludedAreas }) := by
  rw [normalize, volume?, ← firstPresent?_pair, volumeSpellings]
  cases (firstPresent? raw ["buildVolume", "build_volume_mm"]).bind asObject? <;> rfl

/-- A profile is read from its volume, its areas and the values of the keys that have one
spelling. -/
theorem normalize_congr {raw other : Json}
    (plain : ∀ key, (∀ pair ∈ spellings, key ≠ pair.1 ∧ key ≠ pair.2) →
      other.member? key = raw.member? key)
    (volume : volume? other = volume? raw)
    (areas : spelled? other areasSpellings = spelled? raw areasSpellings) :
    normalize other = normalize raw := by
  have model_eq : modelOf other = modelOf raw := by
    rw [modelOf, modelOf, plain "model" (by decide)]
  have areas_eq : areasOf other = areasOf raw := by
    rw [← firstPresent?_pair, ← firstPresent?_pair, areasSpellings] at areas
    rw [areasOf, areasOf, areas]
  have number_eq : ∀ key ∈ ["bedMargin", "bedMarginX", "bedMarginY", "xSpacing", "ySpacing"],
      numberMember? other key = numberMember? raw key := by
    intro key member
    rw [numberMember?, numberMember?, plain key (by revert key; decide)]
  simp only [List.forall_mem_cons] at number_eq
  obtain ⟨margin, marginX, marginY, xSpacing, ySpacing, -⟩ := number_eq
  rw [normalize_eq other, normalize_eq raw, model_eq, volume, areas_eq, margin, marginX, marginY,
    xSpacing, ySpacing]

/-! ## One change -/

section

variable {members : List (String × Json)} {key other : String}

theorem member?_rename (spelled : Respelled key other)
    (free : KeyTable.find? members other = none) {wanted : String}
    (single : ∀ pair ∈ spellings, wanted ≠ pair.1 ∧ wanted ≠ pair.2) :
    (Json.object (KeyTable.rename members key other)).member? wanted =
      (Json.object members).member? wanted := by
  obtain ⟨notKey, notOther⟩ : wanted ≠ key ∧ wanted ≠ other := by
    rcases spelled with spelled | spelled
    · exact single _ spelled
    · exact (single _ spelled).symm
  exact (KeyTable.find?_rename free wanted).trans ((if_neg notOther).trans (if_neg notKey))

/-- A respelled key is read as before, and so is the other key with two spellings. -/
theorem spelled?_rename (spelled : Respelled key other)
    (free : KeyTable.find? members other = none) {pair : String × String}
    (pair_mem : pair ∈ spellings) :
    spelled? (.object (KeyTable.rename members key other)) pair =
      spelled? (.object members) pair := by
  simp only [Respelled, spellings, volumeSpellings, areasSpellings, List.mem_cons, Prod.mk.injEq,
    List.not_mem_nil, or_false] at spelled pair_mem
  simp only [spelled?, Json.member?, KeyTable.find?_rename free]
  rcases pair_mem with rfl | rfl <;>
    rcases spelled with (⟨rfl, rfl⟩ | ⟨rfl, rfl⟩) | ⟨rfl, rfl⟩ | ⟨rfl, rfl⟩ <;>
      simp [free, present?]

theorem singlySpelled_rename (single : SinglySpelled members)
    (spelled : Respelled key other)
    (free : KeyTable.find? members other = none) :
    SinglySpelled (KeyTable.rename members key other) := by
  simp only [SinglySpelled, Respelled, spellings, volumeSpellings, areasSpellings, List.mem_cons,
    Prod.mk.injEq, List.not_mem_nil, or_false, KeyTable.find?_rename free] at single spelled ⊢
  rcases spelled with (⟨rfl, rfl⟩ | ⟨rfl, rfl⟩) | ⟨rfl, rfl⟩ | ⟨rfl, rfl⟩ <;> simp_all

theorem member?_insert (members : List (String × Json)) (value : Json) {wanted : String}
    (different : wanted ≠ key) :
    (Json.object (KeyTable.insert members key value)).member? wanted =
      (Json.object members).member? wanted :=
  (KeyTable.find?_insert members key wanted value).trans (if_neg different)

theorem singlySpelled_insert (single : SinglySpelled members)
    (held : KeyTable.find? members key ≠ none) (value : Json) :
    SinglySpelled (KeyTable.insert members key value) := by
  have absent {wanted : String} (none_eq : KeyTable.find? members wanted = none) :
      KeyTable.find? (KeyTable.insert members key value) wanted = none := by
    have different : wanted ≠ key := by
      rintro rfl
      exact held none_eq
    exact (member?_insert members value different).trans none_eq
  exact fun pair pair_mem => (single pair pair_mem).imp absent absent

theorem volume?_insert_nested (single : SinglySpelled members) {volume : List (String × Json)}
    (spelled : key = volumeSpellings.1 ∨ key = volumeSpellings.2)
    (held : KeyTable.find? members key = some (.object volume))
    (plain : ∀ inner, KeyTable.find? volume variantKey ≠ some (.object inner)) :
    volume? (.object (KeyTable.insert members key (nested (.object volume)))) =
      volume? (.object members) := by
  have held_inside : (Json.object (KeyTable.insert members key (nested (.object volume)))).member?
      key = some (nested (.object volume)) :=
    (KeyTable.find?_insert members key key _).trans (if_pos rfl)
  obtain ⟨before, after⟩ :
      spelled? (.object members) volumeSpellings = some (.object volume) ∧
      spelled? (.object (KeyTable.insert members key (nested (.object volume)))) volumeSpellings =
        some (nested (.object volume)) := by
    rcases spelled with rfl | rfl
    · exact ⟨spelled?_eq_object (.inl held), spelled?_eq_object (.inl held_inside)⟩
    · have absent : (Json.object members).member? volumeSpellings.1 = none :=
        (single volumeSpellings List.mem_cons_self).resolve_right (by simp [held])
      have different : volumeSpellings.1 ≠ volumeSpellings.2 := by decide
      have absent_inside :=
        (member?_insert members (nested (.object volume)) different).trans absent
      exact ⟨spelled?_eq_object (.inr ⟨absent, held⟩),
        spelled?_eq_object (.inr ⟨absent_inside, held_inside⟩)⟩
  rw [volume?, volume?, before, after]
  exact congrArg some (variant_nested plain)

/-- One change of shape keeps what is read, and no key gets a second spelling by it. -/
theorem Reshaped.normalize_eq {others : List (String × Json)} (reshaped : Reshaped members others)
    (single : SinglySpelled members) :
    SinglySpelled others ∧ normalize (.object others) = normalize (.object members) := by
  cases reshaped with
  | @respell key other spelled =>
      by_cases free : KeyTable.find? members other = none
      · have same (pair : String × String) (pair_mem : pair ∈ spellings) :=
          spelled?_rename spelled free pair_mem
        refine ⟨singlySpelled_rename single spelled free, normalize_congr ?_ ?_ ?_⟩
        · exact fun wanted => member?_rename spelled free
        · rw [volume?, volume?, same volumeSpellings (by decide)]
        · exact same areasSpellings (by decide)
      · have absent : KeyTable.find? members key = none := by
          rcases spelled with spelled | spelled
          · exact (single _ spelled).resolve_right free
          · exact (single _ spelled).resolve_left free
        have unchanged : KeyTable.rename members key other = members := by
          rw [KeyTable.rename, absent]
        rw [unchanged]
        exact ⟨single, rfl⟩
  | @nest key volume spelled held plain =>
      have given : KeyTable.find? members key ≠ none := by simp [held]
      have kept {wanted : String} (different : wanted ≠ key) :=
        member?_insert members (nested (.object volume)) different
      have notArea : areasSpellings.1 ≠ key ∧ areasSpellings.2 ≠ key := by
        rcases spelled with rfl | rfl <;> decide
      refine ⟨singlySpelled_insert single given _, normalize_congr ?_ ?_ ?_⟩
      · intro wanted once
        obtain ⟨notFirst, notSecond⟩ := once volumeSpellings (by decide)
        refine kept ?_
        rcases spelled with rfl | rfl
        · exact notFirst
        · exact notSecond
      · exact volume?_insert_nested single spelled held plain
      · rw [spelled?, spelled?, kept notArea.1, kept notArea.2]

end

/-- Respelling keys and nesting the volume, in any order, keep the profile that is read, or the
error. -/
theorem normalize_reshaped {members others : List (String × Json)}
    (single : SinglySpelled members) (changes : Relation.ReflTransGen Reshaped members others) :
    normalize (.object others) = normalize (.object members) := by
  have kept : SinglySpelled others ∧ normalize (.object others) = normalize (.object members) := by
    induction changes with
    | refl => exact ⟨single, rfl⟩
    | tail _ change induction =>
        obtain ⟨still, same⟩ := change.normalize_eq induction.1
        exact ⟨still, same.trans induction.2⟩
  exact kept.2

/-- The volume of a printer with a margin of its own. -/
def marginedVolume : Json :=
  .object [("bedMargin", .number (.integer 12)), ("width", .number (.integer 325))]

/-- A printer whose volume has a margin. -/
def margined : List (String × Json) :=
  [ ("buildVolume", marginedVolume), ("excludedAreas", .array []), ("model", .text "H2D"),
    ("xSpacing", .number (.integer 25)) ]

/-- The same printer in another shape. -/
def marginedInside : List (String × Json) :=
  [ ("build_volume_mm", nested marginedVolume), ("excluded_areas", .array []),
    ("model", .text "H2D"), ("xSpacing", .number (.integer 25)) ]

theorem normalize_reshaped_margined :
    SinglySpelled margined ∧ Relation.ReflTransGen Reshaped margined marginedInside ∧
      normalize (.object marginedInside) = normalize (.object margined) := by
  have single : SinglySpelled margined := by
    simp [SinglySpelled, spellings, volumeSpellings, areasSpellings, margined, KeyTable.find?_cons]
  have changes : Relation.ReflTransGen Reshaped margined marginedInside := by
    have inside : marginedInside =
        KeyTable.rename
          (KeyTable.rename (KeyTable.insert margined "buildVolume" (nested marginedVolume))
            "buildVolume" "build_volume_mm")
          "excludedAreas" "excluded_areas" :=
      rfl
    rw [inside]
    exact .head (.nest (.inl rfl) rfl (by simp [variantKey, KeyTable.find?_cons])) <|
      .head (.respell (.inl (by decide))) <| .single (.respell (.inl (by decide)))
  exact ⟨single, changes, normalize_reshaped single changes⟩

end PrinterProfile

end FlowCalibration
