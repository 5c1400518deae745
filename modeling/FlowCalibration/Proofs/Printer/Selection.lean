import FlowCalibration.Proofs.Printer.Catalog
import FlowCalibration.Proofs.Text.Case

/-!
# Printers chosen by name

A printer of a loaded catalog is found by its name in any case of its ASCII letters and with blanks
around it; of several printers with the name the first is chosen.  A name that is a number is taken
for a place in the catalog instead.
-/

namespace FlowCalibration

/-! ## Selectors that spell a name -/

/-- A selector that is a name up to the case of ASCII letters, perhaps with blanks around it. -/
def Spells (selector name : String) : Prop :=
  ∃ front word back : List Char, selector.toList = front ++ word ++ back ∧
    (∀ c ∈ front, isBlank c = true) ∧ (∀ c ∈ back, isBlank c = true) ∧
    word.map Char.toLower = name.toList.map Char.toLower

/-- Trimming a selector leaves the name up to case, where the name has no blank at either end. -/
theorem Spells.map_trim {selector name : String} (spelled : Spells selector name)
    (first : ∀ c ∈ name.toList.head?, isBlank c = false)
    (last : ∀ c ∈ name.toList.getLast?, isBlank c = false) :
    (trim selector.toList).map Char.toLower = name.toList.map Char.toLower := by
  obtain ⟨front, word, back, split, front_blank, back_blank, same⟩ := spelled
  have head_eq := congrArg List.head? same
  have last_eq := congrArg List.getLast? same
  rw [List.head?_map, List.head?_map] at head_eq
  rw [List.getLast?_map, List.getLast?_map] at last_eq
  have whole : trim word = word :=
    trim_eq_self (isBlank_of_map_toLower_eq head_eq first)
      (isBlank_of_map_toLower_eq last_eq last)
  rw [split, trim_append_right _ back_blank, trim_append_left front_blank, whole, same]

/-! ## Numbers -/

/-- A text that counts as a number: digits, perhaps behind a plus sign, whose value fits 64 bits. -/
def Numeral (text : List Char) (number : Nat) : Prop :=
  ∃ digits : List Char, (text = digits ∨ text = '+' :: digits) ∧ digits ≠ [] ∧
    (∀ c ∈ digits, c.isDigit = true) ∧ digitsValue digits = number ∧
    number ≤ JsonDocument.wordMax

theorem Numeral.caseless {text : List Char} {number : Nat} (numeral : Numeral text number) :
    ∀ c ∈ text, ¬ (65 ≤ c.toNat ∧ c.toNat ≤ 90) ∧ ¬ (97 ≤ c.toNat ∧ c.toNat ≤ 122) := by
  obtain ⟨digits, text_eq, -, all_digits, -⟩ := numeral
  have digit_caseless : ∀ c ∈ digits,
      ¬ (65 ≤ c.toNat ∧ c.toNat ≤ 90) ∧ ¬ (97 ≤ c.toNat ∧ c.toNat ≤ 122) := by
    intro c member
    obtain ⟨-, upper⟩ := Char.isDigit_iff_toNat.mp (all_digits c member)
    have upper : c.toNat ≤ 57 := upper
    omega
  rcases text_eq with rfl | rfl
  · exact digit_caseless
  · exact List.forall_mem_cons.mpr ⟨by decide, digit_caseless⟩

namespace PrinterCatalog

theorem selectorNumber?_eq_some_iff {selector : String} {number : Nat} :
    selectorNumber? selector = some number ↔ Numeral (trim selector.toList) number := by
  have read (digits : List Char) :
      (if digits.isEmpty || !digits.all Char.isDigit then none
        else if digitsValue digits ≤ JsonDocument.wordMax then some (digitsValue digits)
        else none) = some number ↔
      digits ≠ [] ∧ (∀ c ∈ digits, c.isDigit = true) ∧ digitsValue digits = number ∧
        number ≤ JsonDocument.wordMax := by
    rw [Option.ite_none_left_eq_some, Option.ite_none_right_eq_some, Option.some_inj]
    simp only [Bool.or_eq_true, Bool.not_eq_true', not_or, List.isEmpty_iff, Bool.not_eq_false,
      List.all_eq_true, and_assoc]
    constructor
    · rintro ⟨nonempty, all_digits, fits, rfl⟩
      exact ⟨nonempty, all_digits, rfl, fits⟩
    · rintro ⟨nonempty, all_digits, rfl, fits⟩
      exact ⟨nonempty, all_digits, fits, rfl⟩
  rw [selectorNumber?]
  split
  next digits signed =>
    rw [read, signed]
    constructor
    · rintro numeral
      exact ⟨digits, .inr rfl, numeral⟩
    · rintro ⟨own, rfl | own_eq, nonempty, all_digits, value⟩
      · exact absurd (all_digits '+' List.mem_cons_self) (by decide)
      · obtain rfl := (List.cons.inj own_eq).2
        exact ⟨nonempty, all_digits, value⟩
  next unsigned =>
    rw [read]
    constructor
    · rintro numeral
      exact ⟨_, .inl rfl, numeral⟩
    · rintro ⟨own, own_eq | own_eq, numeral⟩
      · rwa [own_eq]
      · exact absurd own_eq (unsigned own)

/-! ## Printers -/

theorem parse_eq_ok_of_profiles {text : String} {profiles : List PrinterProfile}
    (read : (parse text).toOption.map PrinterCatalog.profiles = some profiles) :
    parse text = .ok ⟨profiles⟩ := by
  obtain ⟨catalog, loaded, rfl⟩ := Option.map_eq_some_iff.mp read
  cases parsed : parse text with
  | error error => rw [parsed] at loaded; contradiction
  | ok own =>
      rw [parsed] at loaded
      exact congrArg Except.ok (Option.some.inj loaded)

theorem findByModel?_isLeast {catalog : PrinterCatalog} {name : String} {place : Nat}
    {profile : PrinterProfile} (found : catalog.get? place = some profile)
    (same : equalIgnoringCase profile.model (trimText name) = true) :
    ∃ first other, catalog.findByModel? name = some (first, other) ∧
      IsLeast {place | ∃ other, catalog.get? place = some other ∧
        equalIgnoringCase other.model (trimText name) = true} first := by
  have listed : (profile, place) ∈ catalog.profiles.zipIdx :=
    List.mk_mem_zipIdx_iff_getElem?.mpr found
  obtain ⟨⟨other, first⟩, search⟩ : ∃ entry, catalog.profiles.zipIdx.find?
      (fun entry => equalIgnoringCase entry.1.model (trimText name)) = some entry := by
    rw [← Option.isSome_iff_exists, List.find?_isSome]
    exact ⟨(profile, place), listed, same⟩
  refine ⟨first, other, ?_, ?_⟩
  · rw [findByModel?, search]
    rfl
  obtain ⟨matching, index, inside, entry_eq, before⟩ := List.find?_eq_some_iff_getElem.mp search
  rw [List.getElem_zipIdx, Nat.zero_add, Prod.mk.injEq] at entry_eq
  obtain ⟨other_eq, rfl⟩ := entry_eq
  constructor
  · exact ⟨other, List.getElem?_eq_some_iff.mpr ⟨_, other_eq⟩, matching⟩
  · rintro earlier ⟨another, another_found, another_same⟩
    by_contra above
    obtain ⟨_, another_eq⟩ := List.getElem?_eq_some_iff.mp another_found
    have differs := before earlier (Nat.lt_of_not_le above)
    rw [List.getElem_zipIdx, another_eq, another_same] at differs
    contradiction

/-- A printer of a loaded catalog is chosen by its name, whatever the case of its ASCII letters and
the blanks around it, unless the name is a number: of the printers with the name the first is
chosen.  A name that is a number is taken for a place. -/
theorem select_name {text : String} {catalog : PrinterCatalog} (loaded : parse text = .ok catalog)
    {place : Nat} {profile : PrinterProfile} (found : catalog.get? place = some profile)
    {selector : String} (spelled : Spells selector profile.model) :
    ((∀ number, ¬ Numeral profile.model.toList number) →
      ∃ first, catalog.select selector = .ok first ∧
        IsLeast {place | ∃ other, catalog.get? place = some other ∧
          equalIgnoringCase other.model profile.model = true} first) ∧
    ∀ number, Numeral profile.model.toList number → catalog.select selector = .ok number := by
  have sound := (loads_parse text).sound catalog loaded profile (List.mem_of_getElem? found)
  have trimmed := spelled.map_trim sound.first sound.last
  have number_iff (number : Nat) :
      selectorNumber? selector = some number ↔ Numeral profile.model.toList number := by
    rw [selectorNumber?_eq_some_iff]
    constructor
    · intro numeral
      rwa [eq_of_map_toLower_eq numeral.caseless trimmed.symm]
    · intro numeral
      rwa [eq_of_map_toLower_eq numeral.caseless trimmed]
  constructor
  · intro noNumber
    have case_eq (other : PrinterProfile) :
        equalIgnoringCase other.model (trimText selector) =
          equalIgnoringCase other.model profile.model := by
      rw [equalIgnoringCase, equalIgnoringCase, trimText, String.toList_ofList, trimmed]
    have same : equalIgnoringCase profile.model (trimText selector) = true := by
      rw [case_eq]
      exact beq_self_eq_true _
    obtain ⟨first, other, search, least⟩ := findByModel?_isLeast found same
    simp only [case_eq] at least
    refine ⟨first, ?_, least⟩
    have notNumber : selectorNumber? selector = none :=
      Option.eq_none_iff_forall_ne_some.mpr fun number read =>
        noNumber number ((number_iff number).mp read)
    rw [select, notNumber, search]
  · intro number numeral
    rw [select, (number_iff number).mpr numeral]

/-- A printer with a name. -/
def named (model : String) : PrinterProfile :=
  { model, buildVolume := ⟨1.0, 1.0, 0.0⟩ }

/-- Two printers whose names differ in case only. -/
def twins : String :=
  "[\x7b\"model\":\"Box+\",\"buildVolume\":\x7b\"width\":1\x7d\x7d," ++
    "\x7b\"model\":\" BOX+ \",\"buildVolume\":\x7b\"depth\":1\x7d\x7d]"

theorem select_name_twins :
    parse twins = .ok ⟨[named "Box+", named "BOX+"]⟩ ∧
      get? ⟨[named "Box+", named "BOX+"]⟩ 1 = some (named "BOX+") ∧
      Spells "\tbOX+\u00a0 " (named "BOX+").model ∧
      ((∀ number, ¬ Numeral (named "BOX+").model.toList number) →
        ∃ first, select ⟨[named "Box+", named "BOX+"]⟩ "\tbOX+\u00a0 " = .ok first ∧
          IsLeast {place | ∃ other, get? ⟨[named "Box+", named "BOX+"]⟩ place = some other ∧
            equalIgnoringCase other.model (named "BOX+").model = true} first) ∧
      ∀ number, Numeral (named "BOX+").model.toList number →
        select ⟨[named "Box+", named "BOX+"]⟩ "\tbOX+\u00a0 " = .ok number := by
  have loaded : parse twins = .ok ⟨[named "Box+", named "BOX+"]⟩ :=
    parse_eq_ok_of_profiles (by decide +kernel)
  have found : get? ⟨[named "Box+", named "BOX+"]⟩ 1 = some (named "BOX+") := by decide +kernel
  have spelled : Spells "\tbOX+\u00a0 " (named "BOX+").model :=
    ⟨['\t'], ['b', 'O', 'X', '+'], ['\u00a0', ' '], by decide +kernel, by simp [isBlank],
      by simp [isBlank], by decide +kernel⟩
  exact ⟨loaded, found, spelled, select_name loaded found spelled⟩

/-- A printer whose name is a number. -/
def numbered : String :=
  "[\x7b\"model\":\"7\",\"buildVolume\":\x7b\"width\":1\x7d\x7d]"

/-- Its name is taken for a place at which there is no printer. -/
theorem select_numbered :
    parse numbered = .ok ⟨[named "7"]⟩ ∧ get? ⟨[named "7"]⟩ 0 = some (named "7") ∧
      select ⟨[named "7"]⟩ (named "7").model = .ok 7 ∧
      ¬ ∃ first, select ⟨[named "7"]⟩ (named "7").model = .ok first ∧
        IsLeast {place | ∃ other, get? ⟨[named "7"]⟩ place = some other ∧
          equalIgnoringCase other.model (named "7").model = true} first := by
  have loaded : parse numbered = .ok ⟨[named "7"]⟩ := parse_eq_ok_of_profiles (by decide +kernel)
  have found : get? ⟨[named "7"]⟩ 0 = some (named "7") := by decide +kernel
  have chosen : select ⟨[named "7"]⟩ (named "7").model = .ok 7 := by decide +kernel
  have nothing : get? ⟨[named "7"]⟩ 7 = none := by decide +kernel
  refine ⟨loaded, found, chosen, ?_⟩
  rintro ⟨first, first_chosen, ⟨other, other_found, -⟩, -⟩
  obtain rfl := Except.ok.inj (chosen.symm.trans first_chosen)
  cases nothing.symm.trans other_found

end PrinterCatalog

end FlowCalibration
