import FlowCalibration.Printer.Catalog
import FlowCalibration.Proofs.Printer.Normalize

/-!
# Loaded catalogs

A catalog is loaded from every text that is a JSON array of accepted profiles, and from no other.
It has the profiles of the array in order, and all of them can be laid out.  What is refused is
refused for the first entry that is no profile.
-/

namespace FlowCalibration

namespace PrinterCatalog

open PrinterProfile (normalize WrongArea)

/-- A text is loaded as it should be. -/
structure Loads (text : String) : Prop where
  /-- It has a catalog exactly when it is an array of accepted profiles. -/
  accepted : (∃ catalog, parse text = .ok catalog) ↔
    ∃ entries, Json.parse? text = some (.array entries) ∧
      ∀ entry ∈ entries, ∃ profile, normalize entry = .ok profile
  /-- The catalog has one profile per entry, in order. -/
  profiles : ∀ catalog entries, parse text = .ok catalog →
    Json.parse? text = some (.array entries) →
      entries.map normalize = catalog.profiles.map .ok
  /-- A text that is no JSON is refused as such, -/
  notJson : parse text = .error .json ↔ Json.parse? text = none
  /-- and so is a value that is no array. -/
  notAList : parse text = .error .notAList ↔
    ∃ value, Json.parse? text = some value ∧ value.toArray? = none
  /-- Of an array the first entry that is not accepted counts. -/
  refused : ∀ error, parse text = .error (.profile error) ↔
    ∃ front entry back, Json.parse? text = some (.array (front ++ entry :: back)) ∧
      (∀ earlier ∈ front, ∃ profile, normalize earlier = .ok profile) ∧
      normalize entry = .error error
  /-- Of its excluded areas the first that is no area counts. -/
  wrongArea : ∀ index fault, parse text = .error (.profile (.invalidExcludedArea index fault)) →
    ∃ front entry back, Json.parse? text = some (.array (front ++ entry :: back)) ∧
      (∀ earlier ∈ front, ∃ profile, normalize earlier = .ok profile) ∧
      WrongArea entry index fault
  /-- All profiles can be laid out. -/
  sound : ∀ catalog, parse text = .ok catalog → ∀ profile ∈ catalog.profiles, profile.Sound

theorem ofProfiles_eq_ok_iff {entries : List Json} {catalog : PrinterCatalog} :
    ofProfiles entries = .ok catalog ↔ entries.map normalize = catalog.profiles.map .ok := by
  obtain ⟨expected⟩ := catalog
  rw [ofProfiles, ← mapM_eq_ok_iff]
  cases entries.mapM normalize <;> simp

theorem ofProfiles_eq_error_iff {entries : List Json} {error : CatalogError} :
    ofProfiles entries = .error error ↔
      ∃ fault, error = .profile fault ∧ ∃ front entry back, entries = front ++ entry :: back ∧
        (∀ earlier ∈ front, ∃ profile, normalize earlier = .ok profile) ∧
        normalize entry = .error fault := by
  simp only [← mapM_eq_error_iff]
  rw [ofProfiles]
  cases entries.mapM normalize with
  | ok profiles => simp
  | error fault => simp [eq_comm]

/-- Profiles are a catalog exactly when each of them is accepted. -/
theorem exists_ofProfiles_eq_ok_iff {entries : List Json} :
    (∃ catalog, ofProfiles entries = .ok catalog) ↔
      ∀ entry ∈ entries, ∃ profile, normalize entry = .ok profile := by
  constructor
  · rintro ⟨catalog, loaded⟩ entry member
    have accepted : normalize entry ∈ catalog.profiles.map .ok := by
      rw [← ofProfiles_eq_ok_iff.mp loaded]
      exact List.mem_map_of_mem member
    obtain ⟨profile, _, profile_eq⟩ := List.mem_map.mp accepted
    exact ⟨profile, profile_eq.symm⟩
  · intro accepted
    cases loaded : ofProfiles entries with
    | ok catalog => exact ⟨catalog, rfl⟩
    | error error =>
        obtain ⟨fault, _, front, entry, back, rfl, _, refused⟩ := ofProfiles_eq_error_iff.mp loaded
        obtain ⟨profile, profile_eq⟩ := accepted entry (by simp)
        cases refused.symm.trans profile_eq

/-- The profiles of a catalog can be laid out. -/
theorem sound_of_ofProfiles {entries : List Json} {catalog : PrinterCatalog}
    (loaded : ofProfiles entries = .ok catalog) : ∀ profile ∈ catalog.profiles, profile.Sound := by
  intro profile member
  have accepted : (.ok profile : Except ProfileError PrinterProfile) ∈ entries.map normalize := by
    rw [ofProfiles_eq_ok_iff.mp loaded]
    exact List.mem_map_of_mem member
  obtain ⟨entry, _, entry_eq⟩ := List.mem_map.mp accepted
  exact PrinterProfile.sound_of_normalize entry_eq

theorem parse_eq_iff {text : String} {outcome : Except CatalogError PrinterCatalog} :
    parse text = outcome ↔
      (Json.parse? text = none ∧ outcome = .error .json) ∨
      (∃ entries, Json.parse? text = some (.array entries) ∧ ofProfiles entries = outcome) ∨
      ∃ value, Json.parse? text = some value ∧ value.toArray? = none ∧
        outcome = .error .notAList := by
  rw [parse]
  cases Json.parse? text with
  | none => simp [eq_comm]
  | some value => cases value <;> simp [Json.toArray?, eq_comm]

theorem parse_eq_ok_iff {text : String} {catalog : PrinterCatalog} :
    parse text = .ok catalog ↔
      ∃ entries, Json.parse? text = some (.array entries) ∧ ofProfiles entries = .ok catalog := by
  simp [parse_eq_iff]

theorem parse_eq_error_profile_iff {text : String} {error : ProfileError} :
    parse text = .error (.profile error) ↔
      ∃ front entry back, Json.parse? text = some (.array (front ++ entry :: back)) ∧
        (∀ earlier ∈ front, ∃ profile, normalize earlier = .ok profile) ∧
        normalize entry = .error error := by
  simp only [parse_eq_iff, ofProfiles_eq_error_iff, Except.error.injEq, CatalogError.profile.injEq,
    reduceCtorEq, and_false, exists_false, false_or, or_false, exists_eq_left']
  constructor
  · rintro ⟨_, parsed, front, entry, back, rfl, before, refused⟩
    exact ⟨front, entry, back, parsed, before, refused⟩
  · rintro ⟨front, entry, back, parsed, before, refused⟩
    exact ⟨_, parsed, front, entry, back, rfl, before, refused⟩

/-- Every text is loaded as it should be: it has a catalog exactly when it is a JSON array of
accepted profiles, and else the error tells that the text is none, or why its first profile that is
refused is refused. -/
theorem loads_parse (text : String) : Loads text where
  accepted := by
    simp only [parse_eq_ok_iff, ← exists_ofProfiles_eq_ok_iff]
    rw [exists_comm]
    simp only [exists_and_left]
  profiles := by
    intro catalog entries loaded parsed
    obtain ⟨_, own_parsed, loaded⟩ := parse_eq_ok_iff.mp loaded
    obtain rfl := Json.array.inj (Option.some.inj (own_parsed.symm.trans parsed))
    exact ofProfiles_eq_ok_iff.mp loaded
  notJson := by simp [parse_eq_iff, ofProfiles_eq_error_iff]
  notAList := by simp [parse_eq_iff, ofProfiles_eq_error_iff]
  refused := fun _ => parse_eq_error_profile_iff
  wrongArea := by
    intro index fault refused
    obtain ⟨front, entry, back, parsed, before, refused⟩ := parse_eq_error_profile_iff.mp refused
    exact ⟨front, entry, back, parsed, before, PrinterProfile.wrongArea_of_normalize refused⟩
  sound := by
    intro catalog loaded
    obtain ⟨_, _, loaded⟩ := parse_eq_ok_iff.mp loaded
    exact sound_of_ofProfiles loaded

end PrinterCatalog

end FlowCalibration
