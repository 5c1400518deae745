import FlowCalibration.Proofs.Text.Words
import FlowCalibration.Text.Case
import FlowCalibration.Text.DecimalDigit
import FlowCalibration.Text.UpperCase
import Mathlib

/-!
# Texts up to the case of ASCII letters

Lower-casing leaves every character alone but the ASCII capitals, which it turns into the ASCII
letters 32 places further on.  So a property that neither kind of letter has is not changed by it,
and a text is upper-cased as its lower-case form is.
-/

namespace FlowCalibration

/-- Lower-casing changes capitals only. -/
theorem toLower_cases (c : Char) :
    c.toLower = c ∨ 65 ≤ c.toNat ∧ c.toNat ≤ 90 ∧ c.toLower.toNat = c.toNat + 32 := by
  by_cases capital : c.isUpper = true
  · right
    obtain ⟨lower, upper⟩ : 65 ≤ c.toNat ∧ c.toNat ≤ 90 := by
      simpa [Char.isUpper, UInt32.le_iff_toNat_le] using capital
    have valid : (c.toNat + 32).isValidChar := .inl (by omega)
    refine ⟨lower, upper, ?_⟩
    rw [Char.toLower_eq_of_isUpper capital, Char.toNat_ofNat, if_pos valid]
  · exact .inl (Char.toLower_eq_of_not_isUpper capital)

theorem apply_toLower {holds : Char → Bool}
    (capitals : ∀ c : Char, 65 ≤ c.toNat ∧ c.toNat ≤ 90 → holds c = false)
    (small : ∀ c : Char, 97 ≤ c.toNat ∧ c.toNat ≤ 122 → holds c = false) (c : Char) :
    holds c.toLower = holds c := by
  rcases toLower_cases c with same | ⟨lower, upper, shifted⟩
  · rw [same]
  · rw [capitals c ⟨lower, upper⟩, small c.toLower ⟨by omega, by omega⟩]

theorem toLower_eq_iff {c other : Char} (notCapital : ¬ (65 ≤ other.toNat ∧ other.toNat ≤ 90))
    (notSmall : ¬ (97 ≤ other.toNat ∧ other.toNat ≤ 122)) : c.toLower = other ↔ c = other := by
  rcases toLower_cases c with same | ⟨lower, upper, shifted⟩
  · rw [same]
  · constructor
    · rintro rfl
      omega
    · rintro rfl
      omega

theorem isBlank_toLower (c : Char) : isBlank c.toLower = isBlank c := by
  apply apply_toLower <;> intro c range <;> simp [isBlank] <;> omega

theorem isDecimalDigit_of_letter {c : Char} (letter : 58 ≤ c.toNat) (ascii : c.toNat < 0x80) :
    isDecimalDigit c = false := by
  have notAscii : c.isDigit = false := by
    rw [← Bool.not_eq_true, Char.isDigit_iff_toNat]
    rintro ⟨_, upper⟩
    have upper : c.toNat ≤ 57 := upper
    omega
  have notBeyond : ¬ 0x80 ≤ c.toNat := by omega
  simp [isDecimalDigit, notAscii, notBeyond]

theorem isDecimalDigit_toLower (c : Char) : isDecimalDigit c.toLower = isDecimalDigit c := by
  apply apply_toLower <;> intro c range <;>
    exact isDecimalDigit_of_letter (by omega) (by omega)

theorem toLower_of_isDecimalDigit {c : Char} (digit : isDecimalDigit c = true) :
    c.toLower = c := by
  rcases toLower_cases c with same | ⟨lower, upper, _⟩
  · exact same
  · rw [isDecimalDigit_of_letter (by omega) (by omega)] at digit
    contradiction

theorem isBlank_of_map_toLower_eq {word name : Option Char}
    (same : word.map Char.toLower = name.map Char.toLower)
    (solid : ∀ c ∈ name, isBlank c = false) : ∀ c ∈ word, isBlank c = false := by
  rintro c rfl
  obtain ⟨own, own_mem, lower_eq⟩ := Option.map_eq_some_iff.mp same.symm
  rw [← isBlank_toLower, ← lower_eq, isBlank_toLower, solid own own_mem]

theorem eq_of_map_toLower_eq {word name : List Char}
    (caseless : ∀ c ∈ name, ¬ (65 ≤ c.toNat ∧ c.toNat ≤ 90) ∧ ¬ (97 ≤ c.toNat ∧ c.toNat ≤ 122))
    (same : word.map Char.toLower = name.map Char.toLower) : word = name := by
  induction name generalizing word with
  | nil => exact List.map_eq_nil_iff.mp same
  | cons c name induction =>
      obtain ⟨first, rest, rfl, first_eq, rest_eq⟩ := List.map_eq_cons_iff.mp same
      obtain ⟨⟨notCapital, notSmall⟩, caseless⟩ := List.forall_mem_cons.mp caseless
      have kept : c.toLower = c := (toLower_eq_iff notCapital notSmall).mpr rfl
      rw [kept, toLower_eq_iff notCapital notSmall] at first_eq
      rw [first_eq, induction caseless rest_eq]

theorem upperCase_map_toLower (text : List Char) :
    upperCase (text.map Char.toLower) = upperCase text := by
  rw [upperCase, List.flatMap_map]
  refine List.flatMap_congr fun c _ => ?_
  rcases toLower_cases c with same | ⟨lower, upper, shifted⟩
  · rw [same]
  · have ascii : c.toNat < 0x80 := by omega
    have lower_ascii : c.toLower.toNat < 0x80 := by omega
    rw [if_pos ascii, if_pos lower_ascii, Char.toUpper_toLower_eq_toUpper]

end FlowCalibration
