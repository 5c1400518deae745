import FlowCalibration.Proofs.Decimal.RoundTrip

/-!
# Canonical decimals

A finite number of a program is written in the one way that has nothing superfluous: no zero in
front of its whole digits, none behind its fraction, no sign of zero and no power of ten.  As it is
read back in whole, two finite doubles with the same text are the same number.
-/

namespace FlowCalibration

/-- The digits of a whole number: a zero alone, or digits that start with another one. -/
structure IsWhole (digits : List Char) : Prop where
  ne_nil : digits ≠ []
  all : ∀ c ∈ digits, c.isDigit = true
  head : digits = ['0'] ∨ digits.head? ≠ some '0'

theorem isWhole_toDigits (count : Nat) : IsWhole (Nat.toDigits 10 count) where
  ne_nil := Nat.toDigits_ne_nil
  all c member := Nat.isDigit_of_mem_toDigits (by decide) (by decide) member
  head := by
    rcases Nat.eq_zero_or_pos count with rfl | positive
    · exact .inl rfl
    · obtain ⟨first, more, digits, notZero⟩ := head_toDigits positive
      exact .inr (by rw [digits]; exact fun same => notZero (Option.some.inj same))

theorem getLast?_toDigits (count : Nat) :
    (Nat.toDigits 10 count).getLast? = some (count % 10).digitChar := by
  by_cases small : count < 10
  · rw [Nat.toDigits_of_lt_base small, Nat.mod_eq_of_lt small]
    rfl
  · rw [Nat.toDigits_of_base_le (by decide) (by omega), List.getLast?_concat]

/-- A canonical decimal: perhaps a minus sign, the digits of a whole number, and perhaps a point and
digits behind it that do not end in a zero.  Zero itself has no sign. -/
def IsCanonicalDecimal (text : List Char) : Prop :=
  ∃ (negative : Bool) (whole fraction : List Char), IsWhole whole ∧
    (∀ c ∈ fraction, c.isDigit = true) ∧ fraction.getLast? ≠ some '0' ∧
    (negative = true → whole ++ fraction ≠ ['0']) ∧
    text = NumberText.plainText negative whole fraction

namespace IsCanonicalDecimal

theorem zero : IsCanonicalDecimal "0".toList :=
  ⟨false, ['0'], [], isWhole_toDigits 0, List.forall_mem_nil _, by simp, by simp, rfl⟩

end IsCanonicalDecimal

namespace Decimal

theorem isWhole_wholeDigits {decimal : Decimal} (nonzero : decimal.digits ≠ 0) :
    IsWhole decimal.wholeDigits where
  ne_nil := decimal.wholeDigits_ne_nil
  all c member := isDigit_of_mem_digits (List.mem_append_left _ member)
  head := by
    obtain ⟨first, more, digits, notZero⟩ := head_toDigits (Nat.pos_of_ne_zero nonzero)
    have head_ne : some first ≠ some '0' := fun same => notZero (Option.some.inj same)
    rw [wholeDigits]
    split
    · exact .inr (by rwa [digits])
    · split
      next places =>
        refine .inr ?_
        rw [digits] at places ⊢
        obtain ⟨kept, length_eq⟩ : ∃ kept, (first :: more).length - (-decimal.exponent).toNat =
            kept + 1 := ⟨_, (Nat.succ_pred_eq_of_pos (Nat.sub_pos_of_lt places)).symm⟩
        rwa [length_eq]
      next => exact .inl rfl

theorem getLast?_fractionDigits (decimal : Decimal) :
    decimal.fractionDigits.getLast? =
      if 0 ≤ decimal.exponent then none else some (decimal.digits % 10).digitChar := by
  rw [fractionDigits]
  split
  next => rfl
  next fraction =>
    split
    next places => rw [List.getLast?_drop, if_neg (by omega), getLast?_toDigits]
    next => rw [List.getLast?_append, getLast?_toDigits, Option.some_or]

theorem digits_strip_go {digits : Nat} {exponent : Int} (nonzero : digits ≠ 0) :
    (strip.go digits exponent).digits % 10 ≠ 0 := by
  induction digits, exponent using strip.go.induct with
  | case1 digits exponent zero_last induction =>
      rw [strip.go, if_pos zero_last]
      exact induction (by omega)
  | case2 digits exponent last =>
      rw [strip.go, if_neg last]
      exact fun zero => last ⟨nonzero, zero⟩

theorem digits_shortest (tie : Tie) {code : Nat} (positive : 0 < code)
    (finite : code < Magnitude.infinity) : (shortest tie code).digits % 10 ≠ 0 := by
  have nonzero : (shortest tie code).digits ≠ 0 :=
    digits_ne_zero_of_code (by rwa [code_shortest tie positive finite])
  rw [shortest, strip] at nonzero ⊢
  apply digits_strip_go
  intro zero
  rw [zero, strip.go, if_neg (by simp)] at nonzero
  exact nonzero rfl

theorem isCanonical_positional (negative : Bool) {decimal : Decimal}
    (last : decimal.digits % 10 ≠ 0) :
    IsCanonicalDecimal (Double.signed negative decimal.positional).toList := by
  have isWhole : IsWhole decimal.wholeDigits := isWhole_wholeDigits (by omega)
  refine ⟨negative, decimal.wholeDigits, decimal.fractionDigits, isWhole,
    fun c member => isDigit_of_mem_digits (List.mem_append_right _ member), ?_,
    fun _ zero => ?_, ?_⟩
  · rw [getLast?_fractionDigits]
    split
    next => simp
    next =>
      intro zero
      have small : decimal.digits % 10 < 10 := Nat.mod_lt _ (by decide)
      have digit := Nat.toNat_digitChar_sub_48_of_lt_ten small
      rw [Option.some.inj zero] at digit
      exact last digit.symm
  · have value := decimal.digitsValue_digits
    rw [zero] at value
    have product : decimal.digits * 10 ^ decimal.exponent.toNat = 0 := value.symm
    rcases Nat.mul_eq_zero.mp product with digits | power
    · exact last (by rw [digits])
    · exact absurd power (Nat.pow_pos (by decide)).ne'
  · rw [Double.signed, String.toList_ofList, positional_eq, NumberText.plainText]
    split <;> rfl

end Decimal

namespace Double

theorem number_of_code_ne_zero {value : Float} (finite : value.isFinite = true)
    (nonzero : (Binary64.ofFloat value).code ≠ 0) :
    number value = signed (Binary64.ofFloat value).negative
      (Decimal.shortest .larger (Binary64.ofFloat value).code).positional := by
  have binary_finite : (Binary64.ofFloat value).isFinite = true := by
    rw [Binary64.isFinite_ofFloat, finite]
  simp [number, plain, binary_finite, nonzero]

theorem isCanonical_number {value : Float} (finite : value.isFinite = true) :
    IsCanonicalDecimal (number value).toList := by
  by_cases zero : (Binary64.ofFloat value).code = 0
  · have text : number value = "0" := by simp [number, zero]
    rw [text]
    exact .zero
  · have bounded : (Binary64.ofFloat value).code < Magnitude.infinity := by
      rw [← Binary64.isFinite_ofFloat] at finite
      simpa [Binary64.isFinite] using finite
    rw [number_of_code_ne_zero finite zero]
    exact Decimal.isCanonical_positional _
      (Decimal.digits_shortest .larger (Nat.pos_of_ne_zero zero) bounded)

/-- Losing the sign of zero does not change the text. -/
theorem number_unsignedZero (value : Float) : number (unsignedZero value) = number value := by
  rw [unsignedZero]
  split
  next zero => rcases (Binary64.beq_zero_iff_eq value).mp zero with rfl | rfl <;> rfl
  next => rfl

/-- The text of a finite number is canonical, without a power of ten and without a comma.  It is
read back as that number whatever follows it that cannot be read as more of it, so finite numbers
have the same text only when they are the same up to the sign of zero. -/
theorem number_reads {value : Float} (finite : value.isFinite = true) :
    IsCanonicalDecimal (number value).toList ∧
    (∀ c ∈ (number value).toList, c ≠ 'e' ∧ c ≠ 'E' ∧ c ≠ ',') ∧
    (∀ rest, NumberText.Stops rest →
      readNumber? ((number value).toList ++ rest) = some (unsignedZero value)) ∧
    ∀ other : Float, other.isFinite = true →
      (number value = number other ↔ unsignedZero value = unsignedZero other) := by
  refine ⟨isCanonical_number finite, fun c member => ?_,
    fun rest stops => readNumber?_number_of_isFinite finite stops, fun other other_finite => ?_⟩
  · have numeric := isNumberChar_of_mem_number member
    have different {mark : Char} (foreign : isNumberChar mark = false) : c ≠ mark :=
      ne_of_isNumberChar numeric foreign
    exact ⟨different (by decide), different (by decide), different (by decide)⟩
  · constructor
    · intro same
      rw [← shown_of_isFinite finite, ← shown_of_isFinite other_finite]
      exact shown_eq_of_number_eq same
    · intro same
      rw [← number_unsignedZero value, same, number_unsignedZero]

/-- The smallest positive double. -/
def leastPositive : Float :=
  Float.ofBits 1

/-- Its text has 323 zeros before its one digit, and reads as it in front of a blank. -/
theorem number_reads_leastPositive :
    leastPositive.isFinite = true ∧ NumberText.Stops " E1".toList ∧ (-0.0 : Float).isFinite = true ∧
      IsCanonicalDecimal (number leastPositive).toList ∧
      (∀ c ∈ (number leastPositive).toList, c ≠ 'e' ∧ c ≠ 'E' ∧ c ≠ ',') ∧
      readNumber? ((number leastPositive).toList ++ " E1".toList) =
        some (unsignedZero leastPositive) ∧
      (number leastPositive = number (-0.0) ↔
        unsignedZero leastPositive = unsignedZero (-0.0)) := by
  have finite : leastPositive.isFinite = true := by decide
  have zero_finite : (-0.0 : Float).isFinite = true := by decide
  have stops : NumberText.Stops " E1".toList := by
    rintro c ⟨⟩
    decide
  obtain ⟨canonical, plain, reads, injective⟩ := number_reads finite
  exact ⟨finite, stops, zero_finite, canonical, plain, reads _ stops, injective _ zero_finite⟩

end Double

end FlowCalibration
