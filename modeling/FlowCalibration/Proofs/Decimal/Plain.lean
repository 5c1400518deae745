import FlowCalibration.Proofs.Decimal.RoundTrip

/-!
# Plain decimals

A plain decimal has perhaps a minus sign, digits, and perhaps a point with digits behind it.  Every
number of a program is one.  A number with fixed places is one exactly when it is finite: infinities
and the value that is no number are written as words there.
-/

namespace FlowCalibration

/-- A text is a plain decimal. -/
def IsPlainDecimal (text : List Char) : Prop :=
  ∃ (negative : Bool) (whole fraction : List Char), whole ≠ [] ∧
    (∀ c ∈ whole ++ fraction, c.isDigit = true) ∧
    text = NumberText.plainText negative whole fraction

namespace IsPlainDecimal

theorem isNumberChar {text : List Char} (plain : IsPlainDecimal text) :
    ∀ c ∈ text, Double.isNumberChar c = true := by
  obtain ⟨negative, whole, fraction, _, digits, rfl⟩ := plain
  intro c member
  rcases NumberText.mem_plainText_cases member with digit | rfl | ⟨-, rfl⟩
  · exact Double.isNumberChar_of_isDigit (digits c digit)
  · decide
  · decide

theorem zero : IsPlainDecimal "0".toList :=
  ⟨false, ['0'], [], by simp, List.forall_mem_singleton.mpr rfl, rfl⟩

theorem signed (negative : Bool) (decimal : Decimal) :
    IsPlainDecimal (Double.signed negative decimal.positional).toList := by
  refine ⟨negative, decimal.wholeDigits, decimal.fractionDigits, decimal.wholeDigits_ne_nil,
    fun c member => Decimal.isDigit_of_mem_digits member, ?_⟩
  rw [Double.signed, String.toList_ofList, Decimal.positional_eq, NumberText.plainText]
  split <;> rfl

theorem number (value : Float) : IsPlainDecimal (Double.number value).toList := by
  rcases Double.number_cases value with ⟨text, _⟩ | ⟨decimal, _, _, text, _⟩
  · rw [text]
    exact zero
  · rw [text]
    exact signed _ decimal

end IsPlainDecimal

namespace Decimal

/-- A fixed number of places is the positional text of the decimal with as many places. -/
theorem pointed_toDigits (digits places : Nat) :
    pointed (Nat.toDigits 10 digits) places = positional ⟨digits, -(places : Int)⟩ := by
  by_cases whole : places = 0
  · subst whole
    simp [pointed, positional]
  · have fraction : ¬ (0 : Int) ≤ -(places : Int) := by omega
    simp only [positional, if_neg fraction, neg_neg, Int.toNat_natCast]

end Decimal

namespace Double

theorem toList_signed (negative : Bool) (text : List Char) :
    (signed negative text).toList = if negative then '-' :: text else text := by
  rw [signed, String.toList_ofList]

theorem not_isPlainDecimal_nonFinite (binary : Binary64) :
    ¬ IsPlainDecimal (nonFinite binary).toList := by
  intro plain
  have letter : ∃ c ∈ (nonFinite binary).toList, isNumberChar c = false := by
    rw [nonFinite]
    split
    · rw [toList_signed]
      split
      · exact ⟨'i', by simp, by decide⟩
      · exact ⟨'i', by simp, by decide⟩
    · exact ⟨'N', by decide, by decide⟩
  obtain ⟨c, member, notNumeric⟩ := letter
  exact ne_of_isNumberChar (plain.isNumberChar c member) notNumeric rfl

theorem isPlainDecimal_fixed_iff (places : Nat) (value : Float) :
    IsPlainDecimal (fixed places value).toList ↔ value.isFinite = true := by
  rw [← Binary64.isFinite_ofFloat, fixed]
  split
  next finite =>
    simp only [Decimal.pointed_toDigits]
    exact iff_of_true (.signed _ _) finite
  next infinite => exact iff_of_false (not_isPlainDecimal_nonFinite _) infinite

end Double

end FlowCalibration
