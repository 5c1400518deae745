import FlowCalibration.Proofs.Decimal.Bits
import FlowCalibration.Proofs.Decimal.Magnitude

/-!
# Quotients that stay finite

A double is infinite when its exponent is out of range.  Rounding raises the exponent of a value as
far as the value needs it, so a value below half of the range of doubles stays finite.  Dividing by
two or more halves a value, and dividing by one changes nothing.
-/

namespace FlowCalibration

open Float.Model (Format UnpackedFloat totalExponent)
open Float.Model.UnpackedFloat

namespace Binary64

theorem targetExponent_eq (total : Int) :
    Format.binary64.targetExponent total = max (total - 53) (-1074) := by
  simp [Format.targetExponent, Format.mantissaBits, Format.minExponent]

theorem bounds_of_unpack {bits : BitVec Format.binary64.numBits} {sign : Sign} {mantissa : Nat}
    {exponent : Int} {positive : 0 < mantissa}
    (unpacked : unpack Format.binary64 bits = .finite sign mantissa exponent positive) :
    mantissa.log2 ≤ 52 ∧ exponent ≤ 971 := by
  obtain ⟨-, mantissa_eq, exponent_eq⟩ := unpack_eq_finite unpacked
  have below : bits.toNat % 2 ^ 63 < Magnitude.infinity := by
    have finite := isFinite_unpack bits
    rw [unpacked] at finite
    exact of_decide_eq_true finite.symm
  have infinity_eq : Magnitude.infinity = 2047 * 2 ^ 52 := rfl
  have binade_eq : Magnitude.binade = 2 ^ 52 := rfl
  constructor
  · rw [mantissa_eq]
    exact log2_le_of_lt (Magnitude.mantissa_bounds _).1
  · rw [exponent_eq, Magnitude.step, binade_eq]
    omega

theorem isFinite_pack {sign : Sign} {mantissa : Nat} {exponent : Int} {positive : 0 < mantissa}
    (bounded : exponent ≤ 971) :
    (unpack Format.binary64
      (pack Format.binary64 (.finite sign mantissa exponent positive))).isFinite = true := by
  have width : (Format.binary64.mantissaBitsWithoutImplicit : Int) = 52 := rfl
  have bias : (Format.binary64.exponentBias : Int) = 1023 := rfl
  have in_range : ¬ 2 ^ Format.binary64.exponentBits ≤
      (exponent + Format.binary64.exponentBias +
        Format.binary64.mantissaBitsWithoutImplicit).toNat + 1 := by
    rw [bias, width]
    show ¬ 2048 ≤ _
    omega
  have exponent_ne {biased : BitVec Format.binary64.exponentBits} {rest : BitVec 52}
      (small : biased ≠ -1#_) :
      (unpack Format.binary64 (packComponents Format.binary64 sign biased rest)).isFinite =
        true := by
    rw [unpack]
    simp only [unpackExponent_packComponents, if_neg small]
    split
    · split <;> rfl
    · rfl
  simp only [pack, if_neg in_range]
  split
  · apply exponent_ne
    intro full
    have biased := congrArg BitVec.toNat full
    rw [bias, width] at in_range
    simp at biased in_range
    omega
  · apply exponent_ne
    decide

/-! ## Rounding -/

theorem mantissa_shiftRight (extended : ExtendedMantissa) (count : Nat) :
    (extended >>> count).mantissa = extended.mantissa / 2 ^ count := by
  change (count.repeat ExtendedMantissa.shiftRightOne extended).mantissa = _
  induction count with
  | zero => simp [Nat.repeat]
  | succ count induction =>
      rw [Nat.repeat, ExtendedMantissa.shiftRightOne, induction, Nat.div_div_eq_div_mul,
        Nat.pow_succ]

theorem roundedMantissa_le (extended : ExtendedMantissa) :
    extended.roundedMantissa ≤ extended.mantissa + 1 := by
  obtain ⟨mantissa, roundBit, stickyBit⟩ := extended
  cases roundBit <;> cases stickyBit <;>
    simp only [ExtendedMantissa.roundedMantissa, ExtendedMantissa.accuracy,
      Accuracy.roundToNearestEven] <;> omega

theorem mantissa_ofMantissaAndAccuracy (mantissa : Nat) (accuracy : Accuracy) :
    (ExtendedMantissa.ofMantissaAndAccuracy mantissa accuracy).mantissa = mantissa := by
  cases accuracy with
  | exact => rfl
  | inexact relative => cases relative <;> rfl

theorem isFinite_roundWithAccuracy {sign : Sign} {mantissa : Nat} {exponent : Int}
    {accuracy : Accuracy} (total : totalExponent mantissa exponent ≤ 1023)
    (bounded : exponent ≤ 970) :
    (unpack Format.binary64 (pack Format.binary64
      (roundWithAccuracy Format.binary64 sign mantissa exponent accuracy))).isFinite = true := by
  simp only [roundWithAccuracy, shiftToTargetExponent, shiftToExponent, targetExponent_eq]
  split
  · cases sign <;> rfl
  · apply isFinite_pack
    generalize shift_eq :
      (max (totalExponent mantissa exponent - 53) (-1074) - exponent).toNat = shift
    simp only [totalExponent] at total shift_eq ⊢
    have kept : mantissa / 2 ^ shift < 2 ^ 53 := by
      apply Nat.div_lt_of_lt_mul
      calc
        mantissa < 2 ^ (mantissa.log2 + 1) := Nat.lt_log2_self
        _ ≤ 2 ^ (shift + 53) := Nat.pow_le_pow_right (by decide) (by omega)
        _ = 2 ^ shift * 2 ^ 53 := Nat.pow_add 2 shift 53
    have rounded_le := roundedMantissa_le
      (ExtendedMantissa.ofMantissaAndAccuracy mantissa accuracy >>> shift)
    rw [mantissa_shiftRight, mantissa_ofMantissaAndAccuracy] at rounded_le
    have log_le : (ExtendedMantissa.ofMantissaAndAccuracy mantissa accuracy >>>
        shift).roundedMantissa.log2 ≤ 53 := log2_le_of_lt (by omega)
    omega

/-- Mantissa and exponent of a finite double are those that rounding aims at. -/
theorem targetExponent_of_unpack {bits : BitVec Format.binary64.numBits} {sign : Sign}
    {mantissa : Nat} {exponent : Int} {positive : 0 < mantissa}
    (unpacked : unpack Format.binary64 bits = .finite sign mantissa exponent positive) :
    Format.binary64.targetExponent (totalExponent mantissa exponent) = exponent := by
  obtain ⟨-, mantissa_eq, exponent_eq⟩ := unpack_eq_finite unpacked
  obtain ⟨below, normal⟩ := Magnitude.mantissa_bounds (bits.toNat % 2 ^ 63)
  rw [← mantissa_eq] at below normal
  have log_le : mantissa.log2 ≤ 52 := log2_le_of_lt below
  rw [targetExponent_eq, totalExponent]
  rcases normal with subnormal | normal
  · omega
  · have log_ge : 52 ≤ mantissa.log2 := (Nat.le_log2 (Nat.ne_of_gt positive)).mpr normal
    omega

/-- Shifting zeros out of a mantissa is exact. -/
theorem shiftRight_mul_two_pow (mantissa shift : Nat) :
    ExtendedMantissa.ofMantissaAndAccuracy (mantissa * 2 ^ shift) .exact >>> shift =
      .ofMantissaAndAccuracy mantissa .exact := by
  change shift.repeat ExtendedMantissa.shiftRightOne _ = _
  induction shift generalizing mantissa with
  | zero => simp [Nat.repeat]
  | succ shift induction =>
      rw [Nat.repeat, Nat.pow_succ', ← Nat.mul_assoc, induction]
      simp [ExtendedMantissa.shiftRightOne, ExtendedMantissa.ofMantissaAndAccuracy]

/-- Rounding takes zeros behind a mantissa away. -/
theorem roundWithAccuracy_mul_two_pow (sign : Sign) {mantissa : Nat} {exponent : Int}
    (positive : 0 < mantissa)
    (target : Format.binary64.targetExponent (totalExponent mantissa exponent) = exponent)
    (shift : Nat) :
    roundWithAccuracy Format.binary64 sign (mantissa * 2 ^ shift) (exponent - shift) .exact =
      .finite sign mantissa exponent positive := by
  have total_eq : totalExponent (mantissa * 2 ^ shift) (exponent - shift) =
      totalExponent mantissa exponent := by
    rw [totalExponent, totalExponent, log2_mul_two_pow (Nat.ne_of_gt positive)]
    omega
  have shift_eq : (exponent - (exponent - (shift : Int))).toNat = shift := by omega
  have back_eq : exponent - (shift : Int) + shift = exponent := by omega
  have kept_eq : (exponent - exponent).toNat = 0 := by omega
  have unshifted : ExtendedMantissa.ofMantissaAndAccuracy mantissa .exact >>> 0 =
      .ofMantissaAndAccuracy mantissa .exact := rfl
  have rounded : (ExtendedMantissa.ofMantissaAndAccuracy mantissa .exact).roundedMantissa =
      mantissa := rfl
  simp only [roundWithAccuracy, shiftToTargetExponent, shiftToExponent, total_eq, target, shift_eq,
    shiftRight_mul_two_pow, rounded, back_eq, kept_eq, unshifted, Int.natCast_zero, Int.add_zero]
  exact dif_neg (Nat.ne_of_gt positive)

/-! ## Division -/

theorem log2_div_le {num den shift : Nat} (positive : 0 < den)
    (nonzero : (num <<< shift) / den ≠ 0) :
    ((num <<< shift) / den).log2 + den.log2 ≤ num.log2 + shift := by
  have below : 2 ^ (((num <<< shift) / den).log2 + den.log2) < 2 ^ (num.log2 + shift + 1) := by
    calc
      2 ^ (((num <<< shift) / den).log2 + den.log2) =
          2 ^ ((num <<< shift) / den).log2 * 2 ^ den.log2 := Nat.pow_add _ _ _
      _ ≤ (num <<< shift) / den * den :=
          Nat.mul_le_mul (Nat.log2_self_le nonzero) (Nat.log2_self_le (Nat.ne_of_gt positive))
      _ ≤ num <<< shift := Nat.div_mul_le_self _ _
      _ = num * 2 ^ shift := Nat.shiftLeft_eq _ _
      _ < 2 ^ (num.log2 + 1) * 2 ^ shift :=
          Nat.mul_lt_mul_of_pos_right Nat.lt_log2_self (Nat.two_pow_pos _)
      _ = 2 ^ (num.log2 + shift + 1) := by rw [← Nat.pow_add, Nat.add_right_comm]
  have exponents := (Nat.pow_lt_pow_iff_right (by decide)).mp below
  omega

theorem isFinite_divCore {sign : Sign} {num den : Nat} {numExponent denExponent : Int}
    (positive : 0 < den)
    (small : totalExponent num numExponent - totalExponent den denExponent ≤ 1022) :
    (unpack Format.binary64 (pack Format.binary64
      (roundWithAccuracy Format.binary64 sign
        (divCore Format.binary64 num numExponent den denExponent).1
        (divCore Format.binary64 num numExponent den denExponent).2.1
        (divCore Format.binary64 num numExponent den denExponent).2.2))).isFinite = true := by
  simp only [divCore, targetExponent_eq]
  generalize exponent_eq : min (numExponent - denExponent)
    (max (totalExponent num numExponent - totalExponent den denExponent - 53) (-1074)) = exponent
  simp only [totalExponent] at exponent_eq small
  generalize shift_eq : (numExponent - denExponent - exponent).toNat = shift
  apply isFinite_roundWithAccuracy
  · rw [totalExponent]
    by_cases zero : (num <<< shift) / den = 0
    · rw [zero, Nat.log2_zero]
      omega
    · have log_le := log2_div_le positive zero
      omega
  · omega

theorem isFinite_pack_zero (sign : Sign) :
    (unpack Format.binary64 (pack Format.binary64 (.zero sign))).isFinite = true := by
  cases sign <;> rfl

theorem isFinite_pack_notANumber :
    (unpack Format.binary64 (pack Format.binary64 .notANumber)).isFinite = false := rfl

theorem isFinite_pack_infinity (sign : Sign) :
    (unpack Format.binary64 (pack Format.binary64 (.infinity sign))).isFinite = false := by
  cases sign <;> rfl

/-- Dividing a value of the topmost binade by one is exact. -/
theorem divCore_one {num : Nat} (num_log : num.log2 = 52) :
    divCore Format.binary64 num 971 (2 ^ 52) (-52) = (num * 2, 970, .exact) := by
  have exponent_eq : min ((971 : Int) - -52)
      (max (totalExponent num 971 - totalExponent (2 ^ 52) (-52) - 53) (-1074)) = 970 := by
    have one_log : (2 ^ 52 : Nat).log2 = 52 := Nat.log2_two_pow
    simp only [totalExponent, num_log, one_log]
    decide
  have shifted : num <<< ((971 : Int) - -52 - 970).toNat = num * 2 * 2 ^ 52 :=
    (Nat.shiftLeft_eq num 53).trans (Nat.mul_assoc num 2 (2 ^ 52)).symm
  simp only [divCore, targetExponent_eq, exponent_eq, shifted,
    Nat.mul_div_cancel _ (Nat.two_pow_pos 52), Nat.mul_mod_left]
  rfl

/-- Dividing a finite value by one, or by two or more, gives a finite value. -/
theorem isFinite_div {value divisor : Float} (finite : value.isFinite = true) {sign : Sign}
    {mantissa : Nat} {exponent : Int} {positive : 0 < mantissa}
    (unpacked : divisor.toModel.unpack = .finite sign mantissa exponent positive)
    (large : 1 ≤ mantissa.log2 + exponent ∨ mantissa = 2 ^ 52 ∧ exponent = -52) :
    (value / divisor).isFinite = true := by
  change (unpack Format.binary64 (pack Format.binary64
    (UnpackedFloat.div Format.binary64 value.toModel.unpack divisor.toModel.unpack))).isFinite =
      true
  have value_finite : value.toModel.unpack.isFinite = true := finite
  rw [unpacked]
  cases value_eq : value.toModel.unpack with
  | notANumber => rw [value_eq] at value_finite; contradiction
  | infinity own => rw [value_eq] at value_finite; contradiction
  | zero own => exact isFinite_pack_zero _
  | finite own num numExponent num_pos =>
      obtain ⟨num_log, num_bounded⟩ := bounds_of_unpack value_eq
      by_cases small : totalExponent num numExponent - totalExponent mantissa exponent ≤ 1022
      · exact isFinite_divCore positive small
      · simp only [totalExponent] at small
        rcases large with large | ⟨rfl, rfl⟩
        · omega
        · have one_log : (2 ^ 52 : Nat).log2 = 52 := Nat.log2_two_pow
          obtain ⟨num_log, rfl⟩ : num.log2 = 52 ∧ numExponent = 971 := by omega
          have rounded := roundWithAccuracy_mul_two_pow (own / sign) num_pos
            (targetExponent_of_unpack value_eq) 1
          simp only [UnpackedFloat.div, divCore_one num_log]
          exact rounded ▸ isFinite_pack (Int.le_refl _)

/-- Dividing a value that is not finite by a finite one that is not zero gives none that is. -/
theorem isFinite_of_isFinite_div {value divisor : Float} {sign : Sign} {mantissa : Nat}
    {exponent : Int} {positive : 0 < mantissa}
    (unpacked : divisor.toModel.unpack = .finite sign mantissa exponent positive)
    (finite : (value / divisor).isFinite = true) : value.isFinite = true := by
  change (unpack Format.binary64 (pack Format.binary64
    (UnpackedFloat.div Format.binary64 value.toModel.unpack divisor.toModel.unpack))).isFinite =
      true at finite
  change value.toModel.unpack.isFinite = true
  rw [unpacked] at finite
  cases value_eq : value.toModel.unpack with
  | notANumber =>
      rw [value_eq] at finite
      exact isFinite_pack_notANumber.symm.trans finite
  | infinity own =>
      rw [value_eq] at finite
      exact (isFinite_pack_infinity _).symm.trans finite
  | zero own => rfl
  | finite own num numExponent num_pos => rfl

end Binary64

end FlowCalibration
