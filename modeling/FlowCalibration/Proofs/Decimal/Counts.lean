import FlowCalibration.Decimal.Rounding
import FlowCalibration.Proofs.Decimal.Bits
import FlowCalibration.Proofs.Decimal.Magnitude

/-!
# Counts as doubles

A natural number of at most 53 bits is a double, and taking it for one and rounding it up to a
count again gives it back.
-/

namespace FlowCalibration

open Float.Model (Format UnpackedFloat)
open Float.Model.UnpackedFloat

namespace Magnitude

/-- Code of a count. -/
def codeOfCount (count : Nat) : Nat :=
  count * 2 ^ (52 - count.log2) + (1022 + count.log2) * binade

theorem mantissa_codeOfCount {count : Nat} (positive : 0 < count) (bounded : count < 2 ^ 53) :
    2 ^ 52 ≤ count * 2 ^ (52 - count.log2) ∧ count * 2 ^ (52 - count.log2) < 2 ^ 53 := by
  have log_le := log2_le_of_lt bounded
  constructor
  · calc
      2 ^ 52 = 2 ^ count.log2 * 2 ^ (52 - count.log2) := by
        rw [← Nat.pow_add, Nat.add_sub_cancel' log_le]
      _ ≤ count * 2 ^ (52 - count.log2) :=
        Nat.mul_le_mul_right _ (Nat.log2_self_le (Nat.ne_of_gt positive))
  · calc
      count * 2 ^ (52 - count.log2) < 2 ^ (count.log2 + 1) * 2 ^ (52 - count.log2) :=
        Nat.mul_lt_mul_of_pos_right Nat.lt_log2_self (Nat.two_pow_pos _)
      _ = 2 ^ 53 := by
        rw [← Nat.pow_add]
        congr 1
        omega

theorem log2_mantissa_codeOfCount {count : Nat} (positive : 0 < count) (bounded : count < 2 ^ 53) :
    (count * 2 ^ (52 - count.log2)).log2 = 52 := by
  obtain ⟨lower, upper⟩ := mantissa_codeOfCount positive bounded
  exact (Nat.log2_eq_iff (by omega)).mpr ⟨lower, upper⟩

theorem mul_one_eq {count : Nat} (bounded : count < 2 ^ 53) :
    count * one = count * 2 ^ (52 - count.log2) * 2 ^ (1022 + count.log2) := by
  have log_le := log2_le_of_lt bounded
  rw [one_eq, Nat.mul_assoc, ← Nat.pow_add]
  congr 2
  omega

theorem nearest_count {count : Nat} (positive : 0 < count) (bounded : count < 2 ^ 53) :
    nearest (count * one) 1 = codeOfCount count := by
  obtain ⟨lower, upper⟩ := mantissa_codeOfCount positive bounded
  rw [mul_one_eq bounded, ← Nat.mul_one (_ * 2 ^ (1022 + count.log2)),
    nearest_shift _ _ _ Nat.one_pos upper (.inr lower), codeOfCount]

theorem codeOfCount_div {count : Nat} (positive : 0 < count) (bounded : count < 2 ^ 53) :
    codeOfCount count / binade = count.log2 + 1023 := by
  obtain ⟨lower, upper⟩ := mantissa_codeOfCount positive bounded
  have binade_eq : binade = 2 ^ 52 := rfl
  rw [codeOfCount, Nat.add_mul_div_right _ _ (by decide), binade_eq]
  omega

theorem codeOfCount_lt {count : Nat} (positive : 0 < count) (bounded : count < 2 ^ 53) :
    codeOfCount count < infinity := by
  have quotient := codeOfCount_div positive bounded
  have log_le := log2_le_of_lt bounded
  have binade_eq : binade = 2 ^ 52 := rfl
  have infinity_eq : infinity = 2047 * 2 ^ 52 := rfl
  rw [binade_eq] at quotient
  omega

theorem units_codeOfCount {count : Nat} (positive : 0 < count) (bounded : count < 2 ^ 53) :
    units (codeOfCount count) = count * one := by
  have step_eq : step (codeOfCount count) = 1022 + count.log2 := by
    rw [step, codeOfCount_div positive bounded]
    omega
  rw [units_eq, step_eq, mul_one_eq bounded, codeOfCount, Nat.add_sub_cancel]

end Magnitude

namespace Binary64

open Magnitude

theorem ofFloat_ofCount {count : Nat} (positive : 0 < count) (bounded : count < 2 ^ 53) :
    ofFloat (Double.ofCount count) = ⟨false, codeOfCount count⟩ := by
  rw [Double.ofCount, ofSigned, nearest_count positive bounded]
  exact ofFloat_toFloat (Nat.le_of_lt (codeOfCount_lt positive bounded))

theorem toBits_ofCount {count : Nat} (positive : 0 < count) (bounded : count < 2 ^ 53) :
    (Double.ofCount count).toBits.toNat = codeOfCount count := by
  have parts := ofFloat_ofCount positive bounded
  obtain ⟨sign, code⟩ := Binary64.mk.inj parts
  have below := of_decide_eq_false sign
  omega

theorem unpack_ofCount {count : Nat} (positive : 0 < count) (bounded : count < 2 ^ 53) :
    ∃ mantissa_pos, (Double.ofCount count).toModel.unpack =
      .finite .positive (count * 2 ^ (52 - count.log2)) (count.log2 - 52) mantissa_pos := by
  obtain ⟨lower, upper⟩ := mantissa_codeOfCount positive bounded
  have log_le := log2_le_of_lt bounded
  have binade_eq : binade = 2 ^ 52 := rfl
  refine ⟨Nat.lt_of_lt_of_le (Nat.two_pow_pos 52) lower, ?_⟩
  obtain ⟨bits, bits_def⟩ : ∃ bits : BitVec Format.binary64.numBits,
      bits = (Double.ofCount count).toBits.toBitVec := ⟨_, rfl⟩
  have bits_eq : bits.toNat = codeOfCount count := by
    rw [bits_def]
    exact toBits_ofCount positive bounded
  change unpack Format.binary64 (Double.ofCount count).toBits.toBitVec = _
  rw [← bits_def]
  have exponent : (unpackExponent bits).toNat = count.log2 + 1023 := by
    rw [toNat_unpackExponent, bits_eq, ← binade_eq, codeOfCount_div positive bounded]
    omega
  have mantissa : (unpackMantissa bits).toNat = count * 2 ^ (52 - count.log2) - 2 ^ 52 := by
    rw [toNat_unpackMantissa, bits_eq, codeOfCount, binade_eq]
    omega
  have sign : Sign.ofBitVec (unpackSign bits) = .positive := by
    have below := codeOfCount_lt positive bounded
    have infinity_eq : Magnitude.infinity = 2047 * 2 ^ 52 := rfl
    rw [sign_eq, if_pos (by omega)]
  have joined : (1#1 ++ unpackMantissa bits).toNat = count * 2 ^ (52 - count.log2) := by
    rw [toNat_normalMantissa, mantissa]
    omega
  have notFull : unpackExponent bits ≠ -1#_ := by
    intro full
    have value := congrArg BitVec.toNat full
    simp [exponent] at value
    omega
  have notZero : unpackExponent bits ≠ 0#_ := by
    intro zero
    have value := congrArg BitVec.toNat zero
    simp [exponent] at value
  have width : (Format.binary64.mantissaBitsWithoutImplicit : Int) = 52 := rfl
  have bias : (Format.binary64.exponentBias : Int) = 1023 := rfl
  rw [unpack]
  simp only [if_neg notFull, if_neg notZero, sign, joined, exponent, bias, width]
  rw [UnpackedFloat.finite.injEq]
  exact ⟨rfl, rfl, by omega⟩

end Binary64

namespace Double

open Magnitude Binary64

theorem isFinite_ofCount {count : Nat} (positive : 0 < count) (bounded : count < 2 ^ 53) :
    (ofCount count).isFinite = true := by
  rw [← isFinite_ofFloat, ofFloat_ofCount positive bounded, Binary64.isFinite]
  exact decide_eq_true (codeOfCount_lt positive bounded)

theorem toCount_ofCount {count : Nat} (bounded : count < 2 ^ 53) :
    toCount (ofCount count) = count := by
  rcases Nat.eq_zero_or_pos count with rfl | positive
  · decide +kernel
  · have below := codeOfCount_lt positive bounded
    have whole : count * one / one = count := Nat.mul_div_cancel _ (by decide)
    simp only [toCount, ofFloat_ofCount positive bounded, Binary64.isFinite, below,
      Nat.not_lt_of_gt below, units_codeOfCount positive bounded, whole]
    exact Nat.min_eq_left (by omega)

/-- Counts of any size: the code of one past the range is that of infinity. -/
theorem ofFloat_ofCount_eq_min (count : Nat) :
    ofFloat (ofCount count) = ⟨false, min (nearest (count * one) 1) infinity⟩ := by
  have capped : (⟨false, min (nearest (count * one) 1) infinity⟩ : Binary64).toFloat =
      ofCount count := by
    rw [toFloat, Nat.min_assoc, Nat.min_self]
    rfl
  rw [← capped, ofFloat_toFloat (Nat.min_le_right _ _)]

theorem ofCount_ne_negative_zero (count : Nat) : ofCount count ≠ -0.0 := by
  have signed : (ofFloat (-0.0)).negative = true := by decide +kernel
  intro same
  rw [← same, ofFloat_ofCount_eq_min] at signed
  contradiction

theorem eq_of_ofCount_eq {count other : Nat} (bounded : other < 2 ^ 53)
    (same : ofCount count = ofCount other) : count = other := by
  by_cases small : count < 2 ^ 53
  · rw [← toCount_ofCount small, same, toCount_ofCount bounded]
  · -- A longer count has a higher code than any shorter one.
    exfalso
    have codes := congrArg code (congrArg ofFloat same)
    have large : 2 ^ (53 + 1074) ≤ count * one := by
      calc
        2 ^ (53 + 1074) = 2 ^ 53 * 2 ^ 1074 := Nat.pow_add 2 53 1074
        _ = 2 ^ 53 * one := by rw [one_eq]
        _ ≤ count * one := Nat.mul_le_mul_right _ (Nat.le_of_not_lt small)
    have above := mul_binade_le_nearest large (by decide)
    have below : nearest (other * one) 1 < 1076 * binade := by
      rcases Nat.eq_zero_or_pos other with rfl | positive
      · decide +kernel
      · have quotient := codeOfCount_div positive bounded
        have log_le := log2_le_of_lt bounded
        rw [nearest_count positive bounded]
        exact (Nat.div_lt_iff_lt_mul (by decide)).mp (by omega)
    have infinity_eq : Magnitude.infinity = 2047 * binade := rfl
    simp only [ofFloat_ofCount_eq_min] at codes
    omega

theorem ceil_ofCount {count : Nat} (positive : 0 < count) (bounded : count < 2 ^ 53) :
    ceil (ofCount count) = ofCount count := by
  have below := codeOfCount_lt positive bounded
  have whole : count * one / one = count := Nat.mul_div_cancel _ (by decide)
  simp only [ceil, wholeBy, ofFloat_ofCount positive bounded, Binary64.isFinite, below,
    units_codeOfCount positive bounded, whole, Nat.mul_mod_left]
  rfl

end Double

end FlowCalibration
