import FlowCalibration.Decimal.Binary64
import Mathlib

/-!
# Doubles and their bit patterns

A double is determined by its bits, so `Binary64.ofFloat` and `Binary64.toFloat` are inverse on the
finite doubles.
-/

namespace FlowCalibration

open Float.Model (Format UnpackedFloat)
open Float.Model.UnpackedFloat

namespace Binary64

theorem toNat_unpackMantissa (bits : BitVec Format.binary64.numBits) :
    (unpackMantissa bits).toNat = bits.toNat % 2 ^ 52 := by
  simp [unpackMantissa, BitVec.extractLsb, BitVec.extractLsb'_toNat]

theorem toNat_normalMantissa (bits : BitVec Format.binary64.numBits) :
    (1#1 ++ unpackMantissa bits).toNat = 2 ^ 52 + (unpackMantissa bits).toNat := by
  have small : (unpackMantissa bits).toNat < 2 ^ 52 := (unpackMantissa bits).isLt
  rw [BitVec.toNat_append]
  exact (Nat.shiftLeft_add_eq_or_of_lt small 1).symm

theorem toNat_unpackExponent (bits : BitVec Format.binary64.numBits) :
    (unpackExponent bits).toNat = bits.toNat / 2 ^ 52 % 2 ^ 11 := by
  simp [unpackExponent, BitVec.extractLsb, BitVec.extractLsb'_toNat, Nat.shiftRight_eq_div_pow]

theorem sign_eq (bits : BitVec Format.binary64.numBits) :
    Sign.ofBitVec (unpackSign bits) = if bits.toNat < 2 ^ 63 then .positive else .negative := by
  have bits_lt : bits.toNat < 2 ^ 64 := bits.isLt
  have bit : (unpackSign bits).toNat = bits.toNat / 2 ^ 63 := by
    simp [unpackSign, BitVec.extractLsb, BitVec.extractLsb'_toNat, Nat.shiftRight_eq_div_pow]
    omega
  rw [Sign.ofBitVec]
  congr 1
  rw [← BitVec.toNat_inj, bit]
  simp only [BitVec.toNat_ofNat, eq_iff_iff]
  omega

theorem toBits_ofBits {bits : UInt64} (valid : Format.binary64.Valid bits.toBitVec) :
    (Float.ofBits bits).toBits = bits := by
  have packed := pack_unpack_of_valid valid
  simp only [Float.ofBits, Float.toBits, Float.Model.ofBits, Float.Model.pack, packed]

theorem valid_of_code_le {bits : BitVec Format.binary64.numBits}
    (bounded : bits.toNat % 2 ^ 63 ≤ Magnitude.infinity) : Format.binary64.Valid bits where
  eq_packedNaN := by
    intro full payload
    have exponent := congrArg BitVec.toNat full
    rw [toNat_unpackExponent] at exponent
    have mantissa : (unpackMantissa bits).toNat = 0 := by
      rw [toNat_unpackMantissa]
      simp [Magnitude.infinity] at bounded exponent
      omega
    exact absurd (BitVec.eq_of_toNat_eq mantissa) payload

theorem isFinite_unpack (bits : BitVec Format.binary64.numBits) :
    (unpack Format.binary64 bits).isFinite = decide (bits.toNat % 2 ^ 63 < Magnitude.infinity) := by
  have exponent := toNat_unpackExponent bits
  rw [unpack]
  split
  next full =>
    rw [full] at exponent
    simp at exponent
    have large : ¬ bits.toNat % 2 ^ 63 < Magnitude.infinity := by
      simp [Magnitude.infinity]
      omega
    rw [decide_eq_false large]
    split <;> rfl
  next notFull =>
    have small : bits.toNat % 2 ^ 63 < Magnitude.infinity := by
      have : (unpackExponent bits).toNat ≠ 2047 := fun h => notFull (BitVec.eq_of_toNat_eq h)
      simp [Magnitude.infinity]
      omega
    rw [decide_eq_true small]
    split
    · split <;> rfl
    · rfl

/-- Sign, mantissa and exponent of a finite double, in terms of its magnitude code. -/
theorem unpack_eq_finite {bits : BitVec Format.binary64.numBits} {sign : Sign} {mantissa : Nat}
    {exponent : Int} {positive : 0 < mantissa}
    (unpacked : unpack Format.binary64 bits = .finite sign mantissa exponent positive) :
    sign = (if bits.toNat < 2 ^ 63 then .positive else .negative) ∧
      mantissa = bits.toNat % 2 ^ 63 -
        Magnitude.step (bits.toNat % 2 ^ 63) * Magnitude.binade ∧
      exponent = (Magnitude.step (bits.toNat % 2 ^ 63) : Int) - 1074 := by
  have width : (Format.binary64.mantissaBitsWithoutImplicit : Int) = 52 := rfl
  have bias : (Format.binary64.exponentBias : Int) = 1023 := rfl
  have binade_eq : Magnitude.binade = 2 ^ 52 := rfl
  have exponent_bits := toNat_unpackExponent bits
  have mantissa_bits := toNat_unpackMantissa bits
  rw [unpack] at unpacked
  split at unpacked
  · split at unpacked <;> contradiction
  next =>
    split at unpacked
    next subnormal =>
      have zero_toNat : (unpackExponent bits).toNat = 0 := congrArg BitVec.toNat subnormal
      split at unpacked
      · contradiction
      · obtain ⟨rfl, rfl, rfl⟩ := UnpackedFloat.finite.inj unpacked
        refine ⟨sign_eq bits, ?_, ?_⟩
        · rw [Magnitude.step, binade_eq]
          omega
        · rw [bias, width, Magnitude.step, binade_eq]
          omega
    next normal =>
      have normal_toNat : (unpackExponent bits).toNat ≠ 0 :=
        fun zero => normal (BitVec.eq_of_toNat_eq zero)
      obtain ⟨rfl, rfl, rfl⟩ := UnpackedFloat.finite.inj unpacked
      refine ⟨sign_eq bits, ?_, ?_⟩
      · rw [toNat_normalMantissa, Magnitude.step, binade_eq]
        omega
      · rw [bias, width, Magnitude.step, binade_eq]
        omega

theorem isFinite_ofFloat (value : Float) : (ofFloat value).isFinite = value.isFinite := by
  simp only [Float.isFinite, Float.Model.isFinite, Float.Model.unpack, isFinite_unpack]
  rfl

theorem toFloat_ofFloat {value : Float} (finite : value.isFinite = true) :
    (ofFloat value).toFloat = value := by
  rw [← isFinite_ofFloat] at finite
  have bounded : (ofFloat value).code < Magnitude.infinity := by simpa [isFinite] using finite
  have bits_lt : value.toBits.toNat < 2 ^ 64 := value.toBits.toNat_lt
  simp only [toFloat, Nat.min_eq_left (Nat.le_of_lt bounded)]
  have bits_eq : (if (ofFloat value).negative = true
      then 0x8000000000000000 + (ofFloat value).code
      else (ofFloat value).code) = value.toBits.toNat := by
    simp only [ofFloat, decide_eq_true_eq]
    split <;> omega
  rw [bits_eq, UInt64.ofNat_toNat, Float.ofBits_toBits]

theorem ofFloat_toFloat {binary : Binary64} (bounded : binary.code ≤ Magnitude.infinity) :
    ofFloat binary.toFloat = binary := by
  obtain ⟨negative, code⟩ := binary
  simp only at bounded
  rw [toFloat]
  simp only [Nat.min_eq_left bounded]
  have bits_eq :
      (UInt64.ofNat (if negative = true then 0x8000000000000000 + code else code)).toNat =
        if negative = true then 0x8000000000000000 + code else code := by
    rw [UInt64.toNat_ofNat']
    simp only [Magnitude.infinity] at bounded
    split <;> omega
  rw [ofFloat, toBits_ofBits]
  · rw [bits_eq]
    simp only [Magnitude.infinity] at bounded
    cases negative <;> simp <;> omega
  · apply valid_of_code_le
    rw [UInt64.toNat_toBitVec, bits_eq]
    simp only [Magnitude.infinity] at bounded ⊢
    split <;> omega

theorem isFinite_toFloat {binary : Binary64} (finite : binary.code < Magnitude.infinity) :
    binary.toFloat.isFinite = true := by
  rw [← isFinite_ofFloat, ofFloat_toFloat (Nat.le_of_lt finite), isFinite]
  exact decide_eq_true finite

theorem isNaN_eq_false {value : Float} (finite : value.isFinite = true) : value.isNaN = false := by
  have unpacked_finite : value.toModel.unpack.isFinite = true := finite
  show value.toModel.unpack.isNaN = false
  cases unpacked : value.toModel.unpack with
  | notANumber => rw [unpacked] at unpacked_finite; contradiction
  | _ => rfl

theorem isInf_eq_false {value : Float} (finite : value.isFinite = true) : value.isInf = false := by
  have unpacked_finite : value.toModel.unpack.isFinite = true := finite
  show value.toModel.unpack.isInf = false
  cases unpacked : value.toModel.unpack with
  | infinity sign => rw [unpacked] at unpacked_finite; contradiction
  | _ => rfl

theorem beq_zero_iff_eq (value : Float) : (value == 0.0) = true ↔ value = 0.0 ∨ value = -0.0 := by
  have signed : (-0.0 : Float) = -0 := by decide
  have zero : (0.0 : Float) = 0 := by decide
  have zero_ne : (0 : Float) ≠ -0 := by decide
  have number : (0 : Float) ≠ Float.nan := by decide
  have negative_number : (-0 : Float) ≠ Float.nan := by decide
  rw [signed, zero, Float.beq_iff_ne_nan_and_eq]
  constructor
  · rintro ⟨_, _, same | ⟨_, absurd_zero⟩ | ⟨same, _⟩⟩
    · exact .inl same
    · exact absurd absurd_zero zero_ne
    · exact .inr same
  · rintro (rfl | rfl)
    · exact ⟨number, number, .inl rfl⟩
    · exact ⟨negative_number, number, .inr (.inr ⟨rfl, rfl⟩)⟩

theorem beq_zero_iff (value : Float) : (value == 0.0) = true ↔ (ofFloat value).code = 0 := by
  rw [beq_zero_iff_eq]
  constructor
  · rintro (rfl | rfl) <;> rfl
  · intro code
    have bits_lt : value.toBits.toNat < 2 ^ 64 := value.toBits.toNat_lt
    have bits : value.toBits.toNat = 0 ∨ value.toBits.toNat = 2 ^ 63 := by
      simp only [ofFloat] at code
      omega
    have eq_of_bits {other : Float} (same : value.toBits.toNat = other.toBits.toNat) :
        value = other := Float.toBits_inj.mp (UInt64.toNat_inj.mp same)
    rcases bits with bits | bits
    · exact .inl (eq_of_bits (bits.trans (by decide)))
    · exact .inr (eq_of_bits (bits.trans (by decide)))

theorem sub_self {value : Float} (finite : value.isFinite = true) : value - value = 0.0 := by
  have zero : (0.0 : Float) = .ofModel (.pack (.zero .positive)) := by decide
  have difference : UnpackedFloat.sub Format.binary64 value.toModel.unpack value.toModel.unpack =
      .zero .positive := by
    have unpacked_finite : value.toModel.unpack.isFinite = true := finite
    cases unpacked : value.toModel.unpack with
    | notANumber => rw [unpacked] at unpacked_finite; contradiction
    | infinity sign => rw [unpacked] at unpacked_finite; contradiction
    | zero sign => cases sign <;> rfl
    | finite sign mantissa exponent positive => simp [UnpackedFloat.sub, UnpackedFloat.normalize]
  rw [zero, ← difference]
  rfl

end Binary64

end FlowCalibration
