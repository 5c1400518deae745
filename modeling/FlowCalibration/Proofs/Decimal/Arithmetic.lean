import FlowCalibration.Proofs.Decimal.Counts
import FlowCalibration.Proofs.Decimal.Order
import FlowCalibration.Proofs.Decimal.Quotient

/-!
# Laws of the arithmetic of doubles

Sums and products of doubles are rounded, so few laws of arithmetic are left: factors may be
exchanged, one is neutral for products, and zero for sums and differences with anything but the
other zero.
-/

namespace FlowCalibration

open Float.Model (Format UnpackedFloat)
open Float.Model.UnpackedFloat

namespace Binary64

theorem sign_mul_comm (left right : Sign) : left * right = right * left := by
  cases left <;> cases right <;> rfl

theorem sign_mul_positive (sign : Sign) : sign * .positive = sign := by
  cases sign <;> rfl

theorem unpacked_mul_comm (left right : UnpackedFloat) :
    UnpackedFloat.mul Format.binary64 left right = .mul Format.binary64 right left := by
  cases left <;> cases right <;>
    simp only [UnpackedFloat.mul, sign_mul_comm, Nat.mul_comm, Int.add_comm]

theorem alike_zero_add (sign : Sign) (value : UnpackedFloat) :
    Alike (UnpackedFloat.add Format.binary64 (.zero sign) value) value := by
  cases value with
  | zero other => cases sign <;> cases other <;> exact .inr ⟨_, _, rfl, rfl⟩
  | _ => exact .inl rfl

theorem alike_sub_zero (value : UnpackedFloat) (sign : Sign) :
    Alike (UnpackedFloat.sub Format.binary64 value (.zero sign)) value := by
  cases value with
  | zero other => cases sign <;> cases other <;> exact .inr ⟨_, _, rfl, rfl⟩
  | _ => exact .inl rfl

end Binary64

namespace Double

open Binary64

protected theorem mul_comm (left right : Float) : left * right = right * left :=
  congrArg (fun product => (⟨Float.Model.pack product⟩ : Float))
    (unpacked_mul_comm left.toModel.unpack right.toModel.unpack)

protected theorem mul_one (value : Float) : value * 1.0 = value := by
  suffices unchanged : UnpackedFloat.mul Format.binary64 value.toModel.unpack
      (1.0 : Float).toModel.unpack = value.toModel.unpack from
    (congrArg (fun product => (⟨Float.Model.pack product⟩ : Float)) unchanged).trans
      (ofModel_pack_unpack value)
  rw [unpack_one]
  cases unpacked : value.toModel.unpack with
  | notANumber => rfl
  | infinity sign => exact congrArg UnpackedFloat.infinity (sign_mul_positive sign)
  | zero sign => exact congrArg UnpackedFloat.zero (sign_mul_positive sign)
  | finite sign mantissa exponent positive =>
      have rounded := roundWithAccuracy_mul_two_pow sign positive
        (targetExponent_of_unpack unpacked) 52
      rwa [UnpackedFloat.mul, sign_mul_positive]

/-- Zero is neutral on the left, but it takes the sign of the other zero. -/
protected theorem zero_add {value : Float} (signed : value ≠ -0.0) : 0.0 + value = value := by
  suffices unchanged : UnpackedFloat.add Format.binary64 (0.0 : Float).toModel.unpack
      value.toModel.unpack = value.toModel.unpack from
    (congrArg (fun sum => (⟨Float.Model.pack sum⟩ : Float)) unchanged).trans
      (ofModel_pack_unpack value)
  rw [unpack_zero]
  cases unpacked : value.toModel.unpack with
  | zero sign =>
      cases sign with
      | positive => rfl
      | negative =>
          refine absurd ?_ signed
          rw [← ofModel_pack_unpack value, unpacked, ← unpack_negative_zero, ofModel_pack_unpack]
  | _ => rfl

/-! ## Up to the sign of zero -/

theorem unpack_of_unsignedZero {value : Float} (zero : unsignedZero value = 0.0) :
    ∃ sign, value.toModel.unpack = .zero sign := by
  rcases unsignedZero_eq_zero_iff.mp zero with rfl | rfl
  · exact ⟨_, unpack_zero⟩
  · exact ⟨_, unpack_negative_zero⟩

theorem unsignedZero_zero_add {zero : Float} (isZero : unsignedZero zero = 0.0) (value : Float) :
    unsignedZero (zero + value) = unsignedZero value := by
  obtain ⟨sign, unpacked⟩ := unpack_of_unsignedZero isZero
  have packed := unsignedZero_pack (alike_zero_add sign value.toModel.unpack)
  rwa [← unpacked, ofModel_pack_unpack] at packed

theorem unsignedZero_sub_zero {zero : Float} (isZero : unsignedZero zero = 0.0) (value : Float) :
    unsignedZero (value - zero) = unsignedZero value := by
  obtain ⟨sign, unpacked⟩ := unpack_of_unsignedZero isZero
  have packed := unsignedZero_pack (alike_sub_zero value.toModel.unpack sign)
  rwa [← unpacked, ofModel_pack_unpack] at packed

/-- A sum does not depend on the sign of zero. -/
theorem unsignedZero_add (left right : Float) :
    unsignedZero (unsignedZero left + right) = unsignedZero (left + right) := by
  rw [unsignedZero.eq_1 left]
  split
  next zero =>
    have isZero : unsignedZero left = 0.0 := if_pos zero
    have own : unsignedZero (0.0 : Float) = 0.0 := by decide
    rw [unsignedZero_zero_add own, unsignedZero_zero_add isZero]
  next => rfl

end Double

end FlowCalibration
