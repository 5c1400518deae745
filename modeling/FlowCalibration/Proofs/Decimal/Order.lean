import FlowCalibration.Decimal.Rounding
import FlowCalibration.Proofs.Decimal.Magnitude
import FlowCalibration.Proofs.Decimal.RoundTrip
import Mathlib.Data.Prod.Lex
import Mathlib.Order.Bounds.Basic
import Mathlib.Order.Compare

/-!
# The order of doubles

Comparing two doubles is comparing what they unpack to.  The two zeros compare alike with every
double, so a value may lose the sign of zero before it is compared.  Numbers are in order by their
rank, which only zeros have in common.  Of two finite doubles one is at most the other; the smaller
and the larger of them are their least and their greatest.  A finite double from one on has no
sign, and as a count it is at least one.
-/

namespace FlowCalibration

open Float.Model (Format UnpackedFloat)

namespace Binary64

theorem le_iff_unpack (left right : Float) :
    left ≤ right ↔ left.toModel.unpack.le right.toModel.unpack = true := by
  show decide (_ = true) = true ↔ _
  rw [decide_eq_true_iff]
  rfl

theorem lt_iff_unpack (left right : Float) :
    left < right ↔ left.toModel.unpack.lt right.toModel.unpack = true := by
  show decide (_ = true) = true ↔ _
  rw [decide_eq_true_iff]
  rfl

theorem unpack_zero : (0.0 : Float).toModel.unpack = .zero .positive := by
  rfl

theorem unpack_negative_zero : (-0.0 : Float).toModel.unpack = .zero .negative := by
  rfl

theorem ofModel_pack_unpack (value : Float) :
    (⟨Float.Model.pack value.toModel.unpack⟩ : Float) = value := by
  have packed := UnpackedFloat.pack_unpack_of_valid value.toModel.valid
  simp only [Float.Model.pack, Float.Model.unpack, packed]

theorem compare_zero (value : UnpackedFloat) (sign other : UnpackedFloat.Sign) :
    value.compare (.zero sign) = value.compare (.zero other) ∧
      UnpackedFloat.compare (.zero sign) value = UnpackedFloat.compare (.zero other) value := by
  cases value with
  | zero => exact ⟨rfl, rfl⟩
  | notANumber => exact ⟨rfl, rfl⟩
  | infinity own => cases own <;> exact ⟨rfl, rfl⟩
  | finite own => cases own <;> exact ⟨rfl, rfl⟩

/-- Finite values compare, and the other way round with the answer turned. -/
theorem compare_of_isFinite (left right : UnpackedFloat) (left_finite : left.isFinite = true)
    (right_finite : right.isFinite = true) :
    ∃ order, left.compare right = some order ∧ right.compare left = some order.swap := by
  cases left with
  | infinity => contradiction
  | notANumber => contradiction
  | zero =>
      cases right with
      | infinity => contradiction
      | notANumber => contradiction
      | zero => exact ⟨_, rfl, rfl⟩
      | finite sign => cases sign <;> exact ⟨_, rfl, rfl⟩
  | finite left_sign left_mantissa left_exponent =>
      cases right with
      | infinity => contradiction
      | notANumber => contradiction
      | zero => cases left_sign <;> exact ⟨_, rfl, rfl⟩
      | finite right_sign right_mantissa right_exponent =>
          have turned : ((compare left_exponent right_exponent).then
              (compare left_mantissa right_mantissa)).swap =
              (compare right_exponent left_exponent).then
                (compare right_mantissa left_mantissa) := by
            rw [Ordering.swap_then, ← Std.OrientedCmp.eq_swap, ← Std.OrientedCmp.eq_swap]
          cases left_sign <;> cases right_sign <;>
            simp [UnpackedFloat.compare, ← turned]

/-- Place of a value in the order of numbers: its kind, then its exponent and its mantissa, which
count the other way round below zero. -/
def rank : UnpackedFloat → ℤ ×ₗ ℤ ×ₗ ℤ
  | .infinity .negative => toLex (-2, toLex (0, 0))
  | .finite .negative mantissa exponent _ => toLex (-1, toLex (-exponent, -(mantissa : ℤ)))
  | .zero _ | .notANumber => toLex (0, toLex (0, 0))
  | .finite .positive mantissa exponent _ => toLex (1, toLex (exponent, (mantissa : ℤ)))
  | .infinity .positive => toLex (2, toLex (0, 0))

theorem isLE_then_iff (left right : ℤ) (low high : ℕ) :
    ((compare left right).then (compare low high)).isLE = true ↔
      left < right ∨ left = right ∧ low ≤ high := by
  rw [Ordering.isLE_then_iff_or, compare_lt_iff_lt, compare_eq_iff_eq, Nat.isLE_compare]

theorem isGE_then_iff (left right : ℤ) (low high : ℕ) :
    ((compare left right).then (compare low high)).isGE = true ↔
      right < left ∨ left = right ∧ high ≤ low := by
  have turned : ((compare left right).then (compare low high)).swap =
      (compare right left).then (compare high low) := by
    rw [Ordering.swap_then, ← Std.OrientedCmp.eq_swap, ← Std.OrientedCmp.eq_swap]
  rw [← Ordering.isLE_swap, turned, isLE_then_iff, eq_comm]

/-- A value is at most another one exactly when both are numbers and their ranks say so. -/
theorem le_iff_rank {left right : UnpackedFloat} :
    left.le right = true ↔
      left ≠ .notANumber ∧ right ≠ .notANumber ∧ rank left ≤ rank right := by
  have infinities (first second : UnpackedFloat.Sign) :
      (compare first second).isLE = true ↔ first = .negative ∨ second = .positive := by
    cases first <;> cases second <;> simp only [reduceCtorEq, or_false, or_true, or_self] <;> decide
  rcases left with (_ | _) | _ | _ | (_ | _) <;> rcases right with (_ | _) | _ | _ | (_ | _) <;>
    simp [UnpackedFloat.le, UnpackedFloat.compare, rank, Prod.Lex.toLex_le_toLex, infinities,
      isLE_then_iff, isGE_then_iff]

/-- Whether two values are the same, or both zero. -/
def Alike (left right : UnpackedFloat) : Prop :=
  left = right ∨ ∃ sign other, left = .zero sign ∧ right = .zero other

theorem alike_of_rank_eq {left right : UnpackedFloat} (left_number : left ≠ .notANumber)
    (right_number : right ≠ .notANumber) (same : rank left = rank right) : Alike left right := by
  rcases left with (_ | _) | _ | _ | (_ | _) <;> rcases right with (_ | _) | _ | _ | (_ | _) <;>
    simp_all [rank, Alike]

end Binary64

namespace Double

open Binary64

/-- Without the sign of zero, values that are alike are the same double. -/
theorem unsignedZero_pack {left right : UnpackedFloat} (alike : Alike left right) :
    unsignedZero ⟨Float.Model.pack left⟩ = unsignedZero ⟨Float.Model.pack right⟩ := by
  rcases alike with rfl | ⟨sign, other, rfl, rfl⟩
  · rfl
  · cases sign <;> cases other <;> decide

theorem unsignedZero_eq_zero_iff {value : Float} :
    unsignedZero value = 0.0 ↔ value = 0.0 ∨ value = -0.0 := by
  rw [← beq_zero_iff_eq, unsignedZero]
  split
  next zero => simp [zero]
  next notZero =>
    have positive_zero : ((0.0 : Float) == 0.0) = true := by decide
    exact ⟨fun same => same ▸ positive_zero, fun zero => absurd zero notZero⟩

theorem isFinite_unsignedZero (value : Float) :
    (unsignedZero value).isFinite = value.isFinite := by
  rw [unsignedZero]
  split
  next zero =>
    rcases (beq_zero_iff_eq value).mp zero with rfl | rfl <;> decide
  next => rfl

/-- Losing the sign of zero changes no comparison. -/
theorem le_unsignedZero_iff (left right : Float) : left ≤ unsignedZero right ↔ left ≤ right := by
  rw [unsignedZero]
  split
  next zero =>
    rcases (beq_zero_iff_eq right).mp zero with rfl | rfl
    · rfl
    · rw [le_iff_unpack, le_iff_unpack, unpack_zero, unpack_negative_zero, UnpackedFloat.le,
        UnpackedFloat.le, (compare_zero _ .negative .positive).1]
  next => rfl

theorem unsignedZero_le_iff (left right : Float) : unsignedZero left ≤ right ↔ left ≤ right := by
  rw [unsignedZero]
  split
  next zero =>
    rcases (beq_zero_iff_eq left).mp zero with rfl | rfl
    · rfl
    · rw [le_iff_unpack, le_iff_unpack, unpack_zero, unpack_negative_zero, UnpackedFloat.le,
        UnpackedFloat.le, (compare_zero _ .negative .positive).2]
  next => rfl

theorem le_trans {left middle right : Float} (lower : left ≤ middle) (upper : middle ≤ right) :
    left ≤ right := by
  rw [le_iff_unpack, le_iff_rank] at lower upper ⊢
  exact ⟨lower.1, upper.2.1, lower.2.2.trans upper.2.2⟩

/-- Doubles that are at most each other differ in no more than the sign of zero. -/
theorem le_antisymm {left right : Float} (below : left ≤ right) (above : right ≤ left) :
    unsignedZero left = unsignedZero right := by
  rw [le_iff_unpack, le_iff_rank] at below above
  obtain ⟨left_number, right_number, lower⟩ := below
  have alike := alike_of_rank_eq left_number right_number (lower.antisymm above.2.2)
  have packed := unsignedZero_pack alike
  rwa [ofModel_pack_unpack, ofModel_pack_unpack] at packed

/-! ## Finite doubles are in order -/

theorem le_of_lt {left right : Float} (less : left < right) : left ≤ right := by
  rw [lt_iff_unpack, UnpackedFloat.lt, beq_iff_eq] at less
  rw [le_iff_unpack, UnpackedFloat.le, less]
  rfl

theorem le_of_not_le {left right : Float} (left_finite : left.isFinite = true)
    (right_finite : right.isFinite = true) (above : ¬ left ≤ right) : right ≤ left := by
  obtain ⟨order, compared, turned⟩ :=
    compare_of_isFinite left.toModel.unpack right.toModel.unpack left_finite right_finite
  rw [le_iff_unpack, UnpackedFloat.le, compared] at above
  rw [le_iff_unpack, UnpackedFloat.le, turned]
  cases order with
  | lt => exact absurd rfl above
  | eq => rfl
  | gt => rfl

theorem le_refl {value : Float} (finite : value.isFinite = true) : value ≤ value :=
  by_contra fun above => above (le_of_not_le finite finite above)

/-- A finite double is below another one exactly when that is not at most it. -/
theorem lt_iff_not_le {left right : Float} (left_finite : left.isFinite = true)
    (right_finite : right.isFinite = true) : left < right ↔ ¬ right ≤ left := by
  obtain ⟨order, compared, turned⟩ :=
    compare_of_isFinite left.toModel.unpack right.toModel.unpack left_finite right_finite
  rw [lt_iff_unpack, UnpackedFloat.lt, compared, le_iff_unpack, UnpackedFloat.le, turned]
  cases order <;> decide

theorem isFinite_max {left right : Float} (left_finite : left.isFinite = true)
    (right_finite : right.isFinite = true) : (Double.max left right).isFinite = true := by
  rw [Double.max]
  split_ifs <;> assumption

theorem isLeast_min {left right : Float} (left_finite : left.isFinite = true)
    (right_finite : right.isFinite = true) : IsLeast {left, right} (Double.min left right) := by
  have left_least (below : left ≤ right) : IsLeast {left, right} left :=
    ⟨.inl rfl, by simp [lowerBounds, below, le_refl left_finite]⟩
  rw [Double.min]
  split
  next less => exact left_least (le_of_lt less)
  next above =>
    rw [lt_iff_not_le left_finite right_finite, not_not] at above
    rw [if_pos above]
    exact ⟨.inr rfl, by simp [lowerBounds, above, le_refl right_finite]⟩

theorem isGreatest_max {left right : Float} (left_finite : left.isFinite = true)
    (right_finite : right.isFinite = true) : IsGreatest {left, right} (Double.max left right) := by
  have left_greatest (below : right ≤ left) : IsGreatest {left, right} left :=
    ⟨.inl rfl, by simp [upperBounds, below, le_refl left_finite]⟩
  rw [Double.max]
  split
  next less => exact left_greatest (le_of_lt less)
  next above =>
    rw [lt_iff_not_le right_finite left_finite, not_not] at above
    rw [if_pos above]
    exact ⟨.inr rfl, by simp [upperBounds, above, le_refl right_finite]⟩

theorem le_max_right {left right : Float} (left_finite : left.isFinite = true)
    (right_finite : right.isFinite = true) : right ≤ Double.max left right :=
  (isGreatest_max left_finite right_finite).2 (.inr rfl)

end Double

/-! ## Doubles from one on -/

namespace Binary64

open Magnitude

theorem unpack_one :
    (1.0 : Float).toModel.unpack = .finite .positive (2 ^ 52) (-52) (Nat.two_pow_pos 52) := by
  rfl

/-- A finite double from one on has no sign and a magnitude of at least one. -/
theorem one_le_units {value : Float} (finite : value.isFinite = true) (large : 1.0 ≤ value) :
    (ofFloat value).negative = false ∧ Magnitude.one ≤ units (ofFloat value).code := by
  have value_finite : value.toModel.unpack.isFinite = true := finite
  rw [le_iff_unpack, unpack_one, le_iff_rank] at large
  obtain ⟨-, -, large⟩ := large
  cases unpacked : value.toModel.unpack with
  | notANumber => rw [unpacked] at value_finite; contradiction
  | infinity => rw [unpacked] at value_finite; contradiction
  | zero => rw [unpacked] at large; simp [rank, Prod.Lex.toLex_le_toLex] at large
  | finite sign mantissa exponent positive =>
      have code_eq : (ofFloat value).code = value.toBits.toBitVec.toNat % 2 ^ 63 := rfl
      have negative_eq : (ofFloat value).negative =
          decide (2 ^ 63 ≤ value.toBits.toBitVec.toNat) := rfl
      have unpacked_bits : UnpackedFloat.unpack Format.binary64 value.toBits.toBitVec =
          .finite sign mantissa exponent positive := unpacked
      obtain ⟨sign_eq, mantissa_eq, exponent_eq⟩ := unpack_eq_finite unpacked_bits
      rw [← code_eq] at mantissa_eq exponent_eq
      rw [unpacked] at large
      cases sign with
      | negative => simp [rank, Prod.Lex.toLex_le_toLex] at large
      | positive =>
          have unsigned : (ofFloat value).negative = false := by
            rw [negative_eq]
            split at sign_eq
            next below => exact decide_eq_false (Nat.not_le_of_lt below)
            next => contradiction
          have exponent_le : -52 ≤ exponent := by
            simp only [rank, Prod.Lex.toLex_le_toLex] at large
            omega
          have normal : 2 ^ 52 ≤ mantissa := by
            have bounds := (mantissa_bounds (ofFloat value).code).2
            omega
          refine ⟨unsigned, ?_⟩
          calc
            Magnitude.one = 2 ^ 52 * 2 ^ 1022 := by rw [one_eq, ← Nat.pow_add 2 52 1022]
            _ ≤ mantissa * 2 ^ step (ofFloat value).code :=
              Nat.mul_le_mul normal (Nat.pow_le_pow_right Nat.two_pos (by omega))
            _ = units (ofFloat value).code := by rw [units_eq, mantissa_eq]

end Binary64

namespace Double

open Binary64

theorem one_le_toCount {value : Float} (finite : value.isFinite = true) (large : 1.0 ≤ value) :
    1 ≤ toCount value := by
  obtain ⟨unsigned, reached⟩ := one_le_units finite large
  have whole : 1 ≤ Magnitude.units (ofFloat value).code / Magnitude.one :=
    Nat.div_pos reached (by decide)
  have below : (ofFloat value).isFinite = true := isFinite_ofFloat value ▸ finite
  have notNumber : ¬ Magnitude.infinity < (ofFloat value).code := by
    have code_lt : (ofFloat value).code < Magnitude.infinity := of_decide_eq_true below
    omega
  rw [toCount, unsigned, below, decide_eq_false notNumber, Bool.or_self, if_neg Bool.false_ne_true,
    if_pos rfl]
  exact Nat.le_min.mpr ⟨whole, by norm_num⟩

end Double

end FlowCalibration
