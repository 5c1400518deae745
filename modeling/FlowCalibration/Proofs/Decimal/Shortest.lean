import FlowCalibration.Decimal.Shortest
import FlowCalibration.Proofs.Decimal.Magnitude
import Mathlib.Tactic.Ring

/-!
# The shortest decimal reads back

`Decimal.code` does not change when a zero at the end of the digits is moved into the exponent, as
long as the code is finite.  So taking trailing zeros off keeps the code of a decimal, the exact
expansion of a code has that code, and the shortest decimal of a finite code reads back as it.
-/

namespace FlowCalibration

namespace Decimal

open Magnitude

/-- Code nearest to a decimal, computed in the same way at every exponent. -/
def rounded (decimal : Decimal) : Nat :=
  if 0 ≤ decimal.exponent then
    nearest (decimal.digits * 10 ^ decimal.exponent.toNat * one) 1
  else nearest (decimal.digits * one) (10 ^ (-decimal.exponent).toNat)

theorem rounded_eq_zero {decimal : Decimal}
    (low : decimal.exponent + (Nat.log2 decimal.digits + 1) < -324) : rounded decimal = 0 := by
  obtain ⟨digits, exponent⟩ := decimal
  simp only at low
  obtain ⟨places, exponent_eq⟩ : ∃ places : Nat, exponent = -(places : Int) :=
    ⟨(-exponent).toNat, by omega⟩
  subst exponent_eq
  have negative : ¬ (0 : Int) ≤ -(places : Int) := by omega
  simp only [rounded, negative, if_false, neg_neg, Int.toNat_natCast]
  apply nearest_eq_zero _ (Nat.pow_pos (by decide))
  have digits_lt : digits < 2 ^ (digits.log2 + 1) := Nat.lt_log2_self
  have five : 2 ^ 750 ≤ 5 ^ places := by
    calc
      2 ^ 750 ≤ 5 ^ 326 := by decide +kernel
      _ ≤ 5 ^ places := Nat.pow_le_pow_right (by decide) (by omega)
  calc
    2 * (digits * one) ≤ 2 * (2 ^ (digits.log2 + 1) * 2 ^ 1074) := by
      rw [one_eq]
      exact Nat.mul_le_mul_left _ (Nat.mul_le_mul_right _ digits_lt.le)
    _ = 2 ^ (digits.log2 + 326) * 2 ^ 750 := by
      rw [← Nat.pow_add, ← Nat.pow_succ', ← Nat.pow_add]
    _ ≤ 2 ^ places * 5 ^ places :=
      Nat.mul_le_mul (Nat.pow_le_pow_right (by decide) (by omega)) five
    _ = 10 ^ places := by rw [← Nat.mul_pow]

theorem code_of_le {decimal : Decimal} (nonzero : decimal.digits ≠ 0)
    (bound : decimal.exponent ≤ 309) : decimal.code = rounded decimal := by
  rw [code, if_neg nonzero, if_neg (by omega)]
  split
  next low => exact (rounded_eq_zero low).symm
  next => rfl

/-- A zero at the end of the digits may be moved into the exponent. -/
theorem rounded_mul_ten (digits : Nat) (exponent : Int) :
    rounded ⟨10 * digits, exponent⟩ = rounded ⟨digits, exponent + 1⟩ := by
  rcases Int.lt_or_le exponent 0 with fraction | whole
  · obtain ⟨places, exponent_eq⟩ : ∃ places : Nat, exponent = -((places : Int) + 1) :=
      ⟨(-exponent - 1).toNat, by omega⟩
    subst exponent_eq
    have negative : ¬ (0 : Int) ≤ -((places : Int) + 1) := by omega
    have places_eq : ((places : Int) + 1).toNat = places + 1 := by omega
    have next_eq : -((places : Int) + 1) + 1 = -(places : Int) := by omega
    have scaled : nearest (10 * digits * one) (10 ^ (places + 1)) =
        nearest (digits * one) (10 ^ places) := by
      rw [Nat.mul_assoc, Nat.pow_succ', nearest_mul_left _ _ _ (by decide)]
    simp only [rounded, negative, if_false, neg_neg, places_eq, next_eq, Int.toNat_natCast]
    rw [scaled]
    cases places with
    | zero => simp
    | succ places =>
        rw [if_neg (by omega)]
  · obtain ⟨zeros, rfl⟩ := Int.eq_ofNat_of_zero_le whole
    have next : ((zeros : Int) + 1).toNat = zeros + 1 := by omega
    have next_nonneg : (0 : Int) ≤ (zeros : Int) + 1 := by omega
    simp only [rounded, whole, next_nonneg, if_true, next, Int.toNat_natCast]
    congr 2
    ring

/-- The exponents above which nothing but zero has a finite code. -/
theorem infinity_le_rounded {decimal : Decimal} (nonzero : decimal.digits ≠ 0)
    (large : 309 < decimal.exponent) : infinity ≤ rounded decimal := by
  obtain ⟨digits, exponent⟩ := decimal
  simp only at nonzero large
  obtain ⟨zeros, rfl⟩ := Int.eq_ofNat_of_zero_le (by omega : 0 ≤ exponent)
  have product_ge : 2 ^ (1029 + 1074) ≤ digits * 10 ^ zeros * one := by
    have scaled : 2 ^ 1029 ≤ digits * 10 ^ zeros :=
      calc
        2 ^ 1029 ≤ 10 ^ 310 := by decide +kernel
        _ ≤ 10 ^ zeros := Nat.pow_le_pow_right (by decide) (by omega)
        _ ≤ digits * 10 ^ zeros := Nat.le_mul_of_pos_left _ (Nat.pos_of_ne_zero nonzero)
    rw [Nat.pow_add, one_eq]
    exact Nat.mul_le_mul_right _ scaled
  rw [rounded, if_pos (Int.natCast_nonneg zeros), Int.toNat_natCast]
  exact infinity_le_nearest product_ge (by decide)

/-- Moving a zero from the digits into the exponent keeps a finite code. -/
theorem code_mul_ten {digits : Nat} {exponent : Int} (nonzero : digits ≠ 0)
    (finite : code ⟨10 * digits, exponent⟩ < infinity) :
    code ⟨digits, exponent + 1⟩ = code ⟨10 * digits, exponent⟩ := by
  have product_ne : 10 * digits ≠ 0 := by omega
  have bound : exponent ≤ 309 := by
    by_contra above
    rw [code, if_neg product_ne, if_pos (by simp only; omega)] at finite
    exact Nat.lt_irrefl _ finite
  have product_code : code ⟨10 * digits, exponent⟩ = rounded ⟨digits, exponent + 1⟩ := by
    rw [code_of_le product_ne bound, rounded_mul_ten]
  have below : exponent ≠ 309 := by
    rintro rfl
    rw [product_code] at finite
    exact absurd finite (Nat.not_lt.mpr (infinity_le_rounded nonzero (Int.lt_succ 309)))
  have next_bound : exponent + 1 ≤ 309 := by omega
  rw [product_code]
  exact code_of_le nonzero next_bound

/-- The zeros of a finite whole decimal may be written out. -/
theorem code_whole {digits zeros : Nat} (nonzero : digits ≠ 0)
    (finite : code ⟨digits, zeros⟩ < infinity) :
    code ⟨digits * 10 ^ zeros, 0⟩ = code ⟨digits, zeros⟩ := by
  have product_ne : digits * 10 ^ zeros ≠ 0 :=
    Nat.mul_ne_zero nonzero (Nat.pow_pos (by decide)).ne'
  have bound : (zeros : Int) ≤ 309 := by
    by_contra above
    rw [code, if_neg nonzero, if_pos (by simp only; omega)] at finite
    exact Nat.lt_irrefl _ finite
  have whole : (0 : Int) ≤ zeros := by omega
  have zero_bound : (0 : Int) ≤ 309 := by decide
  calc
    code ⟨digits * 10 ^ zeros, 0⟩ = rounded ⟨digits * 10 ^ zeros, 0⟩ :=
      code_of_le product_ne zero_bound
    _ = rounded ⟨digits, zeros⟩ := by
      simp only [rounded, whole, Int.le_refl, if_true, Int.toNat_natCast, Int.toNat_zero,
        Nat.pow_zero, Nat.mul_one]
    _ = code ⟨digits, zeros⟩ := (code_of_le nonzero bound).symm

theorem code_strip_go {digits : Nat} {exponent : Int} (nonzero : digits ≠ 0)
    (finite : code ⟨digits, exponent⟩ < infinity) :
    code (strip.go digits exponent) = code ⟨digits, exponent⟩ := by
  induction digits, exponent using strip.go.induct with
  | case1 digits exponent zero_last induction =>
      obtain ⟨_, last⟩ := zero_last
      have split : 10 * (digits / 10) = digits := by omega
      have moved : code ⟨digits / 10, exponent + 1⟩ = code ⟨10 * (digits / 10), exponent⟩ :=
        code_mul_ten (by omega) (by rwa [split])
      rw [split] at moved
      rw [strip.go, if_pos ⟨nonzero, last⟩, induction (by omega) (by rwa [moved]), moved]
  | case2 digits exponent last => rw [strip.go, if_neg last]

theorem code_strip {decimal : Decimal} (nonzero : decimal.digits ≠ 0)
    (finite : decimal.code < infinity) : decimal.strip.code = decimal.code :=
  code_strip_go nonzero finite

theorem code_exact {code : Nat} (positive : 0 < code) : (exact code).code = code := by
  have digits_ne : units code * 5 ^ 1074 ≠ 0 :=
    Nat.mul_ne_zero (units_pos positive).ne' (Nat.pow_pos (Nat.succ_pos 4)).ne'
  have scale : 5 ^ 1074 * one = 10 ^ 1074 := by rw [one_eq, ← Nat.mul_pow]
  have negative : ¬ (0 : Int) ≤ -1074 := by decide
  have places : (-(-1074 : Int)).toNat = 1074 := by decide
  have bound : (-1074 : Int) ≤ 309 := by decide
  calc
    Decimal.code ⟨units code * 5 ^ 1074, -1074⟩ = rounded ⟨units code * 5 ^ 1074, -1074⟩ :=
      code_of_le digits_ne bound
    _ = nearest (units code * 5 ^ 1074 * one) (10 ^ 1074) := by
      simp only [rounded, negative, if_false, places]
    _ = nearest (units code * 10 ^ 1074) (10 ^ 1074) := by rw [Nat.mul_assoc, scale]
    _ = code := nearest_units code _ (Nat.pow_pos (by decide))

theorem digits_ne_zero_of_code {decimal : Decimal} (positive : 0 < decimal.code) :
    decimal.digits ≠ 0 := by
  intro zero
  rw [code, if_pos zero] at positive
  exact Nat.lt_irrefl _ positive

/-- The shortest decimal of a finite magnitude reads back as that magnitude. -/
theorem code_shortest (tie : Tie) {code : Nat} (positive : 0 < code) (finite : code < infinity) :
    (shortest tie code).code = code := by
  have strip_code {decimal : Decimal} (reads : decimal.code = code) :
      decimal.strip.code = code := by
    rw [code_strip (digits_ne_zero_of_code (by rwa [reads])) (by rwa [reads]), reads]
  rw [shortest]
  apply strip_code
  cases found : (List.range 17).findSome? fun (count : Nat) =>
      (neighbours tie (units code) (pointOf (units code) - (count + 1))).find? (·.code == code) with
  | none => exact code_exact positive
  | some decimal =>
      obtain ⟨count, _, chosen⟩ := List.exists_of_findSome?_eq_some found
      simpa using List.find?_some chosen

end Decimal

end FlowCalibration
