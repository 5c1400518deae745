import FlowCalibration.Proofs.Decimal.Bits
import FlowCalibration.Proofs.Decimal.Shortest

/-!
# The double nearest to a number

Codes grow with the numbers that they stand for, so a number that is not itself on the grid lies
between two neighbours.  `Magnitude.nearest` picks the nearer of them, and of two equally near ones
the even one.  That singles out one code for every number, and the code of a decimal is that one
unless both are past the largest double.
-/

namespace FlowCalibration

/-- A quotient that is rounded lies between two whole numbers, and the nearer of them is picked, or
the even one where both are equally near. -/
theorem roundHalfEven_cases (num : Nat) {den : Nat} (positive : 0 < den) :
    ∃ quotient, quotient * den ≤ num ∧ num < (quotient + 1) * den ∧
      (roundHalfEven num den = quotient ∧
          (2 * num < (2 * quotient + 1) * den ∨
            2 * num = (2 * quotient + 1) * den ∧ quotient % 2 = 0) ∨
        roundHalfEven num den = quotient + 1 ∧
          ((2 * quotient + 1) * den < 2 * num ∨
            2 * num = (2 * quotient + 1) * den ∧ (quotient + 1) % 2 = 0)) := by
  have pieces : num / den * den + num % den = num := Nat.div_add_mod' num den
  have rest_lt : num % den < den := Nat.mod_lt num positive
  refine ⟨num / den, by omega, by rw [Nat.succ_mul]; omega, ?_⟩
  have middle : (2 * (num / den) + 1) * den = 2 * (num / den * den) + den := by ring
  rw [middle]
  simp only [roundHalfEven]
  split
  next below => exact .inl ⟨rfl, .inl (by omega)⟩
  next notBelow =>
    split
    next above => exact .inr ⟨rfl, .inl (by omega)⟩
    next notAbove =>
      rcases Nat.mod_two_eq_zero_or_one (num / den) with even | odd
      · exact .inl ⟨by rw [even, Nat.add_zero], .inr ⟨by omega, even⟩⟩
      · exact .inr ⟨by rw [odd], .inr ⟨by omega, by omega⟩⟩

namespace Magnitude

/-! ## The grid -/

/-- What a mantissa stands for in its binade, the end of the binade included. -/
theorem units_add_mul {mantissa scale : Nat} (bounded : mantissa ≤ 2 ^ 53)
    (normal : scale = 0 ∨ 2 ^ 52 ≤ mantissa) :
    units (mantissa + scale * binade) = mantissa * 2 ^ scale := by
  have binade_eq : binade = 2 ^ 52 := rfl
  rcases Nat.lt_or_eq_of_le bounded with below | rfl
  · have step_eq : step (mantissa + scale * binade) = scale := by
      rw [step, binade_eq]
      omega
    rw [units_eq, step_eq, Nat.add_sub_cancel]
  · have step_eq : step (2 ^ 53 + scale * binade) = scale + 1 := by
      rw [step, binade_eq]
      omega
    have mantissa_eq : 2 ^ 53 + scale * binade - (scale + 1) * binade = 2 ^ 52 := by
      rw [Nat.succ_mul, binade_eq]
      omega
    rw [units_eq, step_eq, mantissa_eq, Nat.pow_succ']
    ring

theorem units_succ (code : Nat) : units (code + 1) = units code + 2 ^ step code := by
  obtain ⟨below, normal⟩ := mantissa_bounds code
  have split : code + 1 = (code - step code * binade + 1) + step code * binade := by
    have := step_mul_binade_le code
    omega
  conv_lhs => rw [split]
  rw [units_add_mul below (normal.imp_right fun lower => Nat.le_succ_of_le lower), units_eq,
    Nat.succ_mul]

theorem units_strictMono : StrictMono units := by
  refine strictMono_nat_of_lt_succ fun code => ?_
  rw [units_succ]
  exact Nat.lt_add_of_pos_right (by positivity)

/-- The number that a code stands for. -/
def value (code : Nat) : ℚ :=
  units code / one

theorem one_pos : (0 : ℚ) < one := by
  rw [one_eq]
  positivity

theorem value_strictMono : StrictMono value := fun _ _ lower =>
  div_lt_div_of_pos_right (Nat.cast_lt.mpr (units_strictMono lower)) one_pos

/-! ## The nearest code -/

/-- A code is nearest to a number: the other ones are farther away, or as far as it where it is
even.  There are codes past infinity, as if no double was the largest. -/
def IsNearest (number : ℚ) (code : Nat) : Prop :=
  ∀ other, other ≠ code → |value code - number| < |value other - number| ∨
    |value code - number| = |value other - number| ∧ code % 2 = 0

variable {number : ℚ} {code : Nat}

/-- The lower of two neighbours is nearest if the number is below their middle. -/
theorem isNearest_lower (lower : value code ≤ number) (upper : number ≤ value (code + 1))
    (near : 2 * number < value code + value (code + 1) ∨
      2 * number = value code + value (code + 1) ∧ code % 2 = 0) : IsNearest number code := by
  intro other different
  have own : |value code - number| = number - value code := by
    rw [abs_sub_comm, abs_of_nonneg (sub_nonneg.mpr lower)]
  rcases Nat.lt_or_gt_of_ne different with below | above
  · left
    have less : value other < value code := value_strictMono below
    rw [own, abs_sub_comm, abs_of_nonneg (by linarith)]
    linarith
  · have more : value (code + 1) ≤ value other := value_strictMono.monotone above
    rw [own, abs_of_nonneg (by linarith)]
    rcases near with near | ⟨middle, even⟩
    · left
      linarith
    · rcases more.lt_or_eq with more | same
      · left
        linarith
      · exact .inr ⟨by linarith, even⟩

/-- The upper of two neighbours is nearest if the number is above their middle. -/
theorem isNearest_upper (lower : value code ≤ number) (upper : number ≤ value (code + 1))
    (near : value code + value (code + 1) < 2 * number ∨
      2 * number = value code + value (code + 1) ∧ (code + 1) % 2 = 0) :
    IsNearest number (code + 1) := by
  intro other different
  have own : |value (code + 1) - number| = value (code + 1) - number :=
    abs_of_nonneg (sub_nonneg.mpr upper)
  rcases Nat.lt_or_gt_of_ne different with below | above
  · have less : value other ≤ value code := value_strictMono.monotone (Nat.le_of_lt_succ below)
    rw [own, abs_sub_comm, abs_of_nonneg (by linarith)]
    rcases near with near | ⟨middle, even⟩
    · left
      linarith
    · rcases less.lt_or_eq with less | same
      · left
        linarith
      · exact .inr ⟨by linarith, even⟩
  · left
    have more : value (code + 1) < value other := value_strictMono above
    rw [own, abs_of_nonneg (by linarith)]
    linarith

/-- Between two codes that are equally near lies a nearer one, unless they are neighbours. -/
theorem IsNearest.le {other : Nat} (nearest : IsNearest number code)
    (other_nearest : IsNearest number other) : other ≤ code := by
  by_contra above
  have different : other ≠ code := Nat.ne_of_gt (Nat.not_le.mp above)
  rcases nearest other different with nearer | ⟨same, even⟩
  · rcases other_nearest code different.symm with other_nearer | ⟨same, -⟩
    · exact lt_asymm nearer other_nearer
    · exact nearer.ne same.symm
  · obtain ⟨-, other_even⟩ : _ ∧ other % 2 = 0 :=
      (other_nearest code different.symm).resolve_left (same.symm ▸ lt_irrefl _)
    have first : value code < value (code + 1) := value_strictMono (Nat.lt_succ_self code)
    have second : value (code + 1) < value other := value_strictMono (by omega)
    -- The number is the middle of the two codes, and the successor is nearer to it than they are.
    have middle : 2 * number = value code + value other := by
      rcases abs_eq_abs.mp same with same | same <;> linarith
    have closer : |value (code + 1) - number| < |value code - number| := by
      rw [abs_sub_comm (value code), abs_of_nonneg (by linarith : 0 ≤ number - value code), abs_lt]
      constructor <;> linarith
    rcases nearest (code + 1) (by omega) with nearer | ⟨same, -⟩
    · exact lt_asymm nearer closer
    · exact closer.ne same.symm

theorem IsNearest.unique {other : Nat} (nearest : IsNearest number code)
    (other_nearest : IsNearest number other) : code = other :=
  Nat.le_antisymm (other_nearest.le nearest) (nearest.le other_nearest)

theorem binade_bounds {quotient scale : Nat} (scale_eq : Nat.log2 quotient - 52 = scale) :
    quotient < 2 ^ 53 * 2 ^ scale ∧ (scale = 0 ∨ 2 ^ 52 * 2 ^ scale ≤ quotient) := by
  constructor
  · rw [← Nat.pow_add]
    exact Nat.lt_of_lt_of_le Nat.lt_log2_self (Nat.pow_le_pow_right (by decide) (by omega))
  · rcases Nat.eq_zero_or_pos scale with zero | scale_pos
    · exact .inl zero
    · right
      have quotient_ne : quotient ≠ 0 := by
        rintro rfl
        rw [Nat.log2_zero] at scale_eq
        omega
      rw [← Nat.pow_add, ← Nat.le_log2 quotient_ne]
      omega

theorem mantissa_of_scale {quotient scale mantissa : Nat}
    (scale_eq : Nat.log2 quotient - 52 = scale) (lower : mantissa * 2 ^ scale ≤ quotient)
    (upper : quotient < (mantissa + 1) * 2 ^ scale) :
    mantissa < 2 ^ 53 ∧ (scale = 0 ∨ 2 ^ 52 ≤ mantissa) := by
  obtain ⟨quotient_lt, quotient_ge⟩ := binade_bounds scale_eq
  refine ⟨Nat.lt_of_mul_lt_mul_right (Nat.lt_of_le_of_lt lower quotient_lt),
    quotient_ge.imp_right fun ge => ?_⟩
  exact Nat.le_of_lt_succ (Nat.lt_of_mul_lt_mul_right (Nat.lt_of_le_of_lt ge upper))

section Neighbours

variable {mantissa scale den : Nat}

/-- What a mantissa stands for, as a quotient whose denominator has a further factor. -/
theorem value_add_mul (positive : 0 < den) (bounded : mantissa ≤ 2 ^ 53)
    (normal : scale = 0 ∨ 2 ^ 52 ≤ mantissa) :
    value (mantissa + scale * binade) = (mantissa * (den * 2 ^ scale) : Nat) / (den * one) := by
  have den_ne : (den : ℚ) ≠ 0 := (Nat.cast_pos.mpr positive).ne'
  rw [value, units_add_mul bounded normal, Nat.mul_left_comm, Nat.cast_mul den,
    mul_div_mul_left _ _ den_ne]

theorem value_add_mul_succ (positive : 0 < den) (bounded : mantissa < 2 ^ 53)
    (normal : scale = 0 ∨ 2 ^ 52 ≤ mantissa) :
    value (mantissa + scale * binade + 1) =
      ((mantissa + 1) * (den * 2 ^ scale) : Nat) / (den * one) := by
  rw [Nat.add_right_comm]
  exact value_add_mul positive bounded (normal.imp_right Nat.le_succ_of_le)

/-- Twice the middle of two neighbours. -/
theorem value_add_value_succ (positive : 0 < den) (bounded : mantissa < 2 ^ 53)
    (normal : scale = 0 ∨ 2 ^ 52 ≤ mantissa) :
    value (mantissa + scale * binade) + value (mantissa + scale * binade + 1) =
      ((2 * mantissa + 1) * (den * 2 ^ scale) : Nat) / (den * one) := by
  rw [value_add_mul positive bounded.le normal, value_add_mul_succ positive bounded normal,
    ← add_div, ← Nat.cast_add]
  congr 2
  ring

end Neighbours

theorem add_mul_binade_mod_two (mantissa scale : Nat) :
    (mantissa + scale * binade) % 2 = mantissa % 2 := by
  have binade_even : scale * binade = 2 * (scale * 2 ^ 51) := by
    rw [show binade = 2 * 2 ^ 51 from rfl]
    ring
  rw [binade_even, Nat.add_mul_mod_self_left]

theorem isNearest_nearest (num : Nat) {den : Nat} (positive : 0 < den) :
    IsNearest (num / (den * one)) (nearest num den) := by
  obtain ⟨scale, scale_eq⟩ : ∃ scale, Nat.log2 (num / den) - 52 = scale := ⟨_, rfl⟩
  have spacing_pos : 0 < den * 2 ^ scale := by positivity
  have unit_pos : (0 : ℚ) < den * one := mul_pos (Nat.cast_pos.mpr positive) one_pos
  obtain ⟨mantissa, lower, upper, picked⟩ := roundHalfEven_cases num spacing_pos
  have quotient_ge : mantissa * 2 ^ scale ≤ num / den := by
    rw [Nat.le_div_iff_mul_le positive]
    linarith only [lower]
  have quotient_lt : num / den < (mantissa + 1) * 2 ^ scale := by
    rw [Nat.div_lt_iff_lt_mul positive]
    linarith only [upper]
  obtain ⟨bounded, normal⟩ := mantissa_of_scale scale_eq quotient_ge quotient_lt
  -- The number, its two neighbours and their middle have one denominator.
  have middle_eq := value_add_value_succ positive bounded normal
  have double_eq : 2 * (num / (den * one) : ℚ) = (2 * num : Nat) / (den * one) := by
    rw [Nat.cast_mul, Nat.cast_ofNat, mul_div_assoc]
  have low_le : value (mantissa + scale * binade) ≤ num / (den * one) := by
    rw [value_add_mul positive bounded.le normal, div_le_div_iff_of_pos_right unit_pos]
    exact Nat.cast_le.mpr lower
  have le_high : num / (den * one) ≤ value (mantissa + scale * binade + 1) := by
    rw [value_add_mul_succ positive bounded normal, div_le_div_iff_of_pos_right unit_pos]
    exact Nat.cast_le.mpr upper.le
  have nearest_eq : nearest num den = roundHalfEven num (den * 2 ^ scale) + scale * binade := by
    simp only [nearest, scale_eq, Nat.shiftLeft_eq]
  rw [nearest_eq]
  rcases picked with ⟨rounded, near⟩ | ⟨rounded, near⟩
  · rw [rounded]
    refine isNearest_lower low_le le_high ?_
    rwa [double_eq, middle_eq, div_lt_div_iff_of_pos_right unit_pos, div_left_inj' unit_pos.ne',
      Nat.cast_lt, Nat.cast_inj, add_mul_binade_mod_two]
  · rw [rounded, Nat.add_right_comm]
    refine isNearest_upper low_le le_high ?_
    rwa [double_eq, middle_eq, div_lt_div_iff_of_pos_right unit_pos, div_left_inj' unit_pos.ne',
      Nat.cast_lt, Nat.cast_inj, Nat.add_right_comm, add_mul_binade_mod_two]

end Magnitude

/-! ## Decimals -/

namespace Decimal

open Magnitude

/-- The number that a decimal stands for. -/
def value (decimal : Decimal) : ℚ :=
  decimal.digits * 10 ^ decimal.exponent

/-- Computed in the same way at every exponent, the code of a decimal is nearest to it. -/
theorem isNearest_rounded (decimal : Decimal) : IsNearest decimal.value (rounded decimal) := by
  obtain ⟨digits, exponent⟩ := decimal
  have one_ne : (one : ℚ) ≠ 0 := one_pos.ne'
  rcases Int.lt_or_le exponent 0 with fraction | whole
  · obtain ⟨places, rfl⟩ : ∃ places : Nat, exponent = -(places : ℤ) :=
      ⟨(-exponent).toNat, by omega⟩
    have power_pos : 0 < 10 ^ places := by positivity
    have nearest := isNearest_nearest (digits * one) power_pos
    rw [Nat.cast_mul, mul_div_mul_right _ _ one_ne] at nearest
    rw [rounded, if_neg (Int.not_le.mpr fraction), value, zpow_neg, zpow_natCast, neg_neg,
      Int.toNat_natCast, ← div_eq_mul_inv]
    rwa [Nat.cast_pow, Nat.cast_ofNat] at nearest
  · obtain ⟨zeros, rfl⟩ := Int.eq_ofNat_of_zero_le whole
    have nearest := isNearest_nearest (digits * 10 ^ zeros * one) Nat.one_pos
    rw [Nat.cast_mul, Nat.cast_one, one_mul, mul_div_cancel_right₀ _ one_ne, Nat.cast_mul,
      Nat.cast_pow, Nat.cast_ofNat] at nearest
    rw [rounded, if_pos whole, value, zpow_natCast]
    exact nearest

/-- The shortcuts in computing a code change it only past the largest double. -/
theorem code_cases (decimal : Decimal) :
    decimal.code = rounded decimal ∨
      infinity ≤ decimal.code ∧ infinity ≤ rounded decimal := by
  by_cases zero : decimal.digits = 0
  · left
    obtain ⟨digits, exponent⟩ := decimal
    obtain rfl : digits = 0 := zero
    have nothing (den : Nat) (positive : 0 < den) : nearest 0 den = 0 :=
      nearest_eq_zero (Nat.zero_le _) positive
    simp [code, rounded, nothing]
  · rcases Int.lt_or_le 309 decimal.exponent with large | bounded
    · right
      have code_eq : decimal.code = infinity := by rw [code, if_neg zero, if_pos large]
      exact ⟨code_eq.ge, infinity_le_rounded zero large⟩
    · exact .inl (code_of_le zero bounded)

/-- A finite code is the one nearest to a decimal when it is the decimal's. -/
theorem isNearest_iff {decimal : Decimal} {code : Nat} (finite : code < infinity) :
    IsNearest decimal.value code ↔ decimal.code = code := by
  have nearest := isNearest_rounded decimal
  constructor
  · intro code_nearest
    have rounded_eq : rounded decimal = code := nearest.unique code_nearest
    rcases code_cases decimal with code_eq | ⟨-, large⟩
    · rw [code_eq, rounded_eq]
    · rw [rounded_eq] at large
      exact absurd finite (Nat.not_lt.mpr large)
  · rintro rfl
    rcases code_cases decimal with code_eq | ⟨large, -⟩
    · rwa [code_eq]
    · exact absurd finite (Nat.not_lt.mpr large)

theorem infinity_le_code_iff {decimal : Decimal} :
    infinity ≤ decimal.code ↔ ∃ code, infinity ≤ code ∧ IsNearest decimal.value code := by
  have nearest := isNearest_rounded decimal
  constructor
  · intro large
    rcases code_cases decimal with code_eq | ⟨-, rounded_large⟩
    · exact ⟨_, code_eq ▸ large, nearest⟩
    · exact ⟨_, rounded_large, nearest⟩
  · rintro ⟨code, large, code_nearest⟩
    rw [code_nearest.unique nearest] at large
    rcases code_cases decimal with code_eq | ⟨code_large, -⟩
    · rwa [code_eq]
    · exact code_large

end Decimal

/-! ## Doubles -/

namespace Double

/-- The finite double of a sign whose magnitude is nearest to a number. -/
structure IsNearest (negative : Bool) (magnitude : ℚ) (value : Float) : Prop where
  finite : value.isFinite = true
  sign : (Binary64.ofFloat value).negative = negative
  nearest : Magnitude.IsNearest magnitude (Binary64.ofFloat value).code

theorem isNearest_iff_toFloat {negative : Bool} {decimal : Decimal} {value : Float} :
    IsNearest negative decimal.value value ↔
      decimal.code < Magnitude.infinity ∧ decimal.toFloat negative = value := by
  constructor
  · rintro ⟨finite, sign, nearest⟩
    have bounded : (Binary64.ofFloat value).code < Magnitude.infinity := by
      rw [← Binary64.isFinite_ofFloat] at finite
      exact of_decide_eq_true finite
    have code_eq := (Decimal.isNearest_iff bounded).mp nearest
    refine ⟨by rwa [code_eq], ?_⟩
    rw [Decimal.toFloat, code_eq, ← sign]
    exact Binary64.toFloat_ofFloat finite
  · rintro ⟨bounded, rfl⟩
    have parts : Binary64.ofFloat (decimal.toFloat negative) = ⟨negative, decimal.code⟩ :=
      Binary64.ofFloat_toFloat bounded.le
    refine ⟨Binary64.isFinite_toFloat bounded, by rw [parts], ?_⟩
    rw [parts]
    exact (Decimal.isNearest_iff bounded).mpr rfl

end Double

end FlowCalibration
