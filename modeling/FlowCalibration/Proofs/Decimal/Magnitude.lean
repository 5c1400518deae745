import FlowCalibration.Decimal.Binary64
import Mathlib.Tactic.Positivity

/-!
# Rounding to the grid of doubles

`Magnitude.nearest` is invariant under scaling both of its arguments, it gives every code back from
the value the code stands for, and it is zero below half of the smallest double and infinite from
the first power of two past the largest one.
-/

namespace FlowCalibration

theorem roundHalfEven_mul_left (factor num den : Nat) (positive : 0 < factor) :
    roundHalfEven (factor * num) (factor * den) = roundHalfEven num den := by
  have rest : 2 * (factor * num % (factor * den)) = factor * (2 * (num % den)) := by
    rw [Nat.mul_mod_mul_left, Nat.mul_left_comm]
  simp only [roundHalfEven, Nat.mul_div_mul_left _ _ positive, rest,
    Nat.mul_lt_mul_left positive]

theorem roundHalfEven_mul_self (value den : Nat) (positive : 0 < den) :
    roundHalfEven (value * den) den = value := by
  simp [roundHalfEven, Nat.mul_div_cancel _ positive, positive]

theorem div_le_roundHalfEven (num den : Nat) : num / den ≤ roundHalfEven num den := by
  simp only [roundHalfEven]
  split
  · exact Nat.le_refl _
  · split <;> omega

theorem roundHalfEven_eq_zero {num den : Nat} (small : 2 * num ≤ den) (positive : 0 < den) :
    roundHalfEven num den = 0 := by
  have quotient : num / den = 0 := Nat.div_eq_of_lt (by omega)
  have rest : num % den = num := Nat.mod_eq_of_lt (by omega)
  simp only [roundHalfEven, quotient, rest]
  split
  · rfl
  · rw [if_neg (by omega)]

theorem log2_le_of_lt {value bits : Nat} (below : value < 2 ^ (bits + 1)) : value.log2 ≤ bits := by
  by_cases zero : value = 0
  · simp [zero]
  · exact Nat.le_of_lt_succ ((Nat.log2_lt zero).mpr below)

theorem log2_mul_two_pow {value : Nat} (nonzero : value ≠ 0) (shift : Nat) :
    (value * 2 ^ shift).log2 = value.log2 + shift := by
  have power_pos : 0 < 2 ^ shift := by positivity
  rw [Nat.log2_eq_iff (Nat.mul_ne_zero nonzero power_pos.ne'), Nat.pow_add, Nat.add_right_comm,
    Nat.pow_add]
  exact ⟨Nat.mul_le_mul_right _ (Nat.log2_self_le nonzero),
    Nat.mul_lt_mul_of_pos_right Nat.lt_log2_self power_pos⟩

namespace Magnitude

theorem nearest_mul_left (factor num den : Nat) (positive : 0 < factor) :
    nearest (factor * num) (factor * den) = nearest num den := by
  simp only [nearest, Nat.mul_div_mul_left _ _ positive, Nat.shiftLeft_eq, Nat.mul_assoc,
    roundHalfEven_mul_left _ _ _ positive]

/-- A quotient that is a whole number of units of some binade is its own code. -/
theorem nearest_shift (mantissa scale den : Nat) (positive : 0 < den)
    (below : mantissa < 2 ^ 53) (normal : scale = 0 ∨ 2 ^ 52 ≤ mantissa) :
    nearest (mantissa * 2 ^ scale * den) den = mantissa + scale * binade := by
  have scale_eq : Nat.log2 (mantissa * 2 ^ scale) - 52 = scale := by
    rcases normal with rfl | lower
    · have : Nat.log2 (mantissa * 2 ^ 0) < 53 := by
        by_cases zero : mantissa = 0
        · simp [zero]
        · exact (Nat.log2_lt (by simpa using zero)).mpr (by simpa using below)
      omega
    · have mantissa_ne : mantissa ≠ 0 := by omega
      have mantissa_log : mantissa.log2 = 52 := (Nat.log2_eq_iff mantissa_ne).mpr ⟨lower, below⟩
      rw [log2_mul_two_pow mantissa_ne, mantissa_log, Nat.add_sub_cancel_left]
  simp only [nearest, Nat.mul_div_cancel _ positive, scale_eq, Nat.shiftLeft_eq]
  rw [Nat.mul_assoc, Nat.mul_comm (2 ^ scale) den]
  rw [roundHalfEven_mul_self _ _ (by positivity)]

theorem units_eq (code : Nat) :
    units code = (code - step code * binade) * 2 ^ step code := by
  rw [units, Nat.shiftLeft_eq]

theorem step_mul_binade_le (code : Nat) : step code * binade ≤ code := by
  calc
    step code * binade ≤ code / binade * binade := Nat.mul_le_mul_right _ (Nat.sub_le _ _)
    _ ≤ code := Nat.div_mul_le_self _ _

/-- What is left of a code below its binade, and the implicit bit where it has one. -/
theorem mantissa_bounds (code : Nat) :
    code - step code * binade < 2 ^ 53 ∧
      (step code = 0 ∨ 2 ^ 52 ≤ code - step code * binade) := by
  have pieces : code / binade * binade + code % binade = code := Nat.div_add_mod' _ _
  have rest_lt : code % binade < binade := Nat.mod_lt _ (by decide)
  have binade_eq : binade = 2 ^ 52 := rfl
  by_cases small : code / binade ≤ 1
  · have step_eq : step code = 0 := by simp only [step]; omega
    have whole : code / binade * binade ≤ 1 * binade := Nat.mul_le_mul_right _ small
    rw [step_eq]
    omega
  · obtain ⟨scale, exponent⟩ : ∃ scale, code / binade = scale + 1 :=
      ⟨code / binade - 1, by omega⟩
    have step_eq : step code = scale := by simp [step, exponent]
    rw [exponent, Nat.succ_mul] at pieces
    rw [step_eq]
    omega

theorem nearest_units (code den : Nat) (positive : 0 < den) :
    nearest (units code * den) den = code := by
  obtain ⟨below, normal⟩ := mantissa_bounds code
  rw [units_eq, nearest_shift _ _ _ positive below normal]
  exact Nat.sub_add_cancel (step_mul_binade_le code)

theorem nearest_eq_zero {num den : Nat} (small : 2 * num ≤ den) (positive : 0 < den) :
    nearest num den = 0 := by
  have quotient : num / den = 0 := Nat.div_eq_of_lt (by omega)
  have scale : Nat.log2 (num / den) - 52 = 0 := by simp [quotient]
  simp only [nearest, scale, Nat.shiftLeft_zero, Nat.zero_mul, Nat.add_zero,
    roundHalfEven_eq_zero small positive]

theorem units_pos {code : Nat} (positive : 0 < code) : 0 < units code := by
  by_contra zero
  have units_eq : units code = 0 := by omega
  have code_eq := nearest_units code 1 Nat.one_pos
  rw [units_eq, Nat.zero_mul, nearest_eq_zero (Nat.zero_le _) Nat.one_pos] at code_eq
  omega

theorem one_eq : one = 2 ^ 1074 :=
  Nat.one_shiftLeft 1074

/-- From a power of two on codes lie past its binade. -/
theorem mul_binade_le_nearest {value exponent : Nat} (large : 2 ^ exponent ≤ value)
    (bound : 52 ≤ exponent) : (exponent - 51) * binade ≤ nearest value 1 := by
  have value_ne : value ≠ 0 := by
    have : 0 < 2 ^ exponent := by positivity
    omega
  have log_le : exponent ≤ Nat.log2 value := (Nat.le_log2 value_ne).mpr large
  obtain ⟨scale, log_eq⟩ : ∃ scale, Nat.log2 value = 52 + scale :=
    ⟨Nat.log2 value - 52, by omega⟩
  have scale_eq : Nat.log2 value - 52 = scale := by omega
  have lower : 2 ^ 52 ≤ value / 2 ^ scale := by
    rw [Nat.le_div_iff_mul_le (by positivity), ← Nat.pow_add, ← log_eq]
    exact Nat.log2_self_le value_ne
  have rounded : 2 ^ 52 ≤ roundHalfEven value (2 ^ scale) :=
    Nat.le_trans lower (div_le_roundHalfEven _ _)
  simp only [nearest, Nat.div_one, scale_eq, Nat.shiftLeft_eq, Nat.one_mul]
  have binade_eq : binade = 2 ^ 52 := rfl
  calc
    (exponent - 51) * binade ≤ (scale + 1) * binade := Nat.mul_le_mul_right _ (by omega)
    _ = binade + scale * binade := by rw [Nat.succ_mul, Nat.add_comm]
    _ ≤ roundHalfEven value (2 ^ scale) + scale * binade := by omega

/-- From the first power of two past the largest double on there is no finite code. -/
theorem infinity_le_nearest {value exponent : Nat} (large : 2 ^ exponent ≤ value)
    (bound : 2098 ≤ exponent) : infinity ≤ nearest value 1 := by
  calc
    infinity = 2047 * binade := rfl
    _ ≤ (exponent - 51) * binade := Nat.mul_le_mul_right _ (by omega)
    _ ≤ nearest value 1 := mul_binade_le_nearest large (by omega)

end Magnitude

end FlowCalibration
