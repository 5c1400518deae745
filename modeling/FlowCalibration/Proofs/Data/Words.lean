import Mathlib.Algebra.Group.Nat.Defs
import Mathlib.Data.Nat.Basic

/-!
# Arithmetic of words

Counts are words of 64 bits.  Each operation gives its result, or says why it has none.
-/

namespace FlowCalibration

/-- Why an operation on words has no result. -/
inductive WordFault
  /-- The result does not fit a word. -/
  | overflow
  /-- The result is negative. -/
  | underflow
  /-- The divisor is zero. -/
  | divisionByZero
  deriving DecidableEq

namespace Word

/-- Number of words. -/
def size : Nat := 2 ^ 64

/-- Sum of two words. -/
def add (a b : Nat) : Except WordFault Nat :=
  if a + b < size then .ok (a + b) else .error .overflow

/-- Difference of two words. -/
def sub (a b : Nat) : Except WordFault Nat :=
  if b ≤ a then .ok (a - b) else .error .underflow

/-- Product of two words. -/
def mul (a b : Nat) : Except WordFault Nat :=
  if a * b < size then .ok (a * b) else .error .overflow

/-- Product of two words, or the largest word where that does not fit. -/
def mulSaturating (a b : Nat) : Nat :=
  min (a * b) (size - 1)

/-- Quotient of two words. -/
def div (a b : Nat) : Except WordFault Nat :=
  if b = 0 then .error .divisionByZero else .ok (a / b)

/-- Remainder of two words. -/
def mod (a b : Nat) : Except WordFault Nat :=
  if b = 0 then .error .divisionByZero else .ok (a % b)

/-- Quotient of two words, rounded up. -/
def divCeil (a b : Nat) : Except WordFault Nat := do
  let quotient ← div a b
  let remainder ← mod a b
  if 0 < remainder then add quotient 1 else pure quotient

variable {a b : Nat}

theorem add_eq_ok (fits : a + b < size) : add a b = .ok (a + b) :=
  if_pos fits

theorem sub_eq_ok (ordered : b ≤ a) : sub a b = .ok (a - b) :=
  if_pos ordered

theorem mul_eq_ok (fits : a * b < size) : mul a b = .ok (a * b) :=
  if_pos fits

theorem div_eq_ok (positive : 0 < b) : div a b = .ok (a / b) :=
  if_neg (Nat.ne_of_gt positive)

theorem mod_eq_ok (positive : 0 < b) : mod a b = .ok (a % b) :=
  if_neg (Nat.ne_of_gt positive)

/-- A product may saturate where what is above a smaller word does not count. -/
theorem min_mulSaturating {bound : Nat} (below : bound < size) :
    min (mulSaturating a b) bound = min (a * b) bound := by
  rw [mulSaturating]
  omega

theorem divCeil_eq_ok (positive : 0 < b) (fits : a + 1 < size) :
    divCeil a b = .ok ((a + b - 1) / b) := by
  have quotient_le : a / b ≤ a := Nat.div_le_self a b
  have pieces : b * (a / b) + a % b = a := Nat.div_add_mod a b
  have small : a % b < b := Nat.mod_lt a positive
  have run : divCeil a b = if 0 < a % b then add (a / b) 1 else pure (a / b) := by
    rw [divCeil, div_eq_ok positive, mod_eq_ok positive]
    rfl
  rw [run]
  split
  next rest =>
    have left_over : (a % b - 1) / b = 0 := Nat.div_eq_of_lt (by omega)
    have split : a + b - 1 = b * (a / b + 1) + (a % b - 1) := by
      rw [Nat.mul_succ]
      omega
    rw [add_eq_ok (by omega), split, Nat.mul_add_div positive, left_over, Nat.add_zero]
  next whole =>
    have left_over : (b - 1) / b = 0 := Nat.div_eq_of_lt (by omega)
    have split : a + b - 1 = b * (a / b) + (b - 1) := by omega
    rw [split, Nat.mul_add_div positive, left_over, Nat.add_zero]
    rfl

end Word

end FlowCalibration
