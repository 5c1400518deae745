import FlowCalibration.Decimal.Binary64

/-!
# Decimals and the shortest decimal of a double

A decimal is a whole number of powers of ten.  `Decimal.code` is the magnitude code nearest to it,
so a decimal *reads back* as a double when its code is the double's.  `Decimal.shortest` takes the
first count of digits, up to 17, at which one of the two neighbours of the value on the grid of
that many digits reads back, and of two such neighbours the nearer.
-/

namespace FlowCalibration

/-- An unsigned decimal `digits · 10 ^ exponent`. -/
structure Decimal where
  /-- The digits as a natural number. -/
  digits : Nat
  /-- The power of ten of the last digit. -/
  exponent : Int
  deriving DecidableEq, Repr

/-- Which of two equally near decimals is chosen. -/
inductive Tie
  /-- The larger one. -/
  | larger
  /-- The one whose last digit is even. -/
  | even
  deriving DecidableEq, Repr

namespace Decimal

/-- Magnitude code nearest to a decimal.  Exponents at which the result can only be zero or
infinity are not computed with. -/
def code (decimal : Decimal) : Nat :=
  if decimal.digits = 0 then 0
  else if 309 < decimal.exponent then Magnitude.infinity
  else if decimal.exponent + (Nat.log2 decimal.digits + 1) < -324 then 0
  else if 0 ≤ decimal.exponent then
    Magnitude.nearest (decimal.digits * Nat.pow 10 decimal.exponent.toNat * Magnitude.one) 1
  else Magnitude.nearest (decimal.digits * Magnitude.one) (Nat.pow 10 (-decimal.exponent).toNat)

/-- The double nearest to a signed decimal. -/
def toFloat (negative : Bool) (decimal : Decimal) : Float :=
  Binary64.toFloat ⟨negative, decimal.code⟩

/-- The same value without trailing zeros among the digits. -/
def strip (decimal : Decimal) : Decimal :=
  go decimal.digits decimal.exponent
where
  /-- Move one trailing zero of the digits into the exponent, as often as there is one. -/
  go (digits : Nat) (exponent : Int) : Decimal :=
    if digits ≠ 0 ∧ digits % 10 = 0 then go (digits / 10) (exponent + 1)
    else ⟨digits, exponent⟩
  termination_by digits

/-- Number of digits before the decimal point of `units / 2 ^ 1074`; zero or less when the value
is below one tenth. -/
def pointOf (units : Nat) : Int :=
  let estimate := (((Nat.log2 units : Int) - 1074) * 30103) / 100000
  let reached :=
    if estimate < -1 then Magnitude.one ≤ units * Nat.pow 10 (-(estimate + 1)).toNat
    else Magnitude.one * Nat.pow 10 (estimate + 1).toNat ≤ units
  if reached then estimate + 2 else estimate + 1

/-- Numerator and denominator of `units / 2 ^ 1074 / 10 ^ exponent`. -/
def scaled (units : Nat) (exponent : Int) : Nat × Nat :=
  if exponent < 0 then (units * Nat.pow 10 (-exponent).toNat, Magnitude.one)
  else (units, Magnitude.one * Nat.pow 10 exponent.toNat)

/-- The two neighbours of a value on a decimal grid, the nearer one first. -/
def neighbours (tie : Tie) (units : Nat) (exponent : Int) : List Decimal :=
  let (num, den) := scaled units exponent
  let below := num / den
  let rest := 2 * (num % den)
  let belowWins := rest < den || (rest == den && tie == .even && below % 2 == 0)
  if belowWins then [⟨below, exponent⟩, ⟨below + 1, exponent⟩]
  else [⟨below + 1, exponent⟩, ⟨below, exponent⟩]

/-- The exact decimal expansion of a magnitude code. -/
def exact (code : Nat) : Decimal :=
  ⟨Magnitude.units code * Nat.pow 5 1074, -1074⟩

/-- The decimal of fewest digits that reads back as a magnitude code. -/
def shortest (tie : Tie) (code : Nat) : Decimal :=
  let units := Magnitude.units code
  let point := pointOf units
  let readsBack := (List.range 17).findSome? fun (count : Nat) =>
    (neighbours tie units (point - (count + 1))).find? (·.code == code)
  (readsBack.getD (exact code)).strip

end Decimal

end FlowCalibration
