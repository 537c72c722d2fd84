/-!
Double-precision numbers as exact values. A finite number is a significand below 2^53 times a
power of two, measured in units of 2^-1074, the smallest distance between two numbers. Every
quotient is rounded to the nearest of them, halves to the even significand, and past the largest
one to infinity. The form of a finite number is canonical, so that two numbers are the same
exactly when their parts are.
-/
namespace BraceLang

/-- Holds of the parts of a finite number: the significand is below 2^53, the exponent in range,
and only numbers of the lowest exponent have a significand below 2^52. -/
def IsCanonical (significand exponent : Nat) : Prop :=
  significand < Nat.pow 2 53 ∧ exponent ≤ 2045 ∧ (Nat.pow 2 52 ≤ significand ∨ exponent = 0)

instance (significand exponent : Nat) : Decidable (IsCanonical significand exponent) :=
  inferInstanceAs (Decidable (_ ∧ _))

/-- A double-precision number. A finite one has the magnitude
`significand * 2 ^ exponent / 2 ^ 1074`. -/
inductive Binary64 where
  | nan
  | infinity (negative : Bool)
  | finite (negative : Bool) (significand exponent : Nat)
      (canonical : IsCanonical significand exponent)
  deriving DecidableEq

namespace Binary64

/-- The zero of either sign. -/
def zero (negative : Bool) : Binary64 :=
  .finite negative 0 0 (by decide)

/-- The number of the given parts. Parts that are too large for a finite number make an
infinity. -/
def ofParts (negative : Bool) (significand exponent : Nat) : Binary64 :=
  if canonical : IsCanonical significand exponent then
    .finite negative significand exponent canonical
  else .infinity negative

/-- Neither a NaN nor an infinity. -/
def isFinite : Binary64 → Bool
  | .finite .. => true
  | _ => false

/-- Numerical equality: a NaN equals nothing, and the zeros of both signs are equal. -/
def equals : Binary64 → Binary64 → Bool
  | .infinity first, .infinity second => first == second
  | .finite firstSign first firstExponent _, .finite secondSign second secondExponent _ =>
    first == second && firstExponent == secondExponent
      && (firstSign == secondSign || first == 0)
  | _, _ => false

/-- A quotient rounded to the nearest whole number, a half to the even one. -/
def roundHalfEven (numerator denominator : Nat) : Nat :=
  let whole := numerator / denominator
  let twice := 2 * (numerator % denominator)
  if denominator < twice ∨ (denominator = twice ∧ whole % 2 = 1) then whole + 1 else whole

/-- The number nearest to a quotient. -/
def ofQuotient (negative : Bool) (numerator denominator : Nat) : Binary64 :=
  let units := numerator * Nat.pow 2 1074
  let exponent := Nat.log2 (units / denominator) - 52
  let significand := roundHalfEven units (denominator * Nat.pow 2 exponent)
  if significand = Nat.pow 2 53 then ofParts negative (Nat.pow 2 52) (exponent + 1)
  else ofParts negative significand exponent

example : ofQuotient false 1 1 = ofParts false (2 ^ 52) 1022 := by decide +kernel

example : ofQuotient true 9007199254740993 1 = ofParts true (2 ^ 52) 1075 := by decide +kernel

example : ofQuotient false 1 (2 ^ 1075) = zero false := by decide +kernel

example : ofQuotient false (2 ^ 1024) 1 = .infinity false := by decide +kernel

end Binary64

end BraceLang
