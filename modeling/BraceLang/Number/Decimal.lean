import BraceLang.Number.Binary64

/-!
Decimals, and their way to and from double-precision numbers. A decimal is a whole number times
a power of ten; as a double it is rounded to nearest, to an infinity if it is too large. In the
other direction a number has a shortest decimal: among the decimals that read back as the
number, the one with the fewest digits, and of those the nearest.
-/
namespace BraceLang

/-- The number `significand * 10 ^ exponent`. -/
structure Decimal where
  significand : Nat
  exponent : Int
  deriving DecidableEq, Repr

/-- Which of two neighbouring decimals stands for a number exactly half way between them. -/
inductive Halfway where
  | upper
  | even
  deriving DecidableEq, Repr

namespace Decimal

/-- The digits of the significand. -/
def digits (d : Decimal) : List Char :=
  Nat.toDigits 10 d.significand

/-- How many places the digits reach left of the decimal point, or, when negative, how many
zeros stand between the point and the digits. -/
def pointPosition (d : Decimal) : Int :=
  d.digits.length + d.exponent

/-- The double nearest to a decimal. A decimal whose first digit stands more than 310 places
before or 330 places after the point is too large or too small for its digits to matter. -/
def toBinary64 (negative : Bool) (d : Decimal) : Binary64 :=
  if d.significand = 0 then .zero negative
  else if 310 < d.pointPosition then .infinity negative
  else if d.pointPosition < -330 then .zero negative
  else
    match d.exponent with
    | .ofNat places => .ofQuotient negative (d.significand * Nat.pow 10 places) 1
    | .negSucc places => .ofQuotient negative d.significand (Nat.pow 10 (places + 1))

/-- A decimal without the zeros at the end of its significand. The bound `fuel` is a number of
zeros to take off at most. -/
def trimWithin : Nat → Decimal → Decimal
  | 0, d => d
  | fuel + 1, d =>
    if d.significand ≠ 0 ∧ d.significand % 10 = 0 then
      trimWithin fuel ⟨d.significand / 10, d.exponent + 1⟩
    else d

/-- A decimal without the zeros at the end of its significand. -/
def trim (d : Decimal) : Decimal :=
  trimWithin d.digits.length d

/-- Holds of a decimal that reads back as the number `x`. -/
def readsAs (x : Binary64) (d : Decimal) : Bool :=
  d.toBinary64 false == x

/-- The two decimals with `places` digits after position `10 ^ -340` that enclose the positive
number `numerator / denominator`, the nearer one first. -/
def enclosing (tie : Halfway) (numerator denominator places : Nat) : List Decimal :=
  let step := Nat.pow 10 places
  let scaled := numerator * Nat.pow 10 340
  let below := scaled / denominator / step
  let lower : Decimal := ⟨below, places - 340⟩
  let upper : Decimal := ⟨below + 1, places - 340⟩
  let middle := (2 * below + 1) * step * denominator
  let upperFirst := middle < 2 * scaled ∨
    (middle = 2 * scaled ∧ (tie = .upper ∨ below % 2 = 1))
  if upperFirst then [upper, lower] else [lower, upper]

/-- The shortest decimal for the positive number with the given parts. Decimals of one digit,
two digits and so on up to seventeen are tried in turn; the exact decimal stands behind them. -/
def shortest (tie : Halfway) (significand exponent : Nat) : Decimal :=
  let numerator := significand * Nat.pow 2 exponent
  let denominator := Nat.pow 2 1074
  let x := Binary64.ofParts false significand exponent
  let width := (Nat.toDigits 10 (numerator * Nat.pow 10 340 / denominator)).length
  let candidates := (List.range 17).flatMap fun count =>
    (enclosing tie numerator denominator (width - (count + 1))).map trim
  (candidates.find? (readsAs x)).getD ⟨numerator * Nat.pow 5 1074, -1074⟩

end Decimal

end BraceLang
