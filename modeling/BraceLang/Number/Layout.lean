import BraceLang.Number.Decimal

/-!
How numbers are written out. A double is shown by its shortest decimal: with a point and at
least one digit on either side of it where the point is near the digits, otherwise with one
digit before the point and an exponent. A layout says which of the two is used where.
-/
namespace BraceLang

/-- The choices that a format makes in showing a decimal. -/
structure DecimalLayout where
  /-- The digits are written around a point from this point position on, ... -/
  firstPoint : Int
  /-- ... up to this one, and with an exponent outside. -/
  lastPoint : Int
  /-- Whether an exponent that is not negative has a sign. -/
  signedExponent : Bool
  /-- Which of two shortest decimals stands for a number half way between them. -/
  halfway : Halfway

namespace DecimalLayout

/-- Digits around a point that stands after `point` of them. -/
def positional (digits : List Char) (point : Int) : List Char :=
  if point ≤ 0 then ['0', '.'] ++ List.replicate (-point).toNat '0' ++ digits
  else if point < digits.length then
    digits.take point.toNat ++ ['.'] ++ digits.drop point.toNat
  else digits ++ List.replicate (point.toNat - digits.length) '0' ++ ['.', '0']

/-- Digits with a point after the first of them and an exponent. A single digit has no point. -/
def scientific (layout : DecimalLayout) (digits : List Char) (point : Int) : List Char :=
  let fraction := if digits.length ≤ 1 then [] else '.' :: digits.drop 1
  let exponent := point - 1
  let sign := if exponent < 0 then ['-'] else if layout.signedExponent then ['+'] else []
  digits.take 1 ++ fraction ++ ['e'] ++ sign ++ Nat.toDigits 10 exponent.natAbs

/-- A decimal in the form that the layout prescribes for its point position. -/
def decimal (layout : DecimalLayout) (d : Decimal) : List Char :=
  let point := d.pointPosition
  if layout.firstPoint ≤ point ∧ point ≤ layout.lastPoint then positional d.digits point
  else layout.scientific d.digits point

/-- A finite number from its parts. Zero is written around a point in every layout. -/
def finite (layout : DecimalLayout) (negative : Bool) (significand exponent : Nat) : List Char :=
  let sign := if negative then ['-'] else []
  if significand = 0 then sign ++ ['0', '.', '0']
  else sign ++ layout.decimal (.shortest layout.halfway significand exponent)

end DecimalLayout

end BraceLang
