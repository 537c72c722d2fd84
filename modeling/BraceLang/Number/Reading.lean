import BraceLang.Number.Decimal

/-!
Reading numbers. A text is a number as a whole or not at all: no blanks, no separators between
digits, and at most one sign in front. Whole numbers are those of 64 bits with a sign; doubles
are written with a point, an exponent, both or neither, or by name.
-/
namespace BraceLang.Number

/-- The value of a run of decimal digits. -/
def ofDigits (digits : List Char) : Nat :=
  Nat.ofDigitChars 10 digits 0

/-- A sign, if the text starts with one, and what follows: the sign is `true` for a minus. -/
def splitSign : List Char → Bool × List Char
  | '-' :: text => (true, text)
  | '+' :: text => (false, text)
  | text => (false, text)

/-- The whole number that a text stands for, if it is one that fits 64 bits. -/
def readInt64? (text : List Char) : Option Int :=
  let (negative, digits) := splitSign text
  if digits.isEmpty || !digits.all Char.isDigit then none
  else
    let magnitude := ofDigits digits
    if negative then if magnitude ≤ Nat.pow 2 63 then some (-magnitude) else none
    else if magnitude < Nat.pow 2 63 then some magnitude else none

/-- The exponent that the rest of a number stands for: zero if nothing is left, otherwise a
letter for it, a sign if there is one, and digits. -/
def readExponent? : List Char → Option Int
  | [] => some 0
  | letter :: text =>
    if letter == 'e' || letter == 'E' then
      let (negative, digits) := splitSign text
      if digits.isEmpty || !digits.all Char.isDigit then none
      else some (if negative then -ofDigits digits else ofDigits digits)
    else none

/-- The decimal that a text without a sign stands for. It has a digit before its exponent, on
either side of a point or without one. -/
def readDecimal? (text : List Char) : Option Decimal :=
  let whole := text.takeWhile Char.isDigit
  let (fraction, rest) :=
    match text.dropWhile Char.isDigit with
    | '.' :: rest => (rest.takeWhile Char.isDigit, rest.dropWhile Char.isDigit)
    | rest => ([], rest)
  if whole.isEmpty && fraction.isEmpty then none
  else (readExponent? rest).map fun exponent =>
    ⟨ofDigits (whole ++ fraction), exponent - fraction.length⟩

/-- The number that a text without a sign names, in letters of either case. -/
def readNamed? (negative : Bool) (text : List Char) : Option Binary64 :=
  let name := String.ofList (text.map Char.toLower)
  if name == "nan" then some .nan
  else if name == "inf" || name == "infinity" then some (.infinity negative)
  else none

/-- The double nearest to the number that a text stands for. -/
def readBinary64? (text : List Char) : Option Binary64 :=
  let (negative, magnitude) := splitSign text
  match readDecimal? magnitude with
  | some decimal => some (decimal.toBinary64 negative)
  | none => readNamed? negative magnitude

example : readInt64? ['-', '0'] = some 0 := by decide

example : readInt64? ['+'] = none := by decide

example : readDecimal? ['.', '5', 'e', '-', '1'] = some ⟨5, -2⟩ := by decide

example : readDecimal? ['.', 'e', '1'] = none := by decide

end BraceLang.Number
