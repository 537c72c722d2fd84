import BraceLang.Text.Printable

/-!
Quoted text: a text between two quotation marks, on one line, from which the text can be read
off again. The mark itself and the backslash are written after a backslash, four control
characters have a letter or digit of their own, and every other character that does not stand
for itself is written by its number.
-/
namespace BraceLang.Text

/-- The number of a character between braces, in lower-case hexadecimal without padding. -/
def escapeByNumber (c : Char) : List Char :=
  ['\\', 'u', '{'] ++ Nat.toDigits 16 c.toNat ++ ['}']

/-- How one character is written between two marks `mark`. -/
def escape (mark c : Char) : List Char :=
  if c = '\x00' then ['\\', '0']
  else if c = '\t' then ['\\', 't']
  else if c = '\r' then ['\\', 'r']
  else if c = '\n' then ['\\', 'n']
  else if c = '\\' ∨ c = mark then ['\\', c]
  else if isPrintable c then [c]
  else escapeByNumber c

/-- A text between two marks `mark`. -/
def quote (mark : Char) (text : List Char) : List Char :=
  mark :: text.flatMap (escape mark) ++ [mark]

/-- A string between double quotation marks. -/
def quoteString (text : String) : String :=
  String.ofList (quote '"' text.toList)

/-- A character between single quotation marks. -/
def quoteChar (c : Char) : String :=
  String.ofList (quote '\'' [c])

example : quoteString "it's \"\\\"\n" = "\"it's \\\"\\\\\\\"\\n\"" := by decide +kernel

example : quoteChar '"' = "'\"'" := by decide +kernel

example : quoteChar '\'' = "'\\''" := by decide +kernel

example : escapeByNumber '\u200b' = ['\\', 'u', '{', '2', '0', '0', 'b', '}'] := by
  decide +kernel

end BraceLang.Text
