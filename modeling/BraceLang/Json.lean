/-!
JSON values and their text on one line, with a blank after every comma and colon. Numbers are
kept as they are written. In strings only quotation marks, backslashes and the control
characters below U+0020 are escaped.
-/
namespace BraceLang

/-- A JSON value. The members of an object keep their order. -/
inductive Json where
  | null
  | bool (value : Bool)
  | number (text : String)
  | string (value : String)
  | array (items : List Json)
  | object (members : List (String × Json))

namespace Json

/-- A code below sixteen as a hexadecimal digit in lower case. -/
def hexDigit (code : Nat) : Char :=
  Nat.digitChar code

/-- How one character is written inside a string. -/
def escape (c : Char) : List Char :=
  if c = '"' ∨ c = '\\' then ['\\', c]
  else if c = '\x08' then ['\\', 'b']
  else if c = '\x0c' then ['\\', 'f']
  else if c = '\n' then ['\\', 'n']
  else if c = '\r' then ['\\', 'r']
  else if c = '\t' then ['\\', 't']
  else if c.toNat < 0x20 then
    ['\\', 'u', '0', '0', hexDigit (c.toNat / 16), hexDigit (c.toNat % 16)]
  else [c]

/-- A string between quotation marks. -/
def quote (text : String) : String :=
  String.ofList ('"' :: text.toList.flatMap escape ++ ['"'])

mutual

/-- The text of a value. -/
def render : Json → String
  | .null => "null"
  | .bool value => if value then "true" else "false"
  | .number text => text
  | .string value => quote value
  | .array items => "[" ++ String.intercalate ", " (renderAll items) ++ "]"
  | .object members => "\x7b" ++ String.intercalate ", " (renderMembers members) ++ "\x7d"

/-- The texts of the items of an array. -/
def renderAll : List Json → List String
  | [] => []
  | item :: items => item.render :: renderAll items

/-- The texts of the members of an object. -/
def renderMembers : List (String × Json) → List String
  | [] => []
  | (key, value) :: members => (quote key ++ ": " ++ value.render) :: renderMembers members

end

end Json

end BraceLang
