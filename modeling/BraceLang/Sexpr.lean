/-!
Symbolic expressions: atoms, lists in parentheses and vectors in brackets, with one blank
between neighbours.
-/
namespace BraceLang

/-- A symbolic expression. -/
inductive Sexpr where
  | atom (text : String)
  | list (items : List Sexpr)
  | vector (items : List Sexpr)

namespace Sexpr

mutual

/-- The text of a symbolic expression. -/
def render : Sexpr → String
  | .atom text => text
  | .list items => "(" ++ String.intercalate " " (renderAll items) ++ ")"
  | .vector items => "[" ++ String.intercalate " " (renderAll items) ++ "]"

/-- The texts of the items of a list. -/
def renderAll : List Sexpr → List String
  | [] => []
  | item :: items => item.render :: renderAll items

end

/-- A list that starts with a word. -/
def form (head : String) (items : List Sexpr) : Sexpr :=
  .list (.atom head :: items)

end Sexpr

end BraceLang
