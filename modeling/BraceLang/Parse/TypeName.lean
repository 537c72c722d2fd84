import BraceLang.Parse.Rule
import BraceLang.Tree.Basic

/-!
Type annotations: a name and any number of bracket pairs.
-/
namespace BraceLang.Parse

open Rule

/-- The bracket pairs after the name of a type. -/
def typeAfterName (name : String) : Rule TypeName := do
  let pairs ← manyWhile (· == .leftSquare) do
    let _ ← take
    require .bracketPair
  pure ⟨name, pairs.length⟩

/-- A type annotation, required for the given reason. -/
def typeName (expectation : Expectation) : Rule TypeName := do
  typeAfterName (← require expectation)

/-- A colon and the type after it. -/
def typeAfterColon : Rule TypeName := do
  let _ ← require .colonAfterName
  typeName .typeAfterColon

end BraceLang.Parse
