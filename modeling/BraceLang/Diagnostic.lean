import BraceLang.Grammar.Problem
import BraceLang.Source.Line
import BraceLang.Token.Basic

/-!
Diagnostics: a message about a stretch of a source text, and the way it is shown under the line
it is about. Syntax errors are the only ones that parsing gives; the other categories are those
of later stages, of which all but the semantic ones arise while a program runs.
-/
namespace BraceLang

/-- The stage and the nature of what went wrong. -/
inductive Category where
  | syntaxError
  | semanticError
  | runtimeError
  | allocationError
  | indexError
  | typeCastError
  deriving DecidableEq, Repr

namespace Category

/-- Every category. -/
def all : List Category :=
  [.syntaxError, .semanticError, .runtimeError, .allocationError, .indexError, .typeCastError]

/-- The name that diagnostics start with. -/
def name : Category → String
  | syntaxError => "SyntaxError"
  | semanticError => "SemanticError"
  | runtimeError => "RuntimeError"
  | allocationError => "AllocationError"
  | indexError => "IndexError"
  | typeCastError => "TypeCastError"

/-- The category of a given name. -/
def ofName? (name : String) : Option Category :=
  all.find? (·.name == name)

/-- Holds of what goes wrong while a program runs. -/
def isRuntime : Category → Bool
  | syntaxError | semanticError => false
  | runtimeError | allocationError | indexError | typeCastError => true

end Category

/-- A message about the `length` characters of a source text from a position on. -/
structure Diagnostic where
  category : Category
  message : String
  position : Position
  length : Nat
  deriving DecidableEq, Repr

namespace Diagnostic

/-- The syntax error that covers a token. -/
def atToken (message : String) (token : Token) : Diagnostic :=
  ⟨.syntaxError, message, token.position, token.length⟩

/-- The diagnostic on one line. -/
def summary (diagnostic : Diagnostic) : String :=
  diagnostic.category.name ++ ": " ++ diagnostic.message ++ " at "
    ++ toString diagnostic.position.row ++ ":" ++ toString diagnostic.position.col

/-- A run of `count` copies of a character. -/
private def repeated (count : Nat) (c : Char) : String :=
  String.ofList (List.replicate count c)

/-- The diagnostic with the line it is about and a row of carets under the characters it
covers; there is one caret even if it covers none. A row outside the text shows as empty. Columns
have no bound here. Where the column is the width of a padding that is given in 16 bits, a
diagnostic is shown for columns up to 65535 only, and as it is here. -/
def render (source file : String) (diagnostic : Diagnostic) : String :=
  let row := toString diagnostic.position.row
  let col := toString diagnostic.position.col
  let gutter := repeated (row.length + 1) ' ' ++ "|"
  let line := (sourceLine? source diagnostic.position.row).getD ""
  diagnostic.category.name ++ ": " ++ diagnostic.message ++ "\n"
    ++ "-> " ++ file ++ ":" ++ row ++ ":" ++ col ++ "\n"
    ++ gutter ++ "\n"
    ++ " " ++ row ++ " | " ++ line ++ "\n"
    ++ gutter ++ " " ++ repeated (diagnostic.position.col - 1) ' '
    ++ repeated (max diagnostic.length 1) '^'

end Diagnostic

end BraceLang
