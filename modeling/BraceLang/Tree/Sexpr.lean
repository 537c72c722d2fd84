import BraceLang.Number.Layout
import BraceLang.Sexpr
import BraceLang.Text.Quoted
import BraceLang.Tree.Basic

/-!
Trees as symbolic expressions. Operations are lists that start with the symbol of the operator,
and most statements are lists that start with a word; an expression used as a statement is
shown as the expression alone.
-/
namespace BraceLang

namespace Sexpr

/-- Numbers in symbolic expressions are written around a point from 0.0001 up to sixteen places
before the point, and their exponents have a sign only if they are negative. A half goes up. -/
def numberLayout : DecimalLayout :=
  ⟨-3, 16, false, .upper⟩

/-- The text of a double. -/
def ofBinary64 : Binary64 → String
  | .nan => "NaN"
  | .infinity negative => if negative then "-inf" else "inf"
  | .finite negative significand exponent _ =>
    String.ofList (numberLayout.finite negative significand exponent)

end Sexpr

open Sexpr (form)

/-- A type annotation in the spelling of the language. -/
def TypeName.spelling (type : TypeName) : String :=
  type.name ++ String.join (List.replicate type.dimensions "[]")

/-- A field or a parameter: its name and its type. -/
def TypedName.toSexpr (typed : TypedName) : Sexpr :=
  .list [.atom typed.name, .atom typed.type.spelling]

mutual

/-- An expression as a symbolic expression. -/
def Expression.toSexpr : Expression → Sexpr
  | .identifier name => .atom name
  | .bool value => .atom (if value then "true" else "false")
  | .object word => .atom (objectWord word)
  | .string value => .atom (Text.quoteString value)
  | .float value => .atom (Sexpr.ofBinary64 value)
  | .int value => .atom (toString value)
  | .char value => .atom (Text.quoteChar value)
  | .array elements => .vector (Expression.allToSexpr elements)
  | .typeName type => .atom type.spelling
  | .unary operator operand => form operator.symbol [operand.toSexpr]
  | .binary left operator right => form operator.symbol [left.toSexpr, right.toSexpr]
  | .call callee arguments => form "call" (callee.toSexpr :: Expression.allToSexpr arguments)
  | .subscript base index => form "index" [base.toSexpr, index.toSexpr]

/-- Expressions as symbolic expressions, each on its own. -/
def Expression.allToSexpr : List Expression → List Sexpr
  | [] => []
  | expression :: expressions => expression.toSexpr :: Expression.allToSexpr expressions

end

mutual

/-- A statement as a symbolic expression. -/
def Statement.toSexpr : Statement → Sexpr
  | .expression value => value.toSexpr
  | .print value => form "print" [value.toSexpr]
  | .returned value => form "return" [value.toSexpr]
  | .block body => form "block" (Statement.allToSexpr body)
  | .conditional condition body alternative =>
    form "if" (condition.toSexpr :: form "block" (Statement.allToSexpr body) ::
      alternative.toSexprs)
  | .whileLoop condition body =>
    form "while" [condition.toSexpr, form "block" (Statement.allToSexpr body)]
  | .forLoop initializer condition modifier body =>
    form "for" [initializer.toSexpr, condition.toSexpr, modifier.toSexpr,
      form "block" (Statement.allToSexpr body)]
  | .structType name fields => form "struct" (.atom name :: fields.map TypedName.toSexpr)
  | .enumType name constants => form "enum" (.atom name :: constants.map Sexpr.atom)
  | .function name parameters returnType body =>
    form "fn" [.atom name, .list (parameters.map TypedName.toSexpr),
      .atom returnType.spelling, form "block" (Statement.allToSexpr body)]
  | .inNamespace name => form "namespace" [.atom name]
  | .usingNamespace name => form "using" [.atom name]
  | .declaration constant name type value =>
    form (if constant then "const" else "let")
      [.atom name, .atom type.spelling, value.toSexpr]

/-- The item that an alternative adds to its conditional. -/
def Alternative.toSexprs : Alternative → List Sexpr
  | .absent => []
  | .elseIf condition body alternative =>
    [form "if" (condition.toSexpr :: form "block" (Statement.allToSexpr body) ::
      alternative.toSexprs)]
  | .otherwise body => [form "block" (Statement.allToSexpr body)]

/-- Statements as symbolic expressions, each on its own. -/
def Statement.allToSexpr : List Statement → List Sexpr
  | [] => []
  | statement :: statements => statement.toSexpr :: Statement.allToSexpr statements

end

/-- A program as a symbolic expression. -/
def Program.toSexpr (program : Program) : Sexpr :=
  form "program" (Statement.allToSexpr program.statements)

end BraceLang
