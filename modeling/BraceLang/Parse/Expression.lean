import BraceLang.Grammar.Binding
import BraceLang.Number.Reading
import BraceLang.Parse.TypeName

/-!
Expressions. An expression starts with an operand; after it, each operator that binds more
tightly than the place of the expression allows takes what has been read as its left operand.
Array literals are not expressions of their own: they stand where a variable gets its first
value, and inside each other.
-/
namespace BraceLang.Parse

open Rule

/-- What the first token of an expression settles: all of the operand, or how it goes on. -/
inductive OperandStart where
  | complete (operand : Expression)
  | unary (operator : TokenKind)
  | grouping

/-- The value of a literal whose text is read by `read?`. -/
def literal {α : Type} (type : LiteralType) (read? : List Char → Option α)
    (token : Token) : Except Problem α :=
  match read? token.text.toList with
  | some value => .ok value
  | none => .error (.invalidLiteral type)

/-- The only character of a text of length one. -/
def onlyChar? : List Char → Option Char
  | [c] => some c
  | _ => none

/-- The problem with a token that cannot start an expression. -/
def operandProblem (token : Token) : Problem :=
  match token.kind with
  | .illegal =>
    if token.text.toList.head? = some '"' then .unterminatedString else .illegalCharacter
  | _ => .notAnOperand

/-- The start of the operand that a token makes by the given rule. -/
def operandByRule (token : Token) : PrefixRule → Except Problem OperandStart
  | .identifier => .ok (.complete (.identifier token.text))
  | .bool => .ok (.complete (.bool (token.kind == .kwTrue)))
  | .object => .ok (.complete (.object token.kind))
  | .string => .ok (.complete (.string token.text))
  | .int => do
    let value ← literal .integer Number.readInt64? token
    pure (.complete (.int value))
  | .float => do
    let value ← literal .float Number.readBinary64? token
    if value.isFinite then pure (.complete (.float value)) else throw .floatOutOfRange
  | .char => do
    let value ← literal .character onlyChar? token
    pure (.complete (.char value))
  | .unary => .ok (.unary token.kind)
  | .grouping => .ok .grouping

/-- The start of the operand that a token makes, or what is wrong with the token there. -/
def operandStart (token : Token) : Except Problem OperandStart :=
  match token.kind.prefixRule? with
  | some rule => operandByRule token rule
  | none => .error (operandProblem token)

/-- An operand. Inner expressions are read by `expression`. -/
def operand (expression : BindingPower → Rule Expression) : Rule Expression := do
  match ← takeAs operandStart with
  | .complete value => pure value
  | .unary operator => do
    let value ← expression .unary
    pure (.unary operator value)
  | .grouping => do
    let value ← expression .lowest
    let _ ← require .groupEnd
    pure value

/-- The arguments of a call, after the opening parenthesis. -/
def arguments (expression : BindingPower → Rule Expression) : Rule (List Expression) := do
  let values ← itemsUpTo .rightParen (expression .lowest)
  let _ ← require .callEnd
  pure values

/-- What the next token, taken by the given rule, makes of the operand `left` before it. -/
def continuation (expression : BindingPower → Rule Expression) (left : Expression)
    (rule : InfixRule) : Rule Expression := do
  let operator := (← take).kind
  match rule with
  | .leftAssociative => do
    let right ← expression operator.precedence
    pure (.binary left operator right)
  | .rightAssociative => do
    let right ← expression operator.precedence.weaker
    pure (.binary left operator right)
  | .call => do
    let values ← arguments expression
    pure (.call left values)
  | .subscript => do
    let index ← expression .lowest
    let _ ← require .subscriptEnd
    pure (.subscript left index)

/-- An operand and all operators after it that bind more tightly than `least`. -/
def operators (expression : BindingPower → Rule Expression) (least : BindingPower) :
    Rule Expression := do
  let first ← operand expression
  iterate (TokenKind.infixRuleAbove? least) (continuation expression) first

/-- An expression whose operators all bind more tightly than `least`. Counting down `levels`
ends the recursion; the depth in the state reaches its limit no later. -/
def expressionWithin : Nat → BindingPower → Rule Expression
  | 0, _ => giveUp (.nestingTooDeep maxDepth)
  | levels + 1, least => nested (operators (expressionWithin levels) least)

/-- An expression whose operators all bind more tightly than `least`. -/
def expressionAbove (least : BindingPower) : Rule Expression :=
  expressionWithin maxDepth least

/-- An expression. -/
def expression : Rule Expression :=
  expressionAbove .lowest

/-- The elements of an array literal after its opening bracket, each read by `element`. -/
def arrayAfterBracket (element : Rule Expression) : Rule Expression := do
  let elements ← itemsUpTo .rightSquare element
  let _ ← require .arrayEnd
  pure (.array elements)

/-- The first value of a variable: an array literal, whose inside is read by `array`, or an
expression. -/
def initializerBy (array : Rule Expression) : Rule Expression := do
  if (← currentKind) = .leftSquare then
    let _ ← take
    array
  else expression

/-- The first value of a variable. Counting down `levels` ends the recursion; the depth in the
state reaches its limit no later. -/
def initializerWithin : Nat → Rule Expression
  | 0 => initializerBy (giveUp (.nestingTooDeep maxDepth))
  | levels + 1 => initializerBy (nested (arrayAfterBracket (initializerWithin levels)))

/-- The first value of a variable: an expression or an array literal. -/
def initializer : Rule Expression :=
  initializerWithin maxDepth

/-- An array literal after its opening bracket. -/
def arrayLiteral : Rule Expression :=
  arrayAfterBracket initializer

end BraceLang.Parse
