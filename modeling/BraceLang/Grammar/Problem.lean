import BraceLang.Token.Kind

/-!
What can be wrong at a token, and how it is said. Most often a certain kind of token is
required for a certain reason; an expectation is such a reason, and it determines the kind.
-/
namespace BraceLang

/-- Why a certain token is required at a certain place: in expressions, in types, in blocks and
simple statements, in declarations, loops and functions, in structs and enums, and after the
names of namespaces. -/
inductive Expectation where
  | groupEnd
  | callEnd
  | subscriptEnd
  | arrayEnd
  | bracketPair
  | typeAfterColon
  | returnType
  | typeFor (context : String)
  | blockStart
  | blockEnd
  | endOfExpression
  | nameAfter (word : String)
  | colonAfterName
  | initialValue
  | endOfDeclaration
  | endOfInitializer
  | endOfCondition
  | parametersStart
  | parameterName
  | parametersEnd
  | returnArrow
  | endOfInlineFunction
  | structStart
  | fieldName
  | endOfField
  | structEnd
  | enumStart
  | constantName
  | enumEnd
  | endOfNamespace
  | endOfUsing
  deriving DecidableEq, Repr

namespace Expectation

/-- The kind of token that meets the expectation. -/
def kind : Expectation → TokenKind
  | groupEnd | callEnd | parametersEnd => .rightParen
  | subscriptEnd | arrayEnd | bracketPair => .rightSquare
  | typeAfterColon | returnType | typeFor _ | nameAfter _ | parameterName | fieldName
  | constantName => .identifier
  | blockStart | structStart | enumStart => .leftBrace
  | blockEnd | structEnd | enumEnd => .rightBrace
  | endOfExpression | endOfDeclaration | endOfInitializer | endOfCondition | endOfInlineFunction
  | endOfField | endOfNamespace | endOfUsing => .semicolon
  | colonAfterName => .colon
  | initialValue => .assign
  | parametersStart => .leftParen
  | returnArrow => .arrow

/-- The expectation in words. -/
def phrase : Expectation → String
  | groupEnd => "Expected ')' matching previous '('"
  | callEnd => "Expected ')' after function call matching '('"
  | subscriptEnd => "Expected ']' after index expression matching '['"
  | arrayEnd => "Expected ']' matching previous '[' in array literal"
  | bracketPair => "Expected ']' matching previous '['"
  | typeAfterColon => "Expected a type after ':'"
  | returnType => "Expected function return type after '->'"
  | typeFor context => context
  | blockStart => "Expected '\x7b' to open a scope"
  | blockEnd => "Expected '\x7d' to close a scope"
  | endOfExpression => "Expected ';' after expression"
  | nameAfter word => "Expected an identifier after keyword '" ++ word ++ "'"
  | colonAfterName => "Expected ':' after identifier"
  | initialValue => "Expected '=' to initialize variable"
  | endOfDeclaration => "Expected ';' after declaration"
  | endOfInitializer => "Expected ';' after initializer"
  | endOfCondition => "Expected ';' after condition"
  | parametersStart => "Expected '(' after function name"
  | parameterName => "Expected a function parameter name"
  | parametersEnd => "Expected ')' at the end of function parameter list"
  | returnArrow => "Expected '->' after function parameter list"
  | endOfInlineFunction => "Expected ';' at the end of an inline function declaration"
  | structStart => "Expected '\x7b' after struct name"
  | fieldName => "Expected a struct field name"
  | endOfField => "Expected ';' after struct field"
  | structEnd => "Expected '\x7d' at the end of a struct"
  | enumStart => "Expected '\x7b' after enum name"
  | constantName => "Expected an enum constant"
  | enumEnd => "Expected '\x7d' at the end of an enum"
  | endOfNamespace => "Expected ';' after a namespace statement"
  | endOfUsing => "Expected ';' after a using statement"

/-- The end of input is never what is expected. -/
theorem kind_ne_endOfInput (expectation : Expectation) : expectation.kind ≠ .endOfInput := by
  cases expectation <;> simp [kind]

end Expectation

/-- The literals whose text has to be converted to a value. -/
inductive LiteralType where
  | integer
  | float
  | character
  deriving DecidableEq, Repr

/-- What is wrong at a token. -/
inductive Problem where
  /-- Another kind of token is required. -/
  | expected (expectation : Expectation)
  /-- No statement at the top level starts like this. -/
  | notTopLevel
  /-- The body of a function starts neither with a brace nor with the arrow of a short form. -/
  | noFunctionBody
  /-- No expression starts like this. -/
  | notAnOperand
  | illegalCharacter
  | unterminatedString
  | invalidLiteral (type : LiteralType)
  | floatOutOfRange
  /-- Expressions, statements and array literals are nested more deeply than `limit`. -/
  | nestingTooDeep (limit : Nat)
  /-- Something else, in the words of the caller. -/
  | stated (message : String)
  deriving DecidableEq, Repr

namespace Problem

/-- The problem in words, at a token with the given text. -/
def message (text : String) : Problem → String
  | expected expectation => expectation.phrase ++ ", got '" ++ text ++ "'"
  | notTopLevel =>
    "Expect a top level statement (function, struct, enum, namespace or using statements), got '"
      ++ text ++ "'"
  | noFunctionBody =>
    "Expected either '\x7b' to open a block or '=>' after return type, got '" ++ text ++ "'"
  | notAnOperand => "Unexpected token '" ++ text ++ "' as an expression prefix operator"
  | illegalCharacter => "Illegal character '" ++ text ++ "'"
  | unterminatedString => "Unterminated string literal"
  | invalidLiteral .integer => "Invalid integer literal '" ++ text ++ "'"
  | invalidLiteral .float => "Invalid float literal '" ++ text ++ "'"
  | invalidLiteral .character => "Invalid character literal '" ++ text ++ "'"
  | floatOutOfRange => "Float literal '" ++ text ++ "' is out of range"
  | nestingTooDeep limit => "Nesting exceeds the limit of " ++ toString limit ++ " levels"
  | stated message => message

end Problem

end BraceLang
