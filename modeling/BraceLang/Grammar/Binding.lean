import BraceLang.Token.Kind

/-!
How tightly operators bind, and what a token does to an expression: as its first token, and as
the token after a complete operand. A kind has a precedence above the lowest exactly when it
can follow an operand (`infixRule?_isSome_iff`).
-/
namespace BraceLang

/-- How tightly an operator holds its operands: the higher, the tighter. -/
abbrev BindingPower := Nat

namespace BindingPower

def lowest : BindingPower := 0
def assignment : BindingPower := 20
def or : BindingPower := 30
def and : BindingPower := 40
def bitOr : BindingPower := 50
def bitAnd : BindingPower := 60
def equality : BindingPower := 70
def relational : BindingPower := 80
def shift : BindingPower := 90
def additive : BindingPower := 100
def multiplicative : BindingPower := 110
def unary : BindingPower := 120
def call : BindingPower := 130
def member : BindingPower := 140

/-- The powers of the language, from the weakest to the tightest. -/
def all : List BindingPower :=
  [lowest, assignment, or, and, bitOr, bitAnd, equality, relational, shift, additive,
   multiplicative, unary, call, member]

/-- The power just below, at which the right operand of an operator may hold another operator
of the same power. Nothing is below the lowest. -/
def weaker (power : BindingPower) : BindingPower :=
  power - 1

end BindingPower

/-- What the first token of an expression makes of it. -/
inductive PrefixRule where
  | identifier | bool | object | int | float | string | char
  | unary
  | grouping
  deriving DecidableEq, Repr

/-- What a token after a complete operand makes of the operand. -/
inductive InfixRule where
  | leftAssociative
  | rightAssociative
  | call
  | subscript
  deriving DecidableEq, Repr

namespace TokenKind

/-- The power with which a token holds the operand before it. -/
def precedence : TokenKind → BindingPower
  | assign | plusAssign | minusAssign | starAssign | slashAssign | moduloAssign
  | shiftLeftAssign | shiftRightAssign | bitAndAssign | bitOrAssign => .assignment
  | or => .or
  | and => .and
  | bitOr => .bitOr
  | bitAnd => .bitAnd
  | equal | notEqual => .equality
  | less | greater | lessEqual | greaterEqual => .relational
  | shiftLeft | shiftRight => .shift
  | plus | minus => .additive
  | star | slash | modulo => .multiplicative
  | leftParen | leftSquare => .call
  | dot => .member
  | _ => .lowest

/-- The rule for an expression that starts with a token, if one can. -/
def prefixRule? : TokenKind → Option PrefixRule
  | identifier => some .identifier
  | kwTrue | kwFalse => some .bool
  | kwThis | kwNull => some .object
  | intLiteral => some .int
  | floatLiteral => some .float
  | stringLiteral => some .string
  | charLiteral => some .char
  | plus | minus | not | bitNot => some .unary
  | leftParen => some .grouping
  | _ => none

/-- The rule for a token after a complete operand, if it can stand there. -/
def infixRule? : TokenKind → Option InfixRule
  | plus | minus | star | slash | modulo | and | or | shiftLeft | shiftRight | bitAnd | bitOr
  | dot | less | greater | equal | notEqual | lessEqual | greaterEqual => some .leftAssociative
  | assign | plusAssign | minusAssign | starAssign | slashAssign | moduloAssign
  | shiftLeftAssign | shiftRightAssign | bitAndAssign | bitOrAssign => some .rightAssociative
  | leftParen => some .call
  | leftSquare => some .subscript
  | _ => none

/-- The rule for a token after an operand that is itself held with power `least`: only a token
that holds the operand more tightly takes it. -/
def infixRuleAbove? (least : BindingPower) (kind : TokenKind) : Option InfixRule :=
  if least < kind.precedence then kind.infixRule? else none

theorem infixRule?_isSome_iff (kind : TokenKind) :
    kind.infixRule?.isSome ↔ BindingPower.lowest < kind.precedence := by
  cases kind <;> decide

end TokenKind

end BraceLang
