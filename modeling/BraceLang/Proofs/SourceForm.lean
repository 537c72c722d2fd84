import BraceLang.Grammar.Binding
import BraceLang.Parse.State
import BraceLang.Number.Reading
import BraceLang.Source.Piece
import BraceLang.Tree.Basic
import Mathlib.Algebra.Group.Int.Defs
import Mathlib.Algebra.Group.Nat.Defs

/-!
Programs written out. A tree is written as a sequence of lexemes: operators by their symbols, every
operand, callee and subscripted array in parentheses, and bodies of functions as blocks. The text
of a program has its lexemes with a blank between any two of them. Trees that the language has a
text for are well placed: each kind of statement and expression stands where it can be written, and
names and literals have a spelling.
-/
namespace BraceLang

/-- What a token says, wherever it stands. -/
structure Lexeme where
  kind : TokenKind
  text : String
  deriving DecidableEq, Repr

/-- What a token says. -/
def Token.lexeme (token : Token) : Lexeme :=
  ⟨token.kind, token.text⟩

/-- The spelling of a kind of token that is always spelled alike: an operator by its symbol. -/
def TokenKind.spelling : TokenKind → String
  | kwFn => "fn"
  | kwThis => "this"
  | kwIf => "if"
  | kwElse => "else"
  | kwElif => "elif"
  | kwWhile => "while"
  | kwFor => "for"
  | kwEnum => "enum"
  | kwStruct => "struct"
  | kwNamespace => "namespace"
  | kwReturn => "return"
  | kwConst => "const"
  | kwLet => "let"
  | kwUsing => "using"
  | kwNull => "null"
  | kwTrue => "true"
  | kwFalse => "false"
  | kwPrint => "print"
  | leftParen => "("
  | rightParen => ")"
  | leftSquare => "["
  | rightSquare => "]"
  | leftBrace => "\x7b"
  | rightBrace => "\x7d"
  | comma => ","
  | semicolon => ";"
  | colon => ":"
  | arrow => "->"
  | implies => "=>"
  | kind => kind.symbol

/-- The kinds that are always spelled alike: all but those whose text matters, and the end. -/
def TokenKind.isMark (kind : TokenKind) : Bool :=
  !kind.carriesText && kind != .endOfInput

namespace Lexeme

/-- A word, an operator or a bracket. -/
def mark (kind : TokenKind) : Lexeme :=
  ⟨kind, kind.spelling⟩

/-- A name. -/
def named (text : String) : Lexeme :=
  ⟨.identifier, text⟩

/-- The characters of a lexeme in a source text. Strings and characters stand in quotes. -/
def spelling (lexeme : Lexeme) : List Char :=
  match lexeme.kind with
  | .stringLiteral => '"' :: (lexeme.text.toList ++ ['"'])
  | .charLiteral => '\'' :: (lexeme.text.toList ++ ['\''])
  | _ => lexeme.text.toList

/-- The source text of some lexemes, with blanks between them. -/
def source (lexemes : List Lexeme) : String :=
  String.ofList ([' '].intercalate (lexemes.map spelling))

/-- Lexemes in parentheses. -/
def inParens (lexemes : List Lexeme) : List Lexeme :=
  mark .leftParen :: (lexemes ++ [mark .rightParen])

/-- Lexemes in braces. -/
def inBraces (lexemes : List Lexeme) : List Lexeme :=
  mark .leftBrace :: (lexemes ++ [mark .rightBrace])

/-- Lists of lexemes with commas between them. -/
def withCommas (items : List (List Lexeme)) : List Lexeme :=
  [mark .comma].intercalate items

end Lexeme

open Lexeme

/-- A type: its name and its bracket pairs. -/
def TypeName.lexemes (type : TypeName) : List Lexeme :=
  named type.name :: (List.replicate type.dimensions [mark .leftSquare, mark .rightSquare]).flatten

/-- A name and its type. -/
def TypedName.lexemes (typed : TypedName) : List Lexeme :=
  named typed.name :: mark .colon :: typed.type.lexemes

section

/-! ## Trees as lexemes, with a spelling of each double given by `floatText` -/

variable (floatText : Binary64 → String)

mutual

/-- An expression. -/
def Expression.lexemes : Expression → List Lexeme
  | .identifier text => [named text]
  | .bool value => [mark (if value then .kwTrue else .kwFalse)]
  | .object word => [mark word]
  | .string value => [⟨.stringLiteral, value⟩]
  | .float value => [⟨.floatLiteral, floatText value⟩]
  | .int value => [⟨.intLiteral, toString value⟩]
  | .char value => [⟨.charLiteral, value.toString⟩]
  | .array elements =>
    mark .leftSquare :: (withCommas (Expression.eachLexemes elements) ++ [mark .rightSquare])
  | .typeName type => type.lexemes
  | .unary operator operand => mark operator :: inParens operand.lexemes
  | .binary left operator right =>
    inParens left.lexemes ++ mark operator :: inParens right.lexemes
  | .call callee arguments =>
    inParens callee.lexemes ++ inParens (withCommas (Expression.eachLexemes arguments))
  | .subscript base index =>
    inParens base.lexemes ++ mark .leftSquare :: (index.lexemes ++ [mark .rightSquare])

/-- Expressions, each by itself. -/
def Expression.eachLexemes : List Expression → List (List Lexeme)
  | [] => []
  | expression :: expressions => expression.lexemes :: Expression.eachLexemes expressions

end

mutual

/-- A statement. -/
def Statement.lexemes : Statement → List Lexeme
  | .expression value => value.lexemes floatText ++ [mark .semicolon]
  | .print value => mark .kwPrint :: (value.lexemes floatText ++ [mark .semicolon])
  | .returned value => mark .kwReturn :: (value.lexemes floatText ++ [mark .semicolon])
  | .block body => inBraces (Statement.allLexemes body)
  | .conditional condition body alternative =>
    mark .kwIf :: (condition.lexemes floatText ++ inBraces (Statement.allLexemes body)) ++
      alternative.lexemes
  | .whileLoop condition body =>
    mark .kwWhile :: (condition.lexemes floatText ++ inBraces (Statement.allLexemes body))
  | .forLoop initializer condition modifier body =>
    mark .kwFor :: (initializer.lexemes floatText ++ mark .semicolon ::
      (condition.lexemes floatText ++ mark .semicolon ::
        (modifier.lexemes floatText ++ inBraces (Statement.allLexemes body))))
  | .structType title fields =>
    mark .kwStruct :: named title ::
      inBraces (fields.flatMap fun field => field.lexemes ++ [mark .semicolon])
  | .enumType title constants =>
    mark .kwEnum :: named title ::
      inBraces (withCommas (constants.map fun constant => [named constant]))
  | .function title parameters returnType body =>
    mark .kwFn :: named title :: mark .leftParen ::
      (withCommas (parameters.map TypedName.lexemes) ++ mark .rightParen :: mark .arrow ::
        (returnType.lexemes ++ inBraces (Statement.allLexemes body)))
  | .inNamespace title => [mark .kwNamespace, named title, mark .semicolon]
  | .usingNamespace title => [mark .kwUsing, named title, mark .semicolon]
  | .declaration constant title type value =>
    mark (if constant then .kwConst else .kwLet) :: named title :: mark .colon ::
      (type.lexemes ++ mark .assign :: (value.lexemes floatText ++ [mark .semicolon]))

/-- What follows the body of a conditional. -/
def Alternative.lexemes : Alternative → List Lexeme
  | .absent => []
  | .elseIf condition body alternative =>
    mark .kwElif :: (condition.lexemes floatText ++ inBraces (Statement.allLexemes body)) ++
      alternative.lexemes
  | .otherwise body => mark .kwElse :: inBraces (Statement.allLexemes body)

/-- Statements, one after another. -/
def Statement.allLexemes : List Statement → List Lexeme
  | [] => []
  | statement :: statements => statement.lexemes ++ Statement.allLexemes statements

end

/-- The source text of a program. -/
def Program.source (program : Program) : String :=
  Lexeme.source (Statement.allLexemes floatText program.statements)

end

mutual

/-- How many levels the text of an expression is nested, its own included: each operand in
parentheses, argument, index and array literal is a level of its own, and the right operand of an
operator is one already before its parenthesis. -/
def Expression.levels : Expression → Nat
  | .array elements => Expression.levelsOfAll elements + 1
  | .unary _ operand => operand.levels + 2
  | .binary left _ right => max (left.levels + 1) (right.levels + 2)
  | .call callee arguments => max callee.levels (Expression.levelsOfAll arguments) + 1
  | .subscript base index => max base.levels index.levels + 1
  | _ => 1

/-- The levels of the most deeply nested of some expressions. -/
def Expression.levelsOfAll : List Expression → Nat
  | [] => 0
  | expression :: expressions => max expression.levels (Expression.levelsOfAll expressions)

end

mutual

/-- How many levels the text of a statement is nested, without its own: each statement of a body is
a level. -/
def Statement.levels : Statement → Nat
  | .expression value | .print value | .returned value | .declaration _ _ _ value => value.levels
  | .block body => Statement.levelsOfAll body
  | .conditional condition body alternative =>
    max (max condition.levels (Statement.levelsOfAll body)) alternative.levels
  | .whileLoop condition body => max condition.levels (Statement.levelsOfAll body)
  | .forLoop initializer condition modifier body =>
    max (max initializer.levels condition.levels)
      (max modifier.levels (Statement.levelsOfAll body))
  | .function _ _ _ body => Statement.levelsOfAll body
  | .structType .. | .enumType .. | .inNamespace _ | .usingNamespace _ => 0

/-- The levels of what follows the body of a conditional. -/
def Alternative.levels : Alternative → Nat
  | .absent => 0
  | .elseIf condition body alternative =>
    max (max condition.levels (Statement.levelsOfAll body)) alternative.levels
  | .otherwise body => Statement.levelsOfAll body

/-- The levels of the most deeply nested statement of a body, its own included. -/
def Statement.levelsOfAll : List Statement → Nat
  | [] => 0
  | statement :: statements => max (statement.levels + 1) (Statement.levelsOfAll statements)

end

/-- How many levels the text of a program is nested. Statements at the top level are none. -/
def Program.levels (program : Program) : Nat :=
  (program.statements.map Statement.levels).foldr max 0

/-- Words in the ASCII alphabet: a letter or a low line, and after it these and digits. -/
def IsWord (text : List Char) : Prop :=
  ∃ c rest, text = c :: rest ∧ isWordStart c = true ∧ ∀ c ∈ rest, isWordPart c = true

instance : DecidablePred IsWord
  | [] => .isFalse nofun
  | c :: rest =>
    decidable_of_iff (isWordStart c = true ∧ rest.all isWordPart = true)
      ⟨fun ⟨starts, parts⟩ => ⟨c, rest, rfl, starts, List.all_eq_true.mp parts⟩,
        fun ⟨_, _, rfl, starts, parts⟩ => ⟨starts, List.all_eq_true.mpr parts⟩⟩

/-- Holds of the words that can be names: those that are not reserved. -/
def IsNameText (text : String) : Prop :=
  IsWord text.toList ∧ TokenKind.reserved? text = none

instance (text : String) : Decidable (IsNameText text) :=
  inferInstanceAs (Decidable (_ ∧ _))

/-- Digits, a point and digits. -/
def IsPointed (text : String) : Prop :=
  ∃ whole fraction, text.toList = whole ++ '.' :: fraction ∧ whole ≠ [] ∧ fraction ≠ [] ∧
    (∀ c ∈ whole, c.isDigit = true) ∧ ∀ c ∈ fraction, c.isDigit = true

/-- A type with a name. -/
def TypeName.WellPlaced (type : TypeName) : Prop :=
  IsNameText type.name

instance (type : TypeName) : Decidable type.WellPlaced :=
  inferInstanceAs (Decidable (IsNameText _))

/-- A name with a type that has one. -/
def TypedName.WellPlaced (typed : TypedName) : Prop :=
  IsNameText typed.name ∧ typed.type.WellPlaced

instance (typed : TypedName) : Decidable typed.WellPlaced :=
  inferInstanceAs (Decidable (_ ∧ _))

/-- Expressions that have a text wherever an expression can stand. -/
inductive Expression.WellPlaced (floatText : Binary64 → String) : Expression → Prop where
  | identifier (isName : IsNameText title) : WellPlaced floatText (.identifier title)
  | bool (value : Bool) : WellPlaced floatText (.bool value)
  | object (isWord : word = .kwThis ∨ word = .kwNull) : WellPlaced floatText (.object word)
  | string (unquoted : '"' ∉ value.toList) : WellPlaced floatText (.string value)
  | float (isFinite : value.isFinite = true) (pointed : IsPointed (floatText value))
      (reads : Number.readBinary64? (floatText value).toList = some value) :
      WellPlaced floatText (.float value)
  | int (natural : 0 ≤ value) (bounded : value < 2 ^ 63) : WellPlaced floatText (.int value)
  | char (unquoted : value ≠ '\'') (inLine : value ≠ '\n') : WellPlaced floatText (.char value)
  | unary (isUnary : operator.prefixRule? = some .unary) (operand : WellPlaced floatText value) :
      WellPlaced floatText (.unary operator value)
  | binary (isInfix : ∃ rule, operator.infixRule? = some rule) (noCall : operator ≠ .leftParen)
      (noSubscript : operator ≠ .leftSquare) (left : WellPlaced floatText first)
      (right : WellPlaced floatText second) : WellPlaced floatText (.binary first operator second)
  | call (callee : WellPlaced floatText function)
      (each : ∀ argument ∈ arguments, WellPlaced floatText argument) :
      WellPlaced floatText (.call function arguments)
  | subscript (base : WellPlaced floatText first) (index : WellPlaced floatText second) :
      WellPlaced floatText (.subscript first second)

/-- Expressions that have a text as the first value of a variable. -/
inductive Expression.WellPlacedInitially (floatText : Binary64 → String) : Expression → Prop where
  | expression (placed : Expression.WellPlaced floatText value) :
      WellPlacedInitially floatText value
  | array (each : ∀ element ∈ elements, WellPlacedInitially floatText element) :
      WellPlacedInitially floatText (.array elements)

section

variable (floatText : Binary64 → String)

mutual

/-- Statements that have a text in a body. -/
def Statement.WellPlaced : Statement → Prop
  | .expression value | .print value | .returned value => value.WellPlaced floatText
  | .conditional condition body alternative =>
    condition.WellPlaced floatText ∧ Statement.AllWellPlaced body ∧ alternative.WellPlaced
  | .whileLoop condition body => condition.WellPlaced floatText ∧ Statement.AllWellPlaced body
  | .forLoop initializer condition modifier body =>
    initializer.WellPlaced floatText ∧ condition.WellPlaced floatText ∧
      modifier.WellPlaced floatText ∧ Statement.AllWellPlaced body
  | .structType title fields => IsNameText title ∧ ∀ field ∈ fields, field.WellPlaced
  | .enumType title constants => IsNameText title ∧ ∀ constant ∈ constants, IsNameText constant
  | .function title parameters returnType body =>
    IsNameText title ∧ (∀ parameter ∈ parameters, parameter.WellPlaced) ∧
      returnType.WellPlaced ∧ Statement.AllWellPlaced body
  | .declaration _ title type value =>
    IsNameText title ∧ type.WellPlaced ∧ value.WellPlacedInitially floatText
  | .block _ | .inNamespace _ | .usingNamespace _ => False

/-- What has a text after the body of a conditional. -/
def Alternative.WellPlaced : Alternative → Prop
  | .absent => True
  | .elseIf condition body alternative =>
    condition.WellPlaced floatText ∧ Statement.AllWellPlaced body ∧ alternative.WellPlaced
  | .otherwise body => Statement.AllWellPlaced body

/-- Bodies whose statements all have a text. -/
def Statement.AllWellPlaced : List Statement → Prop
  | [] => True
  | statement :: statements => statement.WellPlaced ∧ Statement.AllWellPlaced statements

end

/-- Statements that have a text at the top level. -/
def Statement.WellPlacedOutside (statement : Statement) : Prop :=
  match statement with
  | .function .. | .structType .. | .enumType .. => statement.WellPlaced floatText
  | .inNamespace title | .usingNamespace title => IsNameText title
  | _ => False

/-- Programs that have a text. -/
def Program.WellPlaced (program : Program) : Prop :=
  ∀ statement ∈ program.statements, statement.WellPlacedOutside floatText

end

end BraceLang
