import BraceLang.Number.Binary64
import BraceLang.Token.Kind

/-!
The trees that programs are parsed to. Expressions and statements are two families; what
follows the body of a conditional is a third one, so that a chain of conditions is as deep as
it is long and no block has to be invented for it. Operators and the words `this` and `null`
are kept as token kinds.
-/
namespace BraceLang

/-- A type annotation: a name and the number of bracket pairs after it, which has no bound. A counter
of 32 bits agrees with it below `2 ^ 32`. -/
structure TypeName where
  name : String
  dimensions : Nat
  deriving DecidableEq, Repr

/-- A name with its type: a field of a struct or a parameter of a function. -/
structure TypedName where
  name : String
  type : TypeName
  deriving DecidableEq, Repr

/-- Expressions. Assignments and member access are binary operations like any other. -/
inductive Expression where
  | identifier (name : String)
  | bool (value : Bool)
  | object (word : TokenKind)
  | string (value : String)
  | float (value : Binary64)
  | int (value : Int)
  | char (value : Char)
  | array (elements : List Expression)
  | typeName (type : TypeName)
  | unary (operator : TokenKind) (operand : Expression)
  | binary (left : Expression) (operator : TokenKind) (right : Expression)
  | call (callee : Expression) (arguments : List Expression)
  | subscript (base index : Expression)

mutual

/-- Statements. A function that is given by a single expression holds the block that returns
that expression. -/
inductive Statement where
  | expression (value : Expression)
  | print (value : Expression)
  | returned (value : Expression)
  | block (body : List Statement)
  | conditional (condition : Expression) (body : List Statement) (alternative : Alternative)
  | whileLoop (condition : Expression) (body : List Statement)
  | forLoop (initializer condition modifier : Expression) (body : List Statement)
  | structType (name : String) (fields : List TypedName)
  | enumType (name : String) (constants : List String)
  | function (name : String) (parameters : List TypedName) (returnType : TypeName)
      (body : List Statement)
  | inNamespace (name : String)
  | usingNamespace (name : String)
  | declaration (constant : Bool) (name : String) (type : TypeName) (value : Expression)

/-- What follows the body of a conditional: nothing, a further condition with its own body and
alternative, or a last body. -/
inductive Alternative where
  | absent
  | elseIf (condition : Expression) (body : List Statement) (alternative : Alternative)
  | otherwise (body : List Statement)

end

/-- A program: the statements at the top level of a file. -/
structure Program where
  statements : List Statement

/-- The program without statements. -/
def Program.empty : Program := ⟨[]⟩

/-- The word that an object literal stands for. -/
def objectWord : TokenKind → String
  | .kwThis => "this"
  | _ => "null"

/-- Holds of the operators that store their right operand in their left one. -/
def TokenKind.isAssignment : TokenKind → Bool
  | .assign | .plusAssign | .minusAssign | .starAssign | .slashAssign | .moduloAssign
  | .shiftLeftAssign | .shiftRightAssign | .bitAndAssign | .bitOrAssign => true
  | _ => false

/-- Holds of the types with bracket pairs. -/
def TypeName.isArray (type : TypeName) : Bool :=
  0 < type.dimensions

end BraceLang
