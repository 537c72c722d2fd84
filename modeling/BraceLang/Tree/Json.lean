import BraceLang.Json
import BraceLang.Number.Layout
import BraceLang.Tree.Basic

/-!
Trees as JSON. Every node is an object that starts with its type; a conditional without an
alternative has no member for it. Numbers that are not finite have no JSON form and become null.
-/
namespace BraceLang

namespace Json

/-- Numbers in JSON are written around a point from 0.00001 up to sixteen places before the
point, and their exponents always have a sign. A half goes to the even digit. -/
def numberLayout : DecimalLayout :=
  ⟨-4, 16, true, .even⟩

/-- A double as a JSON value. -/
def ofBinary64 : Binary64 → Json
  | .finite negative significand exponent _ =>
    .number (String.ofList (numberLayout.finite negative significand exponent))
  | _ => .null

/-- A node of a tree: its type, then its members. -/
def node (type : String) (members : List (String × Json)) : Json :=
  .object (("type", .string type) :: members)

/-- The node of a block that holds the given statements. -/
def blockNode (statements : List Json) : Json :=
  node "BlockStatement" [("statements", .array statements)]

end Json

open Json (node blockNode)

/-- A type annotation as JSON. -/
def TypeName.toJson (type : TypeName) : Json :=
  node "TypeExpression"
    [("name", .string type.name), ("dimensions", .number (toString type.dimensions))]

/-- A field or a parameter as JSON: `label` says which of the two it is. -/
def TypedName.toJson (label : String) (typed : TypedName) : Json :=
  node label [("identifier", .string typed.name), ("datatype", typed.type.toJson)]

mutual

/-- An expression as JSON. -/
def Expression.toJson : Expression → Json
  | .identifier name => node "Identifier" [("id", .string name)]
  | .bool value => node "BoolLiteral" [("value", .bool value)]
  | .object word => node "ObjectLiteral" [("value", .string (objectWord word))]
  | .string value => node "StringLiteral" [("value", .string value)]
  | .float value => node "FloatLiteral" [("value", .ofBinary64 value)]
  | .int value => node "IntLiteral" [("value", .number (toString value))]
  | .char value => node "CharLiteral" [("value", .string (String.singleton value))]
  | .array elements => node "ArrayLiteral" [("values", .array (Expression.allToJson elements))]
  | .typeName type => type.toJson
  | .unary operator operand =>
    node "PrefixExpression" [("oper", .string operator.name), ("expr", operand.toJson)]
  | .binary left operator right =>
    node "InfixExpression"
      [("lhs", left.toJson), ("oper", .string operator.name), ("rhs", right.toJson)]
  | .call callee arguments =>
    node "CallExpression"
      [("function", callee.toJson), ("args", .array (Expression.allToJson arguments))]
  | .subscript base index =>
    node "SubscriptExpression" [("array", base.toJson), ("index", index.toJson)]

/-- Expressions as JSON, each on its own. -/
def Expression.allToJson : List Expression → List Json
  | [] => []
  | expression :: expressions => expression.toJson :: Expression.allToJson expressions

end

mutual

/-- A statement as JSON. -/
def Statement.toJson : Statement → Json
  | .expression value => node "ExpressionStatement" [("expr", value.toJson)]
  | .print value => node "PrintStatement" [("expr", value.toJson)]
  | .returned value => node "ReturnStatement" [("expr", value.toJson)]
  | .block body => blockNode (Statement.allToJson body)
  | .conditional condition body alternative =>
    node "IfStatement" (("condition", condition.toJson) ::
      ("block", blockNode (Statement.allToJson body)) ::
      alternative.toMembers)
  | .whileLoop condition body =>
    node "WhileStatement"
      [("condition", condition.toJson),
       ("block", blockNode (Statement.allToJson body))]
  | .forLoop initializer condition modifier body =>
    node "ForStatement"
      [("initializer", initializer.toJson), ("condition", condition.toJson),
       ("modifier", modifier.toJson),
       ("block", blockNode (Statement.allToJson body))]
  | .structType name fields =>
    node "StructStatement"
      [("name", .string name), ("fields", .array (fields.map (TypedName.toJson "Field")))]
  | .enumType name constants =>
    node "EnumStatement"
      [("name", .string name), ("constants", .array (constants.map Json.string))]
  | .function name parameters returnType body =>
    node "FunctionStatement"
      [("name", .string name),
       ("args", .array (parameters.map (TypedName.toJson "Parameter"))),
       ("return_type", returnType.toJson),
       ("block", blockNode (Statement.allToJson body))]
  | .inNamespace name => node "NamespaceStatement" [("name", .string name)]
  | .usingNamespace name => node "UsingStatement" [("identifier", .string name)]
  | .declaration constant name type value =>
    node "DeclarationStatement"
      [("constant", .bool constant), ("identifier", .string name), ("datatype", type.toJson),
       ("value", value.toJson)]

/-- The member that an alternative adds to its conditional. A further condition is itself a
conditional. -/
def Alternative.toMembers : Alternative → List (String × Json)
  | .absent => []
  | .elseIf condition body alternative =>
    [("alternative", node "IfStatement" (("condition", condition.toJson) ::
      ("block", blockNode (Statement.allToJson body)) ::
      alternative.toMembers))]
  | .otherwise body =>
    [("alternative", blockNode (Statement.allToJson body))]

/-- Statements as JSON, each on its own. -/
def Statement.allToJson : List Statement → List Json
  | [] => []
  | statement :: statements => statement.toJson :: Statement.allToJson statements

end

/-- A block as JSON. -/
def Statement.blockToJson (body : List Statement) : Json :=
  (Statement.block body).toJson

/-- A program as JSON: it holds one block. -/
def Program.toJson (program : Program) : Json :=
  node "Program" [("block", Statement.blockToJson program.statements)]

end BraceLang
