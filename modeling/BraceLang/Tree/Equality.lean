import BraceLang.Tree.Basic

/-!
Equality of trees. Two trees are equal when they have the same shape and equal leaves. Numbers
with a fraction are compared as numbers, so that the zeros of both signs are equal and a tree
that holds a NaN is not equal to itself.
-/
namespace BraceLang

mutual

/-- Equality of expressions. -/
def Expression.equals : Expression → Expression → Bool
  | .identifier first, .identifier second => first == second
  | .bool first, .bool second => first == second
  | .object first, .object second => first == second
  | .string first, .string second => first == second
  | .float first, .float second => first.equals second
  | .int first, .int second => first == second
  | .char first, .char second => first == second
  | .array first, .array second => Expression.allEqual first second
  | .typeName first, .typeName second => first == second
  | .unary firstOperator first, .unary secondOperator second =>
    firstOperator == secondOperator && first.equals second
  | .binary firstLeft firstOperator firstRight, .binary secondLeft secondOperator secondRight =>
    firstLeft.equals secondLeft && firstOperator == secondOperator
      && firstRight.equals secondRight
  | .call firstCallee firstArguments, .call secondCallee secondArguments =>
    firstCallee.equals secondCallee && Expression.allEqual firstArguments secondArguments
  | .subscript firstArray firstIndex, .subscript secondArray secondIndex =>
    firstArray.equals secondArray && firstIndex.equals secondIndex
  | _, _ => false

/-- Equality of lists of expressions. -/
def Expression.allEqual : List Expression → List Expression → Bool
  | [], [] => true
  | first :: firsts, second :: seconds =>
    first.equals second && Expression.allEqual firsts seconds
  | _, _ => false

end

mutual

/-- Equality of statements. -/
def Statement.equals : Statement → Statement → Bool
  | .expression first, .expression second => first.equals second
  | .print first, .print second => first.equals second
  | .returned first, .returned second => first.equals second
  | .block first, .block second => Statement.allEqual first second
  | .conditional firstCondition firstBody first, .conditional secondCondition secondBody second =>
    firstCondition.equals secondCondition && Statement.allEqual firstBody secondBody
      && first.equals second
  | .whileLoop firstCondition firstBody, .whileLoop secondCondition secondBody =>
    firstCondition.equals secondCondition && Statement.allEqual firstBody secondBody
  | .forLoop firstInitializer firstCondition firstModifier firstBody,
    .forLoop secondInitializer secondCondition secondModifier secondBody =>
    firstInitializer.equals secondInitializer && firstCondition.equals secondCondition
      && firstModifier.equals secondModifier && Statement.allEqual firstBody secondBody
  | .structType firstName firstFields, .structType secondName secondFields =>
    firstName == secondName && firstFields == secondFields
  | .enumType firstName firstConstants, .enumType secondName secondConstants =>
    firstName == secondName && firstConstants == secondConstants
  | .function firstName firstParameters firstType firstBody,
    .function secondName secondParameters secondType secondBody =>
    firstName == secondName && firstParameters == secondParameters && firstType == secondType
      && Statement.allEqual firstBody secondBody
  | .inNamespace first, .inNamespace second => first == second
  | .usingNamespace first, .usingNamespace second => first == second
  | .declaration firstConstant firstName firstType firstValue,
    .declaration secondConstant secondName secondType secondValue =>
    firstConstant == secondConstant && firstName == secondName && firstType == secondType
      && firstValue.equals secondValue
  | _, _ => false

/-- Equality of what follows the body of a conditional. -/
def Alternative.equals : Alternative → Alternative → Bool
  | .absent, .absent => true
  | .elseIf firstCondition firstBody first, .elseIf secondCondition secondBody second =>
    firstCondition.equals secondCondition && Statement.allEqual firstBody secondBody
      && first.equals second
  | .otherwise first, .otherwise second => Statement.allEqual first second
  | _, _ => false

/-- Equality of lists of statements. -/
def Statement.allEqual : List Statement → List Statement → Bool
  | [], [] => true
  | first :: firsts, second :: seconds =>
    first.equals second && Statement.allEqual firsts seconds
  | _, _ => false

end

/-- Equality of programs. -/
def Program.equals (first second : Program) : Bool :=
  Statement.allEqual first.statements second.statements

end BraceLang
