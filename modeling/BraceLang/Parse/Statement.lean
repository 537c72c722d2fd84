import BraceLang.Parse.Expression

/-!
Statements. Each one is recognised by its first token; inside a block, what starts with no word
of its own is an expression. Structs, enums and functions can stand at the top level and in
blocks, namespaces only at the top level and all other statements only in blocks. Rules for
statements that hold blocks take the rule for the statements inside as an argument.
-/
namespace BraceLang.Parse

open Rule

/-- Holds of the tokens that neither close a list in braces nor end the input. -/
def continuesBraces (kind : TokenKind) : Bool :=
  kind != .endOfInput && kind != .rightBrace

/-- Statements between braces. -/
def block (statement : Rule Statement) : Rule (List Statement) := do
  let _ ← require .blockStart
  let body ← manyWhile continuesBraces statement
  let _ ← require .blockEnd
  pure body

/-- An expression and a semicolon. -/
def expressionUpToSemicolon : Rule Expression := do
  let value ← expression
  let _ ← require .endOfExpression
  pure value

/-- An expression that stands for itself. -/
def expressionStatement : Rule Statement := do
  pure (.expression (← expressionUpToSemicolon))

/-- The output of a value. -/
def printStatement : Rule Statement := do
  let _ ← take
  pure (.print (← expressionUpToSemicolon))

/-- The return of a value. -/
def returnStatement : Rule Statement := do
  let _ ← take
  pure (.returned (← expressionUpToSemicolon))

/-- A constant or a variable with its type and its first value. -/
def declarationStatement : Rule Statement := do
  let word ← take
  let name ← require (.nameAfter word.text)
  let type ← typeAfterColon
  let _ ← require .initialValue
  let value ← initializer
  let _ ← require .endOfDeclaration
  pure (.declaration (word.kind == .kwConst) name type value)

/-- A condition and the block that depends on it, after the word in front of them. -/
def clause (statement : Rule Statement) : Rule (Expression × List Statement) := do
  let _ ← take
  let condition ← expression
  let body ← block statement
  pure (condition, body)

/-- The body for the case that no condition holds, if there is one. -/
def lastAlternative (statement : Rule Statement) : Rule Alternative := do
  if (← currentKind) = .kwElse then
    let _ ← take
    pure (.otherwise (← block statement))
  else pure .absent

/-- What follows the body of a conditional. -/
def alternative (statement : Rule Statement) : Rule Alternative := do
  let further ← manyWhile (· == .kwElif) (clause statement)
  let last ← lastAlternative statement
  pure (further.foldr (fun (condition, body) rest => .elseIf condition body rest) last)

/-- A conditional with all its alternatives. -/
def conditionalStatement (statement : Rule Statement) : Rule Statement := do
  let (condition, body) ← clause statement
  let rest ← alternative statement
  pure (.conditional condition body rest)

/-- A loop with a condition. -/
def whileStatement (statement : Rule Statement) : Rule Statement := do
  let (condition, body) ← clause statement
  pure (.whileLoop condition body)

/-- A loop with an initializer, a condition and a modifier. -/
def forStatement (statement : Rule Statement) : Rule Statement := do
  let _ ← take
  let initial ← expression
  let _ ← require .endOfInitializer
  let condition ← expression
  let _ ← require .endOfCondition
  let modifier ← expression
  let body ← block statement
  pure (.forLoop initial condition modifier body)

/-- A name with its type. -/
def typedName (expectation : Expectation) : Rule TypedName := do
  let name ← require expectation
  pure ⟨name, ← typeAfterColon⟩

/-- A field of a struct. -/
def field : Rule TypedName := do
  let typed ← typedName .fieldName
  let _ ← require .endOfField
  pure typed

/-- A struct with its fields. -/
def structStatement : Rule Statement := do
  let _ ← take
  let name ← require (.nameAfter "struct")
  let _ ← require .structStart
  let fields ← manyWhile continuesBraces field
  let _ ← require .structEnd
  pure (.structType name fields)

/-- Items with commas between them, or none if the current token is no identifier. -/
def namesSeparated {α : Type} (item : Rule α) : Rule (List α) := do
  if (← currentKind) = .identifier then separatedByCommas item else pure []

/-- An enum with its constants. -/
def enumStatement : Rule Statement := do
  let _ ← take
  let name ← require (.nameAfter "enum")
  let _ ← require .enumStart
  let constants ← namesSeparated (require .constantName)
  let _ ← require .enumEnd
  pure (.enumType name constants)

/-- The body of a function: a block, or an arrow and the expression that is returned. -/
def functionBody (statement : Rule Statement) : Rule (List Statement) := do
  match ← currentKind with
  | .leftBrace => block statement
  | .implies => do
    let _ ← take
    let value ← expression
    let _ ← require .endOfInlineFunction
    pure [.returned value]
  | _ => giveUp .noFunctionBody

/-- A function with its parameters, the type it returns and its body. -/
def functionStatement (statement : Rule Statement) : Rule Statement := do
  let _ ← take
  let name ← require (.nameAfter "fn")
  let _ ← require .parametersStart
  let parameters ← namesSeparated (typedName .parameterName)
  let _ ← require .parametersEnd
  let _ ← require .returnArrow
  let type ← typeName .returnType
  let body ← functionBody statement
  pure (.function name parameters type body)

/-- The namespace that a file belongs to. -/
def namespaceStatement : Rule Statement := do
  let _ ← take
  let name ← require (.nameAfter "namespace")
  let _ ← require .endOfNamespace
  pure (.inNamespace name)

/-- A namespace whose names a file uses. -/
def usingStatement : Rule Statement := do
  let _ ← take
  let name ← require (.nameAfter "using")
  let _ ← require .endOfUsing
  pure (.usingNamespace name)

/-- A statement in a block; the statements inside it are read by `inner`. -/
def statementBy (inner : Rule Statement) : Rule Statement := do
  match ← currentKind with
  | .kwFn => functionStatement inner
  | .kwStruct => structStatement
  | .kwEnum => enumStatement
  | .kwIf => conditionalStatement inner
  | .kwLet | .kwConst => declarationStatement
  | .kwFor => forStatement inner
  | .kwWhile => whileStatement inner
  | .kwReturn => returnStatement
  | .kwPrint => printStatement
  | _ => expressionStatement

/-- A statement in a block. Counting down `levels` ends the recursion; the depth in the state
reaches its limit no later. -/
def statementWithin : Nat → Rule Statement
  | 0 => giveUp (.nestingTooDeep maxDepth)
  | levels + 1 => nested (statementBy (statementWithin levels))

/-- A statement in a block. -/
def statement : Rule Statement :=
  statementWithin maxDepth

/-- A statement at the top level. -/
def topLevelStatement : Rule Statement := do
  match ← currentKind with
  | .kwFn => functionStatement statement
  | .kwStruct => structStatement
  | .kwEnum => enumStatement
  | .kwNamespace => namespaceStatement
  | .kwUsing => usingStatement
  | _ => giveUp .notTopLevel

end BraceLang.Parse
