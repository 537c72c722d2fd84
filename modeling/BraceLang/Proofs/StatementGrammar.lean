import BraceLang.Parse.Statement
import BraceLang.Proofs.Acceptance

/-!
The grammar of statements, as relations between tokens and trees. Each form says which tokens it is
made of, one after another, and which tree they stand for; the order of alternatives and the tokens
that decide between them play no part here. Statements inside blocks and array literals inside array
literals are each one level deeper than what holds them, and no level is beyond the limit.
-/
namespace BraceLang

/-- Further conditions with their bodies, and what follows them. -/
def Alternative.elseIfs (clauses : List (Expression × List Statement)) (last : Alternative) :
    Alternative :=
  clauses.foldr (fun (condition, body) rest => .elseIf condition body rest) last

/-- A segment that the rule for expressions, run by itself at a depth, takes as a whole. -/
def IsExpression (depth : Nat) (segment : List Token) (value : Expression) : Prop :=
  ∃ after, Parse.expression { ParseState.ofTokens segment with depth } = (some value, after) ∧
    after.rest = []

/-- A name. -/
inductive IsName : List Token → String → Prop where
  | intro (isName : name.kind = .identifier) : IsName [name] name.text

/-- A pair of brackets in a type. -/
inductive IsBracketPair : List Token → String → Prop where
  | intro (opens : opening.kind = .leftSquare) (closes : close.kind = .rightSquare) :
      IsBracketPair [opening, close] close.text

/-- A name and any number of bracket pairs. -/
inductive IsType : List Token → TypeName → Prop where
  | intro (isName : name.kind = .identifier) (pairs : Many IsBracketPair tokens texts) :
      IsType (name :: tokens) ⟨name.text, texts.length⟩

/-- A name, a colon and a type. -/
inductive IsTypedName : List Token → TypedName → Prop where
  | intro (isName : name.kind = .identifier) (isColon : colon.kind = .colon)
      (type : IsType tokens valueType) :
      IsTypedName (name :: colon :: tokens) ⟨name.text, valueType⟩

/-- A field of a struct. -/
inductive IsField : List Token → TypedName → Prop where
  | intro (typed : IsTypedName tokens value) (ends : semicolon.kind = .semicolon) :
      IsField (tokens ++ [semicolon]) value

/-- A struct with its fields. -/
inductive IsStruct : List Token → Statement → Prop where
  | intro (isWord : word.kind = .kwStruct) (isName : name.kind = .identifier)
      (opens : opening.kind = .leftBrace) (fields : Many IsField tokens values)
      (closes : close.kind = .rightBrace) :
      IsStruct (word :: name :: opening :: (tokens ++ [close])) (.structType name.text values)

/-- An enum with its constants. -/
inductive IsEnum : List Token → Statement → Prop where
  | intro (isWord : word.kind = .kwEnum) (isName : name.kind = .identifier)
      (opens : opening.kind = .leftBrace) (constants : Listed IsName tokens values)
      (closes : close.kind = .rightBrace) :
      IsEnum (word :: name :: opening :: (tokens ++ [close])) (.enumType name.text values)

/-- The first value of a variable: an expression, or an array literal, which is one level deeper
inside. -/
def IsInitializer (depth : Nat) (segment : List Token) (value : Expression) : Prop :=
  IsExpression depth segment value ∨
    ∃ _ : depth < maxDepth, ∃ opening inside close elements,
      segment = opening :: (inside ++ [close]) ∧ opening.kind = .leftSquare ∧
      close.kind = .rightSquare ∧ Listed (IsInitializer (depth + 1)) inside elements ∧
      value = .array elements
termination_by maxDepth - depth

section

/-! ## Forms that hold expressions at a depth, and statements given by `Inner` -/

variable (depth : Nat) (Inner : List Token → Statement → Prop)

/-- Statements between braces. -/
inductive IsBlock : List Token → List Statement → Prop where
  | intro (opens : opening.kind = .leftBrace) (body : Many Inner tokens values)
      (closes : close.kind = .rightBrace) :
      IsBlock (opening :: (tokens ++ [close])) values

/-- A word, a condition and the block that depends on it. -/
inductive IsClause (word : TokenKind) : List Token → Expression × List Statement → Prop where
  | intro (isWord : token.kind = word) (condition : IsExpression depth first value)
      (body : IsBlock Inner second statements) :
      IsClause word (token :: (first ++ second)) (value, statements)

/-- The last body of a conditional, if there is one. -/
inductive IsLastAlternative : List Token → Alternative → Prop where
  | absent : IsLastAlternative [] .absent
  | otherwise (isElse : word.kind = .kwElse) (body : IsBlock Inner tokens statements) :
      IsLastAlternative (word :: tokens) (.otherwise statements)

/-- A conditional with all its alternatives. -/
inductive IsConditional : List Token → Statement → Prop where
  | intro (clause : IsClause depth Inner .kwIf first (condition, body))
      (clauses : Many (IsClause depth Inner .kwElif) further others)
      (final : IsLastAlternative Inner last alternative) :
      IsConditional (first ++ (further ++ last))
        (.conditional condition body (.elseIfs others alternative))

/-- The body of a function: a block, or an arrow and the expression that is returned. -/
inductive IsFunctionBody : List Token → List Statement → Prop where
  | block (body : IsBlock Inner tokens statements) : IsFunctionBody tokens statements
  | inline (isArrow : arrow.kind = .implies) (result : IsExpression depth tokens value)
      (ends : semicolon.kind = .semicolon) :
      IsFunctionBody (arrow :: (tokens ++ [semicolon])) [.returned value]

/-- A function with its parameters, the type it returns and its body. -/
inductive IsFunction : List Token → Statement → Prop where
  | intro (isWord : word.kind = .kwFn) (isName : name.kind = .identifier)
      (opens : opening.kind = .leftParen) (parameters : Listed IsTypedName first values)
      (closes : close.kind = .rightParen) (isArrow : arrow.kind = .arrow)
      (type : IsType second valueType) (body : IsFunctionBody depth Inner third statements) :
      IsFunction (word :: name :: opening :: (first ++ close :: arrow :: (second ++ third)))
        (.function name.text values valueType statements)

/-- A constant or a variable with its type and its first value. -/
inductive IsDeclaration : List Token → Statement → Prop where
  | intro (isWord : word.kind = .kwLet ∨ word.kind = .kwConst) (isName : name.kind = .identifier)
      (isColon : colon.kind = .colon) (type : IsType first valueType)
      (isAssign : assign.kind = .assign) (initial : IsInitializer depth second value)
      (ends : semicolon.kind = .semicolon) :
      IsDeclaration (word :: name :: colon :: (first ++ assign :: (second ++ [semicolon])))
        (.declaration (word.kind == .kwConst) name.text valueType value)

/-- A loop with an initializer, a condition and a modifier. -/
inductive IsForLoop : List Token → Statement → Prop where
  | intro (isWord : word.kind = .kwFor) (initial : IsExpression depth first start)
      (endsInitial : semicolon.kind = .semicolon) (condition : IsExpression depth second test)
      (endsCondition : semicolon'.kind = .semicolon) (modifier : IsExpression depth third change)
      (body : IsBlock Inner fourth statements) :
      IsForLoop
        (word :: (first ++ semicolon :: (second ++ semicolon' :: (third ++ fourth))))
        (.forLoop start test change statements)

/-- An expression and a semicolon. -/
inductive IsExpressionUpToSemicolon : List Token → Expression → Prop where
  | intro (inner : IsExpression depth tokens value) (ends : semicolon.kind = .semicolon) :
      IsExpressionUpToSemicolon (tokens ++ [semicolon]) value

/-- The forms of a statement in a block. -/
inductive IsStatementForm : List Token → Statement → Prop where
  | function (form : IsFunction depth Inner tokens value) : IsStatementForm tokens value
  | structType (form : IsStruct tokens value) : IsStatementForm tokens value
  | enumType (form : IsEnum tokens value) : IsStatementForm tokens value
  | conditional (form : IsConditional depth Inner tokens value) : IsStatementForm tokens value
  | whileLoop (clause : IsClause depth Inner .kwWhile tokens (condition, body)) :
      IsStatementForm tokens (.whileLoop condition body)
  | forLoop (form : IsForLoop depth Inner tokens value) : IsStatementForm tokens value
  | declaration (form : IsDeclaration depth tokens value) : IsStatementForm tokens value
  | returned (isWord : word.kind = .kwReturn)
      (form : IsExpressionUpToSemicolon depth tokens value) :
      IsStatementForm (word :: tokens) (.returned value)
  | print (isWord : word.kind = .kwPrint)
      (form : IsExpressionUpToSemicolon depth tokens value) :
      IsStatementForm (word :: tokens) (.print value)
  | expression (form : IsExpressionUpToSemicolon depth tokens value) :
      IsStatementForm tokens (.expression value)

end

/-- A statement in a block at a depth. Inside it is one level deeper. -/
def IsStatement (depth : Nat) (segment : List Token) (statement : Statement) : Prop :=
  ∃ _ : depth < maxDepth, IsStatementForm (depth + 1) (IsStatement (depth + 1)) segment statement
termination_by maxDepth - depth

/-- A statement at the top level. -/
inductive IsTopLevel : List Token → Statement → Prop where
  | function (form : IsFunction 0 (IsStatement 0) tokens value) : IsTopLevel tokens value
  | structType (form : IsStruct tokens value) : IsTopLevel tokens value
  | enumType (form : IsEnum tokens value) : IsTopLevel tokens value
  | inNamespace (isWord : word.kind = .kwNamespace) (isName : name.kind = .identifier)
      (ends : semicolon.kind = .semicolon) :
      IsTopLevel [word, name, semicolon] (.inNamespace name.text)
  | usingNamespace (isWord : word.kind = .kwUsing) (isName : name.kind = .identifier)
      (ends : semicolon.kind = .semicolon) :
      IsTopLevel [word, name, semicolon] (.usingNamespace name.text)

/-- The statements of a program, one after another. -/
def IsProgram (segment : List Token) (program : Program) : Prop :=
  Many IsTopLevel segment program.statements

section

/-! ## Forms that start with a token of their own -/

variable {depth : Nat} {Inner : List Token → Statement → Prop} {segment : List Token}
  {value : Statement} {next : TokenKind}

theorem IsStruct.firstKind_eq (form : IsStruct segment value) :
    firstKind segment next = .kwStruct := by
  obtain ⟨isWord, -⟩ := form
  exact isWord

theorem IsEnum.firstKind_eq (form : IsEnum segment value) : firstKind segment next = .kwEnum := by
  obtain ⟨isWord, -⟩ := form
  exact isWord

theorem IsBlock.firstKind_eq {statements : List Statement}
    (form : IsBlock Inner segment statements) : firstKind segment next = .leftBrace := by
  obtain ⟨opens, body, closes⟩ := form
  exact opens

theorem IsClause.firstKind_eq {word : TokenKind} {value : Expression × List Statement}
    (form : IsClause depth Inner word segment value) : firstKind segment next = word := by
  obtain ⟨isWord, condition, body⟩ := form
  exact isWord

theorem IsConditional.firstKind_eq (form : IsConditional depth Inner segment value) :
    firstKind segment next = .kwIf := by
  obtain ⟨clause, clauses, final⟩ := form
  rw [firstKind_append, clause.firstKind_eq]

theorem IsFunction.firstKind_eq (form : IsFunction depth Inner segment value) :
    firstKind segment next = .kwFn := by
  obtain ⟨isWord, -⟩ := form
  exact isWord

theorem IsDeclaration.firstKind_eq (form : IsDeclaration depth segment value) :
    firstKind segment next = .kwLet ∨ firstKind segment next = .kwConst := by
  obtain ⟨isWord, -⟩ := form
  exact isWord

theorem IsForLoop.firstKind_eq (form : IsForLoop depth Inner segment value) :
    firstKind segment next = .kwFor := by
  obtain ⟨isWord, -⟩ := form
  exact isWord

end

end BraceLang
