import BraceLang.Proofs.ExpressionSegment

/-!
Everything in the grammar is accepted. A rule accepts each segment of its form before every token
that can follow the form, and a look at the current token is enough to choose the right form: all of
them start with different tokens, and none of these can follow where a form may be left out.
-/
namespace BraceLang.Parse

open Rule

variable {depth : Nat} {segment : List Token} {next : TokenKind}

theorem accepts_typeName {valueType : TypeName} {expectation : Expectation}
    (type : IsType segment valueType) (requires : expectation.kind = .identifier)
    (stops : next ≠ .leftSquare) :
    Accepts (typeName expectation) depth segment valueType next := by
  obtain ⟨isName, pairs⟩ := type
  apply (accepts_require (isName.trans requires.symm)).bind_cons
  refine Accepts.bind_pure ?_ rfl
  apply accepts_manyWhile (· = .leftSquare) pairs
  · rintro pair text ⟨opens, closes⟩
    exact ⟨_, _, rfl, opens⟩
  · simp
  · rintro pair text ahead ⟨opens, closes⟩ -
    exact (accepts_take _).bind_cons (accepts_require closes)
  · simpa using stops

theorem accepts_typeAfterColon {colon : Token} {valueType : TypeName}
    (isColon : colon.kind = .colon) (type : IsType segment valueType) (stops : next ≠ .leftSquare) :
    Accepts typeAfterColon depth (colon :: segment) valueType next :=
  (accepts_require isColon).bind_cons (accepts_typeName type rfl stops)

theorem accepts_typedName {value : TypedName} {expectation : Expectation}
    (typed : IsTypedName segment value) (requires : expectation.kind = .identifier)
    (stops : next ≠ .leftSquare) : Accepts (typedName expectation) depth segment value next := by
  obtain ⟨isName, isColon, type⟩ := typed
  apply (accepts_require (isName.trans requires.symm)).bind_cons
  exact (accepts_typeAfterColon isColon type stops).bind_pure rfl

theorem accepts_field {value : TypedName} (form : IsField segment value) :
    Accepts field depth segment value next := by
  obtain ⟨typed, ends⟩ := form
  refine Accepts.bind ?_ ((accepts_require ends).bind_pure rfl)
  apply accepts_typedName typed rfl
  simp [ends]

theorem accepts_structStatement {value : Statement} (form : IsStruct segment value) :
    Accepts structStatement depth segment value next := by
  obtain ⟨isWord, isName, opens, fields, closes⟩ := form
  apply (accepts_take _).bind_cons
  apply (accepts_require isName).bind_cons
  apply (accepts_require opens).bind_cons
  refine Accepts.bind ?_ ((accepts_require closes).bind_pure rfl)
  apply accepts_manyWhile (· = .identifier) fields
  · rintro item value ⟨⟨isName, isColon, type⟩, ends⟩
    exact ⟨_, _, rfl, isName⟩
  · rintro kind rfl
    rfl
  · intro item value ahead form _
    exact accepts_field form
  · simp [closes, continuesBraces]

theorem accepts_namesSeparated {α : Type} {item : Rule α} {Item : List Token → α → Prop}
    {values : List α} (items : Listed Item segment values)
    (starts : ∀ {item value}, Item item value →
      ∃ token tail, item = token :: tail ∧ token.kind = .identifier)
    (accepts : ∀ {segment value ahead}, Item segment value → ahead = .comma ∨ ahead = next →
      Accepts item depth segment value ahead)
    (stops : next ≠ .comma) (absent : next ≠ .identifier) :
    Accepts (namesSeparated item) depth segment values next := by
  refine accepts_currentKind_bind ?_
  rcases items with ⟨rfl, rfl⟩ | items
  · rw [firstKind_nil, if_neg absent]
    exact accepts_pure []
  · have started : firstKind segment next = .identifier := by
      obtain ⟨item, others⟩ := items
      obtain ⟨token, tail, rfl, isName⟩ := starts item
      exact isName
    rw [if_pos started]
    exact accepts_separatedByCommas items accepts stops

theorem accepts_enumStatement {value : Statement} (form : IsEnum segment value) :
    Accepts enumStatement depth segment value next := by
  obtain ⟨isWord, isName, opens, constants, closes⟩ := form
  apply (accepts_take _).bind_cons
  apply (accepts_require isName).bind_cons
  apply (accepts_require opens).bind_cons
  refine Accepts.bind ?_ ((accepts_require closes).bind_pure rfl)
  rw [firstKind_cons, closes]
  apply accepts_namesSeparated constants
  · rintro item value ⟨isName⟩
    exact ⟨_, _, rfl, isName⟩
  · rintro item value ahead ⟨isName⟩ -
    exact accepts_require isName
  · simp
  · simp

theorem accepts_namespaceStatement {word name semicolon : Token} (isName : name.kind = .identifier)
    (ends : semicolon.kind = .semicolon) :
    Accepts namespaceStatement depth [word, name, semicolon] (.inNamespace name.text) next := by
  apply (accepts_take word).bind_cons
  apply (accepts_require isName).bind_cons
  exact (accepts_require ends).bind_pure rfl

theorem accepts_usingStatement {word name semicolon : Token} (isName : name.kind = .identifier)
    (ends : semicolon.kind = .semicolon) :
    Accepts usingStatement depth [word, name, semicolon] (.usingNamespace name.text) next := by
  apply (accepts_take word).bind_cons
  apply (accepts_require isName).bind_cons
  exact (accepts_require ends).bind_pure rfl

theorem IsInitializer.starts {value : Expression} (form : IsInitializer depth segment value) :
    ∃ token rest, segment = token :: rest ∧
      (token.kind.prefixRule?.isSome = true ∨ token.kind = .leftSquare) := by
  rw [IsInitializer] at form
  rcases form with expression | ⟨-, opening, inside, close, elements, rfl, opens, -⟩
  · obtain ⟨token, rest, rfl, starts⟩ := expression.starts
    exact ⟨token, rest, rfl, .inl starts⟩
  · exact ⟨opening, _, rfl, .inr opens⟩

theorem accepts_initializerBy_expression {value : Expression} {array : Rule Expression}
    (expression : IsExpression depth segment value) (ends : next.precedence = .lowest) :
    Accepts (initializerBy array) depth segment value next := by
  refine accepts_currentKind_bind ?_
  obtain ⟨token, rest, rfl, starts⟩ := expression.starts
  have noBracket : firstKind (token :: rest) next ≠ .leftSquare := by
    intro isBracket
    rw [firstKind_cons] at isBracket
    rw [isBracket] at starts
    cases starts
  rw [if_neg noBracket]
  exact expression.accepts ends

/-- An array literal needs as many levels as its elements and one more. -/
theorem accepts_initializerWithin {value : Expression} {levels : Nat}
    (enough : maxDepth ≤ depth + levels) (form : IsInitializer depth segment value)
    (ends : next.precedence = .lowest) :
    Accepts (initializerWithin levels) depth segment value next := by
  induction levels generalizing depth segment value next with
  | zero =>
    rw [IsInitializer] at form
    rcases form with expression | ⟨within, -⟩
    · exact accepts_initializerBy_expression expression ends
    · omega
  | succ levels ih =>
    rw [IsInitializer] at form
    rcases form with expression |
      ⟨within, opening, inside, close, elements, rfl, opens, closes, items, rfl⟩
    · exact accepts_initializerBy_expression expression ends
    · refine accepts_currentKind_bind ?_
      rw [firstKind_cons, if_pos opens]
      apply (accepts_take opening).bind_cons
      apply Accepts.nested within
      refine Accepts.bind ?_ ((accepts_require closes).bind_pure rfl)
      rw [firstKind_cons, closes]
      refine accepts_itemsUpTo items ?_ ?_ (by decide)
      · intro item value form
        obtain ⟨token, rest, rfl, starts⟩ := IsInitializer.starts form
        refine ⟨token, rest, rfl, ?_⟩
        intro isClose
        rw [isClose] at starts
        rcases starts with starts | starts <;> cases starts
      · rintro item value ahead form (rfl | rfl) <;> exact ih (by omega) form rfl

/-- Holds of the tokens that a statement in a block can start with. -/
def startsStatement (kind : TokenKind) : Bool :=
  kind.prefixRule?.isSome ||
    [.kwFn, .kwStruct, .kwEnum, .kwIf, .kwWhile, .kwFor, .kwLet, .kwConst, .kwReturn,
      .kwPrint].contains kind

/-- A statement neither closes a block nor goes on with a conditional. -/
theorem startsStatement_continues {kind : TokenKind} (starts : startsStatement kind = true) :
    continuesBraces kind = true ∧ kind ≠ .kwElif ∧ kind ≠ .kwElse := by
  revert starts
  cases kind <;> decide

/-- The rule for inner statements accepts, at some depth, every statement before a token that does
not go on with a conditional. -/
structure AcceptsStatements (inner : Rule Statement) (depth : Nat)
    (Inner : List Token → Statement → Prop) : Prop where
  starts : ∀ {segment value}, Inner segment value →
    ∃ token rest, segment = token :: rest ∧ startsStatement token.kind = true
  accepts : ∀ {segment value next}, Inner segment value → next ≠ .kwElif → next ≠ .kwElse →
    Accepts inner depth segment value next

section

variable {inner : Rule Statement} {Inner : List Token → Statement → Prop}

theorem accepts_block {statements : List Statement} (each : AcceptsStatements inner depth Inner)
    (form : IsBlock Inner segment statements) :
    Accepts (block inner) depth segment statements next := by
  obtain ⟨opens, body, closes⟩ := form
  apply (accepts_require opens).bind_cons
  refine Accepts.bind ?_ ((accepts_require closes).bind_pure rfl)
  rw [firstKind_cons, closes]
  apply accepts_manyWhile (startsStatement · = true) body each.starts
  · intro kind starts
    exact (startsStatement_continues starts).1
  · intro item value ahead form isAhead
    have others : ahead ≠ .kwElif ∧ ahead ≠ .kwElse := by
      rcases isAhead with starts | rfl
      · exact (startsStatement_continues starts).2
      · exact ⟨nofun, nofun⟩
    exact each.accepts form others.1 others.2
  · rfl

theorem accepts_clause {word : TokenKind} {value : Expression × List Statement}
    (each : AcceptsStatements inner depth Inner) (form : IsClause depth Inner word segment value) :
    Accepts (clause inner) depth segment value next := by
  obtain ⟨isWord, condition, body⟩ := form
  apply (accepts_take _).bind_cons
  apply Accepts.bind
  · apply condition.accepts
    rw [body.firstKind_eq]
    rfl
  exact (accepts_block each body).bind_pure rfl

theorem accepts_lastAlternative {last : Alternative} (each : AcceptsStatements inner depth Inner)
    (form : IsLastAlternative Inner segment last) (absent : next ≠ .kwElse) :
    Accepts (lastAlternative inner) depth segment last next := by
  refine accepts_currentKind_bind ?_
  cases form with
  | absent =>
    rw [firstKind_nil, if_neg absent]
    exact accepts_pure _
  | otherwise isElse body =>
    rw [firstKind_cons, if_pos isElse]
    exact (accepts_take _).bind_cons ((accepts_block each body).bind_pure rfl)

theorem accepts_conditionalStatement {value : Statement}
    (each : AcceptsStatements inner depth Inner) (form : IsConditional depth Inner segment value)
    (noElif : next ≠ .kwElif) (noElse : next ≠ .kwElse) :
    Accepts (conditionalStatement inner) depth segment value next := by
  obtain ⟨clause, clauses, final⟩ := form
  apply (accepts_clause each clause).bind
  refine Accepts.bind_pure ?_ rfl
  refine Accepts.bind ?_ ((accepts_lastAlternative each final noElse).bind_pure rfl)
  apply accepts_manyWhile (· = .kwElif) clauses
  · rintro item value ⟨isWord, condition, body⟩
    exact ⟨_, _, rfl, isWord⟩
  · simp
  · intro item value ahead clause _
    exact accepts_clause each clause
  · cases final with
    | absent => simpa using noElif
    | otherwise isElse body => simp [isElse]

theorem accepts_functionBody {statements : List Statement}
    (each : AcceptsStatements inner depth Inner)
    (form : IsFunctionBody depth Inner segment statements) :
    Accepts (functionBody inner) depth segment statements next := by
  refine accepts_currentKind_bind ?_
  cases form with
  | block body =>
    rw [body.firstKind_eq]
    exact accepts_block each body
  | inline isArrow result ends =>
    rw [firstKind_cons, isArrow]
    apply (accepts_take _).bind_cons
    refine Accepts.bind ?_ ((accepts_require ends).bind_pure rfl)
    apply result.accepts
    rw [firstKind_cons, ends]
    rfl

theorem accepts_functionStatement {value : Statement} (each : AcceptsStatements inner depth Inner)
    (form : IsFunction depth Inner segment value) :
    Accepts (functionStatement inner) depth segment value next := by
  obtain ⟨isWord, isName, opens, parameters, closes, isArrow, type, body⟩ := form
  apply (accepts_take _).bind_cons
  apply (accepts_require isName).bind_cons
  apply (accepts_require opens).bind_cons
  apply Accepts.bind
  · rw [firstKind_cons, closes]
    apply accepts_namesSeparated parameters
    · rintro item value ⟨isName, isColon, type⟩
      exact ⟨_, _, rfl, isName⟩
    · rintro item value ahead typed (rfl | rfl) <;>
        exact accepts_typedName typed rfl (by simp)
    · simp
    · simp
  apply (accepts_require closes).bind_cons
  apply (accepts_require isArrow).bind_cons
  refine Accepts.bind ?_ ((accepts_functionBody each body).bind_pure rfl)
  apply accepts_typeName type rfl
  cases body with
  | block body => simp [body.firstKind_eq]
  | inline isArrow => simp [isArrow]

theorem accepts_declarationStatement {value : Statement}
    (form : IsDeclaration depth segment value) :
    Accepts declarationStatement depth segment value next := by
  obtain ⟨isWord, isName, isColon, type, isAssign, initial, ends⟩ := form
  apply (accepts_take _).bind_cons
  apply (accepts_require isName).bind_cons
  refine (accepts_typeAfterColon isColon type ?_).bind ?_
  · simp [isAssign]
  apply (accepts_require isAssign).bind_cons
  refine Accepts.bind ?_ ((accepts_require ends).bind_pure rfl)
  rw [firstKind_cons, ends]
  exact accepts_initializerWithin (Nat.le_add_left ..) initial rfl

theorem accepts_forStatement {value : Statement} (each : AcceptsStatements inner depth Inner)
    (form : IsForLoop depth Inner segment value) :
    Accepts (forStatement inner) depth segment value next := by
  obtain ⟨isWord, initial, endsInitial, condition, endsCondition, modifier, body⟩ := form
  apply (accepts_take _).bind_cons
  apply Accepts.bind
  · apply initial.accepts
    rw [firstKind_cons, endsInitial]
    rfl
  apply (accepts_require endsInitial).bind_cons
  apply Accepts.bind
  · apply condition.accepts
    rw [firstKind_cons, endsCondition]
    rfl
  apply (accepts_require endsCondition).bind_cons
  apply Accepts.bind
  · apply modifier.accepts
    rw [body.firstKind_eq]
    rfl
  exact (accepts_block each body).bind_pure rfl

theorem accepts_expressionUpToSemicolon {value : Expression}
    (form : IsExpressionUpToSemicolon depth segment value) :
    Accepts expressionUpToSemicolon depth segment value next := by
  obtain ⟨expression, ends⟩ := form
  refine Accepts.bind ?_ ((accepts_require ends).bind_pure rfl)
  apply expression.accepts
  rw [firstKind_cons, ends]
  rfl

/-- The first token of a statement settles its form; an expression starts with none of the words
that start the other forms. -/
theorem accepts_statementBy {value : Statement} (each : AcceptsStatements inner depth Inner)
    (form : IsStatementForm depth Inner segment value) (noElif : next ≠ .kwElif)
    (noElse : next ≠ .kwElse) : Accepts (statementBy inner) depth segment value next := by
  refine accepts_currentKind_bind ?_
  cases form with
  | function form =>
    rw [form.firstKind_eq]
    exact accepts_functionStatement each form
  | structType form =>
    rw [form.firstKind_eq]
    exact accepts_structStatement form
  | enumType form =>
    rw [form.firstKind_eq]
    exact accepts_enumStatement form
  | conditional form =>
    rw [form.firstKind_eq]
    exact accepts_conditionalStatement each form noElif noElse
  | whileLoop clause =>
    rw [clause.firstKind_eq]
    exact (accepts_clause each clause).bind_pure rfl
  | forLoop form =>
    rw [form.firstKind_eq]
    exact accepts_forStatement each form
  | declaration form =>
    rcases form.firstKind_eq with starts | starts <;> rw [starts] <;>
      exact accepts_declarationStatement form
  | returned isWord form =>
    rw [firstKind_cons, isWord]
    exact (accepts_take _).bind_cons ((accepts_expressionUpToSemicolon form).bind_pure rfl)
  | print isWord form =>
    rw [firstKind_cons, isWord]
    exact (accepts_take _).bind_cons ((accepts_expressionUpToSemicolon form).bind_pure rfl)
  | expression form =>
    have starts : (firstKind segment next).prefixRule?.isSome = true := by
      obtain ⟨expression, ends⟩ := form
      obtain ⟨token, rest, rfl, starts⟩ := expression.starts
      exact starts
    have accepted : Accepts expressionStatement depth segment _ next :=
      (accepts_expressionUpToSemicolon form).bind_pure rfl
    generalize firstKind segment next = kind at starts ⊢
    cases kind <;> first | exact accepted | cases starts

end

theorem IsStatement.starts {value : Statement} (form : IsStatement depth segment value) :
    ∃ token rest, segment = token :: rest ∧ startsStatement token.kind = true := by
  rw [IsStatement] at form
  obtain ⟨-, form⟩ := form
  cases form with
  | function form | structType form | enumType form | forLoop form =>
    obtain ⟨isWord, -⟩ := form
    exact ⟨_, _, rfl, by rw [isWord]; rfl⟩
  | conditional form =>
    obtain ⟨⟨isWord, condition, body⟩, -⟩ := form
    exact ⟨_, _, rfl, by rw [isWord]; rfl⟩
  | whileLoop clause =>
    obtain ⟨isWord, condition, body⟩ := clause
    exact ⟨_, _, rfl, by rw [isWord]; rfl⟩
  | declaration form =>
    obtain ⟨isWord | isWord, -⟩ := form <;> exact ⟨_, _, rfl, by rw [isWord]; rfl⟩
  | returned isWord form | print isWord form => exact ⟨_, _, rfl, by rw [isWord]; rfl⟩
  | expression form =>
    obtain ⟨expression, ends⟩ := form
    obtain ⟨token, rest, rfl, starts⟩ := expression.starts
    exact ⟨token, _, rfl, by simp [startsStatement, starts]⟩

/-- A statement is accepted if the rule has as many levels left as the depth does. -/
theorem acceptsStatements_statementWithin {levels : Nat} (enough : maxDepth ≤ depth + levels) :
    AcceptsStatements (statementWithin levels) depth (IsStatement depth) where
  starts := IsStatement.starts
  accepts := by
    intro segment value next form noElif noElse
    induction levels generalizing depth segment value next with
    | zero =>
      rw [IsStatement] at form
      obtain ⟨within, -⟩ := form
      omega
    | succ levels ih =>
      rw [IsStatement] at form
      obtain ⟨within, form⟩ := form
      have inner :
          AcceptsStatements (statementWithin levels) (depth + 1) (IsStatement (depth + 1)) :=
        ⟨IsStatement.starts, ih (by omega)⟩
      exact (accepts_statementBy inner form noElif noElse).nested within

/-- A statement at the top level is accepted before every token. -/
theorem accepts_topLevelStatement {value : Statement} (form : IsTopLevel segment value) :
    Accepts topLevelStatement 0 segment value next := by
  refine accepts_currentKind_bind ?_
  have inner : AcceptsStatements statement 0 (IsStatement 0) :=
    acceptsStatements_statementWithin (Nat.le_add_left ..)
  cases form with
  | function form =>
    rw [form.firstKind_eq]
    exact accepts_functionStatement inner form
  | structType form =>
    rw [form.firstKind_eq]
    exact accepts_structStatement form
  | enumType form =>
    rw [form.firstKind_eq]
    exact accepts_enumStatement form
  | inNamespace isWord isName ends =>
    rw [firstKind_cons, isWord]
    exact accepts_namespaceStatement isName ends
  | usingNamespace isWord isName ends =>
    rw [firstKind_cons, isWord]
    exact accepts_usingStatement isName ends

end BraceLang.Parse
