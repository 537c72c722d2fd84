import BraceLang.Proofs.ExpressionSegment

/-!
Nothing outside of the grammar is accepted. When a rule in a sound state gives a value, it has
passed a segment of its form: each of its parts has, and a repetition as many items as it has
collected. What is known of the first token settles which form that is.
-/
namespace BraceLang

namespace Rule

variable {α β : Type} {depth : Nat} {rule : Rule α} {Start : TokenKind → Prop}
  {Form : List Token → α → Prop} {Form' : List Token → β → Prop}

/-- Whatever a rule gives a value for, in a sound state at a depth and at a token with a kind in
`Start`, is a segment of a form. -/
def Gives (rule : Rule α) (Start : TokenKind → Prop) (depth : Nat)
    (Form : List Token → α → Prop) : Prop :=
  ∀ (state after : ParseState) (value : α), state.panicking = false → state.depth = depth →
    Start state.current.kind → rule state = (some value, after) →
    ∃ segment, state.Passes segment after ∧ Form segment value

theorem gives_pure {value : α} (form : Form [] value) : Gives (pure value) Start depth Form := by
  intro state after result _ _ _ ran
  cases ran
  exact ⟨[], .refl state, form⟩

theorem gives_giveUp (problem : Problem) : Gives (giveUp problem) Start depth Form := by
  intro state after value _ _ _ ran
  cases ran

/-- The segments that a rule passes may be said to have a weaker form. -/
theorem Gives.imp {Weaker : List Token → α → Prop} (gives : Gives rule Start depth Form)
    (implies : ∀ {segment value}, Form segment value → Weaker segment value) :
    Gives rule Start depth Weaker := by
  intro state after value sound level starts ran
  obtain ⟨segment, passes, form⟩ := gives state after value sound level starts ran
  exact ⟨segment, passes, implies form⟩

theorem Gives.bind {next : α → Rule β} (first : Gives rule Start depth Form)
    (second : ∀ {segment value}, Form segment value →
      Gives (next value) (fun _ => True) depth fun rest result => Form' (segment ++ rest) result) :
    Gives (rule >>= next) Start depth Form' := by
  intro state after result sound level starts ran
  obtain ⟨value, middle, ruleRan, ran⟩ := of_bind_value ran
  obtain ⟨segment, passes, form⟩ := first state middle value sound level starts ruleRan
  have sound' : middle.panicking = false := passes.panicking.trans sound
  have level' : middle.depth = depth := passes.depth.trans level
  obtain ⟨rest, passes', form'⟩ := second form middle after result sound' level' trivial ran
  exact ⟨_, passes.trans passes', form'⟩

/-- A sequence that ends in a value which is made from that of the first rule. -/
theorem Gives.bind_pure {result : α → β} (first : Gives rule Start depth Form)
    (ends : ∀ {segment value}, Form segment value → Form' segment (result value)) :
    Gives (do pure (result (← rule))) Start depth Form' :=
  first.bind fun {segment value} form => gives_pure (by simpa using ends form)

theorem gives_currentKind_bind {next : TokenKind → Rule β}
    (second : ∀ {kind}, Start kind → Gives (next kind) (· = kind) depth Form') :
    Gives (currentKind >>= next) Start depth Form' :=
  fun state after result sound level starts ran =>
    second starts state after result sound level rfl (of_currentKind_bind ran)

theorem gives_take_bind {next : Token → Rule β} (inside : ¬ Start .endOfInput)
    (second : ∀ {token : Token}, Start token.kind →
      Gives (next token) (fun _ => True) depth fun rest result =>
        Form' (token :: rest) result) :
    Gives (take >>= next) Start depth Form' := by
  intro state after result sound level starts ran
  obtain ⟨token, middle, took, ran⟩ := of_bind_value ran
  have notEnd : state.current.kind ≠ .endOfInput := fun atEnd => inside (atEnd ▸ starts)
  obtain ⟨passes, rfl⟩ := of_take_value took notEnd
  obtain ⟨rest, passes', form⟩ :=
    second starts middle after result (passes.panicking.trans sound) (passes.depth.trans level)
      trivial ran
  exact ⟨_, passes.trans passes', form⟩

theorem gives_require {expectation : Expectation} {Form : List Token → String → Prop}
    (form : ∀ {token : Token}, token.kind = expectation.kind → Form [token] token.text) :
    Gives (require expectation) Start depth Form := by
  intro state after text sound _ _ ran
  obtain ⟨token, passes, fits, rfl⟩ := of_require_value sound ran
  exact ⟨_, passes, form fits⟩

theorem gives_require_bind {expectation : Expectation} {next : String → Rule β}
    (second : ∀ {token : Token}, token.kind = expectation.kind →
      Gives (next token.text) (fun _ => True) depth fun rest result =>
        Form' (token :: rest) result) :
    Gives (require expectation >>= next) Start depth Form' := by
  intro state after result sound level _ ran
  obtain ⟨text, middle, required, ran⟩ := of_bind_value ran
  obtain ⟨token, passes, fits, rfl⟩ := of_require_value sound required
  obtain ⟨rest, passes', form⟩ :=
    second fits middle after result (passes.panicking.trans sound) (passes.depth.trans level)
      trivial ran
  exact ⟨_, passes.trans passes', form⟩

theorem Gives.nested (inner : Gives rule Start (depth + 1) Form) :
    Gives (nested rule) Start depth fun segment value => depth < maxDepth ∧ Form segment value := by
  intro state after value sound level starts ran
  obtain ⟨within, inside, innerRan, rfl⟩ := of_nested_value ran
  have sound' : state.deeper.panicking = false := sound
  have level' : state.deeper.depth = depth + 1 := congrArg (· + 1) level
  obtain ⟨segment, passes, form⟩ := inner _ _ _ sound' level' starts innerRan
  exact ⟨segment, passes.of_deeper, level ▸ within, form⟩

theorem Gives.manyWhile {continues : TokenKind → Bool}
    (item : Gives rule (continues · = true) depth Form) :
    Gives (manyWhile continues rule) Start depth (Many Form) :=
  fun _ _ _ sound level _ ran =>
    of_manyWhile_value Form sound ran fun sound' level' continued itemRan =>
      item _ _ _ sound' (level'.trans level) continued itemRan

theorem Gives.separatedByCommas (item : Gives rule (fun _ => True) depth Form) :
    Gives (separatedByCommas rule) Start depth (Separated Form) :=
  fun _ _ _ sound level _ ran =>
    of_separatedByCommas_value Form sound ran fun sound' level' itemRan =>
      item _ _ _ sound' (level'.trans level) trivial itemRan

theorem Gives.itemsUpTo {closing : TokenKind} (item : Gives rule (fun _ => True) depth Form) :
    Gives (itemsUpTo closing rule) Start depth (Listed Form) :=
  fun _ _ _ sound level _ ran =>
    of_itemsUpTo_value Form sound ran fun sound' level' itemRan =>
      item _ _ _ sound' (level'.trans level) trivial itemRan

end Rule

namespace Parse

open Rule

variable {depth : Nat} {Start : TokenKind → Prop}

theorem gives_expression : Gives expression Start depth (IsExpression depth) := by
  intro state after value sound level _ ran
  obtain ⟨segment, passes, expression, denotes, -⟩ :=
    givesFitting_expressionWithin maxDepth depth sound level ran
  exact ⟨segment, passes, isExpression_iff.mpr ⟨expression, denotes⟩⟩

theorem gives_bracketPair :
    Gives (do let _ ← take; require .bracketPair) (fun kind => (kind == .leftSquare) = true) depth
      IsBracketPair := by
  apply gives_take_bind
  · simp
  intro opening opens
  have isOpening : opening.kind = .leftSquare := by simpa using opens
  exact gives_require fun closes => .intro isOpening closes

theorem gives_typeName {expectation : Expectation} (requires : expectation.kind = .identifier) :
    Gives (typeName expectation) Start depth IsType := by
  apply gives_require_bind
  intro name isName
  exact gives_bracketPair.manyWhile.bind_pure fun pairs => .intro (isName.trans requires) pairs

theorem gives_typeAfterColon :
    Gives typeAfterColon Start depth fun segment valueType =>
      ∃ colon rest, segment = colon :: rest ∧ colon.kind = .colon ∧ IsType rest valueType := by
  apply gives_require_bind
  intro colon isColon
  apply (gives_typeName rfl).imp
  intro segment valueType type
  exact ⟨colon, segment, rfl, isColon, type⟩

theorem gives_typedName {expectation : Expectation} (requires : expectation.kind = .identifier) :
    Gives (typedName expectation) Start depth IsTypedName := by
  apply gives_require_bind
  intro name isName
  apply gives_typeAfterColon.bind_pure
  rintro segment valueType ⟨colon, rest, rfl, isColon, type⟩
  exact .intro (isName.trans requires) isColon type

theorem gives_field : Gives field Start depth IsField := by
  apply (gives_typedName rfl).bind
  intro segment typed form
  apply gives_require_bind
  intro semicolon ends
  exact gives_pure (.intro form ends)

theorem gives_structStatement : Gives structStatement (· = .kwStruct) depth IsStruct := by
  apply gives_take_bind
  · simp
  intro word isWord
  apply gives_require_bind
  intro name isName
  apply gives_require_bind
  intro opening opens
  apply gives_field.manyWhile.bind
  intro segment values fields
  apply gives_require_bind
  intro close closes
  exact gives_pure (.intro isWord isName opens fields closes)

theorem gives_namesSeparated {α : Type} {item : Rule α} {Form : List Token → α → Prop}
    (each : Gives item (fun _ => True) depth Form) :
    Gives (namesSeparated item) Start depth (Listed Form) := by
  apply gives_currentKind_bind
  intro kind _
  split
  · exact each.separatedByCommas.imp .inr
  · exact gives_pure (.inl ⟨rfl, rfl⟩)

theorem gives_enumStatement : Gives enumStatement (· = .kwEnum) depth IsEnum := by
  apply gives_take_bind
  · simp
  intro word isWord
  apply gives_require_bind
  intro name isName
  apply gives_require_bind
  intro opening opens
  have constant : Gives (require .constantName) (fun _ => True) depth IsName := gives_require .intro
  apply (gives_namesSeparated constant).bind
  intro segment values constants
  apply gives_require_bind
  intro close closes
  exact gives_pure (.intro isWord isName opens constants closes)

theorem gives_namespaceStatement :
    Gives namespaceStatement (· = .kwNamespace) depth IsTopLevel := by
  apply gives_take_bind
  · simp
  intro word isWord
  apply gives_require_bind
  intro name isName
  apply gives_require_bind
  intro semicolon ends
  exact gives_pure (.inNamespace isWord isName ends)

theorem gives_usingStatement : Gives usingStatement (· = .kwUsing) depth IsTopLevel := by
  apply gives_take_bind
  · simp
  intro word isWord
  apply gives_require_bind
  intro name isName
  apply gives_require_bind
  intro semicolon ends
  exact gives_pure (.usingNamespace isWord isName ends)

theorem gives_initializerBy {array : Rule Expression}
    (inside : ∀ {opening : Token}, opening.kind = .leftSquare → Gives array (fun _ => True) depth
      fun segment value => IsInitializer depth (opening :: segment) value) :
    Gives (initializerBy array) Start depth (IsInitializer depth) := by
  apply gives_currentKind_bind
  intro kind _
  by_cases isBracket : kind = .leftSquare
  · rw [if_pos isBracket]
    apply gives_take_bind
    · simp [isBracket]
    intro opening opens
    exact inside (opens.trans isBracket)
  · rw [if_neg isBracket]
    apply gives_expression.imp
    intro segment value expression
    rw [IsInitializer]
    exact .inl expression

theorem gives_initializerWithin (levels : Nat) :
    Gives (initializerWithin levels) Start depth (IsInitializer depth) := by
  induction levels generalizing depth Start with
  | zero => exact gives_initializerBy fun _ => gives_giveUp _
  | succ levels ih =>
    apply gives_initializerBy
    intro opening opens
    have array : Gives (arrayAfterBracket (initializerWithin levels)) (fun _ => True) (depth + 1)
        fun segment value => ∃ inside close elements, segment = inside ++ [close] ∧
          close.kind = .rightSquare ∧ Listed (IsInitializer (depth + 1)) inside elements ∧
          value = .array elements := by
      apply ih.itemsUpTo.bind
      intro inside elements items
      apply gives_require_bind
      intro close closes
      exact gives_pure ⟨inside, close, elements, rfl, closes, items, rfl⟩
    apply array.nested.imp
    rintro segment value ⟨within, inside, close, elements, rfl, closes, items, rfl⟩
    rw [IsInitializer]
    exact .inr ⟨within, opening, inside, close, elements, rfl, opens, closes, items, rfl⟩

theorem gives_declarationStatement
    (words : ∀ {kind}, Start kind → kind = .kwLet ∨ kind = .kwConst) :
    Gives declarationStatement Start depth (IsDeclaration depth) := by
  apply gives_take_bind
  · intro atEnd
    simpa using words atEnd
  intro word isWord
  apply gives_require_bind
  intro name isName
  apply gives_typeAfterColon.bind
  rintro segment valueType ⟨colon, rest, rfl, isColon, type⟩
  apply gives_require_bind
  intro assign isAssign
  apply (gives_initializerWithin maxDepth).bind
  intro segment value initial
  apply gives_require_bind
  intro semicolon ends
  exact gives_pure (.intro (words isWord) isName isColon type isAssign initial ends)

theorem gives_expressionUpToSemicolon :
    Gives expressionUpToSemicolon Start depth (IsExpressionUpToSemicolon depth) := by
  apply gives_expression.bind
  intro segment value inner
  apply gives_require_bind
  intro semicolon ends
  exact gives_pure (.intro inner ends)

section

variable {inner : Rule Statement} {Inner : List Token → Statement → Prop}

theorem gives_block (each : ∀ {Start}, Gives inner Start depth Inner) :
    Gives (block inner) Start depth (IsBlock Inner) := by
  apply gives_require_bind
  intro opening opens
  apply each.manyWhile.bind
  intro segment values body
  apply gives_require_bind
  intro close closes
  exact gives_pure (.intro opens body closes)

theorem gives_clause {word : TokenKind} (each : ∀ {Start}, Gives inner Start depth Inner)
    (inside : word ≠ .endOfInput) :
    Gives (clause inner) (· = word) depth (IsClause depth Inner word) := by
  apply gives_take_bind
  · exact fun atEnd => inside atEnd.symm
  intro token isWord
  apply gives_expression.bind
  intro first value condition
  exact (gives_block each).bind_pure fun body => .intro isWord condition body

theorem gives_lastAlternative (each : ∀ {Start}, Gives inner Start depth Inner) :
    Gives (lastAlternative inner) Start depth (IsLastAlternative Inner) := by
  apply gives_currentKind_bind
  intro kind _
  by_cases isElse : kind = .kwElse
  · rw [if_pos isElse]
    apply gives_take_bind
    · simp [isElse]
    intro word isWord
    exact (gives_block each).bind_pure fun body => .otherwise (isWord.trans isElse) body
  · rw [if_neg isElse]
    exact gives_pure .absent

theorem gives_alternative (each : ∀ {Start}, Gives inner Start depth Inner) :
    Gives (alternative inner) Start depth fun segment value =>
      ∃ further last others final, segment = further ++ last ∧
        Many (IsClause depth Inner .kwElif) further others ∧ IsLastAlternative Inner last final ∧
        value = .elseIfs others final := by
  have clauseGives : Gives (clause inner) (fun kind => (kind == .kwElif) = true) depth
      (IsClause depth Inner .kwElif) := by
    simpa using gives_clause each (by simp)
  apply clauseGives.manyWhile.bind
  intro further others clauses
  apply (gives_lastAlternative each).bind_pure
  intro last final isLast
  exact ⟨further, last, others, final, rfl, clauses, isLast, rfl⟩

theorem gives_conditionalStatement (each : ∀ {Start}, Gives inner Start depth Inner) :
    Gives (conditionalStatement inner) (· = .kwIf) depth (IsConditional depth Inner) := by
  apply (gives_clause each (by simp)).bind
  intro first value clause
  apply (gives_alternative each).bind_pure
  rintro segment value ⟨further, last, others, final, rfl, clauses, isLast, rfl⟩
  exact .intro clause clauses isLast

theorem gives_forStatement (each : ∀ {Start}, Gives inner Start depth Inner) :
    Gives (forStatement inner) (· = .kwFor) depth (IsForLoop depth Inner) := by
  apply gives_take_bind
  · simp
  intro word isWord
  apply gives_expression.bind
  intro first start initial
  apply gives_require_bind
  intro semicolon endsInitial
  apply gives_expression.bind
  intro second test condition
  apply gives_require_bind
  intro semicolon' endsCondition
  apply gives_expression.bind
  intro third change modifier
  apply (gives_block each).bind_pure
  intro fourth statements body
  exact .intro isWord initial endsInitial condition endsCondition modifier body

theorem gives_functionBody (each : ∀ {Start}, Gives inner Start depth Inner) :
    Gives (functionBody inner) Start depth (IsFunctionBody depth Inner) := by
  apply gives_currentKind_bind
  intro kind _
  split
  · exact (gives_block each).imp .block
  · apply gives_take_bind
    · simp
    intro arrow isArrow
    apply gives_expression.bind
    intro segment value result
    apply gives_require_bind
    intro semicolon ends
    exact gives_pure (.inline isArrow result ends)
  · exact gives_giveUp _

theorem gives_functionStatement (each : ∀ {Start}, Gives inner Start depth Inner) :
    Gives (functionStatement inner) (· = .kwFn) depth (IsFunction depth Inner) := by
  apply gives_take_bind
  · simp
  intro word isWord
  apply gives_require_bind
  intro name isName
  apply gives_require_bind
  intro opening opens
  apply (gives_namesSeparated (gives_typedName rfl)).bind
  intro first values parameters
  apply gives_require_bind
  intro close closes
  apply gives_require_bind
  intro arrow isArrow
  apply (gives_typeName rfl).bind
  intro second valueType type
  apply (gives_functionBody each).bind_pure
  intro third statements body
  exact .intro isWord isName opens parameters closes isArrow type body

/-- Whichever form the first token settles, its rule gives a statement of that form. -/
theorem gives_statementBy (each : ∀ {Start}, Gives inner Start depth Inner) :
    Gives (statementBy inner) Start depth (IsStatementForm depth Inner) := by
  apply gives_currentKind_bind
  intro kind _
  split
  · exact (gives_functionStatement each).imp .function
  · exact gives_structStatement.imp .structType
  · exact gives_enumStatement.imp .enumType
  · exact (gives_conditionalStatement each).imp .conditional
  · exact (gives_declarationStatement .inl).imp .declaration
  · exact (gives_declarationStatement .inr).imp .declaration
  · exact (gives_forStatement each).imp .forLoop
  · exact (gives_clause each (by simp)).bind_pure .whileLoop
  · exact gives_take_bind (by simp) fun isWord =>
      gives_expressionUpToSemicolon.bind_pure fun form => .returned isWord form
  · exact gives_take_bind (by simp) fun isWord =>
      gives_expressionUpToSemicolon.bind_pure fun form => .print isWord form
  · exact gives_expressionUpToSemicolon.bind_pure .expression

end

theorem gives_statementWithin (levels : Nat) :
    Gives (statementWithin levels) Start depth (IsStatement depth) := by
  induction levels generalizing depth Start with
  | zero => exact gives_giveUp _
  | succ levels ih =>
    apply (gives_statementBy ih).nested.imp
    rintro segment value ⟨within, form⟩
    rw [IsStatement]
    exact ⟨within, form⟩

theorem gives_topLevelStatement : Gives topLevelStatement Start 0 IsTopLevel := by
  have inner : ∀ {Start}, Gives statement Start 0 (IsStatement 0) := gives_statementWithin maxDepth
  apply gives_currentKind_bind
  intro kind _
  split
  · exact (gives_functionStatement inner).imp .function
  · exact gives_structStatement.imp .structType
  · exact gives_enumStatement.imp .enumType
  · exact gives_namespaceStatement
  · exact gives_usingStatement
  · exact gives_giveUp _

end Parse

end BraceLang
