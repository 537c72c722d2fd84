import BraceLang.Parse.Statement
import BraceLang.Proofs.CarefulRule

/-!
Every rule of the grammar is careful: a token is taken after its kind has been looked at, or it is
required, or it starts an expression, which the end of input cannot do. A rule for a statement at
the top level takes the word that it starts with, whatever follows.
-/
namespace BraceLang.Parse

open Rule

variable {Start : TokenKind → Prop} {inner : Rule Statement} {element : Rule Expression}
  {expressionAt : BindingPower → Rule Expression}

theorem careful_typeAfterName (name : String) : Careful Start (typeAfterName name) := by
  have pair : Careful (fun kind => (kind == .leftSquare) = true)
      (do let _ ← take; require .bracketPair) :=
    (careful_take (by simp)).bind fun _ => careful_require _
  exact pair.manyWhile.bind fun _ => .pure _

theorem careful_typeName (expectation : Expectation) : Careful Start (typeName expectation) :=
  (careful_require _).bind careful_typeAfterName

theorem careful_typeAfterColon : Careful Start typeAfterColon :=
  (careful_require _).bind fun _ => careful_typeName _

/-- The end of input starts no operand. -/
theorem operandStart_endOfInput {token : Token} (atEnd : token.kind = .endOfInput) :
    ∃ problem, operandStart token = .error problem :=
  ⟨operandProblem token, by simp [operandStart, atEnd, TokenKind.prefixRule?]⟩

theorem careful_operand (careful : ∀ least, Careful (fun _ => True) (expressionAt least)) :
    Careful Start (operand expressionAt) := by
  refine Careful.bind (.takeAs (fun token _ => operandStart_endOfInput) fun _ _ => id)
    fun start => ?_
  cases start with
  | complete value => exact .pure value
  | unary operator => exact (careful _).bind fun _ => .pure _
  | grouping => exact (careful _).bind fun _ => (careful_require _).bind fun _ => .pure _

theorem careful_arguments (careful : ∀ least, Careful (fun _ => True) (expressionAt least)) :
    Careful Start (arguments expressionAt) :=
  (careful _).itemsUpTo.bind fun _ => (careful_require _).bind fun _ => .pure _

theorem careful_continuation (careful : ∀ least, Careful (fun _ => True) (expressionAt least))
    (inside : ¬Start .endOfInput) (left : Expression) (rule : InfixRule) :
    Careful Start (continuation expressionAt left rule) := by
  refine (careful_take inside).bind fun token => ?_
  cases rule with
  | leftAssociative => exact (careful _).bind fun _ => .pure _
  | rightAssociative => exact (careful _).bind fun _ => .pure _
  | call => exact (careful_arguments careful).bind fun _ => .pure _
  | subscript => exact (careful _).bind fun _ => (careful_require _).bind fun _ => .pure _

theorem careful_operators (careful : ∀ least, Careful (fun _ => True) (expressionAt least))
    (least : BindingPower) : Careful Start (operators expressionAt least) := by
  refine (careful_operand careful).bind fun first => .iterate (fun left rule => ?_) first
  exact careful_continuation careful (by simp [TokenKind.infixRuleAbove?, TokenKind.infixRule?])
    left rule

theorem careful_expressionWithin (levels : Nat) (least : BindingPower) :
    Careful Start (expressionWithin levels least) := by
  induction levels generalizing least Start with
  | zero => exact .giveUp nofun
  | succ levels ih => exact (careful_operators ih least).nested

theorem careful_expression : Careful Start expression :=
  careful_expressionWithin maxDepth .lowest

theorem careful_arrayAfterBracket (careful : Careful (fun _ => True) element) :
    Careful Start (arrayAfterBracket element) :=
  careful.itemsUpTo.bind fun _ => (careful_require _).bind fun _ => .pure _

theorem careful_initializerBy (careful : Careful (fun _ => True) element) :
    Careful Start (initializerBy element) := by
  refine .look fun kind _ => ?_
  by_cases isBracket : kind = .leftSquare
  · rw [if_pos isBracket]
    exact (careful_take (by simp [isBracket])).bind fun _ => careful
  · rw [if_neg isBracket]
    exact careful_expression

theorem careful_initializerWithin (levels : Nat) : Careful Start (initializerWithin levels) := by
  induction levels generalizing Start with
  | zero => exact careful_initializerBy (.giveUp nofun)
  | succ levels ih => exact careful_initializerBy (careful_arrayAfterBracket ih).nested

theorem careful_block (careful : Careful (fun _ => True) inner) : Careful Start (block inner) :=
  (careful_require _).bind fun _ => careful.anywhere.manyWhile.bind fun _ =>
    (careful_require _).bind fun _ => .pure _

theorem careful_expressionUpToSemicolon : Careful Start expressionUpToSemicolon :=
  careful_expression.bind fun _ => (careful_require _).bind fun _ => .pure _

theorem careful_declarationStatement (inside : ¬Start .endOfInput) :
    Careful Start declarationStatement :=
  (careful_take inside).bind fun _ => (careful_require _).bind fun _ =>
    careful_typeAfterColon.bind fun _ => (careful_require _).bind fun _ =>
      (careful_initializerWithin maxDepth).bind fun _ => (careful_require _).bind fun _ => .pure _

theorem careful_clause (careful : Careful (fun _ => True) inner) (inside : ¬Start .endOfInput) :
    Careful Start (clause inner) :=
  (careful_take inside).bind fun _ => careful_expression.bind fun _ =>
    (careful_block careful).bind fun _ => .pure _

theorem careful_lastAlternative (careful : Careful (fun _ => True) inner) :
    Careful Start (lastAlternative inner) := by
  refine .look fun kind _ => ?_
  by_cases isElse : kind = .kwElse
  · rw [if_pos isElse]
    exact (careful_take (by simp [isElse])).bind fun _ =>
      (careful_block careful).bind fun _ => .pure _
  · rw [if_neg isElse]
    exact .pure _

theorem careful_alternative (careful : Careful (fun _ => True) inner) :
    Careful Start (alternative inner) :=
  (careful_clause careful (by simp)).manyWhile.bind fun _ =>
    (careful_lastAlternative careful).bind fun _ => .pure _

theorem careful_forStatement (careful : Careful (fun _ => True) inner)
    (inside : ¬Start .endOfInput) : Careful Start (forStatement inner) :=
  (careful_take inside).bind fun _ => careful_expression.bind fun _ =>
    (careful_require _).bind fun _ => careful_expression.bind fun _ =>
      (careful_require _).bind fun _ => careful_expression.bind fun _ =>
        (careful_block careful).bind fun _ => .pure _

theorem careful_typedName (expectation : Expectation) : Careful Start (typedName expectation) :=
  (careful_require _).bind fun _ => careful_typeAfterColon.bind fun _ => .pure _

theorem careful_field : Careful Start field :=
  (careful_typedName _).bind fun _ => (careful_require _).bind fun _ => .pure _

theorem careful_namesSeparated {α : Type} {item : Rule α} (careful : Careful (fun _ => True) item) :
    Careful Start (namesSeparated item) := by
  refine .look fun kind _ => ?_
  split
  · exact careful.separatedByCommas
  · exact .pure _

theorem careful_functionBody (careful : Careful (fun _ => True) inner) :
    Careful Start (functionBody inner) := by
  refine .look fun kind _ => ?_
  split
  · exact careful_block careful
  · exact (careful_take (by simp)).bind fun _ => careful_expression.bind fun _ =>
      (careful_require _).bind fun _ => .pure _
  · exact .giveUp nofun

/-- A rule that takes the current token first and is careful after it. -/
def CarefulAfterWord {α : Type} (rule : Rule α) : Prop :=
  ∃ next : Token → Rule α, rule = take >>= next ∧ ∀ token, Careful (fun _ => True) (next token)

theorem CarefulAfterWord.careful {α : Type} {rule : Rule α} (afterWord : CarefulAfterWord rule)
    (inside : ¬Start .endOfInput) : Careful Start rule := by
  obtain ⟨next, rfl, careful⟩ := afterWord
  exact (careful_take inside).bind careful

theorem carefulAfterWord_functionStatement (careful : Careful (fun _ => True) inner) :
    CarefulAfterWord (functionStatement inner) :=
  ⟨_, rfl, fun _ => (careful_require _).bind fun _ => (careful_require _).bind fun _ =>
    (careful_namesSeparated (careful_typedName _)).bind fun _ => (careful_require _).bind fun _ =>
      (careful_require _).bind fun _ => (careful_typeName _).bind fun _ =>
        (careful_functionBody careful).bind fun _ => .pure _⟩

theorem carefulAfterWord_structStatement : CarefulAfterWord structStatement :=
  ⟨_, rfl, fun _ => (careful_require _).bind fun _ => (careful_require _).bind fun _ =>
    careful_field.manyWhile.bind fun _ => (careful_require _).bind fun _ => .pure _⟩

theorem carefulAfterWord_enumStatement : CarefulAfterWord enumStatement :=
  ⟨_, rfl, fun _ => (careful_require _).bind fun _ => (careful_require _).bind fun _ =>
    (careful_namesSeparated (careful_require _)).bind fun _ => (careful_require _).bind fun _ =>
      .pure _⟩

theorem carefulAfterWord_namespaceStatement : CarefulAfterWord namespaceStatement :=
  ⟨_, rfl, fun _ => (careful_require _).bind fun _ => (careful_require _).bind fun _ => .pure _⟩

theorem carefulAfterWord_usingStatement : CarefulAfterWord usingStatement :=
  ⟨_, rfl, fun _ => (careful_require _).bind fun _ => (careful_require _).bind fun _ => .pure _⟩

theorem careful_statementBy (careful : Careful (fun _ => True) inner) :
    Careful Start (statementBy inner) := by
  refine .look fun kind _ => ?_
  split
  · exact (carefulAfterWord_functionStatement careful).careful (by simp)
  · exact carefulAfterWord_structStatement.careful (by simp)
  · exact carefulAfterWord_enumStatement.careful (by simp)
  · exact (careful_clause careful (by simp)).bind fun _ =>
      (careful_alternative careful).bind fun _ => .pure _
  · exact careful_declarationStatement (by simp)
  · exact careful_declarationStatement (by simp)
  · exact careful_forStatement careful (by simp)
  · exact (careful_clause careful (by simp)).bind fun _ => .pure _
  · exact (careful_take (by simp)).bind fun _ => careful_expressionUpToSemicolon.bind fun _ =>
      .pure _
  · exact (careful_take (by simp)).bind fun _ => careful_expressionUpToSemicolon.bind fun _ =>
      .pure _
  · exact careful_expressionUpToSemicolon.bind fun _ => .pure _

theorem careful_statementWithin (levels : Nat) : Careful Start (statementWithin levels) := by
  induction levels generalizing Start with
  | zero => exact .giveUp nofun
  | succ levels ih => exact (careful_statementBy ih).nested

/-- The words that a statement at the top level starts with. -/
def startsTopLevel : TokenKind → Bool
  | .kwFn | .kwStruct | .kwEnum | .kwNamespace | .kwUsing => true
  | _ => false

theorem ne_endOfInput_of_startsTopLevel {kind : TokenKind} (starts : startsTopLevel kind = true) :
    kind ≠ .endOfInput := by
  rintro rfl
  cases starts

/-- No operand starts with a word that starts a statement at the top level. -/
theorem operandStart_of_startsTopLevel {token : Token} (starts : startsTopLevel token.kind = true) :
    operandStart token = .error .notAnOperand := by
  obtain ⟨kind, text, position⟩ := token
  cases kind <;> first | rfl | cases starts

/-- At a word that starts a statement at the top level, the rule takes the word; at any other token
it gives up. -/
theorem topLevelStatement_cases (state : ParseState) :
    (startsTopLevel state.current.kind = true ∧ ∃ rule, CarefulAfterWord rule ∧
        topLevelStatement state = rule state) ∨
      (startsTopLevel state.current.kind = false ∧
        topLevelStatement state = giveUp .notTopLevel state) := by
  have inner : Careful (fun _ => True) statement := careful_statementWithin maxDepth
  let byKind : TokenKind → Rule Statement
    | .kwFn => functionStatement statement
    | .kwStruct => structStatement
    | .kwEnum => enumStatement
    | .kwNamespace => namespaceStatement
    | .kwUsing => usingStatement
    | _ => giveUp .notTopLevel
  have looked : topLevelStatement state = byKind state.current.kind state := rfl
  rw [looked]
  cases state.current.kind with
  | kwFn => exact .inl ⟨rfl, _, carefulAfterWord_functionStatement inner, rfl⟩
  | kwStruct => exact .inl ⟨rfl, _, carefulAfterWord_structStatement, rfl⟩
  | kwEnum => exact .inl ⟨rfl, _, carefulAfterWord_enumStatement, rfl⟩
  | kwNamespace => exact .inl ⟨rfl, _, carefulAfterWord_namespaceStatement, rfl⟩
  | kwUsing => exact .inl ⟨rfl, _, carefulAfterWord_usingStatement, rfl⟩
  | _ => exact .inr ⟨rfl, rfl⟩

theorem careful_topLevelStatement : Careful Start topLevelStatement := by
  have inner : Careful (fun _ => True) statement := careful_statementWithin maxDepth
  refine .look fun kind _ => ?_
  split
  · exact (carefulAfterWord_functionStatement inner).careful (by simp)
  · exact carefulAfterWord_structStatement.careful (by simp)
  · exact carefulAfterWord_enumStatement.careful (by simp)
  · exact carefulAfterWord_namespaceStatement.careful (by simp)
  · exact carefulAfterWord_usingStatement.careful (by simp)
  · exact .giveUp nofun

end BraceLang.Parse
