import BraceLang.Parse.Statement
import BraceLang.Proofs.RuleOutcome

/-!
Every rule of the grammar reports properly: a value and a problem exclude each other, a problem is
reported once and where it is, and nesting stays within its limit. A rule for a statement or a
block, moreover, gives nothing while a panic lasts, since each way through it requires a token.
-/
namespace BraceLang.Parse

open Rule

variable {inner : Rule Statement} {element : Rule Expression}
  {expressionAt : BindingPower → Rule Expression}

theorem accountable_typeAfterName (name : String) : Accountable (typeAfterName name) :=
  (Accountable.manyWhile _ (accountable_take.bind fun _ => accountable_require _)).bind fun _ =>
    accountable_pure _

theorem accountable_typeName (expectation : Expectation) : Accountable (typeName expectation) :=
  (accountable_require _).bind accountable_typeAfterName

theorem accountable_typeAfterColon : Accountable typeAfterColon :=
  (accountable_require _).bind fun _ => accountable_typeName _

theorem accountable_operand (accountable : ∀ least, Accountable (expressionAt least)) :
    Accountable (operand expressionAt) := by
  refine (accountable_takeAs _).bind fun start => ?_
  cases start with
  | complete value => exact accountable_pure value
  | unary operator => exact (accountable _).bind fun _ => accountable_pure _
  | grouping =>
    exact (accountable _).bind fun _ => (accountable_require _).bind fun _ => accountable_pure _

theorem accountable_arguments (accountable : ∀ least, Accountable (expressionAt least)) :
    Accountable (arguments expressionAt) :=
  (accountable _).itemsUpTo.bind fun _ => (accountable_require _).bind fun _ => accountable_pure _

theorem accountable_continuation (accountable : ∀ least, Accountable (expressionAt least))
    (left : Expression) (rule : InfixRule) : Accountable (continuation expressionAt left rule) := by
  refine accountable_take.bind fun token => ?_
  cases rule with
  | leftAssociative => exact (accountable _).bind fun _ => accountable_pure _
  | rightAssociative => exact (accountable _).bind fun _ => accountable_pure _
  | call => exact (accountable_arguments accountable).bind fun _ => accountable_pure _
  | subscript =>
    exact (accountable _).bind fun _ => (accountable_require _).bind fun _ => accountable_pure _

theorem accountable_operators (accountable : ∀ least, Accountable (expressionAt least))
    (least : BindingPower) : Accountable (operators expressionAt least) :=
  (accountable_operand accountable).bind fun first =>
    .iterate (accountable_continuation accountable) first

theorem accountable_expressionWithin (levels : Nat) (least : BindingPower) :
    Accountable (expressionWithin levels least) := by
  induction levels generalizing least with
  | zero => exact accountable_giveUp _
  | succ levels ih => exact (accountable_operators ih least).nested

theorem accountable_expressionAbove (least : BindingPower) :
    Accountable (expressionAbove least) :=
  accountable_expressionWithin maxDepth least

theorem accountable_expression : Accountable expression :=
  accountable_expressionAbove .lowest

theorem accountable_arrayAfterBracket (accountable : Accountable element) :
    Accountable (arrayAfterBracket element) :=
  accountable.itemsUpTo.bind fun _ => (accountable_require _).bind fun _ => accountable_pure _

theorem accountable_initializerBy (accountable : Accountable element) :
    Accountable (initializerBy element) :=
  accountable_currentKind.bind fun _ =>
    accountable_ite (accountable_take.bind fun _ => accountable) accountable_expression

theorem accountable_initializerWithin (levels : Nat) :
    Accountable (initializerWithin levels) := by
  induction levels with
  | zero => exact accountable_initializerBy (accountable_giveUp _)
  | succ levels ih => exact accountable_initializerBy (accountable_arrayAfterBracket ih).nested

theorem accountable_initializer : Accountable initializer :=
  accountable_initializerWithin maxDepth

theorem accountable_arrayLiteral : Accountable arrayLiteral :=
  accountable_arrayAfterBracket accountable_initializer

theorem accountable_block (accountable : Accountable inner) : Accountable (block inner) :=
  (accountable_require _).bind fun _ => (accountable.manyWhile _).bind fun _ =>
    (accountable_require _).bind fun _ => accountable_pure _

theorem refusing_block : Refusing (block inner) :=
  (refusing_require _).bind _

theorem accountable_expressionUpToSemicolon : Accountable expressionUpToSemicolon :=
  accountable_expression.bind fun _ => (accountable_require _).bind fun _ => accountable_pure _

theorem refusing_expressionUpToSemicolon : Refusing expressionUpToSemicolon :=
  accountable_expression.bind_refusing fun _ => (refusing_require _).bind _

theorem accountable_declarationStatement : Accountable declarationStatement :=
  accountable_take.bind fun _ => (accountable_require _).bind fun _ =>
    accountable_typeAfterColon.bind fun _ => (accountable_require _).bind fun _ =>
      accountable_initializer.bind fun _ => (accountable_require _).bind fun _ =>
        accountable_pure _

theorem accountable_clause (accountable : Accountable inner) : Accountable (clause inner) :=
  accountable_take.bind fun _ => accountable_expression.bind fun _ =>
    (accountable_block accountable).bind fun _ => accountable_pure _

theorem refusing_clause : Refusing (clause inner) :=
  accountable_take.bind_refusing fun _ => accountable_expression.bind_refusing fun _ =>
    refusing_block.bind _

theorem accountable_lastAlternative (accountable : Accountable inner) :
    Accountable (lastAlternative inner) :=
  accountable_currentKind.bind fun _ =>
    accountable_ite
      (accountable_take.bind fun _ => (accountable_block accountable).bind fun _ =>
        accountable_pure _)
      (accountable_pure _)

theorem accountable_alternative (accountable : Accountable inner) :
    Accountable (alternative inner) :=
  ((accountable_clause accountable).manyWhile _).bind fun _ =>
    (accountable_lastAlternative accountable).bind fun _ => accountable_pure _

theorem accountable_forStatement (accountable : Accountable inner) :
    Accountable (forStatement inner) :=
  accountable_take.bind fun _ => accountable_expression.bind fun _ =>
    (accountable_require _).bind fun _ => accountable_expression.bind fun _ =>
      (accountable_require _).bind fun _ => accountable_expression.bind fun _ =>
        (accountable_block accountable).bind fun _ => accountable_pure _

theorem accountable_typedName (expectation : Expectation) :
    Accountable (typedName expectation) :=
  (accountable_require _).bind fun _ => accountable_typeAfterColon.bind fun _ =>
    accountable_pure _

theorem accountable_field : Accountable field :=
  (accountable_typedName _).bind fun _ => (accountable_require _).bind fun _ => accountable_pure _

theorem accountable_structStatement : Accountable structStatement :=
  accountable_take.bind fun _ => (accountable_require _).bind fun _ =>
    (accountable_require _).bind fun _ => (accountable_field.manyWhile _).bind fun _ =>
      (accountable_require _).bind fun _ => accountable_pure _

theorem accountable_namesSeparated {α : Type} {item : Rule α} (accountable : Accountable item) :
    Accountable (namesSeparated item) :=
  accountable_currentKind.bind fun _ =>
    accountable_ite accountable.separatedByCommas (accountable_pure _)

theorem accountable_enumStatement : Accountable enumStatement :=
  accountable_take.bind fun _ => (accountable_require _).bind fun _ =>
    (accountable_require _).bind fun _ =>
      (accountable_namesSeparated (accountable_require _)).bind fun _ =>
        (accountable_require _).bind fun _ => accountable_pure _

theorem accountable_functionBody (accountable : Accountable inner) :
    Accountable (functionBody inner) := by
  refine accountable_currentKind.bind fun kind => ?_
  split
  · exact accountable_block accountable
  · exact accountable_take.bind fun _ => accountable_expression.bind fun _ =>
      (accountable_require _).bind fun _ => accountable_pure _
  · exact accountable_giveUp _

theorem accountable_functionStatement (accountable : Accountable inner) :
    Accountable (functionStatement inner) :=
  accountable_take.bind fun _ => (accountable_require _).bind fun _ =>
    (accountable_require _).bind fun _ =>
      (accountable_namesSeparated (accountable_typedName _)).bind fun _ =>
        (accountable_require _).bind fun _ => (accountable_require _).bind fun _ =>
          (accountable_typeName _).bind fun _ =>
            (accountable_functionBody accountable).bind fun _ => accountable_pure _

theorem accountable_namespaceStatement : Accountable namespaceStatement :=
  accountable_take.bind fun _ => (accountable_require _).bind fun _ =>
    (accountable_require _).bind fun _ => accountable_pure _

theorem accountable_usingStatement : Accountable usingStatement :=
  accountable_take.bind fun _ => (accountable_require _).bind fun _ =>
    (accountable_require _).bind fun _ => accountable_pure _

/-- Every form of a statement that starts with a word of its own requires a name next. -/
theorem refusing_take_require {α : Type} {expectation : Token → Expectation}
    {next : Token → String → Rule α} :
    Refusing (take >>= fun token => require (expectation token) >>= next token) :=
  accountable_take.bind_refusing fun token => (refusing_require (expectation token)).bind _

theorem accountable_statementBy (accountable : Accountable inner) :
    Accountable (statementBy inner) := by
  refine accountable_currentKind.bind fun kind => ?_
  split
  · exact accountable_functionStatement accountable
  · exact accountable_structStatement
  · exact accountable_enumStatement
  · exact (accountable_clause accountable).bind fun _ =>
      (accountable_alternative accountable).bind fun _ => accountable_pure _
  · exact accountable_declarationStatement
  · exact accountable_declarationStatement
  · exact accountable_forStatement accountable
  · exact (accountable_clause accountable).bind fun _ => accountable_pure _
  · exact accountable_take.bind fun _ => accountable_expressionUpToSemicolon.bind fun _ =>
      accountable_pure _
  · exact accountable_take.bind fun _ => accountable_expressionUpToSemicolon.bind fun _ =>
      accountable_pure _
  · exact accountable_expressionUpToSemicolon.bind fun _ => accountable_pure _

theorem refusing_statementBy : Refusing (statementBy inner) := by
  refine accountable_currentKind.bind_refusing fun kind => ?_
  split
  · exact refusing_take_require
  · exact refusing_take_require
  · exact refusing_take_require
  · exact refusing_clause.bind _
  · exact refusing_take_require
  · exact refusing_take_require
  · exact accountable_take.bind_refusing fun _ => accountable_expression.bind_refusing fun _ =>
      (refusing_require _).bind _
  · exact refusing_clause.bind _
  · exact accountable_take.bind_refusing fun _ => refusing_expressionUpToSemicolon.bind _
  · exact accountable_take.bind_refusing fun _ => refusing_expressionUpToSemicolon.bind _
  · exact refusing_expressionUpToSemicolon.bind _

theorem accountable_statementWithin (levels : Nat) : Accountable (statementWithin levels) := by
  induction levels with
  | zero => exact accountable_giveUp _
  | succ levels ih => exact (accountable_statementBy ih).nested

theorem accountable_statement : Accountable statement :=
  accountable_statementWithin maxDepth

theorem refusing_statement : Refusing statement :=
  refusing_statementBy.nested

theorem accountable_topLevelStatement : Accountable topLevelStatement := by
  refine accountable_currentKind.bind fun kind => ?_
  split
  · exact accountable_functionStatement accountable_statement
  · exact accountable_structStatement
  · exact accountable_enumStatement
  · exact accountable_namespaceStatement
  · exact accountable_usingStatement
  · exact accountable_giveUp _

theorem refusing_topLevelStatement : Refusing topLevelStatement := by
  refine accountable_currentKind.bind_refusing fun kind => ?_
  split
  · exact refusing_take_require
  · exact refusing_take_require
  · exact refusing_take_require
  · exact refusing_take_require
  · exact refusing_take_require
  · exact refusing_giveUp _

/-- Outcome and panic agree for every rule that can be run by itself, on every token buffer and in
every state of reading it. The rules for statements and blocks, moreover, give nothing while a
panic lasts. -/
theorem rules_report_properly :
    Accountable expression ∧ (∀ least, Accountable (expressionAbove least)) ∧
    Accountable initializer ∧ Accountable arrayLiteral ∧
    (∀ name, Accountable (typeAfterName name)) ∧
    (∀ expectation, Accountable (typeName expectation)) ∧
    (Accountable statement ∧ Refusing statement) ∧
    (Accountable (block statement) ∧ Refusing (block statement)) ∧
    (Accountable topLevelStatement ∧ Refusing topLevelStatement) :=
  ⟨accountable_expression, accountable_expressionAbove, accountable_initializer,
    accountable_arrayLiteral, accountable_typeAfterName, accountable_typeName,
    ⟨accountable_statement, refusing_statement⟩,
    ⟨accountable_block accountable_statement, refusing_block⟩,
    accountable_topLevelStatement, refusing_topLevelStatement⟩

end BraceLang.Parse
