import BraceLang.Proofs.SourceRoundTrip
import BraceLang.Proofs.WellFormedTree

/-!
Heights of trees. Every expression between brackets or after an operator, every statement in a block
and every array literal inside another one is read one level deeper than what holds it, and levels
are limited; what is read on the left of an operator, a call or a subscript is not. So a tree is
hardly higher than the limit times the length of its longest chain of left operands
(`IsTopLevel.height_le`), and such a chain may be as long as its text (`parseSource_sumFunction`).
-/
namespace BraceLang

/-! ## The number of nodes on the longest way down -/

mutual

/-- The height of the tree of an expression. -/
def Expression.height : Expression → Nat
  | .array elements => 1 + Expression.heightOfAll elements
  | .unary _ operand => 1 + operand.height
  | .binary left _ right => 1 + max left.height right.height
  | .call callee arguments => 1 + max callee.height (Expression.heightOfAll arguments)
  | .subscript base index => 1 + max base.height index.height
  | _ => 1

/-- The height of the highest of some expressions. -/
def Expression.heightOfAll : List Expression → Nat
  | [] => 0
  | first :: others => max first.height (Expression.heightOfAll others)

end

mutual

/-- The height of the tree of a statement. The bodies of a conditional and of all its alternatives
are one step below it. -/
def Statement.height : Statement → Nat
  | .expression value | .print value | .returned value | .declaration _ _ _ value =>
    1 + value.height
  | .block body => Statement.heightOfBlock body
  | .conditional condition body alternative =>
    1 + max condition.height (max (Statement.heightOfBlock body) alternative.height)
  | .whileLoop condition body => 1 + max condition.height (Statement.heightOfBlock body)
  | .forLoop initializer condition modifier body =>
    1 + max initializer.height
      (max condition.height (max modifier.height (Statement.heightOfBlock body)))
  | .function _ _ _ body => 1 + Statement.heightOfBlock body
  | .structType .. | .enumType .. | .inNamespace _ | .usingNamespace _ => 1

/-- The height of what follows the body of a conditional. -/
def Alternative.height : Alternative → Nat
  | .absent => 0
  | .elseIf condition body alternative =>
    max condition.height (max (Statement.heightOfBlock body) alternative.height)
  | .otherwise body => Statement.heightOfBlock body

/-- The height of a block, the block included. -/
def Statement.heightOfBlock : List Statement → Nat
  | [] => 1
  | first :: others => max (1 + first.height) (Statement.heightOfBlock others)

end

/-! ## The number of steps to a left operand, a callee or a subscripted array -/

/-- The length of the chain that an expression starts. -/
def Expression.chain : Expression → Nat
  | .binary left _ _ => 1 + left.chain
  | .call callee _ => 1 + callee.chain
  | .subscript base _ => 1 + base.chain
  | _ => 0

mutual

/-- The length of the longest chain in an expression. -/
def Expression.longestChain : Expression → Nat
  | .array elements => Expression.longestChainOfAll elements
  | .unary _ operand => operand.longestChain
  | .binary left _ right => max (1 + left.chain) (max left.longestChain right.longestChain)
  | .call callee arguments =>
    max (1 + callee.chain) (max callee.longestChain (Expression.longestChainOfAll arguments))
  | .subscript base index => max (1 + base.chain) (max base.longestChain index.longestChain)
  | _ => 0

/-- The length of the longest chain in some expressions. -/
def Expression.longestChainOfAll : List Expression → Nat
  | [] => 0
  | first :: others => max first.longestChain (Expression.longestChainOfAll others)

end

mutual

/-- The length of the longest chain in a statement. -/
def Statement.longestChain : Statement → Nat
  | .expression value | .print value | .returned value | .declaration _ _ _ value =>
    value.longestChain
  | .block body | .function _ _ _ body => Statement.longestChainOfAll body
  | .conditional condition body alternative =>
    max condition.longestChain (max (Statement.longestChainOfAll body) alternative.longestChain)
  | .whileLoop condition body => max condition.longestChain (Statement.longestChainOfAll body)
  | .forLoop initializer condition modifier body =>
    max initializer.longestChain (max condition.longestChain
      (max modifier.longestChain (Statement.longestChainOfAll body)))
  | .structType .. | .enumType .. | .inNamespace _ | .usingNamespace _ => 0

/-- The length of the longest chain in what follows the body of a conditional. -/
def Alternative.longestChain : Alternative → Nat
  | .absent => 0
  | .elseIf condition body alternative =>
    max condition.longestChain (max (Statement.longestChainOfAll body) alternative.longestChain)
  | .otherwise body => Statement.longestChainOfAll body

/-- The length of the longest chain in some statements. -/
def Statement.longestChainOfAll : List Statement → Nat
  | [] => 0
  | first :: others => max first.longestChain (Statement.longestChainOfAll others)

end

namespace Expression

theorem chain_le_longestChain (expression : Expression) :
    expression.chain ≤ expression.longestChain := by
  cases expression with
  | binary | call | subscript =>
    rw [chain, longestChain]
    exact Nat.le_max_left ..
  | _ => exact Nat.zero_le _

theorem chain_lt_height (expression : Expression) : expression.chain < expression.height := by
  match expression with
  | .binary left _ _ | .call left _ | .subscript left _ =>
    have inside := chain_lt_height left
    rw [chain, height]
    omega
  | .unary .. | .array .. => exact Nat.lt_of_lt_of_le Nat.zero_lt_one (Nat.le_add_right ..)
  | .identifier _ | .bool _ | .object _ | .string _ | .float _ | .int _ | .char _ | .typeName _ =>
    exact Nat.zero_lt_one

mutual

/-- A chain is a way down. -/
theorem longestChain_lt_height (expression : Expression) :
    expression.longestChain < expression.height := by
  match expression with
  | .array elements =>
    have inside := longestChainOfAll_le elements
    rw [longestChain, height]
    omega
  | .unary _ operand =>
    have inside := longestChain_lt_height operand
    rw [longestChain, height]
    omega
  | .binary left _ right | .subscript left right =>
    have first := longestChain_lt_height left
    have second := longestChain_lt_height right
    have down := left.chain_lt_height
    rw [longestChain, height]
    omega
  | .call callee arguments =>
    have first := longestChain_lt_height callee
    have inside := longestChainOfAll_le arguments
    have down := callee.chain_lt_height
    rw [longestChain, height]
    omega
  | .identifier _ | .bool _ | .object _ | .string _ | .float _ | .int _ | .char _ | .typeName _ =>
    exact Nat.zero_lt_one

theorem longestChainOfAll_le (expressions : List Expression) :
    longestChainOfAll expressions ≤ heightOfAll expressions := by
  match expressions with
  | [] => exact Nat.le_refl 0
  | first :: others =>
    have inside := longestChain_lt_height first
    have rest := longestChainOfAll_le others
    rw [longestChainOfAll, heightOfAll]
    omega

end

end Expression

mutual

theorem Statement.longestChain_lt_height (statement : Statement) :
    statement.longestChain < statement.height := by
  match statement with
  | .expression value | .print value | .returned value | .declaration _ _ _ value =>
    have inside := value.longestChain_lt_height
    rw [Statement.longestChain, Statement.height]
    omega
  | .block body => exact Statement.longestChainOfAll_lt body
  | .function _ _ _ body =>
    have inside := Statement.longestChainOfAll_lt body
    rw [Statement.longestChain, Statement.height]
    omega
  | .conditional condition body alternative =>
    have first := condition.longestChain_lt_height
    have inside := Statement.longestChainOfAll_lt body
    have rest := alternative.longestChain_le_height
    rw [Statement.longestChain, Statement.height]
    omega
  | .whileLoop condition body =>
    have first := condition.longestChain_lt_height
    have inside := Statement.longestChainOfAll_lt body
    rw [Statement.longestChain, Statement.height]
    omega
  | .forLoop initializer condition modifier body =>
    have first := initializer.longestChain_lt_height
    have second := condition.longestChain_lt_height
    have third := modifier.longestChain_lt_height
    have inside := Statement.longestChainOfAll_lt body
    rw [Statement.longestChain, Statement.height]
    omega
  | .structType .. | .enumType .. | .inNamespace _ | .usingNamespace _ => exact Nat.zero_lt_one

theorem Alternative.longestChain_le_height (alternative : Alternative) :
    alternative.longestChain ≤ alternative.height := by
  match alternative with
  | .absent => exact Nat.le_refl 0
  | .elseIf condition body rest =>
    have first := condition.longestChain_lt_height
    have inside := Statement.longestChainOfAll_lt body
    have others := rest.longestChain_le_height
    rw [Alternative.longestChain, Alternative.height]
    omega
  | .otherwise body => exact Nat.le_of_lt (Statement.longestChainOfAll_lt body)

theorem Statement.longestChainOfAll_lt (statements : List Statement) :
    Statement.longestChainOfAll statements < Statement.heightOfBlock statements := by
  match statements with
  | [] => exact Nat.zero_lt_one
  | first :: others =>
    have inside := first.longestChain_lt_height
    have rest := Statement.longestChainOfAll_lt others
    rw [Statement.longestChainOfAll, Statement.heightOfBlock]
    omega

end

theorem Expression.heightOfAll_le {bound : Nat} {expressions : List Expression}
    (each : ∀ expression ∈ expressions, expression.height ≤ bound) :
    Expression.heightOfAll expressions ≤ bound := by
  induction expressions with
  | nil => exact Nat.zero_le bound
  | cons first others ih =>
    rw [List.forall_mem_cons] at each
    rw [heightOfAll]
    exact Nat.max_le.mpr ⟨each.1, ih each.2⟩

theorem Expression.longestChain_le_of_mem {expressions : List Expression} {expression : Expression}
    (mem : expression ∈ expressions) :
    expression.longestChain ≤ Expression.longestChainOfAll expressions := by
  induction expressions with
  | nil => cases mem
  | cons first others ih =>
    rw [longestChainOfAll]
    rcases List.mem_cons.mp mem with rfl | mem
    · exact Nat.le_max_left ..
    · exact Nat.le_trans (ih mem) (Nat.le_max_right ..)

theorem Statement.heightOfBlock_le {bound : Nat} {statements : List Statement}
    (each : ∀ statement ∈ statements, statement.height ≤ bound) :
    Statement.heightOfBlock statements ≤ bound + 1 := by
  induction statements with
  | nil => exact Nat.le_add_left ..
  | cons first others ih =>
    rw [List.forall_mem_cons] at each
    have rest := ih each.2
    rw [heightOfBlock]
    omega

theorem Statement.longestChain_le_of_mem {statements : List Statement} {statement : Statement}
    (mem : statement ∈ statements) :
    statement.longestChain ≤ Statement.longestChainOfAll statements := by
  induction statements with
  | nil => cases mem
  | cons first others ih =>
    rw [longestChainOfAll]
    rcases List.mem_cons.mp mem with rfl | mem
    · exact Nat.le_max_left ..
    · exact Nat.le_trans (ih mem) (Nat.le_max_right ..)

/-! ## The limit bounds the height, given the longest chain -/

/-- Properties of all items hold of the values of many of them. -/
theorem Many.forall_values {α : Type} {Item : List Token → α → Prop} {P : α → Prop}
    {segment : List Token} {values : List α} (items : Many Item segment values)
    (each : ∀ {segment value}, Item segment value → P value) : ∀ value ∈ values, P value := by
  induction items with
  | nil => exact List.forall_mem_nil _
  | cons item others ih => exact List.forall_mem_cons.mpr ⟨each item, ih⟩

theorem Listed.forall_values {α : Type} {Item : List Token → α → Prop} {P : α → Prop}
    {segment : List Token} {values : List α} (items : Listed Item segment values)
    (each : ∀ {segment value}, Item segment value → P value) : ∀ value ∈ values, P value := by
  rcases items with ⟨-, rfl⟩ | ⟨item, others⟩
  · exact List.forall_mem_nil _
  · refine List.forall_mem_cons.mpr ⟨each item, others.forall_values ?_⟩
    rintro segment value ⟨comma, tokens, -, -, item⟩
    exact each item

/-- An operand that is a token by itself has no parts. -/
theorem height_of_operandStart {token : Token} {value : Expression}
    (starts : Parse.operandStart token = .ok (.complete value)) : value.height = 1 := by
  unfold Parse.operandStart at starts
  split at starts
  · rename_i rule known
    cases rule with
    | identifier | bool | object | string =>
      cases starts
      rfl
    | int | char =>
      obtain ⟨literal, -, same⟩ := exists_of_literal starts
      cases same
      rfl
    | float =>
      obtain ⟨literal, -, same⟩ := exists_of_literal starts
      split at same
      · cases same
        rfl
      · cases same
    | unary | grouping => cases starts
  · cases starts

/-- A chain whose links are fewer than the nodes of a level makes an expression one level high. -/
theorem Expression.height_le_of_chain {perLevel levels : Nat} {value : Expression}
    (short : value.longestChain < perLevel)
    (bound : value.height + perLevel ≤ value.chain + perLevel * levels + 1) :
    value.height ≤ perLevel * levels := by
  have links := value.chain_le_longestChain
  omega

namespace Concrete

mutual

/-- An expression is at most as high as its levels allow, and a chain that it starts gives its links
in addition. -/
theorem height_le (expression : Concrete) {value : Expression} {perLevel levels : Nat}
    (tree : expression.tree? = some value) (within : expression.nesting < levels)
    (short : value.longestChain < perLevel) :
    value.height + perLevel ≤ value.chain + perLevel * levels + 1 := by
  obtain ⟨inner, rfl⟩ : ∃ inner, levels = inner + 1 := ⟨levels - 1, by omega⟩
  match expression with
  | .atom token =>
    rw [tree?] at tree
    split at tree
    · rename_i starts
      cases tree
      rw [height_of_operandStart starts, Nat.mul_succ]
      omega
    · cases tree
  | .group expression =>
    rw [nesting] at within
    exact height_le expression tree (Nat.lt_of_succ_lt within) short
  | .unary operator operand =>
    obtain ⟨value, innerTree, rfl⟩ := tree?_unary.mp tree
    rw [nesting] at within
    rw [Expression.longestChain] at short
    have inside := Expression.height_le_of_chain short
      (height_le operand innerTree (Nat.lt_of_succ_lt_succ within) short)
    rw [Expression.height, Nat.mul_succ]
    omega
  | .binary left operator right =>
    obtain ⟨first, firstTree, second, secondTree, rfl⟩ := tree?_binary.mp tree
    rw [nesting] at within
    rw [Expression.longestChain] at short
    have before : first.height + perLevel ≤ first.chain + perLevel * (inner + 1) + 1 :=
      height_le left firstTree (by omega) (by omega)
    have after : second.height ≤ perLevel * inner :=
      Expression.height_le_of_chain (by omega) (height_le right secondTree (by omega) (by omega))
    rw [Expression.height, Expression.chain]
    rw [Nat.mul_succ] at before ⊢
    omega
  | .call callee arguments =>
    obtain ⟨first, firstTree, values, trees, rfl⟩ := tree?_call.mp tree
    rw [nesting] at within
    rw [Expression.longestChain] at short
    have before : first.height + perLevel ≤ first.chain + perLevel * (inner + 1) + 1 :=
      height_le callee firstTree (by omega) (by omega)
    have inside : Expression.heightOfAll values ≤ perLevel * inner :=
      heightOfAll_le arguments trees (by omega) (by omega)
    rw [Expression.height, Expression.chain]
    rw [Nat.mul_succ] at before ⊢
    omega
  | .subscript base index =>
    obtain ⟨first, firstTree, second, secondTree, rfl⟩ := tree?_subscript.mp tree
    rw [nesting] at within
    rw [Expression.longestChain] at short
    have before : first.height + perLevel ≤ first.chain + perLevel * (inner + 1) + 1 :=
      height_le base firstTree (by omega) (by omega)
    have inside : second.height ≤ perLevel * inner :=
      Expression.height_le_of_chain (by omega) (height_le index secondTree (by omega) (by omega))
    rw [Expression.height, Expression.chain]
    rw [Nat.mul_succ] at before ⊢
    omega

theorem heightOfAll_le (expressions : List Concrete) {values : List Expression}
    {perLevel levels : Nat} (trees : trees? expressions = some values)
    (within : nestingOfAll expressions ≤ levels)
    (short : Expression.longestChainOfAll values < perLevel) :
    Expression.heightOfAll values ≤ perLevel * levels := by
  match expressions with
  | [] =>
    cases trees
    exact Nat.zero_le _
  | first :: others =>
    obtain ⟨value, tree, rest, restTrees, rfl⟩ := trees?_cons.mp trees
    rw [nestingOfAll] at within
    rw [Expression.longestChainOfAll] at short
    have here : value.height ≤ perLevel * levels :=
      Expression.height_le_of_chain (by omega) (height_le first tree (by omega) (by omega))
    have later : Expression.heightOfAll rest ≤ perLevel * levels :=
      heightOfAll_le others restTrees (by omega) (by omega)
    exact Nat.max_le.mpr ⟨here, later⟩

end

end Concrete

theorem mul_levels (perLevel : Nat) {depth : Nat} (within : depth < maxDepth) :
    perLevel * (maxDepth - depth) = perLevel * (maxDepth - (depth + 1)) + perLevel := by
  rw [← Nat.mul_succ, Nat.succ_eq_add_one, Nat.sub_add_eq,
    Nat.sub_add_cancel (Nat.sub_pos_of_lt within)]

/-- Statements that are read at a depth are at most as high as the levels that are left allow. -/
def IsLow (perLevel depth : Nat) (Inner : List Token → Statement → Prop) : Prop :=
  ∀ {segment value}, Inner segment value → value.longestChain < perLevel →
    value.height ≤ perLevel * (maxDepth - depth)

section

variable {perLevel depth : Nat} {segment : List Token} {Inner : List Token → Statement → Prop}

theorem IsExpression.height_le {value : Expression} (form : IsExpression depth segment value)
    (short : value.longestChain < perLevel) : value.height ≤ perLevel * (maxDepth - depth) := by
  obtain ⟨expression, denotes⟩ := isExpression_iff.mp form
  have within : expression.nesting < maxDepth - depth := Nat.lt_sub_iff_add_lt'.mpr denotes.within
  exact Expression.height_le_of_chain short (expression.height_le denotes.tree within short)

theorem IsInitializer.height_le {depth : Nat} {segment : List Token} {value : Expression}
    (form : IsInitializer depth segment value) (short : value.longestChain < perLevel) :
    value.height ≤ perLevel * (maxDepth - depth) := by
  rw [IsInitializer] at form
  rcases form with expression | ⟨within, opening, inside, close, elements, -, -, -, listed, rfl⟩
  · exact expression.height_le short
  · rw [Expression.longestChain] at short
    have each : ∀ element ∈ elements, element.longestChain < perLevel →
        element.height ≤ perLevel * (maxDepth - (depth + 1)) :=
      listed.forall_values fun element => IsInitializer.height_le element
    have highest : Expression.heightOfAll elements ≤ perLevel * (maxDepth - (depth + 1)) :=
      Expression.heightOfAll_le fun element mem =>
        each element mem (Nat.lt_of_le_of_lt (Expression.longestChain_le_of_mem mem) short)
    have level := mul_levels perLevel within
    rw [Expression.height]
    omega
termination_by maxDepth - depth

theorem IsBlock.height_le {body : List Statement} (low : IsLow perLevel depth Inner)
    (form : IsBlock Inner segment body) (short : Statement.longestChainOfAll body < perLevel) :
    Statement.heightOfBlock body ≤ perLevel * (maxDepth - depth) + 1 := by
  obtain ⟨-, items, -⟩ := form
  have each : ∀ statement ∈ body, statement.longestChain < perLevel →
      statement.height ≤ perLevel * (maxDepth - depth) :=
    items.forall_values fun item => low item
  exact Statement.heightOfBlock_le fun statement mem =>
    each statement mem (Nat.lt_of_le_of_lt (Statement.longestChain_le_of_mem mem) short)

theorem IsClause.height_le {word : TokenKind} {value : Expression × List Statement}
    (low : IsLow perLevel depth Inner) (form : IsClause depth Inner word segment value)
    (short : max value.1.longestChain (Statement.longestChainOfAll value.2) < perLevel) :
    max value.1.height (Statement.heightOfBlock value.2) ≤ perLevel * (maxDepth - depth) + 1 := by
  obtain ⟨-, condition, body⟩ := form
  obtain ⟨shortCondition, shortBody⟩ := Nat.max_lt.mp short
  exact Nat.max_le.mpr
    ⟨Nat.le_succ_of_le (condition.height_le shortCondition), body.height_le low shortBody⟩

theorem Alternative.height_elseIfs_le {bound : Nat} {clauses : List (Expression × List Statement)}
    {last : Alternative}
    (each : ∀ clause ∈ clauses,
      max clause.1.longestChain (Statement.longestChainOfAll clause.2) < perLevel →
        max clause.1.height (Statement.heightOfBlock clause.2) ≤ bound)
    (final : last.longestChain < perLevel → last.height ≤ bound)
    (short : (Alternative.elseIfs clauses last).longestChain < perLevel) :
    (Alternative.elseIfs clauses last).height ≤ bound := by
  induction clauses with
  | nil => exact final short
  | cons clause clauses ih =>
    rw [List.forall_mem_cons] at each
    obtain ⟨shortCondition, shortRest⟩ := Nat.max_lt.mp short
    obtain ⟨shortBody, shortOthers⟩ := Nat.max_lt.mp shortRest
    obtain ⟨condition, body⟩ := Nat.max_le.mp (each.1 (Nat.max_lt.mpr ⟨shortCondition, shortBody⟩))
    exact Nat.max_le.mpr ⟨condition, Nat.max_le.mpr ⟨body, ih each.2 shortOthers⟩⟩

theorem IsConditional.height_le {value : Statement} (low : IsLow perLevel depth Inner)
    (form : IsConditional depth Inner segment value) (short : value.longestChain < perLevel) :
    value.height ≤ perLevel * (maxDepth - depth) + 2 := by
  obtain @⟨_, condition, body, _, others, last, alternative, clause, clauses, final⟩ := form
  rw [Statement.longestChain] at short
  have first := clause.height_le low (by dsimp only; omega)
  have rest : (Alternative.elseIfs others alternative).height ≤
      perLevel * (maxDepth - depth) + 1 := by
    refine Alternative.height_elseIfs_le (clauses.forall_values fun clause => clause.height_le low)
      (fun shortLast => ?_) (Nat.lt_of_le_of_lt ?_ short)
    · cases final with
      | absent => exact Nat.zero_le _
      | otherwise isElse body => exact body.height_le low shortLast
    · exact Nat.le_trans (Nat.le_max_right ..) (Nat.le_max_right ..)
  rw [Statement.height]
  dsimp only at first
  omega

theorem IsFunction.height_le {value : Statement} (low : IsLow perLevel depth Inner)
    (form : IsFunction depth Inner segment value) (short : value.longestChain < perLevel) :
    value.height ≤ perLevel * (maxDepth - depth) + 3 := by
  obtain ⟨-, -, -, -, -, -, -, body⟩ := form
  rw [Statement.longestChain] at short
  rw [Statement.height]
  cases body with
  | block body =>
    have inside := body.height_le low short
    omega
  | inline isArrow result ends =>
    simp only [Statement.longestChainOfAll, Statement.longestChain, Nat.max_zero] at short
    have inside := result.height_le short
    simp only [Statement.heightOfBlock, Statement.height]
    omega

theorem IsDeclaration.height_le {value : Statement} (form : IsDeclaration depth segment value)
    (short : value.longestChain < perLevel) :
    value.height ≤ perLevel * (maxDepth - depth) + 1 := by
  obtain ⟨-, -, -, -, -, initial, -⟩ := form
  have inside := initial.height_le short
  rw [Statement.height]
  omega

theorem IsForLoop.height_le {value : Statement} (low : IsLow perLevel depth Inner)
    (form : IsForLoop depth Inner segment value) (short : value.longestChain < perLevel) :
    value.height ≤ perLevel * (maxDepth - depth) + 2 := by
  obtain ⟨-, initial, -, condition, -, modifier, body⟩ := form
  rw [Statement.longestChain] at short
  obtain ⟨shortInitial, short⟩ := Nat.max_lt.mp short
  obtain ⟨shortCondition, short⟩ := Nat.max_lt.mp short
  obtain ⟨shortModifier, shortBody⟩ := Nat.max_lt.mp short
  have first := initial.height_le shortInitial
  have second := condition.height_le shortCondition
  have third := modifier.height_le shortModifier
  have inside := body.height_le low shortBody
  rw [Statement.height]
  omega

theorem IsExpressionUpToSemicolon.height_le {value : Expression}
    (form : IsExpressionUpToSemicolon depth segment value) (short : value.longestChain < perLevel) :
    value.height ≤ perLevel * (maxDepth - depth) := by
  obtain ⟨inner, -⟩ := form
  exact inner.height_le short

/-- A function is the highest form: its body is two nodes above what a line in it returns. -/
theorem IsStatementForm.height_le {value : Statement} (low : IsLow perLevel depth Inner)
    (form : IsStatementForm depth Inner segment value) (short : value.longestChain < perLevel) :
    value.height ≤ perLevel * (maxDepth - depth) + 3 := by
  cases form with
  | function form => exact form.height_le low short
  | structType form | enumType form =>
    cases form
    exact Nat.le_add_left 1 _
  | conditional form => exact Nat.le_succ_of_le (form.height_le low short)
  | whileLoop clause =>
    have inside := clause.height_le low short
    rw [Statement.height]
    dsimp only at inside
    omega
  | forLoop form => exact Nat.le_succ_of_le (form.height_le low short)
  | declaration form =>
    exact Nat.le_trans (form.height_le short) (Nat.add_le_add_left (by decide) _)
  | returned isWord form | print isWord form | expression form =>
    have inside := form.height_le short
    rw [Statement.height]
    omega

end

/-- A level of statements adds three nodes at most. -/
theorem isLow_isStatement {perLevel : Nat} (enough : 3 ≤ perLevel) (depth : Nat) :
    IsLow perLevel depth (IsStatement depth) := by
  intro segment value statement short
  rw [IsStatement] at statement
  obtain ⟨within, form⟩ := statement
  have inside := form.height_le (isLow_isStatement enough (depth + 1)) short
  have level := mul_levels perLevel within
  omega
termination_by maxDepth - depth

theorem IsTopLevel.height_le {perLevel : Nat} {segment : List Token} {value : Statement}
    (enough : 3 ≤ perLevel) (form : IsTopLevel segment value)
    (short : value.longestChain < perLevel) : value.height ≤ perLevel * maxDepth + 3 := by
  cases form with
  | function form => exact form.height_le (isLow_isStatement enough 0) short
  | structType form | enumType form =>
    cases form
    exact Nat.le_add_left 1 _
  | inNamespace | usingNamespace => exact Nat.le_add_left 1 _

/-! ## No level is counted for a chain -/

open Lexeme

/-- A sum of ones, with a number of operators. -/
def Expression.ones : Nat → Expression
  | 0 => .int 1
  | count + 1 => .binary (ones count) .plus (.int 1)

/-- The literal one. -/
def one : Lexeme :=
  ⟨.intLiteral, "1"⟩

/-- The text of a sum of ones. -/
def sumOfOnes : Nat → List Lexeme
  | 0 => [one]
  | count + 1 => sumOfOnes count ++ [mark .plus, one]

/-- The text of a function that returns a sum of ones. -/
def sumFunction (count : Nat) : List Lexeme :=
  mark .kwFn :: named "f" :: mark .leftParen :: mark .rightParen :: mark .arrow :: named "int" ::
    mark .implies :: (sumOfOnes count ++ [mark .semicolon])

/-- What a function that returns a sum of ones is read as. -/
def sumStatement (count : Nat) : Statement :=
  .function "f" [] ⟨"int", 0⟩ [.returned (.ones count)]

theorem height_ones (count : Nat) : (Expression.ones count).height = count + 1 := by
  induction count with
  | zero => rfl
  | succ count ih =>
    have last : (Expression.int 1).height = 1 := rfl
    rw [Expression.ones, Expression.height, ih, last]
    omega

theorem height_sumStatement (count : Nat) : (sumStatement count).height = count + 4 := by
  simp only [sumStatement, Statement.height, Statement.heightOfBlock, height_ones]
  omega

theorem readable_one : one.Readable :=
  readable_digits (by simp) (by simp)

theorem legible_sumOfOnes (count : Nat) : Legible (sumOfOnes count) := by
  induction count with
  | zero => exact legible_cons.mpr ⟨readable_one, legible_nil⟩
  | succ count ih =>
    refine legible_append.mpr ⟨ih, legible_mark_cons rfl ?_⟩
    exact legible_cons.mpr ⟨readable_one, legible_nil⟩

theorem legible_sumFunction (count : Nat) : Legible (sumFunction count) := by
  have body : Legible (mark .implies :: (sumOfOnes count ++ [mark .semicolon])) :=
    legible_mark_cons rfl (legible_append_mark rfl (legible_sumOfOnes count))
  have typeName : (named "int").Readable := readable_named (by decide)
  exact legible_named_after rfl (by decide) (legible_mark_cons rfl (legible_mark_cons rfl
    (legible_mark_cons rfl (legible_cons.mpr ⟨typeName, body⟩))))

theorem grown_one {token : Token} {least : BindingPower} {depth : Nat} {next : TokenKind}
    (isOne : token.lexeme = one) (within : depth < maxDepth) :
    (Concrete.atom token).Grown least depth [token] (.int 1) next := by
  obtain ⟨kind, text, position⟩ := token
  cases isOne
  exact Concrete.grown_atom (operandStart_intLiteral (by decide) position) rfl within

/-- A sum is read at one depth, whatever the number of its operators. -/
theorem grown_sumOfOnes (count : Nat) {tokens : List Token} {next : TokenKind}
    (spells : tokens.map Token.lexeme = sumOfOnes count)
    (ends : next.precedence ≤ TokenKind.plus.precedence) :
    ∃ expression : Concrete, expression.Grown .lowest 0 tokens (.ones count) next := by
  induction count generalizing tokens next with
  | zero =>
    obtain ⟨token, rfl, isOne⟩ := List.map_eq_singleton_iff.mp spells
    exact ⟨_, grown_one isOne (by decide)⟩
  | succ count ih =>
    obtain ⟨first, rest, rfl, firstSpells, restSpells⟩ := List.map_eq_append_iff.mp spells
    obtain ⟨operator, last, rfl, isPlus, lastSpells⟩ := List.map_eq_cons_iff.mp restSpells
    have plus : operator.kind = .plus := kind_of_lexeme_mark isPlus
    obtain ⟨left, grown⟩ := ih firstSpells (Nat.le_refl _)
    obtain ⟨token, rfl, isOne⟩ := List.map_eq_singleton_iff.mp lastSpells
    have right : (Concrete.atom token).Grown operator.kind.rightPower 1 [token] (.int 1) next :=
      grown_one isOne (by decide)
    have power : operator.kind.rightPower = TokenKind.plus.precedence := by rw [plus]; rfl
    have whole := (plus ▸ grown).binary (.inl (by rw [plus]; rfl)) (by rw [plus]; decide)
      right.denotes ⟨right.above, power ▸ ends, right.released⟩
    rw [plus] at whole
    exact ⟨_, whole⟩

theorem isTopLevel_sumFunction (count : Nat) {tokens : List Token}
    (spells : tokens.map Token.lexeme = sumFunction count) :
    IsTopLevel tokens (sumStatement count) := by
  obtain ⟨word, rest, rfl, isWord, spells⟩ := List.map_eq_cons_iff.mp spells
  obtain ⟨name, rest, rfl, nameSpells, spells⟩ := List.map_eq_cons_iff.mp spells
  obtain ⟨opening, rest, rfl, opens, spells⟩ := List.map_eq_cons_iff.mp spells
  obtain ⟨close, rest, rfl, closes, spells⟩ := List.map_eq_cons_iff.mp spells
  obtain ⟨arrow, rest, rfl, isArrow, spells⟩ := List.map_eq_cons_iff.mp spells
  obtain ⟨type, rest, rfl, typeSpells, spells⟩ := List.map_eq_cons_iff.mp spells
  obtain ⟨implies, rest, rfl, isImplies, spells⟩ := List.map_eq_cons_iff.mp spells
  obtain ⟨sum, ending, rfl, sumSpells, endSpells⟩ := List.map_eq_append_iff.mp spells
  obtain ⟨semicolon, rfl, ends⟩ := List.map_eq_singleton_iff.mp endSpells
  obtain ⟨isName, isText⟩ := text_of_lexeme_named nameSpells
  obtain ⟨isType, typeText⟩ := text_of_lexeme_named typeSpells
  have ends' : TokenKind.semicolon.precedence ≤ TokenKind.plus.precedence := by decide
  obtain ⟨expression, grown⟩ := grown_sumOfOnes count sumSpells ends'
  have result : IsExpression 0 sum (.ones count) := isExpression_iff.mpr ⟨_, grown.denotes⟩
  have body : IsFunctionBody 0 (IsStatement 0) _ [.returned (.ones count)] :=
    .inline (kind_of_lexeme_mark isImplies) result (kind_of_lexeme_mark ends)
  have named : IsType [type] ⟨type.text, 0⟩ := .intro isType .nil
  have form := IsFunction.intro (kind_of_lexeme_mark isWord) isName (kind_of_lexeme_mark opens)
    (.inl ⟨rfl, rfl⟩) (kind_of_lexeme_mark closes) (kind_of_lexeme_mark isArrow) named body
  rw [isText, typeText] at form
  exact .function form

/-- However long the sum, the text of its function is read without a problem. -/
theorem parseSource_sumFunction (count : Nat) :
    parseSource (source (sumFunction count)) = ⟨⟨[sumStatement count]⟩, []⟩ := by
  obtain ⟨tokens, last, shape, spells, ends⟩ := tokenize_source (legible_sumFunction count)
  have whole : IsProgram tokens ⟨[sumStatement count]⟩ := by
    simpa [IsProgram] using Many.cons (isTopLevel_sumFunction count spells) .nil
  rw [parseSource, shape]
  exact parseTokens_of_isProgram whole ends

/-- What the nesting limit does for the trees of a source text: a level adds a node for each link of
a chain of left operands. So no tree with chains of at most two links is higher than four times the
limit, and no tree is lower than its chains are long. -/
theorem height_of_kept_statement {source : String} {statement : Statement}
    (mem : statement ∈ (parseSource source).program.statements) :
    statement.longestChain < statement.height ∧
      statement.height ≤ max 3 (statement.longestChain + 1) * maxDepth + 3 ∧
      (statement.longestChain ≤ 2 → statement.height ≤ 4 * maxDepth) := by
  obtain ⟨segment, -, form⟩ := exists_isTopLevel_of_mem mem
  refine ⟨statement.longestChain_lt_height, ?_, fun short => ?_⟩
  · exact form.height_le (Nat.le_max_left ..) (Nat.le_max_right ..)
  · have low : statement.height ≤ 3 * maxDepth + 3 :=
      form.height_le (Nat.le_refl 3) (Nat.lt_succ_of_le short)
    exact Nat.le_trans low (by decide)

/-- The tree of `fn f ( ) -> int => 1 + 1 + 1 ;`. -/
theorem height_of_sum_of_three :
    sumStatement 2 ∈ (parseSource (source (sumFunction 2))).program.statements ∧
      (sumStatement 2).longestChain ≤ 2 ∧ (sumStatement 2).height ≤ 4 * maxDepth := by
  have mem : sumStatement 2 ∈ (parseSource (source (sumFunction 2))).program.statements := by
    rw [parseSource_sumFunction]
    exact List.mem_cons_self
  have short : (sumStatement 2).longestChain ≤ 2 := by decide
  exact ⟨mem, short, (height_of_kept_statement mem).2.2 short⟩

/-- A sum of six hundred and one ones is read without a problem, and its tree is higher than four
times the limit. -/
theorem sum_higher_than_limit :
    (parseSource (source (sumFunction 600))).reports = [] ∧
      ¬ ∀ statement ∈ (parseSource (source (sumFunction 600))).program.statements,
        statement.height ≤ 4 * maxDepth := by
  rw [parseSource_sumFunction]
  refine ⟨rfl, fun bounded => ?_⟩
  have high := bounded (sumStatement 600) List.mem_cons_self
  rw [height_sumStatement] at high
  exact absurd high (by decide)

end BraceLang
