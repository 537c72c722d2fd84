import BraceLang.Proofs.Acceptance
import BraceLang.Proofs.ConcreteGrowth
import BraceLang.Proofs.ConcreteUniqueness
import BraceLang.Proofs.GrammarOutcome

/-!
The rule for expressions reads properly bound expressions and nothing else. Towards completeness,
reading an expression passes through each expression on its left spine in turn, so that the loop
over operators is entered again with each of them. Towards soundness, what the loop has read so
far is a properly bound expression whose right edge leaves the next token to the loop.
-/
namespace BraceLang

namespace TokenKind

theorem infixRuleAbove?_eq_none {least : BindingPower} {kind : TokenKind} :
    kind.infixRuleAbove? least = none ↔ kind.precedence ≤ least := by
  unfold infixRuleAbove?
  by_cases above : least < kind.precedence
  · have known := (infixRule?_isSome_iff kind).mpr (Nat.lt_of_le_of_lt (Nat.zero_le _) above)
    obtain ⟨rule, isRule⟩ := Option.isSome_iff_exists.mp known
    simp [above, isRule]
  · simp [above, Nat.le_of_not_lt above]

theorem infixRuleAbove?_eq_some {least : BindingPower} {kind : TokenKind} {rule : InfixRule} :
    kind.infixRuleAbove? least = some rule ↔
      least < kind.precedence ∧ kind.infixRule? = some rule := by
  simp [infixRuleAbove?]

theorem rightPower_of_leftAssociative {kind : TokenKind}
    (rule : kind.infixRule? = some .leftAssociative) : kind.rightPower = kind.precedence := by
  cases kind <;> first | rfl | cases rule

theorem rightPower_of_rightAssociative {kind : TokenKind}
    (rule : kind.infixRule? = some .rightAssociative) :
    kind.rightPower = kind.precedence.weaker := by
  cases kind <;> first | rfl | cases rule

theorem eq_leftParen_of_call {kind : TokenKind} (rule : kind.infixRule? = some .call) :
    kind = .leftParen := by
  cases kind <;> first | rfl | cases rule

theorem eq_leftSquare_of_subscript {kind : TokenKind} (rule : kind.infixRule? = some .subscript) :
    kind = .leftSquare := by
  cases kind <;> first | rfl | cases rule

end TokenKind

theorem headKind_map_sign (tokens : List Token) :
    headKind (tokens.map Token.sign) = firstKind tokens .endOfInput := by
  cases tokens with
  | nil => rfl
  | cons token tokens =>
    rw [List.map_cons, firstKind_cons, Token.sign]
    split <;> rfl

/-- An expression is written at the cursor, over the tokens of `segment`: it is properly bound, and
it is all of what can be read there in a place that holds its operators with `least`. -/
structure Concrete.StandsAt (expression : Concrete) (least : BindingPower) (state : ParseState)
    (segment : List Token) : Prop where
  bound : expression.ProperlyBound
  signs : segment.map Token.sign = expression.yield
  fits : ∃ rest, state.rest = segment ++ rest ∧ expression.Fits least (firstKind rest .endOfInput)

/-- At most one expression is written at the cursor, whether or not its literals have values. -/
theorem Concrete.StandsAt.unique {first second : Concrete} {least : BindingPower}
    {state : ParseState} {segment segment' : List Token}
    (stands : first.StandsAt least state segment) (stands' : second.StandsAt least state segment') :
    first = second ∧ segment = segment' := by
  obtain ⟨rest, shape, fits⟩ := stands.fits
  obtain ⟨rest', shape', fits'⟩ := stands'.fits
  rw [← headKind_map_sign] at fits fits'
  have same := congrArg (List.map Token.sign) (shape.symm.trans shape')
  rw [List.map_append, List.map_append, stands.signs, stands'.signs] at same
  obtain ⟨rfl, sameRest⟩ := fits.unique stands.bound fits' stands'.bound same
  have sameLength : segment.length = segment'.length := by
    have lengths := congrArg List.length (stands.signs.trans stands'.signs.symm)
    rwa [List.length_map, List.length_map] at lengths
  exact ⟨rfl, (List.append_inj (shape.symm.trans shape') sameLength).1⟩

namespace Parse

open Rule

/-- The rule for inner expressions accepts, at some depth, every expression that fits its place. -/
def AcceptsFitting (expressionAt : BindingPower → Rule Expression) (depth : Nat) : Prop :=
  ∀ {expression : Concrete} {least : BindingPower} {segment : List Token} {value : Expression}
    {next : TokenKind}, expression.Denotes depth segment value → expression.Fits least next →
    Accepts (expressionAt least) depth segment value next

section

variable {expressionAt : BindingPower → Rule Expression} {depth : Nat} {least : BindingPower}
  {segment following : List Token} {value result : Expression} {next : TokenKind}

/-- Between brackets an expression is accepted before any token that does not hold it. -/
theorem AcceptsFitting.lowest (inner : AcceptsFitting expressionAt depth)
    (element : Concrete.IsElement depth segment value) (ends : next.precedence = .lowest) :
    Accepts (expressionAt .lowest) depth segment value next := by
  obtain ⟨expression, denotes⟩ := element
  exact inner denotes (denotes.bound.fits_lowest ends)

theorem accepts_arguments (inner : AcceptsFitting expressionAt depth) {values : List Expression}
    {close : Token}
    (items : Listed (Concrete.IsElement depth) segment values)
    (closes : close.kind = .rightParen) :
    Accepts (arguments expressionAt) depth (segment ++ [close]) values next := by
  have accepted : Accepts (itemsUpTo .rightParen (expressionAt .lowest)) depth segment values
      .rightParen := by
    refine accepts_itemsUpTo items ?_ ?_ (by decide)
    · rintro item value ⟨expression, denotes⟩
      obtain ⟨token, rest, rfl, starts⟩ := denotes.starts
      refine ⟨token, rest, rfl, ?_⟩
      intro isClose
      rw [isClose] at starts
      cases starts
    · rintro item value ahead element (rfl | rfl) <;> exact inner.lowest element rfl
  refine Accepts.bind ?_ ((accepts_require closes).bind_pure rfl)
  rw [firstKind_cons, closes]
  exact accepted

theorem accepts_operand_atom {token : Token} (starts : operandStart token = .ok (.complete value)) :
    Accepts (operand expressionAt) depth [token] value next :=
  (accepts_takeAs starts).bind_cons (accepts_pure value)

theorem accepts_operand_group (inner : AcceptsFitting expressionAt depth) {opening close : Token}
    (opens : opening.kind = .leftParen) (element : Concrete.IsElement depth segment value)
    (closes : close.kind = .rightParen) :
    Accepts (operand expressionAt) depth (opening :: (segment ++ [close])) value next := by
  refine (accepts_takeAs (operandStart_of_leftParen opens)).bind_cons ?_
  refine Accepts.bind ?_ ((accepts_require closes).bind_pure rfl)
  exact inner.lowest element (by rw [firstKind_cons, closes]; rfl)

theorem accepts_operand_unary {operator : Token}
    (isUnary : operator.kind.prefixRule? = some .unary)
    (accepts : Accepts (expressionAt .unary) depth segment value next) :
    Accepts (operand expressionAt) depth (operator :: segment) (.unary operator.kind value) next :=
  (accepts_takeAs (operandStart_of_unary isUnary)).bind_cons (accepts.bind_pure rfl)

/-- The rule for a token between two operands. -/
theorem accepts_continuation_binary {operator : Token} {left : Expression} {rule : InfixRule}
    (isInfix : operator.kind.isInfix) (known : operator.kind.infixRule? = some rule)
    (accepts : Accepts (expressionAt operator.kind.rightPower) depth segment value next) :
    Accepts (continuation expressionAt left rule) depth (operator :: segment)
      (.binary left operator.kind value) next := by
  refine (accepts_take operator).bind_cons ?_
  rcases isInfix with isLeft | isRight
  · obtain rfl := Option.some.inj (known.symm.trans isLeft)
    rw [TokenKind.rightPower_of_leftAssociative isLeft] at accepts
    exact accepts.bind_pure rfl
  · obtain rfl := Option.some.inj (known.symm.trans isRight)
    rw [TokenKind.rightPower_of_rightAssociative isRight] at accepts
    exact accepts.bind_pure rfl

theorem accepts_continuation_call (inner : AcceptsFitting expressionAt depth)
    {left : Expression} {values : List Expression} (opening : Token) {close : Token}
    (items : Listed (Concrete.IsElement depth) segment values)
    (closes : close.kind = .rightParen) :
    Accepts (continuation expressionAt left .call) depth (opening :: (segment ++ [close]))
      (.call left values) next :=
  (accepts_take opening).bind_cons ((accepts_arguments inner items closes).bind_pure rfl)

theorem accepts_continuation_subscript (inner : AcceptsFitting expressionAt depth)
    {left : Expression} (opening : Token) {close : Token}
    (element : Concrete.IsElement depth segment value) (closes : close.kind = .rightSquare) :
    Accepts (continuation expressionAt left .subscript) depth (opening :: (segment ++ [close]))
      (.subscript left value) next := by
  refine (accepts_take opening).bind_cons ?_
  refine Accepts.bind ?_ ((accepts_require closes).bind_pure rfl)
  exact inner.lowest element (by rw [firstKind_cons, closes]; rfl)

/-- Reading an expression passes through the expressions on its left spine: with each of them as
the left operand, the loop over operators goes on with the tokens after it. -/
theorem accepts_operators_append {expression : Concrete}
    (inner : AcceptsFitting expressionAt (depth + 1))
    (denotes : expression.Denotes depth segment value)
    (above : ∀ power ∈ expression.leftSpine, least < power)
    (released : ∀ power ∈ expression.rightEdge, (firstKind following next).precedence ≤ power)
    (others : Accepts (iterate (TokenKind.infixRuleAbove? least) (continuation expressionAt) value)
      (depth + 1) following result next) :
    Accepts (operators expressionAt least) (depth + 1) (segment ++ following) result next := by
  have bound := denotes.bound
  induction bound generalizing segment value following with
  | atom token =>
    obtain ⟨rfl, starts⟩ := denotes.of_atom
    exact (accepts_operand_atom starts).bind others
  | group =>
    obtain ⟨opening, inside, close, rfl, opens, innerDenotes, closes⟩ := denotes.of_group
    exact (accepts_operand_group inner opens ⟨_, innerDenotes⟩ closes).bind others
  | unary isUnary _ held =>
    obtain ⟨token, rest, operand, rfl, rfl, rfl, operandDenotes⟩ := denotes.of_unary
    rw [Concrete.rightEdge, List.forall_mem_cons] at released
    have accepted := inner operandDenotes ⟨held, released.1, released.2⟩
    exact (accepts_operand_unary isUnary accepted).bind others
  | binary isInfix _ _ held leftReleased leftHeld =>
    obtain ⟨before, token, rest, left, right, rfl, rfl, rfl, leftDenotes, rightDenotes⟩ :=
      denotes.of_binary
    rw [Concrete.leftSpine, List.forall_mem_cons] at above
    rw [Concrete.rightEdge, List.forall_mem_cons] at released
    obtain ⟨rule, known⟩ := Option.isSome_iff_exists.mp
      ((TokenKind.infixRule?_isSome_iff token.kind).mpr isInfix.precedence_pos)
    have accepted := inner rightDenotes ⟨held, released.1, released.2⟩
    have round : Accepts (continuation expressionAt left rule) (depth + 1) (token :: rest)
        (.binary left token.kind right) (firstKind following next) :=
      accepts_continuation_binary isInfix known accepted
    have recognized : token.kind.infixRuleAbove? least = some rule :=
      TokenKind.infixRuleAbove?_eq_some.mpr ⟨above.1, known⟩
    rw [List.append_assoc]
    apply leftHeld leftDenotes above.2
    · exact leftReleased
    · exact .iterate_round (List.cons_ne_nil _ _) recognized round others
  | call _ _ leftReleased leftHeld =>
    obtain ⟨before, opening, inside, close, left, values, rfl, opens, closes, rfl, leftDenotes,
      items⟩ := denotes.of_call
    have power : opening.kind.precedence = .call := by rw [opens]; rfl
    rw [Concrete.leftSpine, List.forall_mem_cons, ← power] at above
    rw [← power] at leftReleased
    have round : Accepts (continuation expressionAt left .call) (depth + 1)
        (opening :: (inside ++ [close])) (.call left values) (firstKind following next) :=
      accepts_continuation_call inner opening items closes
    have recognized : opening.kind.infixRuleAbove? least = some .call :=
      TokenKind.infixRuleAbove?_eq_some.mpr ⟨above.1, by rw [opens]; rfl⟩
    rw [List.append_assoc]
    apply leftHeld leftDenotes above.2
    · exact leftReleased
    · exact .iterate_round (List.cons_ne_nil _ _) recognized round others
  | subscript _ _ leftReleased leftHeld =>
    obtain ⟨before, opening, inside, close, left, position, rfl, opens, closes, rfl, leftDenotes,
      indexDenotes⟩ := denotes.of_subscript
    have power : opening.kind.precedence = .call := by rw [opens]; rfl
    rw [Concrete.leftSpine, List.forall_mem_cons, ← power] at above
    rw [← power] at leftReleased
    have round : Accepts (continuation expressionAt left .subscript) (depth + 1)
        (opening :: (inside ++ [close])) (.subscript left position) (firstKind following next) :=
      accepts_continuation_subscript inner opening ⟨_, indexDenotes⟩ closes
    have recognized : opening.kind.infixRuleAbove? least = some .subscript :=
      TokenKind.infixRuleAbove?_eq_some.mpr ⟨above.1, by rw [opens]; rfl⟩
    rw [List.append_assoc]
    apply leftHeld leftDenotes above.2
    · exact leftReleased
    · exact .iterate_round (List.cons_ne_nil _ _) recognized round others

end

/-- The rule for expressions accepts every expression that fits its place, if it has as many
levels left as the depth does. -/
theorem acceptsFitting_expressionWithin {levels depth : Nat} (enough : maxDepth ≤ depth + levels) :
    AcceptsFitting (expressionWithin levels) depth := by
  induction levels generalizing depth with
  | zero =>
    intro expression least segment value next denotes
    have within := denotes.within
    omega
  | succ levels ih =>
    intro expression least segment value next denotes fits
    have inner : AcceptsFitting (expressionWithin levels) (depth + 1) := ih (by omega)
    have ends : Accepts (iterate (TokenKind.infixRuleAbove? least)
        (continuation (expressionWithin levels)) value) (depth + 1) [] value next :=
      accepts_iterate_stop (TokenKind.infixRuleAbove?_eq_none.mpr fits.ends)
    have accepted : Accepts (operators (expressionWithin levels) least) (depth + 1) (segment ++ [])
        value next := accepts_operators_append inner denotes fits.above fits.released ends
    rw [List.append_nil] at accepted
    exact accepted.nested (Nat.lt_of_le_of_lt (Nat.le_add_right ..) denotes.within)

/-- Whatever the rule for inner expressions gives a value for, at some depth, is an expression that
fits its place. -/
def GivesFitting (expressionAt : BindingPower → Rule Expression) (depth : Nat) : Prop :=
  ∀ {least : BindingPower} {state after : ParseState} {value : Expression},
    state.panicking = false → state.depth = depth →
    expressionAt least state = (some value, after) →
    ∃ segment, state.Passes segment after ∧ ∃ expression : Concrete,
      expression.Denotes depth segment value ∧ expression.Fits least after.current.kind

section

variable {expressionAt : BindingPower → Rule Expression} {depth : Nat} {least : BindingPower}
  {state after : ParseState} {value : Expression}

theorem of_takeAs_operandStart {start : OperandStart}
    (ran : takeAs operandStart state = (some start, after)) :
    ∃ token, state.Passes [token] after ∧ operandStart token = .ok start := by
  have inside : state.current.kind ≠ .endOfInput := by
    intro atEnd
    simp [takeAs, operandStart, atEnd, TokenKind.prefixRule?] at ran
  obtain ⟨token, passes, -, starts⟩ := of_takeAs_value ran inside
  exact ⟨token, passes, starts⟩

theorem operand_gives (inner : GivesFitting expressionAt (depth + 1))
    (sound : state.panicking = false) (level : state.depth = depth + 1)
    (within : depth < maxDepth) (ran : operand expressionAt state = (some value, after)) :
    ∃ segment, state.Passes segment after ∧ ∃ expression : Concrete,
      expression.Grown least depth segment value after.current.kind := by
  obtain ⟨start, middle, taken, ran⟩ := of_bind_value ran
  obtain ⟨token, passes, starts⟩ := of_takeAs_operandStart taken
  have sound' := passes.panicking.trans sound
  have level' := passes.depth.trans level
  rcases operandStart_cases starts with ⟨first, rfl, isAtom⟩ | ⟨rfl, isUnary⟩ | ⟨rfl, isOpening⟩
  · cases ran
    exact ⟨_, passes, _, Concrete.grown_atom starts isAtom within⟩
  · obtain ⟨operandValue, last, operandRan, ends⟩ := of_bind_value ran
    cases ends
    obtain ⟨segment, passes', expression, denotes, fits⟩ := inner sound' level' operandRan
    exact ⟨_, passes.trans passes', _, denotes.unary isUnary fits⟩
  · obtain ⟨value, last, innerRan, ran⟩ := of_bind_value ran
    obtain ⟨text, final, closeRan, ends⟩ := of_bind_value ran
    cases ends
    obtain ⟨segment, passes', expression, denotes, -⟩ := inner sound' level' innerRan
    obtain ⟨close, passes'', closes, -⟩ :=
      of_require_value (passes'.panicking.trans sound') closeRan
    exact ⟨_, passes.trans (passes'.trans passes''), _, denotes.group isOpening closes⟩

/-- Each round of the loop over operators makes what has been read the left part of more. -/
theorem continuation_gives {rule : InfixRule} {segment : List Token} {left : Expression}
    {expression : Concrete} (inner : GivesFitting expressionAt (depth + 1))
    (sound : state.panicking = false) (level : state.depth = depth + 1)
    (grown : expression.Grown least depth segment left state.current.kind)
    (recognized : state.current.kind.infixRuleAbove? least = some rule)
    (ran : continuation expressionAt left rule state = (some value, after)) :
    ∃ token rest, state.Passes (token :: rest) after ∧ ∃ expression' : Concrete,
      expression'.Grown least depth (segment ++ token :: rest) value after.current.kind := by
  obtain ⟨above, known⟩ := TokenKind.infixRuleAbove?_eq_some.mp recognized
  obtain ⟨operator, taken, took, ran⟩ := of_bind_value ran
  have inside : state.current.kind ≠ .endOfInput := by
    intro atEnd
    rw [atEnd] at known
    cases known
  obtain ⟨passes, rfl⟩ := of_take_value took inside
  have sound' := passes.panicking.trans sound
  have level' := passes.depth.trans level
  cases rule with
  | leftAssociative =>
    obtain ⟨right, last, rightRan, ends⟩ := of_bind_value ran
    cases ends
    rw [← TokenKind.rightPower_of_leftAssociative known] at rightRan
    obtain ⟨rest, passes', second, denotes, fits⟩ := inner sound' level' rightRan
    exact ⟨_, rest, passes.trans passes', _, grown.binary (.inl known) above denotes fits⟩
  | rightAssociative =>
    obtain ⟨right, last, rightRan, ends⟩ := of_bind_value ran
    cases ends
    rw [← TokenKind.rightPower_of_rightAssociative known] at rightRan
    obtain ⟨rest, passes', second, denotes, fits⟩ := inner sound' level' rightRan
    exact ⟨_, rest, passes.trans passes', _, grown.binary (.inr known) above denotes fits⟩
  | call =>
    obtain ⟨values, last, argumentsRan, ends⟩ := of_bind_value ran
    cases ends
    obtain ⟨collected, closing, itemsRan, ran⟩ := of_bind_value argumentsRan
    obtain ⟨text, final, closeRan, ends⟩ := of_bind_value ran
    cases ends
    have each : ∀ {before : ParseState} {value next}, before.panicking = false →
        before.depth = taken.depth → expressionAt .lowest before = (some value, next) →
        ∃ segment, before.Passes segment next ∧ Concrete.IsElement (depth + 1) segment value := by
      intro before value next sound'' level'' elementRan
      obtain ⟨segment, passes, expression, denotes, -⟩ :=
        inner sound'' (level''.trans level') elementRan
      exact ⟨segment, passes, expression, denotes⟩
    obtain ⟨rest, passes', items⟩ := of_itemsUpTo_value _ sound' itemsRan each
    obtain ⟨close, passes'', closes, -⟩ :=
      of_require_value (passes'.panicking.trans sound') closeRan
    obtain ⟨arguments, grown'⟩ :=
      grown.call (TokenKind.eq_leftParen_of_call known) above items closes
    exact ⟨_, _, passes.trans (passes'.trans passes''), _, grown'⟩
  | subscript =>
    obtain ⟨position, last, indexRan, ran⟩ := of_bind_value ran
    obtain ⟨text, final, closeRan, ends⟩ := of_bind_value ran
    cases ends
    obtain ⟨rest, passes', index, denotes, -⟩ := inner sound' level' indexRan
    obtain ⟨close, passes'', closes, -⟩ :=
      of_require_value (passes'.panicking.trans sound') closeRan
    exact ⟨_, _, passes.trans (passes'.trans passes''), _,
      grown.subscript (TokenKind.eq_leftSquare_of_subscript known) above denotes closes⟩

/-- The loop over operators ends at a token that does not hold the expression. -/
theorem operators_give (inner : GivesFitting expressionAt (depth + 1))
    (sound : state.panicking = false) (level : state.depth = depth + 1) (within : depth < maxDepth)
    (ran : operators expressionAt least state = (some value, after)) :
    ∃ segment, state.Passes segment after ∧ ∃ expression : Concrete,
      expression.Denotes depth segment value ∧ expression.Fits least after.current.kind := by
  obtain ⟨first, middle, operandRan, ran⟩ := of_bind_value ran
  let motive (value : Expression) (after : ParseState) : Prop :=
    ∃ segment, state.Passes segment after ∧ ∃ expression : Concrete,
      expression.Grown least depth segment value after.current.kind
  have start : motive first middle := operand_gives inner sound level within operandRan
  have round : ∀ {left rule middle value after}, motive left middle →
      middle.current.kind.infixRuleAbove? least = some rule →
      continuation expressionAt left rule middle = (some value, after) →
      motive value after ∧ after.remaining < middle.remaining := by
    rintro left rule middle value after ⟨segment, passes, expression, grown⟩ recognized stepped
    obtain ⟨token, rest, passes', expression', grown'⟩ :=
      continuation_gives inner (passes.panicking.trans sound) (passes.depth.trans level) grown
        recognized stepped
    refine ⟨⟨_, passes.trans passes', expression', grown'⟩, ?_⟩
    rw [passes'.remaining_eq, List.length_cons]
    omega
  obtain ⟨⟨segment, passes, expression, grown⟩, stops⟩ :=
    of_iterate_value (motive := motive) ran start fun kept recognized stepped =>
      (round kept recognized stepped).1
  have ends : after.current.kind.precedence ≤ least :=
    TokenKind.infixRuleAbove?_eq_none.mp
      (stops fun kept recognized stepped => (round kept recognized stepped).2)
  exact ⟨segment, passes, expression, grown.denotes, grown.above, ends, grown.released⟩

end

theorem givesFitting_expressionWithin (levels depth : Nat) :
    GivesFitting (expressionWithin levels) depth := by
  induction levels generalizing depth with
  | zero =>
    intro least state after value sound level ran
    cases ran
  | succ levels ih =>
    intro least state after value sound level ran
    obtain ⟨within, inside, innerRan, rfl⟩ := of_nested_value ran
    have sound' : state.deeper.panicking = false := sound
    have level' : state.deeper.depth = depth + 1 := congrArg (· + 1) level
    obtain ⟨segment, passes, expression, denotes, fits⟩ :=
      operators_give (ih (depth + 1)) sound' level' (level ▸ within) innerRan
    exact ⟨segment, passes.of_deeper, expression, denotes, fits⟩

/-- Reading expressions is operator-precedence parsing. In a sound state, the rule for expressions
above `least` takes a segment and gives a tree exactly if a properly bound expression with this
tree is written there, within the nesting limit; no other expression is written there, and in
whatever way the rule gives a tree, it takes a segment. -/
theorem expressionAbove_reads_iff {state : ParseState} (least : BindingPower)
    (sound : state.panicking = false) :
    (∀ segment value, (expressionAbove least).Reads state segment value ↔
      ∃ expression : Concrete, expression.StandsAt least state segment ∧
        expression.tree? = some value ∧ state.depth + expression.nesting < maxDepth) ∧
    (∀ {first second : Concrete} {segment segment' : List Token},
      first.StandsAt least state segment → second.StandsAt least state segment' →
        first = second ∧ segment = segment') ∧
    (∀ {value after}, expressionAbove least state = (some value, after) →
      ∃ segment, state.Passes segment after) := by
  refine ⟨fun segment value => ⟨?_, ?_⟩, Concrete.StandsAt.unique, ?_⟩
  · rintro ⟨after, ran, passes⟩
    obtain ⟨segment', passes', expression, denotes, fits⟩ :=
      givesFitting_expressionWithin maxDepth state.depth sound rfl ran
    obtain rfl := passes.unique passes'
    rw [after.current_kind] at fits
    exact ⟨expression, ⟨denotes.bound, denotes.signs, after.rest, passes.rest, fits⟩,
      denotes.tree, denotes.within⟩
  · rintro ⟨expression, stands, tree, within⟩
    obtain ⟨rest, shape, fits⟩ := stands.fits
    have accepts : Accepts (expressionAbove least) state.depth segment value
        (firstKind rest .endOfInput) :=
      acceptsFitting_expressionWithin (Nat.le_add_left ..)
        ⟨stands.bound, stands.signs, tree, within⟩ fits
    exact accepts state rest sound rfl shape rfl
  · intro value after ran
    obtain ⟨segment, passes, -⟩ :=
      givesFitting_expressionWithin maxDepth state.depth sound rfl ran
    exact ⟨segment, passes⟩

/-- Member access binds more tightly than a sign before it, although an operand comes between. -/
theorem expressionAbove_reads_negated_member :
    let tokens : List Token := [⟨.minus, "-", ⟨0, 0⟩⟩, ⟨.identifier, "a", ⟨0, 1⟩⟩,
      ⟨.dot, ".", ⟨0, 2⟩⟩, ⟨.identifier, "b", ⟨0, 3⟩⟩]
    (expressionAbove .lowest).Reads (.ofTokens tokens) tokens
      (.unary .minus (.binary (.identifier "a") .dot (.identifier "b"))) := by
  intro tokens
  let member : Concrete := .binary (.atom tokens[1]) .dot (.atom tokens[3])
  have bound : (Concrete.unary .minus member).ProperlyBound := by
    refine .unary rfl (.binary (.inl rfl) (.atom _) (.atom _) ?_ ?_) ?_ <;>
      simp [Concrete.leftSpine, Concrete.rightEdge, member]
    decide
  refine ((expressionAbove_reads_iff .lowest rfl).1 _ _).mpr
    ⟨.unary .minus member, ⟨bound, rfl, [], rfl, bound.fits_lowest rfl⟩, rfl, ?_⟩
  decide

end Parse

end BraceLang
