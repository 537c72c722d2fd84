import BraceLang.Proofs.Acceptance
import BraceLang.Proofs.ConcreteExpression

/-!
Tokens of concrete expressions. What starts an operand, the lists of expressions between
parentheses, and how an expression that has been read becomes a part of a larger one: as an operand
by itself, or as the left part before an operator, a call or a subscript.
-/
namespace BraceLang

theorem TokenKind.eq_leftParen_of_grouping {kind : TokenKind}
    (rule : kind.prefixRule? = some .grouping) : kind = .leftParen := by
  cases kind <;> first | rfl | cases rule

namespace Parse

theorem operandStart_of_unary {token : Token} (rule : token.kind.prefixRule? = some .unary) :
    operandStart token = .ok (.unary token.kind) := by
  simp only [operandStart, rule, operandByRule]

theorem operandStart_of_leftParen {token : Token} (kind : token.kind = .leftParen) :
    operandStart token = .ok .grouping := by
  simp only [operandStart, kind, TokenKind.prefixRule?, operandByRule]

/-- What an operand starts with: an atom, a unary operator or an opening parenthesis. -/
theorem operandStart_cases {token : Token} {start : OperandStart}
    (starts : operandStart token = .ok start) :
    (∃ value, start = .complete value ∧ token.kind.isAtom = true) ∨
      (start = .unary token.kind ∧ token.kind.prefixRule? = some .unary) ∨
      (start = .grouping ∧ token.kind = .leftParen) := by
  unfold operandStart at starts
  split at starts
  · rename_i rule known
    cases rule with
    | unary =>
      cases starts
      exact .inr (.inl ⟨rfl, known⟩)
    | grouping =>
      cases starts
      exact .inr (.inr ⟨rfl, TokenKind.eq_leftParen_of_grouping known⟩)
    | identifier | bool | object | string =>
      cases starts
      exact .inl ⟨_, rfl, by simp [TokenKind.isAtom, known]⟩
    | int | char =>
      simp only [operandByRule, bind, Except.bind] at starts
      split at starts
      · cases starts
      · cases starts
        exact .inl ⟨_, rfl, by simp [TokenKind.isAtom, known]⟩
    | float =>
      simp only [operandByRule, bind, Except.bind] at starts
      split at starts
      · cases starts
      · split at starts
        · cases starts
          exact .inl ⟨_, rfl, by simp [TokenKind.isAtom, known]⟩
        · cases starts
  · cases starts

end Parse

namespace Concrete

/-- Some tokens denote an expression with the given tree. -/
def IsElement (depth : Nat) (segment : List Token) (value : Expression) : Prop :=
  ∃ expression : Concrete, expression.Denotes depth segment value

section

variable {depth : Nat} {segment : List Token} {values : List Expression}

private theorem many_of_elements (expressions : List Concrete)
    (bound : ∀ expression ∈ expressions, expression.ProperlyBound)
    (signs : segment.map Token.sign = (yields expressions).flatMap (Sign.mark .comma :: ·))
    (trees : trees? expressions = some values)
    (within : depth + nestingOfAll expressions ≤ maxDepth) :
    Many (AfterComma (IsElement depth)) segment values := by
  induction expressions generalizing segment values with
  | nil =>
    cases trees
    rw [yields, List.flatMap_nil, List.map_eq_nil_iff] at signs
    exact signs ▸ .nil
  | cons first others ih =>
    rw [List.forall_mem_cons] at bound
    rw [yields, List.flatMap_cons, List.map_eq_append_iff] at signs
    obtain ⟨head, tail, rfl, headSigns, tailSigns⟩ := signs
    obtain ⟨comma, item, rfl, commaSign, itemSigns⟩ := List.map_eq_cons_iff.mp headSigns
    obtain ⟨value, tree, rest, others', rfl⟩ := trees?_cons.mp trees
    rw [nestingOfAll] at within
    have isComma := (Token.sign_eq_mark.mp commaSign).1
    refine .cons ⟨comma, item, rfl, isComma, first, bound.1, itemSigns, tree, by omega⟩ ?_
    exact ih bound.2 tailSigns others' (by omega)

private theorem elements_of_many (level : depth ≤ maxDepth)
    (items : Many (AfterComma (IsElement depth)) segment values) :
    ∃ expressions : List Concrete, (∀ expression ∈ expressions, expression.ProperlyBound) ∧
      segment.map Token.sign = (yields expressions).flatMap (Sign.mark .comma :: ·) ∧
      trees? expressions = some values ∧ depth + nestingOfAll expressions ≤ maxDepth := by
  induction items with
  | nil => exact ⟨[], by simp, rfl, rfl, level⟩
  | cons item others ih =>
    obtain ⟨comma, item, rfl, isComma, first, denotes⟩ := item
    obtain ⟨expressions, bound, signs, trees, within⟩ := ih
    have commaSign : comma.sign = .mark .comma := Token.sign_eq_mark.mpr ⟨isComma, rfl⟩
    refine ⟨first :: expressions, List.forall_mem_cons.mpr ⟨denotes.bound, bound⟩, ?_,
      trees?_cons.mpr ⟨_, denotes.tree, _, trees, rfl⟩, ?_⟩
    · simp [yields, commaSign, denotes.signs, signs]
    · have inner := denotes.within
      rw [nestingOfAll]
      omega

/-- The tokens of arguments, without the parentheses around them. -/
theorem separated_of_arguments (arguments : List Concrete)
    (bound : ∀ argument ∈ arguments, argument.ProperlyBound)
    (signs : segment.map Token.sign = [.mark .comma].intercalate (yields arguments))
    (trees : trees? arguments = some values)
    (within : depth + nestingOfAll arguments ≤ maxDepth) :
    Listed (IsElement depth) segment values := by
  cases arguments with
  | nil =>
    cases trees
    rw [yields, List.intercalate_nil, List.map_eq_nil_iff] at signs
    exact .inl ⟨signs, rfl⟩
  | cons first others =>
    rw [List.forall_mem_cons] at bound
    rw [yields, intercalate_cons, List.map_eq_append_iff] at signs
    obtain ⟨head, tail, rfl, headSigns, tailSigns⟩ := signs
    obtain ⟨value, tree, rest, others', rfl⟩ := trees?_cons.mp trees
    rw [nestingOfAll] at within
    refine .inr (.intro ⟨first, bound.1, headSigns, tree, by omega⟩ ?_)
    exact many_of_elements others bound.2 tailSigns others' (by omega)

theorem arguments_of_separated (level : depth ≤ maxDepth)
    (items : Listed (IsElement depth) segment values) :
    ∃ arguments : List Concrete, (∀ argument ∈ arguments, argument.ProperlyBound) ∧
      segment.map Token.sign = [.mark .comma].intercalate (yields arguments) ∧
      trees? arguments = some values ∧ depth + nestingOfAll arguments ≤ maxDepth := by
  rcases items with ⟨rfl, rfl⟩ | ⟨⟨first, denotes⟩, others⟩
  · exact ⟨[], by simp, rfl, rfl, level⟩
  · obtain ⟨expressions, bound, signs, trees, within⟩ := elements_of_many level others
    refine ⟨first :: expressions, List.forall_mem_cons.mpr ⟨denotes.bound, bound⟩, ?_,
      trees?_cons.mpr ⟨_, denotes.tree, _, trees, rfl⟩, ?_⟩
    · rw [yields, intercalate_cons, List.map_append, denotes.signs, signs]
    · have inner := denotes.within
      rw [nestingOfAll]
      omega

end

/-- An expression as far as it has been read in a place: its operators bind more tightly than
`least`, and a token of kind `next` may go on with it. -/
structure Grown (expression : Concrete) (least : BindingPower) (depth : Nat)
    (segment : List Token) (value : Expression) (next : TokenKind) : Prop where
  denotes : expression.Denotes depth segment value
  above : ∀ power ∈ expression.leftSpine, least < power
  released : ∀ power ∈ expression.rightEdge, next.precedence ≤ power

section

variable {expression : Concrete} {least : BindingPower} {depth : Nat} {segment : List Token}
  {value : Expression} {next : TokenKind}

/-! ## The tokens of an expression are those of its parts -/

theorem Denotes.of_atom {token : Token} (denotes : (atom token).Denotes depth segment value) :
    segment = [token] ∧ Parse.operandStart token = .ok (.complete value) := by
  obtain ⟨-, signs, tree, -⟩ := denotes
  obtain ⟨token', rfl, sign⟩ := List.map_eq_singleton_iff.mp signs
  obtain ⟨rfl, -⟩ := Token.sign_eq_atom.mp sign
  rw [tree?] at tree
  split at tree
  · rename_i starts
    cases tree
    exact ⟨rfl, starts⟩
  · cases tree

theorem Denotes.of_group (denotes : expression.group.Denotes depth segment value) :
    ∃ opening inside close, segment = opening :: (inside ++ [close]) ∧
      opening.kind = .leftParen ∧ expression.Denotes (depth + 1) inside value ∧
      close.kind = .rightParen := by
  obtain ⟨bound, signs, tree, within⟩ := denotes
  rw [nesting] at within
  obtain ⟨outer, closes, rfl, outerSigns, closeSigns⟩ := List.map_eq_append_iff.mp signs
  obtain ⟨opening, inside, rfl, opens, innerSigns⟩ := List.map_eq_cons_iff.mp outerSigns
  obtain ⟨close, rfl, closeSign⟩ := List.map_eq_singleton_iff.mp closeSigns
  cases bound with
  | group bound =>
    exact ⟨opening, inside, close, rfl, (Token.sign_eq_mark.mp opens).1,
      ⟨bound, innerSigns, tree, by omega⟩, (Token.sign_eq_mark.mp closeSign).1⟩

theorem Denotes.of_unary {operator : TokenKind}
    (denotes : (Concrete.unary operator expression).Denotes depth segment value) :
    ∃ token rest inner, segment = token :: rest ∧ token.kind = operator ∧
      value = .unary operator inner ∧ expression.Denotes (depth + 1) rest inner := by
  obtain ⟨bound, signs, tree, within⟩ := denotes
  rw [nesting] at within
  obtain ⟨token, rest, rfl, sign, innerSigns⟩ := List.map_eq_cons_iff.mp signs
  obtain ⟨inner, innerTree, rfl⟩ := tree?_unary.mp tree
  cases bound with
  | unary isUnary bound held =>
    exact ⟨token, rest, inner, rfl, (Token.sign_eq_mark.mp sign).1, rfl,
      ⟨bound, innerSigns, innerTree, by omega⟩⟩

theorem Denotes.of_binary {operator : TokenKind} {second : Concrete}
    (denotes : (Concrete.binary expression operator second).Denotes depth segment value) :
    ∃ before token rest left right, segment = before ++ token :: rest ∧ token.kind = operator ∧
      value = .binary left operator right ∧ expression.Denotes depth before left ∧
      second.Denotes (depth + 1) rest right := by
  obtain ⟨bound, signs, tree, within⟩ := denotes
  rw [nesting] at within
  obtain ⟨before, after, rfl, leftSigns, afterSigns⟩ := List.map_eq_append_iff.mp signs
  obtain ⟨token, rest, rfl, sign, rightSigns⟩ := List.map_eq_cons_iff.mp afterSigns
  obtain ⟨left, leftTree, right, rightTree, rfl⟩ := tree?_binary.mp tree
  cases bound with
  | binary isInfix leftBound rightBound held released =>
    exact ⟨before, token, rest, left, right, rfl, (Token.sign_eq_mark.mp sign).1, rfl,
      ⟨leftBound, leftSigns, leftTree, by omega⟩, ⟨rightBound, rightSigns, rightTree, by omega⟩⟩

theorem Denotes.of_call {arguments : List Concrete}
    (denotes : (Concrete.call expression arguments).Denotes depth segment value) :
    ∃ before opening inside close left values,
      segment = before ++ opening :: (inside ++ [close]) ∧ opening.kind = .leftParen ∧
      close.kind = .rightParen ∧ value = .call left values ∧
      expression.Denotes depth before left ∧ Listed (IsElement (depth + 1)) inside values := by
  obtain ⟨bound, signs, tree, within⟩ := denotes
  rw [nesting] at within
  obtain ⟨outer, closes, rfl, outerSigns, closeSigns⟩ := List.map_eq_append_iff.mp signs
  obtain ⟨before, after, rfl, leftSigns, afterSigns⟩ := List.map_eq_append_iff.mp outerSigns
  obtain ⟨opening, inside, rfl, opens, itemSigns⟩ := List.map_eq_cons_iff.mp afterSigns
  obtain ⟨close, rfl, closeSign⟩ := List.map_eq_singleton_iff.mp closeSigns
  obtain ⟨left, leftTree, values, trees, rfl⟩ := tree?_call.mp tree
  cases bound with
  | call leftBound argumentsBound released =>
    refine ⟨before, opening, inside, close, left, values, ?_, (Token.sign_eq_mark.mp opens).1,
      (Token.sign_eq_mark.mp closeSign).1, rfl, ⟨leftBound, leftSigns, leftTree, by omega⟩, ?_⟩
    · rw [List.append_assoc, List.cons_append]
    · exact separated_of_arguments arguments argumentsBound itemSigns trees (by omega)

theorem Denotes.of_subscript {index : Concrete}
    (denotes : (Concrete.subscript expression index).Denotes depth segment value) :
    ∃ before opening inside close left position,
      segment = before ++ opening :: (inside ++ [close]) ∧ opening.kind = .leftSquare ∧
      close.kind = .rightSquare ∧ value = .subscript left position ∧
      expression.Denotes depth before left ∧ index.Denotes (depth + 1) inside position := by
  obtain ⟨bound, signs, tree, within⟩ := denotes
  rw [nesting] at within
  obtain ⟨outer, closes, rfl, outerSigns, closeSigns⟩ := List.map_eq_append_iff.mp signs
  obtain ⟨before, after, rfl, leftSigns, afterSigns⟩ := List.map_eq_append_iff.mp outerSigns
  obtain ⟨opening, inside, rfl, opens, indexSigns⟩ := List.map_eq_cons_iff.mp afterSigns
  obtain ⟨close, rfl, closeSign⟩ := List.map_eq_singleton_iff.mp closeSigns
  obtain ⟨left, leftTree, position, indexTree, rfl⟩ := tree?_subscript.mp tree
  cases bound with
  | subscript leftBound indexBound released =>
    refine ⟨before, opening, inside, close, left, position, ?_, (Token.sign_eq_mark.mp opens).1,
      (Token.sign_eq_mark.mp closeSign).1, rfl, ⟨leftBound, leftSigns, leftTree, by omega⟩,
      ⟨indexBound, indexSigns, indexTree, by omega⟩⟩
    rw [List.append_assoc, List.cons_append]

/-! ## Parts that have been read grow into the expression -/

theorem grown_atom {token : Token} (starts : Parse.operandStart token = .ok (.complete value))
    (isAtom : token.kind.isAtom = true) (within : depth < maxDepth) :
    (atom token).Grown least depth [token] value next where
  denotes := by
    refine ⟨.atom token, ?_, ?_, within⟩
    · rw [List.map_singleton, Token.sign_eq_atom.mpr ⟨rfl, isAtom⟩, yield]
    · simp [tree?, starts]
  above := by simp [leftSpine]
  released := by simp [rightEdge]

theorem Denotes.group {opening close : Token}
    (denotes : expression.Denotes (depth + 1) segment value)
    (opens : opening.kind = .leftParen) (closes : close.kind = .rightParen) :
    expression.group.Grown least depth (opening :: (segment ++ [close])) value next where
  denotes := by
    refine ⟨.group denotes.bound, ?_, denotes.tree, ?_⟩
    · have openSign : opening.sign = .mark .leftParen := Token.sign_eq_mark.mpr ⟨opens, rfl⟩
      have closeSign : close.sign = .mark .rightParen := Token.sign_eq_mark.mpr ⟨closes, rfl⟩
      simp [openSign, closeSign, denotes.signs, yield]
    · have inside := denotes.within
      rw [nesting]
      omega
  above := by simp [leftSpine]
  released := by simp [rightEdge]

theorem Denotes.unary {operator : Token} (denotes : expression.Denotes (depth + 1) segment value)
    (isUnary : operator.kind.prefixRule? = some .unary) (fits : expression.Fits .unary next) :
    (Concrete.unary operator.kind expression).Grown least depth (operator :: segment)
      (.unary operator.kind value) next where
  denotes := by
    refine ⟨.unary isUnary denotes.bound fits.above, ?_, tree?_unary.mpr ⟨_, denotes.tree, rfl⟩, ?_⟩
    · have sign : operator.sign = .mark operator.kind :=
        Token.sign_eq_mark.mpr ⟨rfl, by simp [TokenKind.isAtom, isUnary]⟩
      rw [List.map_cons, sign, denotes.signs, yield]
    · have inside := denotes.within
      rw [nesting]
      omega
  above := by simp [leftSpine]
  released := List.forall_mem_cons.mpr ⟨fits.ends, fits.released⟩

theorem Grown.binary {operator : Token} {second : Concrete} {rest : List Token} {right : Expression}
    (grown : expression.Grown least depth segment value operator.kind)
    (isInfix : operator.kind.isInfix) (above : least < operator.kind.precedence)
    (denotes : second.Denotes (depth + 1) rest right)
    (fits : second.Fits operator.kind.rightPower next) :
    (Concrete.binary expression operator.kind second).Grown least depth
      (segment ++ operator :: rest) (.binary value operator.kind right) next where
  denotes := by
    have left := grown.denotes
    refine ⟨.binary isInfix left.bound denotes.bound fits.above grown.released, ?_,
      tree?_binary.mpr ⟨_, left.tree, _, denotes.tree, rfl⟩, ?_⟩
    · have sign : operator.sign = .mark operator.kind :=
        Token.sign_eq_mark.mpr ⟨rfl, isInfix.isAtom_eq_false⟩
      rw [List.map_append, List.map_cons, sign, left.signs, denotes.signs, yield]
    · have leftInside := left.within
      have inside := denotes.within
      rw [nesting]
      omega
  above := List.forall_mem_cons.mpr ⟨above, grown.above⟩
  released := List.forall_mem_cons.mpr ⟨fits.ends, fits.released⟩

theorem Grown.call {opening close : Token} {rest : List Token} {values : List Expression}
    (grown : expression.Grown least depth segment value opening.kind)
    (opens : opening.kind = .leftParen) (above : least < opening.kind.precedence)
    (items : Listed (IsElement (depth + 1)) rest values)
    (closes : close.kind = .rightParen) :
    ∃ arguments, (Concrete.call expression arguments).Grown least depth
      (segment ++ opening :: (rest ++ [close])) (.call value values) next := by
  have left := grown.denotes
  have level : depth + 1 ≤ maxDepth := by
    have inside := left.within
    omega
  obtain ⟨arguments, bound, signs, trees, within⟩ := arguments_of_separated level items
  rw [opens] at above
  have released := grown.released
  rw [opens] at released
  have tree := tree?_call.mpr ⟨_, left.tree, _, trees, rfl⟩
  refine ⟨arguments, ⟨.call left.bound bound released, ?_, tree, ?_⟩,
    List.forall_mem_cons.mpr ⟨above, grown.above⟩, by simp [rightEdge]⟩
  · have openSign : opening.sign = .mark .leftParen := Token.sign_eq_mark.mpr ⟨opens, rfl⟩
    have closeSign : close.sign = .mark .rightParen := Token.sign_eq_mark.mpr ⟨closes, rfl⟩
    simp [openSign, closeSign, left.signs, signs, yield]
  · have inside := left.within
    rw [nesting]
    omega

theorem Grown.subscript {opening close : Token} {index : Concrete} {rest : List Token}
    {position : Expression} (grown : expression.Grown least depth segment value opening.kind)
    (opens : opening.kind = .leftSquare) (above : least < opening.kind.precedence)
    (denotes : index.Denotes (depth + 1) rest position) (closes : close.kind = .rightSquare) :
    (Concrete.subscript expression index).Grown least depth
      (segment ++ opening :: (rest ++ [close])) (.subscript value position) next where
  denotes := by
    have left := grown.denotes
    have released := grown.released
    rw [opens] at released
    refine ⟨.subscript left.bound denotes.bound released, ?_,
      tree?_subscript.mpr ⟨_, left.tree, _, denotes.tree, rfl⟩, ?_⟩
    · have openSign : opening.sign = .mark .leftSquare := Token.sign_eq_mark.mpr ⟨opens, rfl⟩
      have closeSign : close.sign = .mark .rightSquare := Token.sign_eq_mark.mpr ⟨closes, rfl⟩
      simp [openSign, closeSign, left.signs, denotes.signs, yield]
    · have leftInside := left.within
      have inside := denotes.within
      rw [nesting]
      omega
  above := by
    rw [opens] at above
    exact List.forall_mem_cons.mpr ⟨above, grown.above⟩
  released := by simp [rightEdge]

end

end Concrete

end BraceLang
