import BraceLang.Parse.Expression

/-!
Expressions as they are written. A concrete expression keeps its parentheses, and its yield is what
the tokens of a text have to say for it: literals and names are there with their text, all other
tokens with their kind only. An expression is properly bound when every operand is held by the
operator that binds it most tightly; this is said of the operators at its edges, without a loop
that reads tokens.
-/
namespace BraceLang

/-- Joined lists, with the separator taken to what follows it. -/
theorem intercalate_cons {α : Type} (separator : α) (first : List α) (others : List (List α)) :
    [separator].intercalate (first :: others) = first ++ others.flatMap (separator :: ·) := by
  induction others generalizing first with
  | nil => simp
  | cons second others ih =>
    rw [List.intercalate_cons_cons, ih second, List.flatMap_cons]
    simp

/-- Holds of the tokens that are an operand by themselves. -/
def TokenKind.isAtom (kind : TokenKind) : Bool :=
  match kind.prefixRule? with
  | none | some .unary | some .grouping => false
  | _ => true

/-- What a token says in an expression. -/
inductive Sign where
  | atom (token : Token)
  | mark (kind : TokenKind)
  deriving DecidableEq, Repr

/-- What a token says in an expression: all of it for an operand, and otherwise its kind. -/
def Token.sign (token : Token) : Sign :=
  if token.kind.isAtom then .atom token else .mark token.kind

theorem Token.sign_eq_mark {token : Token} {kind : TokenKind} :
    token.sign = .mark kind ↔ token.kind = kind ∧ kind.isAtom = false := by
  unfold sign
  by_cases isAtom : token.kind.isAtom = true
  · rw [if_pos isAtom]
    constructor
    · intro same
      cases same
    · rintro ⟨rfl, notAtom⟩
      rw [isAtom] at notAtom
      cases notAtom
  · rw [if_neg isAtom]
    rw [Bool.not_eq_true] at isAtom
    constructor
    · intro same
      cases same
      exact ⟨rfl, isAtom⟩
    · rintro ⟨rfl, -⟩
      rfl

theorem Token.sign_eq_atom {token atom : Token} :
    token.sign = .atom atom ↔ token = atom ∧ token.kind.isAtom = true := by
  unfold sign
  by_cases isAtom : token.kind.isAtom = true
  · simp [isAtom]
  · simp [isAtom]

/-- An expression as it is written. -/
inductive Concrete where
  | atom (token : Token)
  | group (inner : Concrete)
  | unary (operator : TokenKind) (operand : Concrete)
  | binary (left : Concrete) (operator : TokenKind) (right : Concrete)
  | call (callee : Concrete) (arguments : List Concrete)
  | subscript (base index : Concrete)

/-- Holds of the operators between two operands. -/
def TokenKind.isInfix (kind : TokenKind) : Prop :=
  kind.infixRule? = some .leftAssociative ∨ kind.infixRule? = some .rightAssociative

theorem TokenKind.isInfix.precedence_pos {kind : TokenKind} (isInfix : kind.isInfix) :
    BindingPower.lowest < kind.precedence := by
  rw [← infixRule?_isSome_iff]
  rcases isInfix with rule | rule <;> simp [rule]

theorem TokenKind.isInfix.isAtom_eq_false {kind : TokenKind} (isInfix : kind.isInfix) :
    kind.isAtom = false := by
  rcases isInfix with rule | rule <;> cases kind <;> first | rfl | cases rule

/-- The power with which an operator holds the operand after it. An assignment leaves to its
right operand whatever binds as tightly as itself. -/
def TokenKind.rightPower (kind : TokenKind) : BindingPower :=
  if kind.isAssignment then kind.precedence.weaker else kind.precedence

namespace Concrete

mutual

/-- The signs of the tokens of an expression. -/
def yield : Concrete → List Sign
  | atom token => [.atom token]
  | group inner => .mark .leftParen :: inner.yield ++ [.mark .rightParen]
  | unary operator operand => .mark operator :: operand.yield
  | binary left operator right => left.yield ++ .mark operator :: right.yield
  | call callee arguments =>
    callee.yield ++ .mark .leftParen :: [.mark .comma].intercalate (yields arguments)
      ++ [.mark .rightParen]
  | subscript base index => base.yield ++ .mark .leftSquare :: index.yield ++ [.mark .rightSquare]

/-- The signs of some expressions, each by itself. -/
def yields : List Concrete → List (List Sign)
  | [] => []
  | first :: others => first.yield :: yields others

end

mutual

/-- The tree of an expression, in which parentheses are gone, if all of its literals have a
value. -/
def tree? : Concrete → Option Expression
  | atom token =>
    match Parse.operandStart token with
    | .ok (.complete value) => some value
    | _ => none
  | group inner => inner.tree?
  | unary operator operand => return .unary operator (← operand.tree?)
  | binary left operator right => return .binary (← left.tree?) operator (← right.tree?)
  | call callee arguments => return .call (← callee.tree?) (← trees? arguments)
  | subscript base index => return .subscript (← base.tree?) (← index.tree?)

/-- The trees of some expressions. -/
def trees? : List Concrete → Option (List Expression)
  | [] => some []
  | first :: others => return (← first.tree?) :: (← trees? others)

end

mutual

/-- How many expressions are nested inside an expression, at its deepest place. What stands left
of an operator is read at the same level as the operator. -/
def nesting : Concrete → Nat
  | atom _ => 0
  | group inner => inner.nesting + 1
  | unary _ operand => operand.nesting + 1
  | binary left _ right => max left.nesting (right.nesting + 1)
  | call callee arguments => max callee.nesting (nestingOfAll arguments)
  | subscript base index => max base.nesting (index.nesting + 1)

/-- How many expressions are nested in a list of them, those in the list included. -/
def nestingOfAll : List Concrete → Nat
  | [] => 0
  | first :: others => max (first.nesting + 1) (nestingOfAll others)

end

/-- The precedence of each operator, call and subscript on the way down through left operands. -/
def leftSpine : Concrete → List BindingPower
  | binary left operator _ => operator.precedence :: left.leftSpine
  | call callee _ => .call :: callee.leftSpine
  | subscript base _ => .call :: base.leftSpine
  | _ => []

/-- The power of each operator on the way down through right operands: with it the operator holds
what stands at the right edge. -/
def rightEdge : Concrete → List BindingPower
  | binary _ operator right => operator.rightPower :: right.rightEdge
  | unary _ operand => .unary :: operand.rightEdge
  | _ => []

/-- Everywhere in an expression operands are held by the right operator: nothing on the left spine
of an operand binds less tightly than the operator before it, and no operator at the right edge
of an operand binds less tightly than the operator, call or subscript after it. -/
inductive ProperlyBound : Concrete → Prop where
  | atom (token : Token) : ProperlyBound (atom token)
  | group (inner : ProperlyBound expression) : ProperlyBound (group expression)
  | unary (isUnary : operator.prefixRule? = some .unary) (operand : ProperlyBound expression)
      (held : ∀ power ∈ expression.leftSpine, .unary < power) :
      ProperlyBound (unary operator expression)
  | binary (isInfix : operator.isInfix) (left : ProperlyBound first) (right : ProperlyBound second)
      (held : ∀ power ∈ second.leftSpine, operator.rightPower < power)
      (released : ∀ power ∈ first.rightEdge, operator.precedence ≤ power) :
      ProperlyBound (binary first operator second)
  | call (callee : ProperlyBound expression)
      (arguments : ∀ argument ∈ values, ProperlyBound argument)
      (released : ∀ power ∈ expression.rightEdge, .call ≤ power) :
      ProperlyBound (call expression values)
  | subscript (base : ProperlyBound expression) (index : ProperlyBound position)
      (released : ∀ power ∈ expression.rightEdge, .call ≤ power) :
      ProperlyBound (subscript expression position)

/-- An expression that is all of what can be read in a place: the place holds its operators with
the power `least`, and neither the place nor an operator at the right edge leaves the token after
it, of kind `next`, to the expression. -/
structure Fits (expression : Concrete) (least : BindingPower) (next : TokenKind) : Prop where
  above : ∀ power ∈ expression.leftSpine, least < power
  ends : next.precedence ≤ least
  released : ∀ power ∈ expression.rightEdge, next.precedence ≤ power

/-- A properly bound expression with its tokens and its tree, not nested too deeply to be read at
the depth `depth`. -/
structure Denotes (expression : Concrete) (depth : Nat) (segment : List Token)
    (value : Expression) : Prop where
  bound : expression.ProperlyBound
  signs : segment.map Token.sign = expression.yield
  tree : expression.tree? = some value
  within : depth + expression.nesting < maxDepth

theorem tree?_unary {operator : TokenKind} {operand : Concrete} {value : Expression} :
    (unary operator operand).tree? = some value ↔
      ∃ inner, operand.tree? = some inner ∧ .unary operator inner = value := by
  simp [tree?, Option.bind_eq_some_iff]

theorem tree?_binary {left right : Concrete} {operator : TokenKind} {value : Expression} :
    (binary left operator right).tree? = some value ↔
      ∃ first, left.tree? = some first ∧ ∃ second, right.tree? = some second ∧
        .binary first operator second = value := by
  simp [tree?, Option.bind_eq_some_iff]

theorem tree?_call {callee : Concrete} {arguments : List Concrete} {value : Expression} :
    (call callee arguments).tree? = some value ↔
      ∃ inner, callee.tree? = some inner ∧ ∃ values, trees? arguments = some values ∧
        .call inner values = value := by
  simp [tree?, Option.bind_eq_some_iff]

theorem tree?_subscript {base index : Concrete} {value : Expression} :
    (subscript base index).tree? = some value ↔
      ∃ inner, base.tree? = some inner ∧ ∃ position, index.tree? = some position ∧
        .subscript inner position = value := by
  simp [tree?, Option.bind_eq_some_iff]

theorem trees?_cons {first : Concrete} {others : List Concrete} {values : List Expression} :
    trees? (first :: others) = some values ↔
      ∃ value, first.tree? = some value ∧ ∃ rest, trees? others = some rest ∧
        value :: rest = values := by
  simp [trees?, Option.bind_eq_some_iff]

theorem ProperlyBound.lowest_lt {expression : Concrete} (bound : expression.ProperlyBound) :
    ∀ power ∈ expression.leftSpine, BindingPower.lowest < power := by
  induction bound with
  | atom | group | unary => simp [leftSpine]
  | binary isInfix left right held released leftHeld =>
    simp only [leftSpine, List.mem_cons, forall_eq_or_imp]
    exact ⟨isInfix.precedence_pos, leftHeld⟩
  | call callee arguments released calleeHeld | subscript callee index released calleeHeld =>
    simp only [leftSpine, List.mem_cons, forall_eq_or_imp]
    exact ⟨by decide, calleeHeld⟩

/-- Between brackets every properly bound expression fits. -/
theorem ProperlyBound.fits_lowest {expression : Concrete} {next : TokenKind}
    (bound : expression.ProperlyBound) (ends : next.precedence = .lowest) :
    expression.Fits .lowest next where
  above := bound.lowest_lt
  ends := Nat.le_of_eq ends
  released power _ := by
    rw [ends]
    exact Nat.zero_le power

/-- A properly bound expression starts with an operand or with a token that can stand before
one. -/
theorem ProperlyBound.head?_yield {expression : Concrete} (bound : expression.ProperlyBound) :
    ∃ sign, expression.yield.head? = some sign ∧
      ∀ kind, sign = .mark kind → kind.prefixRule?.isSome = true := by
  induction bound with
  | atom token => exact ⟨_, rfl, by simp⟩
  | group inner => exact ⟨_, rfl, by rintro _ ⟨⟩; rfl⟩
  | unary isUnary inner held =>
    refine ⟨_, rfl, ?_⟩
    rintro kind ⟨⟩
    simp [isUnary]
  | binary _ _ _ _ _ first | call _ _ _ first | subscript _ _ _ first =>
    obtain ⟨sign, head, starts⟩ := first
    exact ⟨sign, by simp [yield, head], starts⟩

/-- The first token of an expression can start one. -/
theorem Denotes.starts {expression : Concrete} {depth : Nat} {segment : List Token}
    {value : Expression} (denotes : expression.Denotes depth segment value) :
    ∃ token rest, segment = token :: rest ∧ token.kind.prefixRule?.isSome = true := by
  obtain ⟨sign, head, starts⟩ := denotes.bound.head?_yield
  obtain ⟨rest, shape⟩ := List.head?_eq_some_iff.mp head
  obtain ⟨token, tail, rfl, first, -⟩ := List.map_eq_cons_iff.mp (denotes.signs.trans shape)
  refine ⟨token, tail, rfl, ?_⟩
  cases sign with
  | atom atom =>
    have isAtom := (Token.sign_eq_atom.mp first).2
    cases rule : token.kind.prefixRule? with
    | none => simp [TokenKind.isAtom, rule] at isAtom
    | some rule => rfl
  | mark kind =>
    rw [(Token.sign_eq_mark.mp first).1]
    exact starts kind rfl

end Concrete

end BraceLang
