import Mathlib.Logic.Relation
import BraceLang.Proofs.ConcreteExpression

/-!
At most one properly bound expression fits a place. An expression grows along its left spine, one
operator with its right operand at a time. Of two expressions with the same tokens from the same
place on, the one that fits is reached by letting the other one grow: their innermost operands are
the same, and so is each step. An expression that the next token does not hold cannot grow.
-/
namespace BraceLang

/-- The kind of the first sign, at the end of input that of the end. -/
def headKind : List Sign → TokenKind
  | [] => .endOfInput
  | .atom token :: _ => token.kind
  | .mark kind :: _ => kind

namespace Concrete

open Relation (ReflTransGen)

/-- An expression, with the signs after it, becomes the left part of a larger one, with the signs
that are left then. The operator of the larger one binds more tightly than `least`. -/
inductive Extends (least : BindingPower) : Concrete × List Sign → Concrete × List Sign → Prop where
  | binary (isInfix : operator.isInfix) (above : least < operator.precedence)
      (bound : ProperlyBound right) (fits : right.Fits operator.rightPower (headKind rest)) :
      Extends least (left, .mark operator :: (right.yield ++ rest))
        (.binary left operator right, rest)
  | call (above : least < .call) (bound : ∀ argument ∈ arguments, ProperlyBound argument) :
      Extends least
        (left, .mark .leftParen ::
          ([.mark .comma].intercalate (yields arguments) ++ .mark .rightParen :: rest))
        (.call left arguments, rest)
  | subscript (above : least < .call) (bound : ProperlyBound index) :
      Extends least (left, .mark .leftSquare :: (index.yield ++ .mark .rightSquare :: rest))
        (.subscript left index, rest)

variable {least : BindingPower} {first second : Concrete} {rest rest' : List Sign}

/-- How an expression grows is settled by the next sign. -/
theorem Extends.cases_of_mark {operator : TokenKind} {signs : List Sign}
    {next : Concrete × List Sign} (step : Extends least (first, .mark operator :: signs) next) :
    (operator.isInfix ∧ ∃ right rest, next = (.binary first operator right, rest) ∧
      signs = right.yield ++ rest ∧ right.ProperlyBound ∧
      right.Fits operator.rightPower (headKind rest)) ∨
    (operator = .leftParen ∧ ∃ arguments rest, next = (.call first arguments, rest) ∧
      signs = [.mark .comma].intercalate (yields arguments) ++ .mark .rightParen :: rest ∧
      ∀ argument ∈ arguments, argument.ProperlyBound) ∨
    (operator = .leftSquare ∧ ∃ index rest, next = (.subscript first index, rest) ∧
      signs = index.yield ++ .mark .rightSquare :: rest ∧ index.ProperlyBound) := by
  cases step with
  | binary isInfix above bound fits => exact .inl ⟨isInfix, _, _, rfl, rfl, bound, fits⟩
  | call above bound => exact .inr (.inl ⟨rfl, _, _, rfl, rfl, bound⟩)
  | subscript above bound => exact .inr (.inr ⟨rfl, _, _, rfl, rfl, bound⟩)

/-- An expression that the next token does not hold is the last one of its growth. -/
theorem eq_of_extends (ends : (headKind rest).precedence ≤ least)
    (run : ReflTransGen (Extends least) (first, rest) (second, rest')) :
    first = second ∧ rest = rest' := by
  rcases run.cases_head with same | ⟨next, step, -⟩
  · exact Prod.mk.inj same
  · cases step with
    | binary isInfix above bound fits => exact absurd above (Nat.not_lt_of_le ends)
    | call above bound => exact absurd above (Nat.not_lt_of_le ends)
    | subscript above bound => exact absurd above (Nat.not_lt_of_le ends)

/-- Every expression grows from its innermost left operand. -/
theorem ProperlyBound.exists_innermost (bound : first.ProperlyBound) (rest : List Sign)
    (above : ∀ power ∈ first.leftSpine, least < power)
    (released : ∀ power ∈ first.rightEdge, (headKind rest).precedence ≤ power) :
    ∃ (innermost : Concrete) (signs : List Sign), innermost.ProperlyBound ∧
      innermost.leftSpine = [] ∧
      (∀ power ∈ innermost.rightEdge, (headKind signs).precedence ≤ power) ∧
      first.yield ++ rest = innermost.yield ++ signs ∧
      ReflTransGen (Extends least) (innermost, signs) (first, rest) := by
  induction bound generalizing rest with
  | atom token => exact ⟨_, rest, .atom token, rfl, released, rfl, .refl⟩
  | group inner => exact ⟨_, rest, .group inner, rfl, released, rfl, .refl⟩
  | unary isUnary operand held =>
    exact ⟨_, rest, .unary isUnary operand held, rfl, released, rfl, .refl⟩
  | @binary left right operator isInfix leftBound rightBound held leftReleased leftGrown =>
    rw [leftSpine, List.forall_mem_cons] at above
    rw [rightEdge, List.forall_mem_cons] at released
    obtain ⟨innermost, signs, bound, spine, edge, same, run⟩ :=
      leftGrown (.mark operator :: (right.yield ++ rest)) above.2 leftReleased
    refine ⟨innermost, signs, bound, spine, edge, ?_,
      run.tail (.binary isInfix above.1 rightBound ⟨held, released.1, released.2⟩)⟩
    rw [← same, yield, List.append_assoc, List.cons_append]
  | @call callee arguments calleeBound argumentsBound leftReleased leftGrown =>
    rw [leftSpine, List.forall_mem_cons] at above
    obtain ⟨innermost, signs, bound, spine, edge, same, run⟩ :=
      leftGrown (.mark .leftParen ::
        ([.mark .comma].intercalate (yields arguments) ++ .mark .rightParen :: rest))
        above.2 leftReleased
    refine ⟨innermost, signs, bound, spine, edge, ?_, run.tail (.call above.1 argumentsBound)⟩
    rw [← same, yield]
    simp
  | @subscript base index baseBound indexBound leftReleased leftGrown =>
    rw [leftSpine, List.forall_mem_cons] at above
    obtain ⟨innermost, signs, bound, spine, edge, same, run⟩ :=
      leftGrown (.mark .leftSquare :: (index.yield ++ .mark .rightSquare :: rest))
        above.2 leftReleased
    refine ⟨innermost, signs, bound, spine, edge, ?_, run.tail (.subscript above.1 indexBound)⟩
    rw [← same, yield]
    simp

/-- An expression grows to every expression that has the same signs and fits its place. -/
def Reaches (first : Concrete) : Prop :=
  ∀ {least : BindingPower} (rest : List Sign) {second : Concrete} {rest' : List Sign},
    (∀ power ∈ first.leftSpine, least < power) →
    (∀ power ∈ first.rightEdge, (headKind rest).precedence ≤ power) →
    second.ProperlyBound → second.Fits least (headKind rest') →
    first.yield ++ rest = second.yield ++ rest' →
    ReflTransGen (Extends least) (first, rest) (second, rest')

/-- Two expressions that fit the same place are the same. -/
theorem Reaches.eq (reaches : first.Reaches) (fits : first.Fits least (headKind rest))
    (bound : second.ProperlyBound) (fits' : second.Fits least (headKind rest'))
    (same : first.yield ++ rest = second.yield ++ rest') : first = second ∧ rest = rest' :=
  eq_of_extends fits.ends (reaches rest fits.above fits.released bound fits' same)

/-- An expression that is not a left part of itself grows to whatever starts with it. -/
theorem reaches_of_innermost
    (same_innermost : ∀ {rest : List Sign} {innermost : Concrete} {signs : List Sign},
      (∀ power ∈ first.rightEdge, (headKind rest).precedence ≤ power) →
      innermost.ProperlyBound → innermost.leftSpine = [] →
      (∀ power ∈ innermost.rightEdge, (headKind signs).precedence ≤ power) →
      first.yield ++ rest = innermost.yield ++ signs → first = innermost ∧ rest = signs) :
    first.Reaches := by
  intro least rest second rest' _ released bound fits same
  obtain ⟨innermost, signs, bound', spine, edge, same', run⟩ :=
    bound.exists_innermost rest' fits.above fits.released
  obtain ⟨rfl, rfl⟩ := same_innermost released bound' spine edge (same.trans same')
  exact run

/-- Before a closing parenthesis or a comma every properly bound expression fits. -/
theorem headKind_items (others : List Concrete) (rest : List Sign) :
    (headKind ((yields others).flatMap (Sign.mark .comma :: ·) ++
      .mark .rightParen :: rest)).precedence = .lowest := by
  cases others <;> rfl

theorem items_unique {others others' : List Concrete}
    (reach : ∀ argument ∈ others, Reaches argument)
    (bound : ∀ argument ∈ others, ProperlyBound argument)
    (bound' : ∀ argument ∈ others', ProperlyBound argument)
    (same : (yields others).flatMap (Sign.mark .comma :: ·) ++ .mark .rightParen :: rest =
      (yields others').flatMap (Sign.mark .comma :: ·) ++ .mark .rightParen :: rest') :
    others = others' ∧ rest = rest' := by
  induction others generalizing others' with
  | nil =>
    cases others' with
    | nil => exact ⟨rfl, (List.cons.inj same).2⟩
    | cons first' others' => simp [yields] at same
  | cons first others ih =>
    rw [List.forall_mem_cons] at reach bound
    cases others' with
    | nil => simp [yields] at same
    | cons first' others' =>
      rw [List.forall_mem_cons] at bound'
      simp only [yields, List.flatMap_cons, List.cons_append, List.append_assoc, List.cons.injEq,
        true_and] at same
      have reaches : first.Reaches := reach.1
      obtain ⟨rfl, sameOthers⟩ := reaches.eq (bound.1.fits_lowest (headKind_items ..)) bound'.1
        (bound'.1.fits_lowest (headKind_items ..)) same
      obtain ⟨rfl, sameRest⟩ := ih reach.2 bound.2 bound'.2 sameOthers
      exact ⟨rfl, sameRest⟩

/-- No expression starts with a closing parenthesis. -/
theorem ProperlyBound.yield_append_ne_rightParen (bound : first.ProperlyBound)
    (signs : List Sign) : first.yield ++ signs ≠ .mark .rightParen :: rest := by
  intro same
  obtain ⟨sign, head, starts⟩ := bound.head?_yield
  obtain ⟨tail, shape⟩ := List.head?_eq_some_iff.mp head
  rw [shape, List.cons_append] at same
  have known := starts .rightParen (List.cons.inj same).1
  cases known

/-- The arguments of a call are determined by what follows the opening parenthesis. -/
theorem arguments_unique {arguments arguments' : List Concrete}
    (reach : ∀ argument ∈ arguments, Reaches argument)
    (bound : ∀ argument ∈ arguments, ProperlyBound argument)
    (bound' : ∀ argument ∈ arguments', ProperlyBound argument)
    (same : [Sign.mark .comma].intercalate (yields arguments) ++ .mark .rightParen :: rest =
      [Sign.mark .comma].intercalate (yields arguments') ++ .mark .rightParen :: rest') :
    arguments = arguments' ∧ rest = rest' := by
  cases arguments with
  | nil =>
    cases arguments' with
    | nil => exact ⟨rfl, (List.cons.inj same).2⟩
    | cons first' others' =>
      rw [List.forall_mem_cons] at bound'
      rw [yields, yields, intercalate_cons, List.append_assoc] at same
      exact absurd same.symm (bound'.1.yield_append_ne_rightParen _)
  | cons first others =>
    rw [List.forall_mem_cons] at reach bound
    rw [yields, intercalate_cons, List.append_assoc] at same
    cases arguments' with
    | nil => exact absurd same (bound.1.yield_append_ne_rightParen _)
    | cons first' others' =>
      rw [List.forall_mem_cons] at bound'
      rw [yields, intercalate_cons, List.append_assoc] at same
      have reaches : first.Reaches := reach.1
      obtain ⟨rfl, sameOthers⟩ := reaches.eq (bound.1.fits_lowest (headKind_items ..)) bound'.1
        (bound'.1.fits_lowest (headKind_items ..)) same
      obtain ⟨rfl, sameRest⟩ := items_unique reach.2 bound.2 bound'.2 sameOthers
      exact ⟨rfl, sameRest⟩

theorem reaches_atom (token : Token) : Reaches (atom token) := by
  refine reaches_of_innermost ?_
  intro rest innermost signs _ bound spine _ same
  cases bound with
  | atom token' =>
    obtain ⟨sameToken, sameRest⟩ := List.cons.inj same
    exact ⟨congrArg Concrete.atom (Sign.atom.inj sameToken), sameRest⟩
  | group | unary => simp [yield] at same
  | binary | call | subscript => simp [leftSpine] at spine

theorem reaches_group (bound : first.ProperlyBound) (reaches : first.Reaches) :
    Reaches first.group := by
  refine reaches_of_innermost ?_
  intro rest innermost signs _ bound' spine _ same
  cases bound' with
  | group inner =>
    simp only [yield, List.cons_append, List.append_assoc, List.cons.injEq, true_and] at same
    obtain ⟨rfl, sameRest⟩ :=
      reaches.eq (bound.fits_lowest rfl) inner (inner.fits_lowest rfl) same
    exact ⟨rfl, (List.cons.inj sameRest).2⟩
  | atom => simp [yield] at same
  | unary isUnary =>
    obtain ⟨sameSign, -⟩ := List.cons.inj same
    cases sameSign
    cases isUnary
  | binary | call | subscript => simp [leftSpine] at spine

theorem reaches_unary {operator : TokenKind} (isUnary : operator.prefixRule? = some .unary)
    (held : ∀ power ∈ first.leftSpine, .unary < power) (reaches : first.Reaches) :
    Reaches (unary operator first) := by
  refine reaches_of_innermost ?_
  intro rest innermost signs released bound' spine edge same
  rw [rightEdge, List.forall_mem_cons] at released
  cases bound' with
  | unary _ operand held' =>
    rw [rightEdge, List.forall_mem_cons] at edge
    obtain ⟨sameSign, sameOperand⟩ := List.cons.inj same
    cases sameSign
    obtain ⟨rfl, sameRest⟩ := reaches.eq ⟨held, released.1, released.2⟩ operand
      ⟨held', edge.1, edge.2⟩ sameOperand
    exact ⟨rfl, sameRest⟩
  | atom => simp [yield] at same
  | group =>
    obtain ⟨sameSign, -⟩ := List.cons.inj same
    cases sameSign
    cases isUnary
  | binary | call | subscript => simp [leftSpine] at spine

/-- Before an operator that the place holds, an expression is not yet all of what can be read. -/
theorem exists_extends {operator : TokenKind} {signs : List Sign}
    (run : ReflTransGen (Extends least) (first, .mark operator :: signs) (second, rest'))
    (above : least < operator.precedence) (fits : second.Fits least (headKind rest')) :
    ∃ next, Extends least (first, .mark operator :: signs) next ∧
      ReflTransGen (Extends least) next (second, rest') := by
  rcases run.cases_head with stop | ⟨next, step, run⟩
  · cases stop
    exact absurd above (Nat.not_lt_of_le fits.ends)
  · exact ⟨next, step, run⟩

theorem reaches_binary {right : Concrete} {operator : TokenKind} (isInfix : operator.isInfix)
    (held : ∀ power ∈ right.leftSpine, operator.rightPower < power)
    (released : ∀ power ∈ first.rightEdge, operator.precedence ≤ power)
    (leftReaches : first.Reaches) (rightReaches : right.Reaches) :
    Reaches (binary first operator right) := by
  intro least rest second rest' above edge bound fits same
  rw [leftSpine, List.forall_mem_cons] at above
  rw [rightEdge, List.forall_mem_cons] at edge
  rw [yield, List.append_assoc, List.cons_append] at same
  have run := leftReaches (.mark operator :: (right.yield ++ rest)) above.2 released bound fits same
  obtain ⟨next, step, run⟩ := exists_extends run above.1 fits
  rcases step.cases_of_mark with
    ⟨-, right', rest'', rfl, sameRight, bound', fits'⟩ | ⟨rfl, -⟩ | ⟨rfl, -⟩
  · obtain ⟨rfl, rfl⟩ := rightReaches.eq ⟨held, edge.1, edge.2⟩ bound' fits' sameRight
    exact run
  · cases isInfix <;> contradiction
  · cases isInfix <;> contradiction

theorem reaches_call {arguments : List Concrete}
    (bound : ∀ argument ∈ arguments, ProperlyBound argument)
    (released : ∀ power ∈ first.rightEdge, .call ≤ power)
    (leftReaches : first.Reaches) (reach : ∀ argument ∈ arguments, Reaches argument) :
    Reaches (call first arguments) := by
  intro least rest second rest' above _ bound' fits same
  rw [leftSpine, List.forall_mem_cons] at above
  have run := leftReaches (.mark .leftParen ::
      ([.mark .comma].intercalate (yields arguments) ++ .mark .rightParen :: rest))
    above.2 released bound' fits (by simpa [yield] using same)
  obtain ⟨next, step, run⟩ := exists_extends run above.1 fits
  rcases step.cases_of_mark with
    ⟨isInfix, -⟩ | ⟨-, arguments', rest'', rfl, sameArguments, bound''⟩ | ⟨isSquare, -⟩
  · cases isInfix <;> contradiction
  · obtain ⟨rfl, rfl⟩ := arguments_unique reach bound bound'' sameArguments
    exact run
  · cases isSquare

theorem reaches_subscript {index : Concrete} (bound : index.ProperlyBound)
    (released : ∀ power ∈ first.rightEdge, .call ≤ power)
    (leftReaches : first.Reaches) (indexReaches : index.Reaches) :
    Reaches (subscript first index) := by
  intro least rest second rest' above _ bound' fits same
  rw [leftSpine, List.forall_mem_cons] at above
  have run := leftReaches (.mark .leftSquare :: (index.yield ++ .mark .rightSquare :: rest))
    above.2 released bound' fits (by simpa [yield] using same)
  obtain ⟨next, step, run⟩ := exists_extends run above.1 fits
  rcases step.cases_of_mark with
    ⟨isInfix, -⟩ | ⟨isParen, -⟩ | ⟨-, index', rest'', rfl, sameIndex, bound''⟩
  · cases isInfix <;> contradiction
  · cases isParen
  · obtain ⟨rfl, sameRest⟩ := indexReaches.eq (bound.fits_lowest rfl) bound''
      (bound''.fits_lowest rfl) sameIndex
    cases sameRest
    exact run

/-- Induction on the expression that grows: its left part grows to the other expression, its first
step in this is the operator that the expression itself has, and the right operands agree. -/
theorem ProperlyBound.reaches (bound : first.ProperlyBound) : first.Reaches := by
  induction bound with
  | atom token => exact reaches_atom token
  | group inner ih => exact reaches_group inner ih
  | unary isUnary _ held ih => exact reaches_unary isUnary held ih
  | binary isInfix _ _ held released leftIh rightIh =>
    exact reaches_binary isInfix held released leftIh rightIh
  | call _ arguments released calleeIh argumentsIh =>
    exact reaches_call arguments released calleeIh argumentsIh
  | subscript _ index released baseIh indexIh =>
    exact reaches_subscript index released baseIh indexIh

/-- Expressions that fit a place and start with the same signs are the same. -/
theorem Fits.unique (fits : first.Fits least (headKind rest)) (bound : first.ProperlyBound)
    (fits' : second.Fits least (headKind rest')) (bound' : second.ProperlyBound)
    (same : first.yield ++ rest = second.yield ++ rest') : first = second ∧ rest = rest' :=
  Reaches.eq bound.reaches fits bound' fits' same

end Concrete

end BraceLang
