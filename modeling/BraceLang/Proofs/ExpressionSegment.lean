import BraceLang.Proofs.OperatorBinding
import BraceLang.Proofs.StatementGrammar

/-!
Segments that the rule for expressions takes as a whole. Whether it does so depends on the segment
and the depth only: it is the same in every buffer in which a token comes next that cannot go on
with an expression.
-/
namespace BraceLang

open Rule

section

variable {depth : Nat} {segment : List Token} {value : Expression} {next : TokenKind}

/-- An expression by itself is one between any tokens that do not hold it. -/
theorem isExpression_iff :
    IsExpression depth segment value ↔ Concrete.IsElement depth segment value := by
  let state : ParseState := { ParseState.ofTokens segment with depth }
  constructor
  · rintro ⟨after, ran, atEnd⟩
    have sound : state.panicking = false := rfl
    obtain ⟨segment', passes, expression, denotes, -⟩ :=
      Parse.givesFitting_expressionWithin maxDepth depth sound rfl ran
    have whole : segment = segment' ++ after.rest := passes.rest
    rw [atEnd, List.append_nil] at whole
    exact ⟨expression, whole ▸ denotes⟩
  · rintro ⟨expression, denotes⟩
    have accepts : Accepts Parse.expression depth segment value .endOfInput :=
      Parse.acceptsFitting_expressionWithin (Nat.le_add_left ..) denotes
        (denotes.bound.fits_lowest rfl)
    obtain ⟨after, ran, passes⟩ := accepts state [] rfl rfl (List.append_nil _).symm rfl
    refine ⟨after, ran, ?_⟩
    have whole : segment ++ [] = segment ++ after.rest :=
      (List.append_nil _).trans passes.rest
    exact (List.append_cancel_left whole).symm

theorem IsExpression.accepts (expression : IsExpression depth segment value)
    (ends : next.precedence = .lowest) : Accepts Parse.expression depth segment value next := by
  obtain ⟨concrete, denotes⟩ := isExpression_iff.mp expression
  exact Parse.acceptsFitting_expressionWithin (Nat.le_add_left ..) denotes
    (denotes.bound.fits_lowest ends)

theorem IsExpression.starts (expression : IsExpression depth segment value) :
    ∃ token rest, segment = token :: rest ∧ token.kind.prefixRule?.isSome = true := by
  obtain ⟨concrete, denotes⟩ := isExpression_iff.mp expression
  exact denotes.starts

end

end BraceLang
