import BraceLang.Parse.Session
import BraceLang.Proofs.Concatenation

/-!
Sessions that have been used. Whatever is done in a session, within nested rules or not, and
whichever of its steps fail, each step leaves behind what every rule leaves behind: the depth is the
old one again, the end of input is seen at the same place, and earlier reports stay
(`Session.leadsTo_run`). Parsing the whole buffer then starts from the state of a fresh session but
for those reports, if no problem is open (`Session.parse_after_run`).
-/
namespace BraceLang

variable {α : Type}

theorem ParseState.leadsTo_reportToken (state : ParseState) (token : Token) (problem : Problem) :
    state.LeadsTo (state.reportToken token problem) := by
  unfold reportToken
  split
  · exact .refl state
  · exact state.leadsTo_reported _

namespace Rule

/-- A rule that never moves the cursor back, and leaves the depth, the place of the end and earlier
reports as they are. Whether it fails, and what it reports, is left open. -/
def Tidy (rule : Rule α) : Prop :=
  ∀ state : ParseState, state.LeadsTo (rule state).2

theorem Accountable.tidy {rule : Rule α} (accountable : Accountable rule) : Tidy rule :=
  fun state => (accountable state).leadsTo

theorem Tidy.nested {rule : Rule α} (inner : Tidy rule) : Tidy (nested rule) := by
  intro state
  rw [nested_apply]
  by_cases tooDeep : maxDepth ≤ state.depth
  · rw [if_pos tooDeep]
    exact state.leadsTo_report _
  · rw [if_neg tooDeep]
    exact (inner state.deeper).of_deeper (Nat.lt_of_not_le tooDeep)

theorem Tidy.repeat_nested {rule : Rule α} (inner : Tidy rule) (times : Nat) :
    Tidy (Nat.repeat Rule.nested times rule) := by
  induction times with
  | zero => exact inner
  | succ times ih => exact ih.nested

end Rule

namespace Operation

theorem leadsTo_ofRule {rule : Rule α} (tidy : rule.Tidy) (wrap : α → Outcome)
    (state : ParseState) : state.LeadsTo (Outcome.ofRule wrap rule state).2 := by
  have leads := tidy state
  unfold Outcome.ofRule
  split <;> rename_i ran <;> rwa [ran] at leads

theorem leadsTo_expect (kind : TokenKind) (message : String) (state : ParseState) :
    state.LeadsTo ((expect kind message).run state).2 := by
  rw [run]
  dsimp only
  split
  · exact .refl state
  · exact state.leadsTo_report _

theorem leadsTo_synchronize (state : ParseState) : state.LeadsTo state.synchronize := by
  cases panicking : state.panicking with
  | true => exact ParseState.leadsTo_synchronize panicking
  | false =>
    rw [ParseState.synchronize_of_calm panicking]
    exact .refl state

mutual

/-- A step of a session leaves behind what every rule leaves behind, whether it fails or not. -/
theorem leadsTo_run (step : Operation) (state : ParseState) :
    state.LeadsTo (step.run state).2 := by
  match step with
  | peek _ => exact .refl state
  | take => exact leadsTo_ofRule Rule.accountable_take.tidy _ state
  | expect kind message => exact leadsTo_expect kind message state
  | takeKind kind message => exact leadsTo_ofRule (Rule.accountable_takeKind _ _).tidy _ state
  | reportAt ahead message => exact state.leadsTo_reportAt ahead _
  | reportToken token message => exact state.leadsTo_reportToken token _
  | synchronize => exact leadsTo_synchronize state
  | nested times steps =>
    -- the steps inside are run as one rule, which always gives a value
    have inner : Rule.Tidy fun entered =>
        (some (runAll steps entered).1, (runAll steps entered).2) := leadsTo_runAll steps
    have leads := inner.repeat_nested times state
    rw [run]
    dsimp only
    split <;> rename_i ran <;> rwa [ran] at leads
  | expression => exact leadsTo_ofRule Parse.accountable_expression.tidy _ state
  | expressionAbove least =>
    exact leadsTo_ofRule (Parse.accountable_expressionAbove least).tidy _ state
  | initializer => exact leadsTo_ofRule Parse.accountable_initializer.tidy _ state
  | arrayLiteral => exact leadsTo_ofRule Parse.accountable_arrayLiteral.tidy _ state
  | statement => exact leadsTo_ofRule Parse.accountable_statement.tidy _ state
  | block => exact leadsTo_ofRule (Parse.accountable_block Parse.accountable_statement).tidy _ state
  | topLevelStatement => exact leadsTo_ofRule Parse.accountable_topLevelStatement.tidy _ state
  | typeAfterName =>
    have typed := Rule.accountable_take.bind fun token => Parse.accountable_typeAfterName token.text
    exact leadsTo_ofRule typed.tidy _ state
  | typeNamed name =>
    exact leadsTo_ofRule (Parse.accountable_typeAfterName name.text).tidy _ state
  | typeName context => exact leadsTo_ofRule (Parse.accountable_typeName _).tidy _ state

/-- So do steps one after another. -/
theorem leadsTo_runAll (steps : List Operation) (state : ParseState) :
    state.LeadsTo (runAll steps state).2 := by
  match steps with
  | [] => exact .refl state
  | step :: steps => exact (leadsTo_run step state).trans (leadsTo_runAll steps _)

end

end Operation

/-- What the driver finds from a state on depends on the tokens that are left, and on earlier
reports only in that they stay. -/
theorem Parse.programFrom_of_rest {state : ParseState} {tokens : List Token}
    (calm : state.panicking = false) (level : state.depth = 0) (rest : state.rest = tokens)
    (stop : tokens ≠ [] → state.stop = ParseState.stopOf tokens) :
    programFrom state = ⟨(parseTokens tokens).program,
      state.reports ++ (parseTokens tokens).reports.map (Report.later state.index)⟩ := by
  obtain ⟨attempts, last, rounds, atEnd, found, reports⟩ :=
    exists_rounds_of_rest calm level rest stop
  have ready : Ready state := ⟨level, fun panicking => absurd panicking (by simp [calm])⟩
  rw [programFrom, rounds.statementsFrom_eq ready atEnd]
  dsimp only
  rw [found, reports]

namespace Session

variable {session used : Session} {tokens : List Token} {steps : List Operation}

theorem leadsTo_run (ran : (session.run steps).2 = used) :
    used.tokens = session.tokens ∧ session.state.LeadsTo used.state := by
  subst ran
  exact ⟨rfl, Operation.leadsTo_runAll steps session.state⟩

/-- Parsing in a used session. If no problem is open after some steps, then parsing the whole buffer
gives the tree that it gives in a fresh session, and reports the same problems behind those that
were reported before. -/
theorem parse_after_run (ran : ((ofTokens tokens).run steps).2 = used)
    (calm : used.state.panicking = false) :
    used.parse.program = (parseTokens tokens).program ∧
      used.parse.reports = used.state.reports ++ (parseTokens tokens).reports ∧
      used.parse.diagnostics =
        used.state.reports.map Report.diagnostic ++ (parseTokens tokens).diagnostics := by
  obtain ⟨sameTokens, leads⟩ := leadsTo_run ran
  let rewound : ParseState := { used.state with cursor := .ofTokens tokens }
  have parsed : used.parse = ⟨(parseTokens tokens).program,
      used.state.reports ++ (parseTokens tokens).reports.map (Report.later 0)⟩ := by
    rw [parse, sameTokens]
    have level : rewound.depth = 0 := leads.depth
    exact Parse.programFrom_of_rest calm level rfl fun _ => leads.stop
  rw [Report.later_zero, List.map_id] at parsed
  rw [parsed]
  exact ⟨rfl, rfl, List.map_append⟩

/-- A problem within a nested rule has been recovered from, and a rule has failed in between. -/
theorem parse_after_failed_steps :
    let token (kind : TokenKind) (text : String) : Token := ⟨kind, text, .start⟩
    let tokens : List Token := [token .kwUsing "using", token .identifier "a",
      token .semicolon ";", token .rightParen ")", .endAt .start]
    let used := ((ofTokens tokens).run
      [.nested 2 [.take, .takeKind .comma "no comma"], .topLevelStatement, .synchronize]).2
    used.state.panicking = false ∧ used.parse.program.statements = [.usingNamespace "a"] ∧
      used.parse.reports.map Report.index = [1, 3] := by
  intro token tokens used
  have ran : ((ofTokens tokens).run _).2 = used := rfl
  obtain ⟨program, reports, -⟩ := parse_after_run ran rfl
  have rounds : Parse.Rounds (.ofTokens tokens) _ _ :=
    .step (by decide) rfl (.step (by decide) rfl (.refl _))
  rw [program, reports, parseTokens_of_rounds rounds rfl]
  exact ⟨rfl, rfl, rfl⟩

end Session

end BraceLang
