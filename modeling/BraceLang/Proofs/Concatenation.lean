import BraceLang.Proofs.Agreement

/-!
Buffers put together. If the driver gets to the end of a buffer and no problem is open there, what
follows in its place is read as if it stood alone: the buffer is read as before, since the driver
comes to its end only after the last attempt (first use of agreement), and then the rest is read as
from its own start (second use), with its reports at indices further on.
-/
namespace BraceLang

namespace Parse

variable {state last : ParseState} {attempts : List Attempt}

/-- What stands behind other tokens is read as it is alone, with its reports at later indices. -/
theorem exists_rounds_of_rest {tokens : List Token} (sound : state.panicking = false)
    (level : state.depth = 0) (rest : state.rest = tokens)
    (stop : tokens ≠ [] → state.stop = ParseState.stopOf tokens) :
    ∃ attempts last, Rounds state attempts last ∧ last.current.kind = .endOfInput ∧
      attempts.filterMap Attempt.found = (parseTokens tokens).program.statements ∧
      last.reports =
        state.reports ++ (parseTokens tokens).reports.map (Report.later state.index) := by
  by_cases nothing : tokens = []
  · -- the end of an empty buffer has a place of its own, at which nothing is reported
    have empty : parseTokens [] = ⟨⟨[]⟩, []⟩ := parseTokens_of_rounds (.refl _) rfl
    rw [nothing] at rest
    rw [nothing, empty]
    exact ⟨[], state, .refl state, ParseState.current_kind_of_nil rest, rfl,
      (List.append_nil _).symm⟩
  · obtain ⟨attempts, last, rounds, atEnd, parsed⟩ := exists_rounds_of_tokens tokens
    rw [parsed]
    let pairing : Pairing := ⟨state.index, state.reports, [], [], .inl ⟨rfl, rfl⟩⟩
    have agrees : pairing.Agrees (.ofTokens tokens) state :=
      { rest := ⟨tokens, (List.append_nil _).symm, rest.trans (List.append_nil _).symm⟩
        stop := fun _ => stop nothing
        index := rfl
        reports := (List.append_nil _).symm
        panicking := sound
        depth := level }
    obtain ⟨attempts', last', rounds', same, agreesLast⟩ :=
      rounds.agrees (ready_ofTokens tokens) agrees (.inl rfl)
    have atEnd' : last'.current.kind = .endOfInput := by
      rw [agreesLast.current (.inl rfl), atEnd]
    exact ⟨attempts', last', rounds', atEnd', same, agreesLast.reports⟩

/-- A buffer in which the driver gets to the end without an open problem is read in the same way
when other tokens follow in place of the end. -/
theorem Rounds.continued {first : List Token} {final : Token}
    (rounds : Rounds (.ofTokens (first ++ [final])) attempts last) (rest : last.rest = [final])
    (calm : last.panicking = false) (ends : final.kind = .endOfInput) (second : List Token) :
    ∃ attempts' last', Rounds (.ofTokens (first ++ second)) attempts' last' ∧
      attempts'.filterMap Attempt.found = attempts.filterMap Attempt.found ∧
      last'.rest = second ∧ last'.reports = last.reports ∧ last'.panicking = false := by
  let pairing : Pairing := ⟨0, [], [final], second, .inr ⟨final, rfl, ends⟩⟩
  have agrees : pairing.Agrees (.ofTokens (first ++ [final])) (.ofTokens (first ++ second)) :=
    ⟨⟨first, rfl, rfl⟩, nofun, rfl, rfl, rfl, rfl⟩
  obtain ⟨attempts', last', rounds', same, agreesLast⟩ :=
    rounds.agrees (ready_ofTokens _) agrees (.inr calm)
  refine ⟨attempts', last', rounds', same, ?_, ?_, agreesLast.panicking.trans calm⟩
  · obtain ⟨common, isLast, isLast'⟩ := agreesLast.rest
    have nothing : common = [] := List.append_left_eq_self.mp (isLast.symm.trans rest)
    rw [isLast', nothing]
    rfl
  · exact agreesLast.reports.trans (by simp [pairing])

end Parse

theorem ParseState.stopOf_append {first second : List Token} (nonempty : second ≠ []) :
    stopOf (first ++ second) = stopOf second := by
  rw [stopOf, stopOf, List.getLast?_append, List.getLast?_eq_some_getLast nonempty, Option.some_or]

/-- The only end of input in a buffer is its last token. -/
theorem eq_singleton_of_append_eq {first segment rest : List Token} {final : Token}
    (free : EndFree first) (shape : first ++ [final] = segment ++ rest) (left : rest ≠ [])
    (atEnd : firstKind rest .endOfInput = .endOfInput) : rest = [final] := by
  rcases List.append_eq_append_iff.mp shape with ⟨beyond, -, isFinal⟩ | ⟨between, isFirst, rfl⟩
  · rcases List.append_eq_singleton_iff.mp isFinal.symm with ⟨-, isRest⟩ | ⟨-, none⟩
    · exact isRest
    · exact absurd none left
  · cases between with
    | nil => rfl
    | cons token between => exact absurd atEnd (free token (by simp [isFirst]))

/-- The driver gets to the end of input behind some tokens and has no open problem there. -/
def ReachesEnd (tokens : List Token) (final : Token) : Prop :=
  (Parse.statementsFrom (.ofTokens (tokens ++ [final]))).2.rest = [final] ∧
    (Parse.statementsFrom (.ofTokens (tokens ++ [final]))).2.panicking = false

/-- Behind tokens that are read without a problem the driver gets to the end of input. -/
theorem reachesEnd_of_clean {tokens : List Token} {final : Token} (free : EndFree tokens)
    (ends : final.kind = .endOfInput) (clean : (parseTokens (tokens ++ [final])).reports = []) :
    ReachesEnd tokens final := by
  obtain ⟨segment, passes, items, atEnd⟩ :=
    @Parse.many_of_statementsFrom (.ofTokens (tokens ++ [final])) rfl rfl clean
  refine ⟨eq_singleton_of_append_eq free passes.rest ?_ ?_, passes.panicking⟩
  · intro nothing
    have whole : tokens ++ [final] = segment := by
      have shape := passes.rest
      rwa [nothing, List.append_nil] at shape
    exact absurd ends (ends_of_many_isTopLevel items (by simp [← whole]))
  · rwa [← ParseState.current_kind]

/-- Parsing is compositional where the driver has recovered. If it gets to the end of input behind
some tokens without an open problem, for which it is enough that nothing is reported about them,
then these tokens and any others after them are parsed to the statements and the diagnostics of the
former followed by those of the latter. -/
theorem parseTokens_append {first : List Token} {final : Token} (free : EndFree first)
    (ends : final.kind = .endOfInput) :
    ((parseTokens (first ++ [final])).reports = [] → ReachesEnd first final) ∧
    (ReachesEnd first final → ∀ second : List Token,
      (parseTokens (first ++ second)).program.statements =
        (parseTokens (first ++ [final])).program.statements ++
          (parseTokens second).program.statements ∧
      (parseTokens (first ++ second)).reports =
        (parseTokens (first ++ [final])).reports ++
          (parseTokens second).reports.map (Report.later first.length) ∧
      (parseTokens (first ++ second)).diagnostics =
        (parseTokens (first ++ [final])).diagnostics ++ (parseTokens second).diagnostics) := by
  refine ⟨reachesEnd_of_clean free ends, fun reaches second => ?_⟩
  obtain ⟨attempts, last, rounds, atEnd, parsed⟩ := exists_rounds_of_tokens (first ++ [final])
  rw [ReachesEnd, rounds.statementsFrom_eq (Parse.ready_ofTokens _) atEnd] at reaches
  obtain ⟨attempts', last', rounds', same, rest', reports', calm'⟩ :=
    rounds.continued reaches.1 reaches.2 ends second
  have leads := rounds'.leadsTo (Parse.ready_ofTokens _)
  have within := (ParseState.within_ofTokens (first ++ second)).of_leadsTo leads
  have index : last'.index = first.length := by
    have whole := within.index_add_length
    rw [rest', List.length_append] at whole
    exact Nat.add_right_cancel whole
  obtain ⟨others, lastOfAll, rounds'', atEnd'', found, reports''⟩ :=
    Parse.exists_rounds_of_rest calm' leads.depth rest' fun nonempty =>
      within.stop.trans (ParseState.stopOf_append nonempty)
  rw [reports', index] at reports''
  rw [parseTokens_of_rounds (rounds'.trans rounds'') atEnd'', parsed]
  refine ⟨?_, reports'', ?_⟩
  · rw [List.filterMap_append, same, found]
  · simp only [ParseResult.diagnostics, reports'', List.map_append, List.map_map,
      Report.diagnostic_later]

/-- A stray semicolon is recovered from, and what follows is read as it is alone. -/
theorem parseTokens_append_after_semicolon :
    let token (kind : TokenKind) (text : String) : Token := ⟨kind, text, .start⟩
    let first : List Token := [token .semicolon ";", token .kwUsing "using",
      token .identifier "a", token .semicolon ";"]
    let second : List Token := [token .kwUsing "using", token .identifier "b",
      token .semicolon ";", token .rightParen ")", .endAt .start]
    (parseTokens (first ++ second)).program.statements =
        [.usingNamespace "a", .usingNamespace "b"] ∧
      (parseTokens (first ++ second)).reports.map Report.index = [0, 7] := by
  intro token first second
  have free : EndFree first := by
    unfold EndFree
    decide
  have rounds : Parse.Rounds (.ofTokens (first ++ [.endAt .start])) _ _ :=
    .step (by decide) rfl (.step (by decide) rfl (.refl _))
  have rounds' : Parse.Rounds (.ofTokens second) _ _ :=
    .step (by decide) rfl (.step (by decide) rfl (.refl _))
  have reaches : ReachesEnd first (.endAt .start) := by
    rw [ReachesEnd, rounds.statementsFrom_eq (Parse.ready_ofTokens _) rfl]
    exact ⟨rfl, rfl⟩
  obtain ⟨statements, reports, -⟩ := (parseTokens_append free rfl).2 reaches second
  rw [statements, reports, parseTokens_of_rounds rounds rfl, parseTokens_of_rounds rounds' rfl]
  exact ⟨rfl, rfl⟩

end BraceLang
