import BraceLang.Parse.Program
import BraceLang.Proofs.GrammarCompleteness
import BraceLang.Proofs.GrammarSoundness
import BraceLang.Proofs.GrammarOutcome

/-!
A whole buffer is read without a problem exactly if its tokens are statements of the top level, one
after another. Reports are never taken back, so a run that ends without one has had a value from
each attempt; and each statement takes tokens, so the run ends at the end of input only.
-/
namespace BraceLang

open Rule

variable {state after : ParseState} {segment : List Token}

theorem IsTopLevel.starts {value : Statement} (form : IsTopLevel segment value) :
    ∃ token rest, segment = token :: rest ∧ token.kind ≠ .endOfInput := by
  cases form with
  | function form | structType form | enumType form =>
    obtain ⟨isWord, -⟩ := form
    exact ⟨_, _, rfl, by simp [isWord]⟩
  | inNamespace isWord | usingNamespace isWord => exact ⟨_, _, rfl, by simp [isWord]⟩

/-- A statement at the top level is closed by a brace or a semicolon. -/
theorem IsTopLevel.ends {value : Statement} (form : IsTopLevel segment value) {token : Token}
    (last : segment.getLast? = some token) : token.kind ≠ .endOfInput := by
  cases form with
  | function form =>
    obtain ⟨-, -, -, -, -, -, -, body⟩ := form
    cases body with
    | block body =>
      obtain ⟨-, -, closes⟩ := body
      simp [List.getLast?_cons] at last
      simp [← last, closes]
    | inline isArrow result ends =>
      simp [List.getLast?_cons] at last
      simp [← last, ends]
  | structType form | enumType form =>
    obtain ⟨-, -, -, -, closes⟩ := form
    simp [List.getLast?_cons] at last
    simp [← last, closes]
  | inNamespace isWord isName ends | usingNamespace isWord isName ends =>
    cases last
    simp [ends]

theorem ends_of_many_isTopLevel {values : List Statement} (items : Many IsTopLevel segment values)
    {token : Token} (last : segment.getLast? = some token) : token.kind ≠ .endOfInput := by
  induction items with
  | nil => cases last
  | cons form others ih =>
    rw [List.getLast?_append, Option.or_eq_some_iff] at last
    rcases last with last | ⟨-, last⟩
    · exact ih last
    · exact form.ends last

theorem ParseState.reports_synchronize (state : ParseState) :
    state.synchronize.reports = state.reports := by
  unfold synchronize
  split
  · dsimp only
    split <;> rfl
  · rfl

namespace Parse

/-- An attempt takes no report back. -/
theorem reports_attempt (state : ParseState) : state.reports <+: (attempt state).2.reports := by
  have leads := (accountable_topLevelStatement state).leadsTo.reports
  unfold attempt
  split <;> rename_i ran <;> rw [ran] at leads
  · exact leads
  · rwa [ParseState.reports_synchronize]

theorem reports_statementsFrom (state : ParseState) :
    state.reports <+: (statementsFrom state).2.reports := by
  fun_induction statementsFrom state with
  | case1 => exact List.prefix_refl _
  | case2 state notEnd found after ran progress others last rest ih =>
    have first := reports_attempt state
    rw [ran] at first
    rw [rest] at ih
    exact first.trans ih
  | case3 state notEnd found after ran stuck =>
    have first := reports_attempt state
    rwa [ran] at first

/-- An attempt that reports nothing has read a statement. -/
theorem attempt_gives {found : Option Statement} (sound : state.panicking = false)
    (level : state.depth = 0) (ran : attempt state = (found, after))
    (clean : after.reports = state.reports) :
    ∃ value segment,
      found = some value ∧ state.Passes segment after ∧ IsTopLevel segment value := by
  have gives : Gives topLevelStatement (fun _ => True) 0 IsTopLevel := gives_topLevelStatement
  unfold attempt at ran
  split at ran <;> rename_i attempted <;> cases ran
  · obtain ⟨segment, passes, form⟩ := gives state after _ sound level trivial attempted
    exact ⟨_, segment, rfl, passes, form⟩
  · obtain ⟨-, report, reports, -⟩ :=
      (accountable_topLevelStatement.answers attempted).of_problem sound rfl
    rw [ParseState.reports_synchronize, reports] at clean
    simp at clean

/-- Statements at the top level are read one after another, up to the end of input. -/
theorem statementsFrom_of_many {values : List Statement} {rest : List Token}
    (items : Many IsTopLevel segment values) (sound : state.panicking = false)
    (level : state.depth = 0) (shape : state.rest = segment ++ rest)
    (atEnd : firstKind rest .endOfInput = .endOfInput) :
    ∃ after, statementsFrom state = (values, after) ∧ after.reports = state.reports := by
  induction items generalizing state with
  | nil =>
    refine ⟨state, ?_, rfl⟩
    rw [statementsFrom, if_pos (by rw [state.current_kind, shape, List.nil_append, atEnd])]
  | cons form others ih =>
    rename_i first value segment values
    rw [List.append_assoc] at shape
    obtain ⟨middle, ran, passes⟩ :=
      accepts_topLevelStatement form state (segment ++ rest) sound level shape rfl
    have middleRest : middle.rest = segment ++ rest :=
      List.append_cancel_left (passes.rest.symm.trans shape)
    obtain ⟨after, othersRan, reports⟩ :=
      ih (passes.panicking.trans sound) (passes.depth.trans level) middleRest
    refine ⟨after, ?_, reports.trans passes.reports⟩
    obtain ⟨token, tail, rfl, notEnd⟩ := form.starts
    have current : state.current.kind ≠ .endOfInput := by
      rw [state.current_kind, shape]
      exact notEnd
    have progress : middle.remaining < state.remaining := by
      rw [passes.remaining_eq, List.length_cons]
      omega
    have attempted : attempt state = (some value, middle) := by
      rw [attempt, ran]
    rw [statementsFrom, if_neg current, attempted]
    simp only [progress, ↓reduceIte, othersRan]
    rfl

/-- A run that reports nothing has read statements at the top level up to the end of input. -/
theorem many_of_statementsFrom (sound : state.panicking = false) (level : state.depth = 0)
    (clean : (statementsFrom state).2.reports = state.reports) :
    ∃ segment, state.Passes segment (statementsFrom state).2 ∧
      Many IsTopLevel segment (statementsFrom state).1 ∧
      (statementsFrom state).2.current.kind = .endOfInput := by
  fun_induction statementsFrom state with
  | case1 state atEnd => exact ⟨[], .refl state, .nil, atEnd⟩
  | case2 state notEnd found after ran progress others last othersRan ih =>
    have first := reports_attempt state
    have second := reports_statementsFrom after
    rw [ran] at first
    rw [othersRan] at second ih
    have unchanged : after.reports = state.reports :=
      (first.eq_of_length_le (clean ▸ second.length_le)).symm
    obtain ⟨value, segment, rfl, passes, form⟩ := attempt_gives sound level ran unchanged
    have cleanAfter : last.reports = after.reports := clean.trans unchanged.symm
    obtain ⟨segments, passes', items, atEnd⟩ :=
      ih (passes.panicking.trans sound) (passes.depth.trans level) cleanAfter
    exact ⟨segment ++ segments, passes.trans passes', .cons form items, atEnd⟩
  | case3 state notEnd found after ran stuck =>
    obtain ⟨value, segment, rfl, passes, form⟩ := attempt_gives sound level ran clean
    obtain ⟨token, rest, rfl, -⟩ := form.starts
    rw [passes.remaining_eq, List.length_cons] at stuck
    omega

end Parse

/-- The tokens of a program, up to the end of input, are read as this program. -/
theorem parseTokens_of_isProgram {tokens : List Token} {last : Token} {program : Program}
    (form : IsProgram tokens program) (ends : last.kind = .endOfInput) :
    parseTokens (tokens ++ [last]) = ⟨program, []⟩ := by
  let state : ParseState := .ofTokens (tokens ++ [last])
  have shape : state.rest = tokens ++ [last] := rfl
  obtain ⟨after, ran, reports⟩ := Parse.statementsFrom_of_many form rfl rfl shape ends
  rw [parseTokens, Parse.programFrom, ran]
  simp only [reports]
  rfl

/-- A token buffer is read without a problem exactly if the tokens before its end are a program, and
the tree that is given then is the tree of this program. -/
theorem parseTokens_reports_eq_nil_iff {tokens : List Token} {last : Token}
    (inside : ∀ token ∈ tokens, token.kind ≠ .endOfInput) (ends : last.kind = .endOfInput) :
    ((parseTokens (tokens ++ [last])).reports = [] ↔ ∃ program, IsProgram tokens program) ∧
      ∀ {program}, IsProgram tokens program →
        parseTokens (tokens ++ [last]) = ⟨program, []⟩ := by
  have complete : ∀ {program}, IsProgram tokens program →
      parseTokens (tokens ++ [last]) = ⟨program, []⟩ :=
    fun form => parseTokens_of_isProgram form ends
  refine ⟨⟨?_, fun ⟨program, form⟩ => congrArg ParseResult.reports (complete form)⟩, complete⟩
  intro clean
  let state : ParseState := .ofTokens (tokens ++ [last])
  have shape : state.rest = tokens ++ [last] := rfl
  have noReports : (Parse.statementsFrom state).2.reports = state.reports := clean
  obtain ⟨segment, passes, items, atEnd⟩ := Parse.many_of_statementsFrom rfl rfl noReports
  have whole := shape.symm.trans passes.rest
  rw [ParseState.current_kind] at atEnd
  cases rest : (Parse.statementsFrom state).2.rest with
  | nil =>
    -- then the last statement would end with the end of input
    rw [rest, List.append_nil] at whole
    exact absurd ends (ends_of_many_isTopLevel items (by simp [← whole]))
  | cons token others =>
    rw [rest] at whole atEnd
    rcases List.eq_nil_or_concat others with rfl | ⟨between, final, rfl⟩
    · obtain ⟨rfl, -⟩ := List.append_inj' whole rfl
      exact ⟨⟨_⟩, items⟩
    · rw [List.concat_eq_append, ← List.cons_append, ← List.append_assoc,
        List.append_singleton_inj] at whole
      exact absurd atEnd (inside token (by simp [whole]))

/-- A function whose body prints a name. -/
theorem parseTokens_function_printing_name :
    let token (kind : TokenKind) (text : String) : Token := ⟨kind, text, .start⟩
    parseTokens
      [token .kwFn "fn", token .identifier "f", token .leftParen "(", token .rightParen ")",
        token .arrow "->", token .identifier "a", token .leftBrace "\x7b",
        token .kwPrint "print", token .identifier "b", token .semicolon ";",
        token .rightBrace "\x7d", .endAt .start] =
      ⟨⟨[.function "f" [] ⟨"a", 0⟩ [.print (.identifier "b")]]⟩, []⟩ := by
  intro token
  have name : IsExpression 1 [token .identifier "b"] (.identifier "b") :=
    isExpression_iff.mpr ⟨.atom _, .atom _, rfl, rfl, by decide⟩
  have statement : IsStatement 0
      (token .kwPrint "print" :: ([token .identifier "b"] ++ [token .semicolon ";"]))
      (.print (.identifier "b")) := by
    rw [IsStatement]
    exact ⟨by decide, .print rfl (.intro name rfl)⟩
  have body : IsBlock (IsStatement 0) (token .leftBrace "\x7b" :: (_ ++ [token .rightBrace "\x7d"]))
      [.print (.identifier "b")] :=
    .intro rfl (.cons statement .nil) rfl
  have type : IsType [token .identifier "a"] ⟨"a", 0⟩ := .intro rfl .nil
  have function : IsFunction 0 (IsStatement 0)
      (token .kwFn "fn" :: token .identifier "f" :: token .leftParen "(" ::
        ([] ++ token .rightParen ")" :: token .arrow "->" :: (_ ++ _)))
      (.function "f" [] ⟨"a", 0⟩ [.print (.identifier "b")]) :=
    .intro rfl rfl rfl (.inl ⟨rfl, rfl⟩) rfl rfl type (.block body)
  exact (parseTokens_reports_eq_nil_iff (by decide) rfl).2 (Many.cons (.function function) .nil)

end BraceLang
