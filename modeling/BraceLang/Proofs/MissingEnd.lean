import BraceLang.Proofs.DriverRun

/-!
Buffers that do not close with an end of input. The parser sees one behind the last token, at the
place of that token. Two runs, over a buffer and over the same buffer with this end as one more
token, see the same token at each step. They can be told apart only by a rule that takes the end,
and a careful rule takes it only to report that no operand starts there: then the one cursor stays
and the other one moves on, but no token is left in either buffer, and nothing is read any more
(`Rule.Careful.endsAlike`). So a missing end makes no difference (`parseTokens_append_end`).
-/
namespace BraceLang

namespace ParseState

/-- States of two runs that have done the same so far. -/
structure Level (state other : ParseState) : Prop where
  stop : other.stop = state.stop
  reports : other.reports = state.reports
  panicking : other.panicking = state.panicking
  depth : other.depth = state.depth

/-- States of reading a buffer, and the same buffer with one more token for its end. -/
structure Padded (state other : ParseState) : Prop extends Level state other where
  rest : other.rest = state.rest ++ [.endAt state.stop]
  index : other.index = state.index

/-- States behind all tokens: the token for the end has been taken too. -/
structure Spent (state other : ParseState) : Prop extends Level state other where
  nothing : state.rest = []
  nothing' : other.rest = []

variable {state other after after' : ParseState}

/-- The end is seen at the same place, whether it is a token or not. -/
theorem Padded.current (padded : state.Padded other) : other.current = state.current := by
  have rest := padded.rest
  cases shape : state.rest with
  | nil =>
    rw [shape] at rest
    rw [current_of_cons rest, current_of_nil shape]
  | cons token tokens =>
    rw [shape] at rest
    rw [current_of_cons rest, current_of_cons shape]

theorem Padded.remaining (padded : state.Padded other) :
    other.remaining = state.remaining + 1 := by
  have lengths := congrArg List.length padded.rest
  rw [List.length_append, List.length_singleton] at lengths
  simp only [ParseState.remaining, Cursor.remaining_eq]
  exact lengths

/-- Two states are still before the end after the same tokens. -/
theorem Padded.of_passes {segment : List Token} (padded : state.Padded other)
    (passes : state.Passes segment after) (passes' : other.Passes segment after') :
    after.Padded after' where
  stop := by rw [passes.stop, passes'.stop, padded.stop]
  reports := by rw [passes.reports, passes'.reports, padded.reports]
  panicking := by rw [passes.panicking, passes'.panicking, padded.panicking]
  depth := by rw [passes.depth, passes'.depth, padded.depth]
  rest := by
    have whole := padded.rest
    rw [passes'.rest, passes.rest, List.append_assoc] at whole
    rw [List.append_cancel_left whole, passes.stop]
  index := by rw [passes.index_eq, passes'.index_eq, padded.index]

theorem Padded.advance (padded : state.Padded other) (left : state.rest ≠ []) :
    state.advance.Padded other.advance := by
  obtain ⟨token, tokens, shape⟩ := List.exists_cons_of_ne_nil left
  have rest := padded.rest
  rw [shape] at rest
  exact padded.of_passes (passes_advance shape) (passes_advance rest)

/-- Only the token for the end is taken in one of the two runs and not in the other. -/
theorem Padded.advance_cases (padded : state.Padded other) :
    state.advance.Padded other.advance ∨ state.advance.Spent other.advance := by
  by_cases nothing : state.rest = []
  · have rest := padded.rest
    rw [nothing] at rest
    have passes := passes_advance rest
    rw [advance_of_nil nothing]
    exact .inr
      { stop := passes.stop.trans padded.stop
        reports := passes.reports.trans padded.reports
        panicking := passes.panicking.trans padded.panicking
        depth := passes.depth.trans padded.depth
        nothing
        nothing' := List.append_cancel_left (passes.rest.symm.trans rest) }
  · exact .inl (padded.advance nothing)

theorem rest_ne_nil_of_inside (inside : state.current.kind ≠ .endOfInput) : state.rest ≠ [] :=
  fun nothing => inside (current_kind_of_nil nothing)

theorem Padded.report (padded : state.Padded other) (problem : Problem) :
    (state.report problem).Padded (other.report problem) := by
  cases panicking : state.panicking with
  | true =>
    rwa [report_of_panicking panicking, report_of_panicking (padded.panicking.trans panicking)]
  | false =>
    have same : other.reportHere problem = state.reportHere problem := by
      rw [reportHere, padded.current]
      exact congrArg (Report.mk · state.current problem) padded.index
    rw [report_of_sound panicking, report_of_sound (padded.panicking.trans panicking)]
    refine { padded with reports := ?_, panicking := rfl }
    simp only [padded.reports, same]

theorem Padded.deeper (padded : state.Padded other) : state.deeper.Padded other.deeper :=
  { padded with depth := congrArg (· + 1) padded.depth }

theorem Padded.shallower (padded : state.Padded other) :
    state.shallower.Padded other.shallower :=
  { padded with depth := congrArg (· - 1) padded.depth }

theorem Spent.shallower (spent : state.Spent other) : state.shallower.Spent other.shallower :=
  { spent with depth := congrArg (· - 1) spent.depth }

theorem Padded.calm (padded : state.Padded other) :
    Padded { state with panicking := false } { other with panicking := false } :=
  { padded with panicking := rfl }

/-- Passing over tokens stops at a last token that is not passed over, at the latest. -/
theorem span_concat {p : Token → Bool} {final : Token} (stops : p final = false)
    (tokens : List Token) :
    (tokens ++ [final]).takeWhile p = tokens.takeWhile p ∧
      (tokens ++ [final]).dropWhile p = tokens.dropWhile p ++ [final] := by
  induction tokens with
  | nil => simp [stops]
  | cons token tokens ih => cases passed : p token <;> simp [passed, ih]

theorem Padded.skipToBoundary (padded : state.Padded other) :
    state.skipToBoundary.Padded other.skipToBoundary := by
  let passed (token : Token) : Bool := !endsRecovery token.kind
  have stops : passed (.endAt state.stop) = false := rfl
  obtain ⟨skipped, left⟩ := span_concat stops state.rest
  rw [← padded.rest] at skipped left
  refine { padded with rest := left, index := ?_ }
  exact congrArg₂ (· + ·) padded.index (congrArg List.length skipped)

theorem Padded.synchronize (padded : state.Padded other) :
    state.synchronize.Padded other.synchronize := by
  cases panicking : state.panicking with
  | false =>
    rwa [synchronize_of_calm panicking, synchronize_of_calm (padded.panicking.trans panicking)]
  | true =>
    have skipped := padded.skipToBoundary
    rw [synchronize_of_panicking panicking,
      synchronize_of_panicking (padded.panicking.trans panicking), skipped.current]
    cases isKind : state.skipToBoundary.current.kind with
    | endOfInput => exact skipped
    | semicolon | rightBrace =>
      exact (skipped.advance (rest_ne_nil_of_inside (by simp [isKind]))).calm
    | _ => exact skipped.calm

/-- There is nothing to recover with behind all tokens. -/
theorem synchronize_of_nil (nothing : state.rest = []) : state.synchronize = state := by
  have atEnd := current_kind_of_nil nothing
  have stays : state.skipToBoundary = state := skipToBoundary_of_endsRecovery (by rw [atEnd]; rfl)
  cases panicking : state.panicking with
  | false => exact synchronize_of_calm panicking
  | true => rw [synchronize_of_panicking panicking, stays, atEnd]

end ParseState

namespace Rule

variable {α : Type} {Start : TokenKind → Prop} {rule : Rule α} {state other : ParseState}

/-- Runs of a rule over a buffer and over the same buffer with one more token for its end: both come
to the same before the end, or both give nothing and leave no token. -/
inductive EndsAlike : Option α × ParseState → Option α × ParseState → Prop where
  | ahead {result : Option α} {after after' : ParseState} (padded : after.Padded after') :
    EndsAlike (result, after) (result, after')
  | past {after after' : ParseState} (spent : after.Spent after') :
    EndsAlike (none, after) (none, after')

/-- A repetition makes the same rounds: with the token for the end there is one more token left
before each round and after it. -/
theorem EndsAlike.iterate {ρ : Type} {recognize : TokenKind → Option ρ} {step : α → ρ → Rule α}
    (round : ∀ value found, Careful (fun kind => recognize kind = some found) (step value found))
    (each : ∀ value found {state other : ParseState}, state.panicking = false →
      recognize state.current.kind = some found → state.Padded other →
      EndsAlike (step value found state) (step value found other))
    (value : α) (sound : state.panicking = false) (padded : state.Padded other) :
    EndsAlike (Rule.iterate recognize step value state)
      (Rule.iterate recognize step value other) := by
  fun_induction Rule.iterate recognize step value state generalizing other with
  | case1 value state none =>
    rw [Rule.iterate.eq_def recognize step value other, padded.current, none]
    exact .ahead padded
  | case2 value state found recognized after failed =>
    have results := each value found sound recognized padded
    rw [Rule.iterate.eq_def recognize step value other, padded.current, recognized]
    dsimp only
    rw [failed] at results
    generalize step value found other = result' at results
    cases results with
    | ahead padded' => exact .ahead padded'
    | past spent => exact .past spent
  | case3 value state found recognized next after ran progress ih =>
    -- with one more token left before the round and after it, both make progress or neither does
    have results := each value found sound recognized padded
    have tracked := (round value found).tracks sound recognized
    have sound' := (ran ▸ tracked).sound sound
    rw [Rule.iterate.eq_def recognize step value other, padded.current, recognized]
    dsimp only
    rw [ran] at results
    generalize step value found other = result' at results
    cases results with
    | @ahead _ _ after' padded' =>
      have progress' : after'.remaining < other.remaining := by
        rw [padded'.remaining, padded.remaining]
        omega
      simp only [progress', ↓reduceIte]
      exact ih sound' padded'
  | case4 value state found recognized next after ran stuck =>
    have results := each value found sound recognized padded
    rw [Rule.iterate.eq_def recognize step value other, padded.current, recognized]
    dsimp only
    rw [ran] at results
    generalize step value found other = result' at results
    cases results with
    | @ahead _ _ after' padded' =>
      have stuck' : ¬after'.remaining < other.remaining := by
        rw [padded'.remaining, padded.remaining]
        omega
      simp only [stuck', ↓reduceIte]
      exact .ahead padded'

/-- A careful rule does not see whether the end is a token. -/
theorem Careful.endsAlike (careful : Careful Start rule) (sound : state.panicking = false)
    (starts : Start state.current.kind) (padded : state.Padded other) :
    EndsAlike (rule state) (rule other) := by
  induction careful generalizing state other with
  | pure value => exact .ahead padded
  | giveUp => exact .ahead (padded.report _)
  | @takeAs _ _ convert refuses =>
    unfold Rule.takeAs
    rw [padded.current]
    cases converted : convert state.current with
    | error problem =>
      rcases (padded.report problem).advance_cases with padded' | spent
      · exact .ahead padded'
      · exact .past spent
    | ok value =>
      -- the end is refused here, so what has been converted is no end
      refine .ahead (padded.advance (ParseState.rest_ne_nil_of_inside fun atEnd => ?_))
      obtain ⟨problem, refused⟩ := refuses _ starts atEnd
      rw [converted] at refused
      cases refused
  | @takeKind _ kind problem inside =>
    rw [takeKind_of_sound sound, takeKind_of_sound (padded.panicking.trans sound), padded.current]
    by_cases fits : state.current.kind = kind
    · rw [if_pos fits, if_pos fits]
      exact .ahead (padded.advance (ParseState.rest_ne_nil_of_inside (fits ▸ inside)))
    · rw [if_neg fits, if_neg fits]
      exact .ahead (padded.report problem)
  | @look _ _ next each ih =>
    have looked : (currentKind >>= next) other = next state.current.kind other := by
      rw [← padded.current]
      rfl
    rw [looked]
    exact ih _ starts sound rfl padded
  | @bind _ _ _ rule next first second ih ih' =>
    have results := ih sound starts padded
    have tracked := first.tracks sound starts
    rw [bind_apply, bind_apply]
    generalize rule state = result at results tracked
    generalize rule other = result' at results
    cases results with
    | @ahead result middle middle' padded' =>
      cases result with
      | none => exact .ahead padded'
      | some value => exact ih' value (tracked.sound sound) trivial padded'
    | past spent => exact .past spent
  | @nested _ _ rule inner ih =>
    rw [nested_apply, nested_apply, padded.depth]
    by_cases tooDeep : maxDepth ≤ state.depth
    · rw [if_pos tooDeep, if_pos tooDeep]
      exact .ahead (padded.report _)
    · rw [if_neg tooDeep, if_neg tooDeep]
      have results : EndsAlike (rule state.deeper) (rule other.deeper) :=
        ih sound starts padded.deeper
      generalize rule state.deeper = result, rule other.deeper = result' at results
      cases results with
      | ahead padded' => exact .ahead padded'.shallower
      | past spent => exact .past spent.shallower
  | iterate round value ih => exact EndsAlike.iterate round ih value sound padded
  | weaken weaker fewer ih => exact ih sound (fewer _ starts) padded

end Rule

namespace Parse

variable {state other after last : ParseState} {found : Option Statement} {attempts : List Attempt}

/-- An attempt of the driver comes out in the same way with and without a token for the end. -/
theorem attempt_padded (sound : state.panicking = false)
    (attempted : attempt state = (found, after)) (padded : state.Padded other) :
    ∃ after', attempt other = (found, after') ∧ (after.Padded after' ∨ after.Spent after') := by
  have careful : Rule.Careful (fun _ => True) topLevelStatement := careful_topLevelStatement
  have results := careful.endsAlike sound trivial padded
  unfold attempt at attempted ⊢
  generalize topLevelStatement state = result at results attempted
  generalize topLevelStatement other = result' at results
  cases results with
  | @ahead result middle middle' padded' =>
    cases result with
    | none =>
      cases attempted
      exact ⟨_, rfl, .inl padded'.synchronize⟩
    | some value =>
      cases attempted
      exact ⟨_, rfl, .inl padded'⟩
  | past spent =>
    cases attempted
    refine ⟨_, rfl, .inr ?_⟩
    rwa [ParseState.synchronize_of_nil spent.nothing, ParseState.synchronize_of_nil spent.nothing']

/-- The driver makes the same attempts with and without a token for the end. -/
theorem Rounds.padded (rounds : Rounds state attempts last) (ready : Ready state)
    (padded : state.Padded other) :
    ∃ attempts' last', Rounds other attempts' last' ∧
      attempts'.filterMap Attempt.found = attempts.filterMap Attempt.found ∧
      (last.Padded last' ∨ last.Spent last') := by
  induction rounds generalizing other with
  | refl state => exact ⟨[], other, .refl other, rfl, .inl padded⟩
  | @step state found after attempts last inside attempted others ih =>
    have inside' : other.current.kind ≠ .endOfInput := padded.current ▸ inside
    obtain ⟨after', attempted', outcome⟩ := attempt_padded (ready.sound inside) attempted padded
    rcases outcome with padded' | spent
    · obtain ⟨attempts', last', others', same, outcome⟩ :=
        ih (ready.next inside attempted) padded'
      refine ⟨_, last', .step inside' attempted' others', ?_, outcome⟩
      cases found <;> simp [same]
    · -- no token is left, so the driver has stopped after this attempt
      cases others with
      | refl => exact ⟨_, after', .step inside' attempted' (.refl after'), rfl, .inr spent⟩
      | step further => exact absurd spent.nothing (ParseState.rest_ne_nil_of_inside further)

end Parse

/-- A missing end of input is the same as one at the place of the last token, or at the start of an
empty buffer: the tree is the same, and so is everything that is reported. -/
theorem parseTokens_append_end (tokens : List Token) :
    parseTokens (tokens ++ [.endAt (ParseState.stopOf tokens)]) = parseTokens tokens := by
  have padded : (ParseState.ofTokens tokens).Padded
      (.ofTokens (tokens ++ [.endAt (ParseState.stopOf tokens)])) :=
    { stop := by simp [ParseState.ofTokens, ParseState.stopOf, Token.endAt]
      reports := rfl
      panicking := rfl
      depth := rfl
      rest := rfl
      index := rfl }
  obtain ⟨attempts, last, rounds, atEnd, parsed⟩ := exists_rounds_of_tokens tokens
  obtain ⟨attempts', last', rounds', same, outcome⟩ :=
    rounds.padded (Parse.ready_ofTokens tokens) padded
  have level : last.Level last' := outcome.elim (·.toLevel) (·.toLevel)
  have atEnd' : last'.current.kind = .endOfInput := by
    rcases outcome with padded' | spent
    · rw [padded'.current, atEnd]
    · exact ParseState.current_kind_of_nil spent.nothing'
  rw [parsed, parseTokens_of_rounds rounds' atEnd', same, level.reports]

end BraceLang
