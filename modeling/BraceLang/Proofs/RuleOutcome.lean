import BraceLang.Parse.Rule

/-!
What a rule leaves behind. A rule answers for its outcome when giving a value and having no
problem are the same thing: in a sound state it either gives a value and reports nothing, or gives
nothing and reports exactly one problem, at a token it has just looked at. In a panicking state it
reports nothing and the panic stays. The steps that rules are made of answer for their outcomes,
and so does every way of putting rules together.
-/
namespace BraceLang

variable {α β ρ : Type}

/-- The diagnostic of a report has the place and the length of a token. -/
def Report.Covers (report : Report) (token : Token) : Prop :=
  report.token = token ∧ report.diagnostic.position = token.position ∧
    report.diagnostic.length = token.length

theorem Report.covers_token (report : Report) : report.Covers report.token :=
  ⟨rfl, rfl, rfl⟩

/-- A report about the token at the cursor, or about the one just before it. -/
def Report.Beside (report : Report) (state : ParseState) : Prop :=
  ∃ token, report.Covers token ∧
    ((token = state.current ∧ report.index = state.cursor.index) ∨
      ∃ earlier, state.before = token :: earlier ∧ report.index = earlier.length)

namespace ParseState

/-- What holds of the states around every rule, whatever its outcome. -/
structure LeadsTo (state after : ParseState) : Prop where
  taken : ∃ taken, state.rest = taken ++ after.rest ∧ after.before = taken.reverse ++ state.before
  stop : after.stop = state.stop
  depth : after.depth = state.depth
  deepest : after.deepest ≤ max state.deepest maxDepth
  reports : state.reports <+: after.reports

variable {state middle after : ParseState}

theorem LeadsTo.refl (state : ParseState) : state.LeadsTo state where
  taken := ⟨[], rfl, rfl⟩
  stop := rfl
  depth := rfl
  deepest := Nat.le_max_left ..
  reports := List.prefix_refl _

theorem LeadsTo.trans (first : state.LeadsTo middle) (second : middle.LeadsTo after) :
    state.LeadsTo after := by
  obtain ⟨firstTaken, firstRest, firstBefore⟩ := first.taken
  obtain ⟨secondTaken, secondRest, secondBefore⟩ := second.taken
  refine ⟨⟨firstTaken ++ secondTaken, ?_, ?_⟩, second.stop.trans first.stop,
    second.depth.trans first.depth, ?_, first.reports.trans second.reports⟩
  · rw [firstRest, secondRest, List.append_assoc]
  · rw [secondBefore, firstBefore, List.reverse_append, List.append_assoc]
  · have firstBound := first.deepest
    have secondBound := second.deepest
    omega

/-- The cursor never moves backwards. -/
theorem LeadsTo.index_le (leads : state.LeadsTo after) :
    state.cursor.index ≤ after.cursor.index := by
  obtain ⟨taken, -, moved⟩ := leads.taken
  rw [state.cursor.index_eq, after.cursor.index_eq]
  have lengths := congrArg List.length moved
  rw [List.length_append] at lengths
  exact Nat.le_of_add_left_le (Nat.le_of_eq lengths.symm)

theorem advance_of_nil (shape : state.rest = []) : state.advance = state := by
  rw [advance, Cursor.advance_nil shape]

theorem advance_of_cons {token : Token} {rest : List Token} (shape : state.rest = token :: rest) :
    state.advance = { state with cursor := .between (token :: state.before) rest } := by
  rw [advance, Cursor.advance_cons shape, before]

theorem current_of_nil (shape : state.rest = []) : state.current = .endAt state.stop := by
  simp [current, peek, shape]

theorem current_kind_of_nil (shape : state.rest = []) : state.current.kind = .endOfInput := by
  rw [current_of_nil shape, Token.endAt]

theorem current_of_cons {token : Token} {rest : List Token} (shape : state.rest = token :: rest) :
    state.current = token := by
  simp [current, peek, shape]

theorem leadsTo_advance (state : ParseState) : state.LeadsTo state.advance := by
  cases shape : state.rest with
  | nil =>
    rw [advance_of_nil shape]
    exact .refl state
  | cons token rest =>
    rw [advance_of_cons shape]
    exact ⟨⟨[token], shape, rfl⟩, rfl, rfl, Nat.le_max_left .., List.prefix_refl _⟩

theorem report_of_panicking (panicking : state.panicking = true) (problem : Problem) :
    state.report problem = state := by
  simp [report, reportAt, panicking]

/-- The report that a problem at the cursor makes. -/
def reportHere (state : ParseState) (problem : Problem) : Report :=
  ⟨state.cursor.index, state.current, problem⟩

theorem report_of_sound (sound : state.panicking = false) (problem : Problem) :
    state.report problem =
      { state with reports := state.reports ++ [state.reportHere problem], panicking := true } := by
  simp [report, reportAt, sound, reportHere, current]

theorem leadsTo_reported (state : ParseState) (report : Report) :
    state.LeadsTo { state with reports := state.reports ++ [report], panicking := true } :=
  ⟨⟨[], rfl, rfl⟩, rfl, rfl, Nat.le_max_left .., List.prefix_append ..⟩

theorem leadsTo_reportAt (state : ParseState) (ahead : Nat) (problem : Problem) :
    state.LeadsTo (state.reportAt ahead problem) := by
  unfold reportAt
  split
  · exact .refl state
  · exact state.leadsTo_reported _

theorem leadsTo_report (state : ParseState) (problem : Problem) :
    state.LeadsTo (state.report problem) :=
  state.leadsTo_reportAt 0 problem

theorem panicking_report (state : ParseState) (problem : Problem) :
    (state.report problem).panicking = true := by
  cases panicking : state.panicking with
  | true => rw [report_of_panicking panicking, panicking]
  | false => rw [report_of_sound panicking]

/-- A report at the cursor stands beside it, also after that token has been taken. -/
theorem reportHere_beside (state : ParseState) (problem : Problem) :
    (state.reportHere problem).Beside state ∧ (state.reportHere problem).Beside state.advance := by
  have here : (state.reportHere problem).Beside state :=
    ⟨_, Report.covers_token _, .inl ⟨rfl, rfl⟩⟩
  refine ⟨here, ?_⟩
  cases shape : state.rest with
  | nil => rwa [advance_of_nil shape]
  | cons token rest =>
    refine ⟨_, Report.covers_token _, .inr ⟨state.before, ?_, state.cursor.index_eq⟩⟩
    rw [advance_of_cons shape]
    exact congrArg (· :: state.before) (current_of_cons shape).symm

/-- How a rule that reports properly may take a state to another one, `given` saying whether it
gives a value. -/
structure Answers (state : ParseState) (given : Bool) (after : ParseState) : Prop where
  /-- The cursor does not go back, the depth is restored and was never beyond its limit, and
  earlier reports stay. -/
  leadsTo : state.LeadsTo after
  /-- With a value nothing is reported, and the state stays sound. -/
  of_value : state.panicking = false → given = true →
    after.panicking = false ∧ after.reports = state.reports
  /-- Without one, a single problem is reported, at the token at the cursor or just before it. -/
  of_problem : state.panicking = false → given = false →
    after.panicking = true ∧
      ∃ report, after.reports = state.reports ++ [report] ∧ report.Beside after
  /-- In a panic nothing is reported, and the panic stays. -/
  of_panic : state.panicking = true → after.panicking = true ∧ after.reports = state.reports

theorem Answers.refl (state : ParseState) : state.Answers true state where
  leadsTo := .refl state
  of_value sound _ := ⟨sound, rfl⟩
  of_problem _ absent := by cases absent
  of_panic panicking := ⟨panicking, rfl⟩

theorem Answers.trans {given : Bool} (first : state.Answers true middle)
    (second : middle.Answers given after) : state.Answers given after where
  leadsTo := first.leadsTo.trans second.leadsTo
  of_value sound present := by
    obtain ⟨middleSound, middleReports⟩ := first.of_value sound rfl
    obtain ⟨afterSound, afterReports⟩ := second.of_value middleSound present
    exact ⟨afterSound, afterReports.trans middleReports⟩
  of_problem sound absent := by
    obtain ⟨middleSound, middleReports⟩ := first.of_value sound rfl
    rw [← middleReports]
    exact second.of_problem middleSound absent
  of_panic panicking := by
    obtain ⟨middlePanicking, middleReports⟩ := first.of_panic panicking
    obtain ⟨afterPanicking, afterReports⟩ := second.of_panic middlePanicking
    exact ⟨afterPanicking, afterReports.trans middleReports⟩

theorem answers_advance (state : ParseState) : state.Answers true state.advance where
  leadsTo := state.leadsTo_advance
  of_value sound _ := ⟨sound, rfl⟩
  of_problem _ absent := by cases absent
  of_panic panicking := ⟨panicking, rfl⟩

/-- A problem at the cursor, left there or taken with its token. -/
theorem answers_report (state : ParseState) (problem : Problem) :
    state.Answers false (state.report problem) ∧
      state.Answers false (state.report problem).advance := by
  have leads := state.leadsTo_report problem
  cases panicking : state.panicking with
  | true =>
    rw [report_of_panicking panicking]
    have unsound : state.panicking ≠ false := by simp [panicking]
    exact ⟨⟨.refl state, fun sound => absurd sound unsound, fun sound => absurd sound unsound,
        fun _ => ⟨panicking, rfl⟩⟩,
      ⟨state.leadsTo_advance, fun sound => absurd sound unsound,
        fun sound => absurd sound unsound, fun _ => ⟨panicking, rfl⟩⟩⟩
  | false =>
    obtain ⟨here, taken⟩ := state.reportHere_beside problem
    rw [report_of_sound panicking] at leads ⊢
    refine ⟨⟨leads, by simp, fun _ _ => ⟨rfl, _, rfl, here⟩, by simp [panicking]⟩,
      ⟨leads.trans (leadsTo_advance _), by simp, fun _ _ => ⟨rfl, _, rfl, taken⟩,
        by simp [panicking]⟩⟩

/-- Going one level deeper and back again comes to the old depth. -/
theorem LeadsTo.of_deeper (within : state.depth < maxDepth) (leads : state.deeper.LeadsTo after) :
    state.LeadsTo after.shallower := by
  refine ⟨leads.taken, leads.stop, congrArg (· - 1) leads.depth, ?_, leads.reports⟩
  have bound := leads.deepest
  simp only [deeper] at bound
  simp only [shallower]
  omega

/-- Going one level deeper and back again does not change how a state answers for another. -/
theorem Answers.of_deeper {given : Bool} (within : state.depth < maxDepth)
    (inner : state.deeper.Answers given after) : state.Answers given after.shallower where
  leadsTo := inner.leadsTo.of_deeper within
  of_value := inner.of_value
  of_problem := inner.of_problem
  of_panic := inner.of_panic

end ParseState

namespace Rule

/-- A rule that reports properly, whatever state it is run in. -/
def Accountable (rule : Rule α) : Prop :=
  ∀ state : ParseState, state.Answers (rule state).1.isSome (rule state).2

/-- A rule that never gives a value in a panic. -/
def Refusing (rule : Rule α) : Prop :=
  ∀ state : ParseState, state.panicking = true → (rule state).1 = none

theorem Accountable.answers {rule : Rule α} (accountable : Accountable rule)
    {state after : ParseState} {result : Option α} (ran : rule state = (result, after)) :
    state.Answers result.isSome after := by
  have answers := accountable state
  rwa [ran] at answers

theorem accountable_pure (value : α) : Accountable (pure value : Rule α) :=
  fun state => .refl state

theorem accountable_currentKind : Accountable currentKind :=
  fun state => .refl state

/-- A sequence of rules reports properly if both of its parts do. -/
theorem Accountable.bind {rule : Rule α} {next : α → Rule β} (first : Accountable rule)
    (second : ∀ value, Accountable (next value)) : Accountable (rule >>= next) := by
  intro state
  rw [bind_apply]
  have answers := first state
  split <;> rename_i ran <;> rw [ran] at answers
  · exact answers.trans (second _ _)
  · exact answers

theorem accountable_ite {condition : Prop} [Decidable condition] {first second : Rule α}
    (ofTrue : Accountable first) (ofFalse : Accountable second) :
    Accountable (if condition then first else second) := by
  by_cases holds : condition
  · rw [if_pos holds]
    exact ofTrue
  · rw [if_neg holds]
    exact ofFalse

/-- The current token is taken even if it is the one that is reported, and then the report is
about the token just before the cursor. -/
theorem accountable_takeAs (convert : Token → Except Problem α) :
    Accountable (takeAs convert) := by
  intro state
  unfold takeAs
  split
  · exact state.answers_advance
  · exact (state.answers_report _).2

theorem accountable_take : Accountable take :=
  accountable_takeAs .ok

theorem accountable_giveUp (problem : Problem) : Accountable (giveUp problem : Rule α) :=
  fun state => (state.answers_report problem).1

/-- Requiring a kind of token in a sound state takes such a token, or reports the one that is
there. -/
theorem takeKind_of_sound {state : ParseState} (sound : state.panicking = false)
    (kind : TokenKind) (problem : Problem) :
    takeKind kind problem state =
      if state.current.kind = kind then (some state.current, state.advance)
      else (none, state.report problem) := by
  unfold takeKind
  by_cases fits : state.current.kind = kind
  · simp [fits, sound]
  · simp [fits, ParseState.panicking_report]

/-- Nothing is taken in a panic, not even a token of the required kind. -/
theorem takeKind_of_panicking {state : ParseState} (panicking : state.panicking = true)
    (kind : TokenKind) (problem : Problem) : takeKind kind problem state = (none, state) := by
  simp [takeKind, ParseState.report_of_panicking panicking, panicking]

theorem accountable_takeKind (kind : TokenKind) (problem : Problem) :
    Accountable (takeKind kind problem) := by
  intro state
  cases panicking : state.panicking with
  | true =>
    rw [takeKind_of_panicking panicking]
    have answers := (state.answers_report problem).1
    rwa [ParseState.report_of_panicking panicking] at answers
  | false =>
    rw [takeKind_of_sound panicking]
    by_cases fits : state.current.kind = kind
    · rw [if_pos fits]
      exact state.answers_advance
    · rw [if_neg fits]
      exact (state.answers_report problem).1

theorem accountable_require (expectation : Expectation) : Accountable (require expectation) :=
  (accountable_takeKind _ _).bind fun _ => accountable_pure _

/-- A nested rule is run one level deeper if that is within the limit; otherwise the current token
is reported. -/
theorem nested_apply (rule : Rule α) (state : ParseState) :
    nested rule state =
      if maxDepth ≤ state.depth then giveUp (.nestingTooDeep maxDepth) state
      else ((rule state.deeper).1, (rule state.deeper).2.shallower) := rfl

/-- A nested rule is run within the limit, and the depth is the old one after it. -/
theorem Accountable.nested {rule : Rule α} (inner : Accountable rule) :
    Accountable (nested rule) := by
  intro state
  rw [nested_apply]
  by_cases tooDeep : maxDepth ≤ state.depth
  · rw [if_pos tooDeep]
    exact accountable_giveUp _ state
  · rw [if_neg tooDeep]
    exact (inner state.deeper).of_deeper (Nat.lt_of_not_le tooDeep)

/-- A repetition reports properly if its rounds do: each round that gives a value leaves a sound
state for the next one. -/
theorem Accountable.iterate {recognize : TokenKind → Option ρ} {step : α → ρ → Rule α}
    (round : ∀ value found, Accountable (step value found)) (value : α) :
    Accountable (Rule.iterate recognize step value) := by
  intro state
  fun_induction Rule.iterate recognize step value state with
  | case1 => exact .refl _
  | case2 value state found recognized after failed => exact (round value found).answers failed
  | case3 value state found recognized next after ran progress ih =>
    exact ((round value found).answers ran).trans ih
  | case4 value state found recognized next after ran stuck =>
    exact (round value found).answers ran

theorem Accountable.manyWhile {rule : Rule α} (continues : TokenKind → Bool)
    (item : Accountable rule) : Accountable (manyWhile continues rule) :=
  .iterate (fun _ _ => item.bind fun _ => accountable_pure _) []

theorem Accountable.separatedByCommas {item : Rule α} (accountable : Accountable item) :
    Accountable (separatedByCommas item) :=
  accountable.bind fun _ =>
    (Accountable.manyWhile _ (accountable_take.bind fun _ => accountable)).bind fun _ =>
      accountable_pure _

theorem Accountable.itemsUpTo {closing : TokenKind} {item : Rule α}
    (accountable : Accountable item) : Accountable (itemsUpTo closing item) :=
  accountable_currentKind.bind fun _ =>
    accountable_ite (accountable_pure _) accountable.separatedByCommas

theorem refusing_takeKind (kind : TokenKind) (problem : Problem) :
    Refusing (takeKind kind problem) := by
  intro state panicking
  rw [takeKind_of_panicking panicking]

theorem Refusing.bind {rule : Rule α} (first : Refusing rule) (next : α → Rule β) :
    Refusing (rule >>= next) := by
  intro state panicking
  have refused := first state panicking
  rw [bind_apply]
  split <;> rename_i ran
  · rw [ran] at refused
    cases refused
  · rfl

theorem refusing_require (expectation : Expectation) : Refusing (require expectation) :=
  (refusing_takeKind _ _).bind _

/-- A sequence refuses in a panic if what follows its first part does, since the panic stays. -/
theorem Accountable.bind_refusing {rule : Rule α} {next : α → Rule β} (first : Accountable rule)
    (second : ∀ value, Refusing (next value)) : Refusing (rule >>= next) := by
  intro state panicking
  rw [bind_apply]
  split <;> rename_i ran
  · exact second _ _ ((first.answers ran).of_panic panicking).1
  · rfl

theorem refusing_giveUp (problem : Problem) : Refusing (giveUp problem : Rule α) :=
  fun _ _ => rfl

theorem Refusing.nested {rule : Rule α} (inner : Refusing rule) : Refusing (nested rule) := by
  intro state panicking
  rw [nested_apply]
  by_cases tooDeep : maxDepth ≤ state.depth
  · rw [if_pos tooDeep]
    rfl
  · rw [if_neg tooDeep]
    exact inner state.deeper panicking

end Rule

end BraceLang
