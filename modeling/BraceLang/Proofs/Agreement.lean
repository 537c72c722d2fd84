import BraceLang.Proofs.DriverRun

/-!
Runs over two buffers that agree from their cursors on. Either all tokens that are left are the same
in both, or they are the same up to the end of input in the first one, where the second one goes on.
As long as the first run stays before the place where the buffers part, the second one takes the
same steps: rules do not look at the tokens behind the cursor, and what they report differs only by
the distance of the cursors and by earlier reports. The induction is on how careful rules are put
together, and then on the attempts of the driver.
-/
namespace BraceLang

/-- The same report in a buffer with more tokens before those of this one. -/
def Report.later (shift : Nat) (report : Report) : Report :=
  { report with index := shift + report.index }

@[simp] theorem Report.later_zero : Report.later 0 = id := by
  funext report
  simp [later]

/-- What a report tells the reader does not depend on its index. -/
theorem Report.diagnostic_later (shift : Nat) :
    Report.diagnostic ∘ Report.later shift = Report.diagnostic := rfl

/-- How two buffers compare from their cursors on: the second cursor is `shift` tokens further in
its buffer and has more reports behind it, and after some tokens that both have ahead there are
those in `near` in the first buffer and those in `far` in the second one. -/
structure Pairing where
  shift : Nat
  earlier : List Report
  near : List Token
  far : List Token
  /-- Nothing is left in either, or only the end of input in the first one. -/
  parting : (near = [] ∧ far = []) ∨ ∃ final : Token, near = [final] ∧ final.kind = .endOfInput

namespace Pairing

variable {pairing : Pairing} {state other after after' : ParseState}

theorem far_eq_nil (pairing : Pairing) (none : pairing.near = []) : pairing.far = [] := by
  rcases pairing.parting with ⟨-, far⟩ | ⟨final, one, -⟩
  · exact far
  · simp [one] at none

/-- States of reading two buffers that agree from the cursors on. -/
structure Agrees (pairing : Pairing) (state other : ParseState) : Prop where
  rest : ∃ common, state.rest = common ++ pairing.near ∧ other.rest = common ++ pairing.far
  stop : pairing.near = [] → other.stop = state.stop
  index : other.index = pairing.shift + state.index
  reports : other.reports = pairing.earlier ++ state.reports.map (Report.later pairing.shift)
  panicking : other.panicking = state.panicking
  depth : other.depth = state.depth

/-- The cursor has not come to the place where the buffers part. -/
def Before (pairing : Pairing) (state : ParseState) : Prop :=
  pairing.near = [] ∨ pairing.near.length < state.rest.length

theorem Before.of_length_le (before : pairing.Before after)
    (le : after.rest.length ≤ state.rest.length) : pairing.Before state := by
  rcases before with whole | further
  · exact .inl whole
  · exact .inr (Nat.lt_of_lt_of_le further le)

theorem Before.report (before : pairing.Before state) {problem : Problem} :
    pairing.Before (state.report problem) := by
  have sameRest : (state.report problem).rest = state.rest := by
    unfold ParseState.report ParseState.reportAt
    split <;> rfl
  rwa [Before, sameRest]

theorem Agrees.length_add_length (agrees : pairing.Agrees state other) :
    other.rest.length + pairing.near.length = state.rest.length + pairing.far.length := by
  obtain ⟨common, rest, rest'⟩ := agrees.rest
  rw [rest, rest', List.length_append, List.length_append]
  omega

/-- Both runs make progress at the same times. -/
theorem Agrees.remaining_lt_iff (agrees : pairing.Agrees state other)
    (agrees' : pairing.Agrees after after') :
    after'.remaining < other.remaining ↔ after.remaining < state.remaining := by
  have first := agrees.length_add_length
  have second := agrees'.length_add_length
  simp only [ParseState.remaining, Cursor.remaining_eq]
  simp only [ParseState.rest] at first second
  omega

/-- Before the buffers part, either nothing is left in both, or both have the same token ahead and
still agree after it. -/
theorem Agrees.ahead (agrees : pairing.Agrees state other) (before : pairing.Before state) :
    (state.rest = [] ∧ other.rest = [] ∧ other.stop = state.stop) ∨
      ∃ token common, state.rest = token :: (common ++ pairing.near) ∧
        other.rest = token :: (common ++ pairing.far) := by
  obtain ⟨common, rest, rest'⟩ := agrees.rest
  cases common with
  | cons token common => exact .inr ⟨token, common, rest, rest'⟩
  | nil =>
    rcases before with whole | further
    · exact .inl ⟨rest.trans whole, rest'.trans (pairing.far_eq_nil whole), agrees.stop whole⟩
    · simp [rest] at further

theorem Agrees.current (agrees : pairing.Agrees state other) (before : pairing.Before state) :
    other.current = state.current := by
  rcases agrees.ahead before with ⟨none, none', stop⟩ | ⟨token, common, rest, rest'⟩
  · rw [ParseState.current_of_nil none, ParseState.current_of_nil none', stop]
  · rw [ParseState.current_of_cons rest, ParseState.current_of_cons rest']

/-- Two states agree after the same tokens. -/
theorem Agrees.of_passes {segment common : List Token} (agrees : pairing.Agrees state other)
    (rest : state.rest = segment ++ (common ++ pairing.near))
    (rest' : other.rest = segment ++ (common ++ pairing.far))
    (passes : state.Passes segment after) (passes' : other.Passes segment after') :
    pairing.Agrees after after' where
  rest := ⟨common, List.append_cancel_left (passes.rest.symm.trans rest),
    List.append_cancel_left (passes'.rest.symm.trans rest')⟩
  stop none := passes'.stop.trans ((agrees.stop none).trans passes.stop.symm)
  index := by rw [passes.index_eq, passes'.index_eq, agrees.index, Nat.add_assoc]
  reports := by rw [passes.reports, passes'.reports, agrees.reports]
  panicking := by rw [passes.panicking, passes'.panicking, agrees.panicking]
  depth := by rw [passes.depth, passes'.depth, agrees.depth]

theorem Agrees.advance (agrees : pairing.Agrees state other) (before : pairing.Before state) :
    pairing.Agrees state.advance other.advance := by
  rcases agrees.ahead before with ⟨none, none', -⟩ | ⟨token, common, rest, rest'⟩
  · rwa [ParseState.advance_of_nil none, ParseState.advance_of_nil none']
  · exact agrees.of_passes rest rest' (ParseState.passes_advance rest)
      (ParseState.passes_advance rest')

theorem Agrees.report (agrees : pairing.Agrees state other) (before : pairing.Before state)
    (problem : Problem) : pairing.Agrees (state.report problem) (other.report problem) := by
  cases panicking : state.panicking with
  | true =>
    rwa [ParseState.report_of_panicking panicking,
      ParseState.report_of_panicking (agrees.panicking.trans panicking)]
  | false =>
    have same : other.reportHere problem =
        (state.reportHere problem).later pairing.shift := by
      rw [ParseState.reportHere, agrees.current before]
      exact congrArg (Report.mk · state.current problem) agrees.index
    rw [ParseState.report_of_sound panicking,
      ParseState.report_of_sound (agrees.panicking.trans panicking)]
    refine { agrees with reports := ?_, panicking := rfl }
    simp only [agrees.reports, same, List.map_append, List.append_assoc, List.map_cons,
      List.map_nil]

theorem Agrees.deeper (agrees : pairing.Agrees state other) :
    pairing.Agrees state.deeper other.deeper :=
  { agrees with depth := congrArg (· + 1) agrees.depth }

theorem Agrees.shallower (agrees : pairing.Agrees state other) :
    pairing.Agrees state.shallower other.shallower :=
  { agrees with depth := congrArg (· - 1) agrees.depth }

theorem Agrees.calm (agrees : pairing.Agrees state other) :
    pairing.Agrees { state with panicking := false } { other with panicking := false } :=
  { agrees with panicking := rfl }

theorem Before.of_leadsTo (before : pairing.Before after) (leads : state.LeadsTo after) :
    pairing.Before state := by
  obtain ⟨taken, rest, -⟩ := leads.taken
  refine before.of_length_le ?_
  rw [rest, List.length_append]
  exact Nat.le_add_left ..

/-- Passing over tokens ends at the same place in both buffers if it ends before they part. -/
theorem dropWhile_append_append {p : Token → Bool} {common near far : List Token}
    (within : (near = [] ∧ far = []) ∨ near.length < ((common ++ near).dropWhile p).length) :
    (common ++ near).dropWhile p = common.dropWhile p ++ near ∧
      (common ++ far).dropWhile p = common.dropWhile p ++ far := by
  rcases within with ⟨rfl, rfl⟩ | further
  · simp only [List.append_nil, and_self]
  · have stops : ¬(common.dropWhile p).isEmpty = true := by
      intro none
      rw [List.dropWhile_append, if_pos none] at further
      exact absurd (List.dropWhile_sublist p).length_le (Nat.not_le_of_lt further)
    rw [List.dropWhile_append, List.dropWhile_append, if_neg stops, if_neg stops]
    exact ⟨rfl, rfl⟩

theorem Agrees.skipToBoundary (agrees : pairing.Agrees state other)
    (before : pairing.Before state.skipToBoundary) :
    pairing.Agrees state.skipToBoundary other.skipToBoundary := by
  obtain ⟨common, rest, rest'⟩ := agrees.rest
  obtain ⟨skipped, passes, -⟩ := ParseState.passes_skipToBoundary state
  obtain ⟨skipped', passes', -⟩ := ParseState.passes_skipToBoundary other
  let passed (token : Token) : Bool := !ParseState.endsRecovery token.kind
  have dropped : state.skipToBoundary.rest = (common ++ pairing.near).dropWhile passed :=
    congrArg (List.dropWhile passed) rest
  have dropped' : other.skipToBoundary.rest = (common ++ pairing.far).dropWhile passed :=
    congrArg (List.dropWhile passed) rest'
  have within : (pairing.near = [] ∧ pairing.far = []) ∨
      pairing.near.length < ((common ++ pairing.near).dropWhile passed).length :=
    before.imp (fun none => ⟨none, pairing.far_eq_nil none⟩) fun further => dropped ▸ further
  obtain ⟨left, left'⟩ := dropWhile_append_append within
  have whole : common.takeWhile passed ++ common.dropWhile passed = common :=
    List.takeWhile_append_dropWhile
  have shape : state.rest =
      common.takeWhile passed ++ (common.dropWhile passed ++ pairing.near) := by
    rw [rest, ← List.append_assoc, whole]
  have shape' : other.rest =
      common.takeWhile passed ++ (common.dropWhile passed ++ pairing.far) := by
    rw [rest', ← List.append_assoc, whole]
  cases passes.eq_of_rest shape (dropped.trans left)
  cases passes'.eq_of_rest shape' (dropped'.trans left')
  exact agrees.of_passes shape shape' passes passes'

theorem Agrees.synchronize (agrees : pairing.Agrees state other)
    (panicking : state.panicking = true) (before : pairing.Before state.skipToBoundary) :
    pairing.Agrees state.synchronize other.synchronize := by
  have skipped := agrees.skipToBoundary before
  rw [ParseState.synchronize_of_panicking panicking,
    ParseState.synchronize_of_panicking (agrees.panicking.trans panicking), skipped.current before]
  cases state.skipToBoundary.current.kind with
  | endOfInput => exact skipped
  | semicolon | rightBrace => exact (skipped.advance before).calm
  | _ => exact skipped.calm

/-- A place at which there is more than the end of input comes before the buffers part. -/
theorem Agrees.before_of_inside (agrees : pairing.Agrees state other)
    (moved : ∃ taken, state.rest = taken ++ after.rest)
    (inside : after.current.kind ≠ .endOfInput) : pairing.Before after := by
  rcases pairing.parting with ⟨none, -⟩ | ⟨final, one, ends⟩
  · exact .inl none
  · obtain ⟨common, rest, -⟩ := agrees.rest
    obtain ⟨taken, rest'⟩ := moved
    rw [after.current_kind] at inside
    rw [Before, one]
    cases shape : after.rest with
    | nil =>
      rw [shape] at inside
      exact absurd rfl inside
    | cons token others =>
      cases others with
      | nil =>
        rw [rest, one, shape] at rest'
        obtain ⟨-, same⟩ := List.append_inj' rest' rfl
        rw [shape, ← same] at inside
        exact absurd ends inside
      | cons => simp

/-- Tokens of which none is the end of input are taken from both buffers. -/
theorem Agrees.exists_common {segment rest : List Token} (agrees : pairing.Agrees state other)
    (free : EndFree segment) (shape : state.rest = segment ++ rest) :
    ∃ common, state.rest = segment ++ (common ++ pairing.near) ∧
      other.rest = segment ++ (common ++ pairing.far) := by
  obtain ⟨common, whole, whole'⟩ := agrees.rest
  have within : ∃ others, common = segment ++ others := by
    rcases List.append_eq_append_iff.mp (whole.symm.trans shape) with
        ⟨beyond, isSegment, isNear⟩ | ⟨others, isCommon, -⟩
    · have nothing : beyond = [] := by
        rcases pairing.parting with ⟨none, -⟩ | ⟨final, one, ends⟩
        · exact (List.append_eq_nil_iff.mp (isNear.symm.trans none)).1
        · rcases List.append_eq_singleton_iff.mp (isNear.symm.trans one) with
              ⟨none, -⟩ | ⟨isFinal, -⟩
          · exact none
          · exact absurd ends (free final (by simp [isSegment, isFinal]))
      exact ⟨[], by rw [isSegment, nothing, List.append_nil, List.append_nil]⟩
    · exact ⟨others, isCommon⟩
  obtain ⟨others, rfl⟩ := within
  exact ⟨others, by rw [whole, List.append_assoc], by rw [whole', List.append_assoc]⟩

end Pairing

namespace Rule

variable {α : Type} {Start : TokenKind → Prop} {rule : Rule α} {pairing : Pairing}
  {state other : ParseState}

/-- A rule takes the same steps over two buffers if the first run ends before they part. -/
def Follows (pairing : Pairing) (rule : Rule α) (state other : ParseState) : Prop :=
  pairing.Before (rule state).2 →
    (rule other).1 = (rule state).1 ∧ pairing.Agrees (rule state).2 (rule other).2

theorem Follows.ran {result : Option α} {after : ParseState}
    (follows : Follows pairing rule state other) (ran : rule state = (result, after))
    (before : pairing.Before after) :
    ∃ after', rule other = (result, after') ∧ pairing.Agrees after after' := by
  rw [Follows, ran] at follows
  obtain ⟨same, agrees⟩ := follows before
  exact ⟨(rule other).2, Prod.ext same rfl, agrees⟩

theorem follows_giveUp (agrees : pairing.Agrees state other) (problem : Problem) :
    Follows pairing (giveUp problem : Rule α) state other := by
  intro before
  have here := before.of_leadsTo (state.leadsTo_report problem)
  exact ⟨rfl, agrees.report here problem⟩

theorem follows_takeAs (agrees : pairing.Agrees state other)
    (convert : Token → Except Problem α) : Follows pairing (takeAs convert) state other := by
  intro before
  have here := before.of_leadsTo (accountable_takeAs convert state).leadsTo
  unfold Rule.takeAs
  rw [agrees.current here]
  cases convert state.current with
  | error problem => exact ⟨rfl, (agrees.report here problem).advance here.report⟩
  | ok value => exact ⟨rfl, agrees.advance here⟩

theorem follows_takeKind (agrees : pairing.Agrees state other) (sound : state.panicking = false)
    (kind : TokenKind) (problem : Problem) :
    Follows pairing (takeKind kind problem) state other := by
  intro before
  have here := before.of_leadsTo (accountable_takeKind kind problem state).leadsTo
  rw [takeKind_of_sound sound, takeKind_of_sound (agrees.panicking.trans sound),
    agrees.current here]
  by_cases fits : state.current.kind = kind
  · rw [if_pos fits, if_pos fits]
    exact ⟨rfl, agrees.advance here⟩
  · rw [if_neg fits, if_neg fits]
    exact ⟨rfl, agrees.report here problem⟩

theorem Follows.bind {β : Type} {next : α → Rule β} (first : Follows pairing rule state other)
    (second : ∀ {value middle middle'}, rule state = (some value, middle) →
      (pairing.Before (next value middle).2 → pairing.Before middle) ∧
        (pairing.Agrees middle middle' → Follows pairing (next value) middle middle')) :
    Follows pairing (rule >>= next) state other := by
  unfold Follows at *
  simp only [bind_apply]
  cases ran : rule state with
  | mk result middle =>
    cases ran' : rule other with
    | mk result' middle' =>
      rw [ran, ran'] at first
      cases result with
      | none =>
        intro before
        obtain ⟨rfl, agrees⟩ := first before
        exact ⟨rfl, agrees⟩
      | some value =>
        intro before
        obtain ⟨back, goesOn⟩ := second ran
        obtain ⟨rfl, agrees⟩ := first (back before)
        exact goesOn agrees before

theorem Follows.nested (inner : Follows pairing rule state.deeper other.deeper)
    (agrees : pairing.Agrees state other) : Follows pairing (nested rule) state other := by
  unfold Follows
  rw [nested_apply, nested_apply, agrees.depth]
  by_cases tooDeep : maxDepth ≤ state.depth
  · rw [if_pos tooDeep, if_pos tooDeep]
    exact follows_giveUp agrees _
  · rw [if_neg tooDeep, if_neg tooDeep]
    intro before
    obtain ⟨value, agrees'⟩ := inner before
    exact ⟨value, agrees'.shallower⟩

theorem Careful.before (careful : Careful Start rule) (sound : state.panicking = false)
    (starts : Start state.current.kind) (before : pairing.Before (rule state).2) :
    pairing.Before state :=
  before.of_length_le (careful.tracks sound starts).rest_length_le

/-- A round of a repetition over both buffers. -/
theorem Follows.round {result : Option α} {after : ParseState}
    (follows : Follows pairing rule state other) (agrees : pairing.Agrees state other)
    (tracked : Tracked state (rule state)) (ran : rule state = (result, after))
    (before : pairing.Before after) :
    other.current = state.current ∧
      ∃ after', rule other = (result, after') ∧ pairing.Agrees after after' := by
  rw [ran] at tracked
  exact ⟨agrees.current (before.of_length_le tracked.rest_length_le), follows.ran ran before⟩

theorem follows_iterate {ρ : Type} {recognize : TokenKind → Option ρ} {step : α → ρ → Rule α}
    (round : ∀ value found, Careful (fun kind => recognize kind = some found) (step value found))
    (each : ∀ value found {state other : ParseState}, state.panicking = false →
      recognize state.current.kind = some found → pairing.Agrees state other →
      Follows pairing (step value found) state other)
    (value : α) (sound : state.panicking = false) (agrees : pairing.Agrees state other) :
    Follows pairing (Rule.iterate recognize step value) state other := by
  unfold Follows
  fun_induction Rule.iterate recognize step value state generalizing other with
  | case1 value state none =>
    intro before
    rw [Rule.iterate, agrees.current before, none]
    exact ⟨rfl, agrees⟩
  | case2 value state found recognized after failed =>
    intro before
    have tracked := (round value found).tracks sound recognized
    obtain ⟨same, after', failed', agrees'⟩ :=
      (each value found sound recognized agrees).round agrees tracked failed before
    rw [Rule.iterate, same, recognized]
    dsimp only
    rw [failed']
    exact ⟨rfl, agrees'⟩
  | case3 value state found recognized next after ran progress ih =>
    intro before
    have tracked := (round value found).tracks sound recognized
    have sound' := (ran ▸ tracked).sound sound
    have others : Careful (fun _ => True) (Rule.iterate recognize step next) :=
      .iterate round next
    obtain ⟨same, after', ran', agrees'⟩ := (each value found sound recognized agrees).round agrees
      tracked ran (others.before sound' trivial before)
    rw [Rule.iterate, same, recognized]
    dsimp only
    -- the guard against rounds that take nothing compares distances to the ends of the buffers,
    -- which differ, but by the same number before and after the round
    rw [ran']
    dsimp only
    rw [if_pos ((agrees.remaining_lt_iff agrees').mpr progress)]
    exact ih sound' agrees' before
  | case4 value state found recognized next after ran stuck =>
    intro before
    have tracked := (round value found).tracks sound recognized
    obtain ⟨same, after', ran', agrees'⟩ :=
      (each value found sound recognized agrees).round agrees tracked ran before
    rw [Rule.iterate, same, recognized]
    dsimp only
    rw [ran']
    dsimp only
    rw [if_neg (mt (agrees.remaining_lt_iff agrees').mp stuck)]
    exact ⟨rfl, agrees'⟩

/-- A careful rule takes the same steps over buffers that agree. -/
theorem Careful.follows (careful : Careful Start rule) (sound : state.panicking = false)
    (starts : Start state.current.kind) (agrees : pairing.Agrees state other) :
    Follows pairing rule state other := by
  induction careful generalizing state other with
  | pure value => exact fun _ => ⟨rfl, agrees⟩
  | giveUp => exact follows_giveUp agrees _
  | takeAs refuses => exact follows_takeAs agrees _
  | takeKind => exact follows_takeKind agrees sound _ _
  | @look _ _ next each ih =>
    intro before
    have here := (Careful.look each).before sound starts before
    have looked : (currentKind >>= next) other = next state.current.kind other := by
      rw [← agrees.current here]
      rfl
    rw [looked]
    exact ih _ starts sound rfl agrees before
  | bind first second ih ih' =>
    refine (ih sound starts agrees).bind fun {value middle middle'} ran => ?_
    have tracked := first.tracks sound starts
    have sound' := (ran ▸ tracked).sound sound
    exact ⟨(second value).before sound' trivial, fun agrees' => ih' value sound' trivial agrees'⟩
  | @nested _ _ rule inner ih =>
    have deeper : Follows pairing rule state.deeper other.deeper := ih sound starts agrees.deeper
    exact deeper.nested agrees
  | iterate round value ih => exact follows_iterate round ih value sound agrees
  | weaken weaker fewer ih => exact ih sound (fewer _ starts) agrees

end Rule

namespace Parse

variable {pairing : Pairing} {state other after last : ParseState} {found : Option Statement}
  {attempts : List Attempt}

theorem of_attempt_none (attempted : attempt state = (none, after)) :
    ∃ middle, topLevelStatement state = (none, middle) ∧ after = middle.synchronize := by
  unfold attempt at attempted
  split at attempted <;> rename_i ran <;> cases attempted
  exact ⟨_, ran, rfl⟩

/-- An attempt comes out in the same way over two buffers that agree, if it gets to a state without
an open problem in the first one, or the buffers do not part at all. -/
theorem attempt_agrees (sound : state.panicking = false) (level : state.depth = 0)
    (inside : state.current.kind ≠ .endOfInput) (attempted : attempt state = (found, after))
    (agrees : pairing.Agrees state other)
    (calm : pairing.near = [] ∨ after.panicking = false) :
    ∃ after', attempt other = (found, after') ∧ pairing.Agrees after after' := by
  have sound' := agrees.panicking.trans sound
  have level' := agrees.depth.trans level
  rcases attempt_cases sound level inside attempted with ⟨value, rfl, kept⟩ | ⟨rfl, report, failed⟩
  · -- a statement may end where the buffers part, but its rule accepts it before any token
    obtain ⟨segment, free, form, passes⟩ := kept.passes
    obtain ⟨common, rest, rest'⟩ := agrees.exists_common free passes.rest
    obtain ⟨after', ran', passes'⟩ :=
      accepts_topLevelStatement form other (common ++ pairing.far) sound' level' rest' rfl
    exact ⟨after', by rw [attempt, ran'], agrees.of_passes rest rest' passes passes'⟩
  · obtain ⟨middle, ran, rfl⟩ := of_attempt_none attempted
    obtain ⟨taken, -, stops, -⟩ := topLevelStatement_stops sound ran
    have leads := (accountable_topLevelStatement.answers ran).leadsTo
    have skips := ParseState.leadsTo_skipToBoundary middle
    have before : pairing.Before middle.skipToBoundary := by
      rcases calm with whole | calm
      · exact .inl whole
      · obtain ⟨others, rest, -⟩ := (leads.trans skips).taken
        exact agrees.before_of_inside ⟨others, rest⟩
          (ParseState.inside_of_recovered stops.panicking calm)
    have careful : Rule.Careful (fun _ => True) topLevelStatement := careful_topLevelStatement
    obtain ⟨middle', ran', agrees'⟩ :=
      (careful.follows sound trivial agrees).ran ran (before.of_leadsTo skips)
    exact ⟨middle'.synchronize, by rw [attempt, ran'], agrees'.synchronize stops.panicking before⟩

theorem Rounds.sound (rounds : Rounds state attempts last) (ready : Ready state)
    (calm : last.panicking = false) : state.panicking = false := by
  cases rounds with
  | refl => exact calm
  | step inside => exact ready.sound inside

theorem Rounds.agrees (rounds : Rounds state attempts last) (ready : Ready state)
    (agrees : pairing.Agrees state other) (calm : pairing.near = [] ∨ last.panicking = false) :
    ∃ attempts' last', Rounds other attempts' last' ∧
      attempts'.filterMap Attempt.found = attempts.filterMap Attempt.found ∧
      pairing.Agrees last last' := by
  induction rounds generalizing other with
  | refl state => exact ⟨[], other, .refl other, rfl, agrees⟩
  | @step state found after attempts last inside attempted others ih =>
    have ready' := ready.next inside attempted
    obtain ⟨after', attempted', agrees'⟩ := attempt_agrees (ready.sound inside) ready.depth inside
      attempted agrees (calm.imp_right (others.sound ready'))
    obtain ⟨attempts', last', others', same, agreesLast⟩ := ih ready' agrees' calm
    have here := agrees.current (agrees.before_of_inside ⟨[], rfl⟩ inside)
    refine ⟨_, last', .step (here ▸ inside) attempted' others', ?_, agreesLast⟩
    cases found <;> simp [same]

end Parse

end BraceLang
