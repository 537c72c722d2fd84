import BraceLang.Proofs.CarefulGrammar
import BraceLang.Proofs.ProgramGrammar

/-!
Runs of the driver. The driver attempts one statement after another until it sees the end of input;
a run is the list of its attempts. An attempt that starts without an open problem either keeps a
statement and reports nothing, or it keeps none and reports one problem, from which it recovers or
else sees the end of input (`attempt_cases`). Either way it takes a token, so that the driver gets
to the end of every buffer, and what parsing gives is what the attempts have given
(`exists_rounds_of_tokens`).
-/
namespace BraceLang

/-- The token at an index of a buffer; past the last one, the end of input. -/
def tokenAt (buffer : List Token) (index : Nat) : Token :=
  buffer[index]?.getD (.endAt (ParseState.stopOf buffer))

namespace ParseState

variable {state middle after : ParseState} {buffer taken segment : List Token}

/-- The index of the current token in its buffer. -/
def index (state : ParseState) : Nat :=
  state.cursor.index

theorem Passes.index_eq (passes : state.Passes segment after) :
    after.index = state.index + segment.length := by
  have lengths := congrArg List.length passes.before
  rw [List.length_append, List.length_reverse] at lengths
  rw [index, index, after.cursor.index_eq, state.cursor.index_eq]
  exact lengths.trans (Nat.add_comm ..)

theorem Passes.eq_of_rest {passed rest : List Token}
    (passes : state.Passes passed after) (shape : state.rest = segment ++ rest)
    (left : after.rest = rest) : passed = segment := by
  have same := passes.rest.symm.trans shape
  rw [left] at same
  exact List.append_cancel_right same

theorem index_advance (inside : state.current.kind ≠ .endOfInput) :
    state.advance.index = state.index + 1 := by
  cases shape : state.rest with
  | nil => exact absurd (current_kind_of_nil shape) inside
  | cons token rest => exact (passes_advance shape).index_eq

/-- The tokens on either side of the cursor stay those of one buffer. -/
theorem LeadsTo.index_add_remaining (leads : state.LeadsTo after) :
    after.index + after.remaining = state.index + state.remaining := by
  obtain ⟨taken, rest, before⟩ := leads.taken
  have lengths := congrArg List.length rest
  have lengths' := congrArg List.length before
  rw [List.length_append] at lengths lengths'
  rw [List.length_reverse] at lengths'
  simp only [index, remaining, Cursor.index_eq, Cursor.remaining_eq]
  simp only [ParseState.rest, ParseState.before] at lengths lengths'
  omega

/-- Recovery passes over the tokens at which it does not stop. -/
theorem passes_skipToBoundary (state : ParseState) :
    ∃ skipped, state.Passes skipped state.skipToBoundary ∧
      ∀ token ∈ skipped, endsRecovery token.kind = false := by
  refine ⟨state.rest.takeWhile (!endsRecovery ·.kind),
    ⟨(List.takeWhile_append_dropWhile ..).symm, rfl, rfl, rfl, rfl, rfl⟩, fun token mem => ?_⟩
  simpa using List.all_eq_true.mp List.all_takeWhile token mem

theorem endsRecovery_skipToBoundary (state : ParseState) :
    endsRecovery state.skipToBoundary.current.kind = true := by
  have stops := List.head?_dropWhile_not (!endsRecovery ·.kind) state.rest
  cases shape : state.skipToBoundary.rest with
  | nil =>
    rw [current_of_nil shape]
    rfl
  | cons token rest =>
    have isRest : state.rest.dropWhile (!endsRecovery ·.kind) = token :: rest := shape
    rw [isRest] at stops
    rw [current_of_cons shape]
    simpa using stops

theorem synchronize_of_panicking (panicking : state.panicking = true) :
    state.synchronize =
      match state.skipToBoundary.current.kind with
      | .endOfInput => state.skipToBoundary
      | .semicolon | .rightBrace => { state.skipToBoundary.advance with panicking := false }
      | _ => { state.skipToBoundary with panicking := false } :=
  if_pos panicking

theorem synchronize_of_calm (calm : state.panicking = false) : state.synchronize = state := by
  rw [synchronize, calm]
  rfl

/-- Recovery ends at the end of input, or after a token that ends a statement, or at a word that
starts one. -/
theorem synchronize_cases (panicking : state.panicking = true) :
    (state.skipToBoundary.current.kind = .endOfInput ∧
        state.synchronize = state.skipToBoundary) ∨
      (state.skipToBoundary.current.kind ≠ .endOfInput ∧
        state.synchronize = { state.skipToBoundary.advance with panicking := false }) ∨
      (Parse.startsTopLevel state.skipToBoundary.current.kind = true ∧
        state.synchronize = { state.skipToBoundary with panicking := false }) := by
  have ends := endsRecovery_skipToBoundary state
  rw [synchronize_of_panicking panicking]
  cases isKind : state.skipToBoundary.current.kind with
  | endOfInput => exact .inl ⟨rfl, rfl⟩
  | semicolon | rightBrace => exact .inr (.inl ⟨nofun, rfl⟩)
  | kwFn | kwStruct | kwEnum | kwNamespace | kwUsing => exact .inr (.inr ⟨rfl, rfl⟩)
  | _ =>
    rw [isKind] at ends
    cases ends

/-- Recovery that starts at a token at which it ends passes over nothing. -/
theorem skipToBoundary_of_endsRecovery (ends : endsRecovery state.current.kind = true) :
    state.skipToBoundary = state := by
  have noSkip : state.rest.takeWhile (!endsRecovery ·.kind) = [] := by
    cases shape : state.rest with
    | nil => rfl
    | cons token rest =>
      rw [current_of_cons shape] at ends
      simp [ends]
  have allLeft := List.takeWhile_append_dropWhile (p := (!endsRecovery ·.kind)) (l := state.rest)
  rw [noSkip, List.nil_append] at allLeft
  have same : state.cursor.skipWhile (!endsRecovery ·.kind) = state.cursor :=
    Cursor.eq_of_tokens (congrArg (List.reverse · ++ state.before) noSkip) allLeft
  rw [skipToBoundary, same]

/-- A word that starts a statement is left by recovery that starts there. -/
theorem synchronize_of_startsTopLevel (panicking : state.panicking = true)
    (starts : Parse.startsTopLevel state.current.kind = true) :
    state.synchronize = { state with panicking := false } := by
  rw [synchronize_of_panicking panicking]
  cases isKind : state.current.kind with
  | kwFn | kwStruct | kwEnum | kwNamespace | kwUsing =>
    rw [skipToBoundary_of_endsRecovery (by rw [isKind]; rfl), isKind]
  | _ =>
    rw [isKind] at starts
    cases starts

/-- Recovery that is over has not come to the end of input. -/
theorem inside_of_recovered (panicking : state.panicking = true)
    (calm : state.synchronize.panicking = false) :
    state.skipToBoundary.current.kind ≠ .endOfInput := by
  rcases synchronize_cases panicking with ⟨-, same⟩ | ⟨inside, -⟩ | ⟨starts, -⟩
  · have stillOpen : state.skipToBoundary.panicking = true := panicking
    rw [same, stillOpen] at calm
    cases calm
  · exact inside
  · exact Parse.ne_endOfInput_of_startsTopLevel starts

theorem leadsTo_skipToBoundary (state : ParseState) : state.LeadsTo state.skipToBoundary := by
  obtain ⟨skipped, passes, -⟩ := passes_skipToBoundary state
  exact ⟨⟨skipped, passes.rest, passes.before⟩, rfl, rfl, Nat.le_max_left .., List.prefix_refl _⟩

/-- Recovery from a token at which it does not stop passes over that token. -/
theorem index_lt_synchronize (panicking : state.panicking = true)
    (inside : state.current.kind ≠ .endOfInput)
    (noStart : Parse.startsTopLevel state.current.kind = false) :
    state.index < state.synchronize.index := by
  obtain ⟨skipped, passes, -⟩ := passes_skipToBoundary state
  have skips : state.index ≤ state.skipToBoundary.index := by
    rw [passes.index_eq]
    exact Nat.le_add_right ..
  -- recovery that passes over nothing stops at the token it starts at
  have further : state.skipToBoundary.current.kind ≠ state.current.kind →
      state.index < state.skipToBoundary.index := by
    intro moved
    rw [passes.index_eq]
    cases skipped with
    | nil => exact absurd (by rw [current_kind, current_kind, passes.rest, List.nil_append]) moved
    | cons token others => exact Nat.lt_add_of_pos_right (Nat.succ_pos _)
  rcases synchronize_cases panicking with ⟨atEnd, same⟩ | ⟨notEnd, same⟩ | ⟨starts, same⟩ <;>
    rw [same]
  · exact further fun kept => inside (kept ▸ atEnd)
  · exact Nat.lt_of_le_of_lt skips (Nat.lt_of_lt_of_eq (Nat.lt_succ_self _)
      (index_advance notEnd).symm)
  · exact further fun kept => by simp [← kept, starts] at noStart

theorem leadsTo_calm (state : ParseState) : state.LeadsTo { state with panicking := false } :=
  ⟨⟨[], rfl, rfl⟩, rfl, rfl, Nat.le_max_left .., List.prefix_refl _⟩

/-- Recovery does not move the cursor back and takes no report back. -/
theorem leadsTo_synchronize (panicking : state.panicking = true) :
    state.LeadsTo state.synchronize := by
  have skips := leadsTo_skipToBoundary state
  rcases synchronize_cases panicking with ⟨-, same⟩ | ⟨-, same⟩ | ⟨-, same⟩ <;> rw [same]
  · exact skips
  · exact (skips.trans (leadsTo_advance _)).trans (leadsTo_calm _)
  · exact skips.trans (leadsTo_calm _)

/-- After recovery the token at which it started is behind, unless a statement starts there. -/
theorem synchronize_recovered (panicking : state.panicking = true)
    (calm : state.synchronize.panicking = false) :
    state.index < state.synchronize.index ∨
      Parse.startsTopLevel state.synchronize.current.kind = true := by
  have inside := inside_of_recovered panicking calm
  rcases synchronize_cases panicking with ⟨atEnd, -⟩ | ⟨-, same⟩ | ⟨starts, same⟩
  · exact absurd atEnd inside
  · have skips : state.index ≤ state.skipToBoundary.index :=
      (leadsTo_skipToBoundary state).index_le
    have advances := index_advance inside
    rw [same]
    exact .inl (Nat.lt_of_le_of_lt skips (Nat.lt_of_lt_of_eq (Nat.lt_succ_self _) advances.symm))
  · rw [same]
    exact .inr starts

/-- A problem stays open at the end of input only. -/
theorem synchronize_lost (panicking : state.panicking = true)
    (panics : state.synchronize.panicking = true) :
    state.synchronize.current.kind = .endOfInput := by
  rcases synchronize_cases panicking with ⟨atEnd, same⟩ | ⟨-, same⟩ | ⟨-, same⟩
  · rwa [same]
  · simp [same] at panics
  · simp [same] at panics

/-- A state of reading a buffer. -/
structure Within (buffer : List Token) (state : ParseState) : Prop where
  whole : state.before.reverse ++ state.rest = buffer
  stop : state.stop = stopOf buffer

theorem within_ofTokens (buffer : List Token) : (ofTokens buffer).Within buffer :=
  ⟨rfl, rfl⟩

theorem Within.of_taken (within : state.Within buffer) (rest : state.rest = taken ++ after.rest)
    (before : after.before = taken.reverse ++ state.before) (stop : after.stop = state.stop) :
    after.Within buffer where
  whole := by
    rw [before, List.reverse_append, List.reverse_reverse, List.append_assoc, ← rest, within.whole]
  stop := stop.trans within.stop

theorem Within.of_leadsTo (within : state.Within buffer) (leads : state.LeadsTo after) :
    after.Within buffer := by
  obtain ⟨taken, rest, before⟩ := leads.taken
  exact within.of_taken rest before leads.stop

theorem Within.of_passes (within : state.Within buffer) (passes : state.Passes taken after) :
    after.Within buffer :=
  within.of_taken passes.rest passes.before passes.stop

theorem Within.index_add_length (within : state.Within buffer) :
    state.index + state.rest.length = buffer.length := by
  have lengths := congrArg List.length within.whole
  rwa [List.length_append, List.length_reverse, before, ← state.cursor.index_eq] at lengths

theorem Within.current_eq (within : state.Within buffer) :
    state.current = tokenAt buffer state.index := by
  have ahead : buffer[state.index]? = state.rest[0]? := by
    have behind : state.before.reverse.length = state.index := by
      rw [List.length_reverse]
      exact state.cursor.index_eq.symm
    rw [← within.whole, List.getElem?_append_right (Nat.le_of_eq behind), behind, Nat.sub_self]
  rw [tokenAt, ahead, ← within.stop]
  rfl

/-- A run of tokens without the end of input does not go past the end of input that closes a
buffer. -/
theorem Within.index_le_of_endFree {tokens : List Token} {final : Token}
    (within : state.Within (tokens ++ [final])) (ends : final.kind = .endOfInput)
    (inside : state.current.kind ≠ .endOfInput) (free : EndFree taken)
    (passes : state.Passes taken after) : after.index ≤ tokens.length := by
  have whole := (within.of_passes passes).index_add_length
  rw [List.length_append, List.length_singleton] at whole
  have further : after.rest ≠ [] := by
    intro nothing
    have allTaken : state.rest = taken := by rw [passes.rest, nothing, List.append_nil]
    have finalTaken : taken.getLast? = some final := by
      have lastOfBuffer := congrArg List.getLast? within.whole
      rw [List.getLast?_append, List.getLast?_concat, allTaken,
        Option.or_eq_some_iff] at lastOfBuffer
      rcases lastOfBuffer with isLast | ⟨none, -⟩
      · exact isLast
      · rw [List.getLast?_eq_none_iff] at none
        rw [state.current_kind, allTaken, none] at inside
        exact absurd rfl inside
    exact free final (List.mem_of_getLast? finalTaken) ends
  have := List.length_pos_iff.mpr further
  omega

end ParseState

/-- One round of the driver: the state in which a statement is attempted, the statement that is
kept, if any, and the state in which the driver goes on. -/
structure Attempt where
  before : ParseState
  found : Option Statement
  after : ParseState

namespace Parse

/-- The driver goes from one state to another one in some attempts, none of which starts at the end
of input. -/
inductive Rounds : ParseState → List Attempt → ParseState → Prop where
  | refl (state : ParseState) : Rounds state [] state
  | step (inside : state.current.kind ≠ .endOfInput)
      (attempted : attempt state = (found, after)) (others : Rounds after attempts last) :
      Rounds state (⟨state, found, after⟩ :: attempts) last

variable {state middle after last : ParseState} {found : Option Statement}
  {attempts others : List Attempt}

theorem Rounds.trans (first : Rounds state attempts middle) (second : Rounds middle others last) :
    Rounds state (attempts ++ others) last := by
  induction first with
  | refl => exact second
  | step inside attempted _ ih => exact .step inside attempted (ih second)

/-- An attempt that keeps a statement has passed the tokens of the statement, and nothing else has
changed. -/
structure Kept (state : ParseState) (value : Statement) (after : ParseState) : Prop where
  leadsTo : state.LeadsTo after
  passes : ∃ segment, EndFree segment ∧ IsTopLevel segment value ∧ state.Passes segment after

/-- An attempt that keeps none has reported one problem, and then it has recovered from it or lost
all tokens up to the end of input. -/
structure Failed (state : ParseState) (report : Report) (after : ParseState) : Prop where
  leadsTo : state.LeadsTo after
  reported : after.reports = state.reports ++ [report]
  /-- The reported token is reached without the end of input on the way. A word that starts a
  statement is not reported by the attempt that starts with it. -/
  place : ∃ taken reached, EndFree taken ∧ state.Passes taken reached ∧
    report.index = reached.index ∧ report.token = reached.current ∧
      (startsTopLevel state.current.kind = true → taken ≠ [])
  index_le : report.index ≤ after.index
  progress : state.index < after.index
  /-- After recovery, the reported token is behind, unless it starts the next statement. -/
  recovered : after.panicking = false →
    report.index < after.index ∨ startsTopLevel after.current.kind = true
  lost : after.panicking = true → after.current.kind = .endOfInput
  /-- A reported word that starts a statement is left for the next attempt, unless it has been taken
  because no operand starts with it. -/
  keyword : startsTopLevel report.token.kind = true →
    (report.problem = .notAnOperand ∧ report.index < after.index) ∨
      (report.problem ≠ .notAnOperand ∧ after.index = report.index ∧ after.panicking = false)

/-- Where a statement at the top level is given up. A rule that starts with a word has taken it; any
other token is left for recovery. -/
theorem topLevelStatement_stops (sound : state.panicking = false)
    (ran : topLevelStatement state = (none, after)) :
    ∃ taken, EndFree taken ∧ state.Stops taken after ∧
      (startsTopLevel state.current.kind = true → taken ≠ []) ∧
      (startsTopLevel state.current.kind = false → after.cursor = state.cursor) := by
  rcases topLevelStatement_cases state with ⟨starts, rule, ⟨next, rfl, careful⟩, same⟩ |
      ⟨noStart, same⟩
  · have inside : state.current.kind ≠ .endOfInput := by
      intro atEnd
      rw [atEnd] at starts
      cases starts
    have tracked : Rule.Tracked state.advance (next state.current state.advance) :=
      (careful state.current).tracks sound trivial
    have ranNext : next state.current state.advance = (none, after) := same.symm.trans ran
    rw [ranNext] at tracked
    obtain ⟨taken, free, ⟨given, -⟩ | ⟨-, stops⟩⟩ := tracked
    · cases given
    cases shape : state.rest with
    | nil => exact absurd (ParseState.current_kind_of_nil shape) inside
    | cons token rest =>
      rw [ParseState.current_of_cons shape] at inside
      exact ⟨token :: taken, List.forall_mem_cons.mpr ⟨inside, free⟩,
        (ParseState.passes_advance shape).stops stops, fun _ => nofun,
        fun noStart => by simp [starts] at noStart⟩
  · rw [same] at ran
    cases ran
    refine ⟨[], nofun, ParseState.stops_report sound nofun,
      fun starts => by simp [starts] at noStart, fun _ => ?_⟩
    rw [ParseState.report_of_sound sound]

/-- A statement that is given up makes a failed attempt: recovery starts where the rule has
stopped. -/
theorem failed_of_topLevelStatement (sound : state.panicking = false)
    (inside : state.current.kind ≠ .endOfInput)
    (ran : topLevelStatement state = (none, middle)) :
    ∃ report, Failed state report middle.synchronize := by
  obtain ⟨taken, free, stops, word, left⟩ := topLevelStatement_stops sound ran
  obtain ⟨reached, problem, passes, reported, cursor⟩ := stops.reported
  have synchronizes := ParseState.leadsTo_synchronize stops.panicking
  have reachedBefore : reached.index ≤ middle.index := by
    rcases cursor with ⟨same, -⟩ | ⟨same, -⟩
    · exact Nat.le_of_eq (congrArg Cursor.index same).symm
    · exact Nat.le_trans reached.leadsTo_advance.index_le
        (Nat.le_of_eq (congrArg Cursor.index same).symm)
  have indexLe : reached.index ≤ middle.synchronize.index :=
    Nat.le_trans reachedBefore synchronizes.index_le
  refine ⟨reached.reportHere problem, ⟨?_, ?_, ?_, indexLe, ?_, ?_, ?_, ?_⟩⟩
  · exact (accountable_topLevelStatement.answers ran).leadsTo.trans synchronizes
  · rw [ParseState.reports_synchronize, reported]
  · exact ⟨taken, reached, free, passes, rfl, rfl, word⟩
  · -- a word that starts a statement has been taken by its rule; recovery takes any other token
    cases starts : startsTopLevel state.current.kind with
    | true =>
      refine Nat.lt_of_lt_of_le ?_ indexLe
      rw [passes.index_eq]
      exact Nat.lt_add_of_pos_right (List.length_pos_iff.mpr (word starts))
    | false =>
      have sameIndex : middle.index = state.index := congrArg Cursor.index (left starts)
      have sameCurrent : middle.current.kind = state.current.kind := by
        rw [ParseState.current_kind, ParseState.current_kind]
        exact congrArg (firstKind ·.rest .endOfInput) (left starts)
      rw [← sameIndex]
      apply ParseState.index_lt_synchronize stops.panicking <;> rw [sameCurrent]
      · exact inside
      · exact starts
  · intro calm
    exact (ParseState.synchronize_recovered stops.panicking calm).imp_left
      (Nat.lt_of_le_of_lt reachedBefore)
  · exact ParseState.synchronize_lost stops.panicking
  · intro isWord
    rcases cursor with ⟨same, other⟩ | ⟨same, unfit⟩
    · have sameKind : middle.current.kind = reached.current.kind := by
        rw [ParseState.current_kind, ParseState.current_kind]
        exact congrArg (firstKind ·.rest .endOfInput) same
      rw [ParseState.synchronize_of_startsTopLevel stops.panicking (sameKind ▸ isWord)]
      exact .inr ⟨other, congrArg Cursor.index same, rfl⟩
    · have isProblem := (operandStart_of_startsTopLevel isWord).symm.trans unfit
      have taken : middle.index = reached.index + 1 := by
        rw [← ParseState.index_advance (ne_endOfInput_of_startsTopLevel isWord)]
        exact congrArg Cursor.index same
      have further : reached.index < middle.synchronize.index :=
        Nat.lt_of_lt_of_le (Nat.lt_of_lt_of_eq (Nat.lt_succ_self _) taken.symm)
          synchronizes.index_le
      exact .inl ⟨(Except.error.inj isProblem).symm, further⟩

/-- An attempt keeps a statement and reports nothing, or it keeps none and reports one problem. -/
theorem attempt_cases (sound : state.panicking = false) (level : state.depth = 0)
    (inside : state.current.kind ≠ .endOfInput) (attempted : attempt state = (found, after)) :
    (∃ value, found = some value ∧ Kept state value after) ∨
      (found = none ∧ ∃ report, Failed state report after) := by
  unfold attempt at attempted
  split at attempted <;> rename_i ran <;> cases attempted
  · have gives : Rule.Gives topLevelStatement (fun _ => True) 0 IsTopLevel :=
      gives_topLevelStatement
    obtain ⟨segment, passes, form⟩ := gives state after _ sound level trivial ran
    have careful : Rule.Careful (fun _ => True) topLevelStatement := careful_topLevelStatement
    have tracked := careful.tracks sound trivial
    rw [ran] at tracked
    obtain ⟨taken, free, ⟨-, passes'⟩ | ⟨absent, -⟩⟩ := tracked
    · cases passes.unique passes'
      have leads := (accountable_topLevelStatement.answers ran).leadsTo
      exact .inl ⟨_, rfl, leads, segment, free, form, passes⟩
    · cases absent
  · exact .inr ⟨rfl, failed_of_topLevelStatement sound inside ran⟩

/-- A state in which the driver may go on: no rule is being run, and a problem is open only at the
end of input. -/
structure Ready (state : ParseState) : Prop where
  depth : state.depth = 0
  calm : state.panicking = true → state.current.kind = .endOfInput

theorem ready_ofTokens (tokens : List Token) : Ready (.ofTokens tokens) :=
  ⟨rfl, nofun⟩

theorem Ready.sound (ready : Ready state) (inside : state.current.kind ≠ .endOfInput) :
    state.panicking = false :=
  Bool.eq_false_iff.mpr fun panicking => inside (ready.calm panicking)

theorem Kept.progress {value : Statement} (kept : Kept state value after) :
    state.index < after.index := by
  obtain ⟨segment, -, form, passes⟩ := kept.passes
  obtain ⟨token, rest, rfl, -⟩ := form.starts
  rw [passes.index_eq]
  exact Nat.lt_add_of_pos_right (Nat.succ_pos _)

theorem Kept.sound {value : Statement} (kept : Kept state value after)
    (sound : state.panicking = false) : after.panicking = false := by
  obtain ⟨segment, -, -, passes⟩ := kept.passes
  exact passes.panicking.trans sound

/-- The driver is ready for the next attempt after each one. -/
theorem Ready.next (ready : Ready state) (inside : state.current.kind ≠ .endOfInput)
    (attempted : attempt state = (found, after)) : Ready after := by
  have sound := ready.sound inside
  rcases attempt_cases sound ready.depth inside attempted with ⟨value, rfl, kept⟩ |
      ⟨rfl, report, failed⟩
  · refine ⟨kept.leadsTo.depth.trans ready.depth, fun panics => ?_⟩
    simp [kept.sound sound] at panics
  · exact ⟨failed.leadsTo.depth.trans ready.depth, failed.lost⟩

/-- Induction on the attempts of the driver, by how they come out. -/
@[elab_as_elim]
theorem Rounds.ready_induction {motive : ParseState → List Attempt → ParseState → Prop}
    (rounds : Rounds state attempts last) (ready : Ready state)
    (refl : ∀ {state}, Ready state → motive state [] state)
    (kept : ∀ {state value after attempts last}, state.panicking = false →
      state.current.kind ≠ .endOfInput → Kept state value after → Rounds after attempts last →
      motive after attempts last → motive state (⟨state, some value, after⟩ :: attempts) last)
    (failed : ∀ {state report after attempts last}, state.panicking = false →
      state.current.kind ≠ .endOfInput → Failed state report after → Rounds after attempts last →
      motive after attempts last → motive state (⟨state, none, after⟩ :: attempts) last) :
    motive state attempts last := by
  induction rounds with
  | refl state => exact refl ready
  | step inside attempted others ih =>
    have sound := ready.sound inside
    have others' := ih (ready.next inside attempted)
    rcases attempt_cases sound ready.depth inside attempted with ⟨value, rfl, isKept⟩ |
        ⟨rfl, report, isFailed⟩
    · exact kept sound inside isKept others others'
    · exact failed sound inside isFailed others others'

theorem Rounds.leadsTo (rounds : Rounds state attempts last) (ready : Ready state) :
    state.LeadsTo last := by
  refine rounds.ready_induction ready ?_ ?_ ?_
  · exact fun {state} _ => .refl state
  · exact fun _ _ kept _ leads => kept.leadsTo.trans leads
  · exact fun _ _ failed _ leads => failed.leadsTo.trans leads

/-- What holds of each attempt of a run from a state on. -/
structure MadeFrom (state : ParseState) (made : Attempt) : Prop where
  leadsTo : state.LeadsTo made.before
  sound : made.before.panicking = false
  inside : made.before.current.kind ≠ .endOfInput
  outcome : (∃ value, made.found = some value ∧ Kept made.before value made.after) ∨
    (made.found = none ∧ ∃ report, Failed made.before report made.after)

theorem MadeFrom.leadsTo_after {made : Attempt} (isMade : MadeFrom state made) :
    made.before.LeadsTo made.after := by
  rcases isMade.outcome with ⟨value, -, kept⟩ | ⟨-, report, failed⟩
  · exact kept.leadsTo
  · exact failed.leadsTo

theorem MadeFrom.progress {made : Attempt} (isMade : MadeFrom state made) :
    made.before.index < made.after.index := by
  rcases isMade.outcome with ⟨value, -, kept⟩ | ⟨-, report, failed⟩
  · exact kept.progress
  · exact failed.progress

theorem Ready.madeFrom (ready : Ready state) (inside : state.current.kind ≠ .endOfInput)
    (attempted : attempt state = (found, after)) : MadeFrom state ⟨state, found, after⟩ where
  leadsTo := .refl state
  sound := ready.sound inside
  inside := inside
  outcome := attempt_cases (ready.sound inside) ready.depth inside attempted

theorem Rounds.made (rounds : Rounds state attempts last) (ready : Ready state) :
    ∀ made ∈ attempts, MadeFrom state made := by
  induction rounds with
  | refl => nofun
  | step inside attempted others ih =>
    have first := ready.madeFrom inside attempted
    refine List.forall_mem_cons.mpr ⟨first, fun made mem => ?_⟩
    have later := ih (ready.next inside attempted) made mem
    exact { later with leadsTo := first.leadsTo_after.trans later.leadsTo }

/-- Each report is of a failed attempt. -/
theorem Rounds.mem_reports (rounds : Rounds state attempts last) (ready : Ready state)
    {report : Report} (mem : report ∈ last.reports) :
    report ∈ state.reports ∨ ∃ attempt ∈ attempts, Failed attempt.before report attempt.after := by
  revert mem
  refine rounds.ready_induction ready ?_ ?_ ?_
  · exact fun _ => .inl
  · intro state value after attempts last _ _ kept _ ih mem
    obtain ⟨segment, -, -, passes⟩ := kept.passes
    rcases ih mem with earlier | ⟨attempt, isAttempt, failed⟩
    · exact .inl (passes.reports ▸ earlier)
    · exact .inr ⟨attempt, .tail _ isAttempt, failed⟩
  · intro state found after attempts last _ _ failed _ ih mem
    rcases ih mem with earlier | ⟨attempt, isAttempt, failed'⟩
    · rw [failed.reported, List.mem_append, List.mem_singleton] at earlier
      rcases earlier with earlier | rfl
      · exact .inl earlier
      · exact .inr ⟨_, .head _, failed⟩
    · exact .inr ⟨attempt, .tail _ isAttempt, failed'⟩

/-- Each attempt takes a token, so that no attempt is the last one for the lack of it. -/
theorem Ready.progress (ready : Ready state) (inside : state.current.kind ≠ .endOfInput)
    (attempted : attempt state = (found, after)) : after.remaining < state.remaining := by
  have made := ready.madeFrom inside attempted
  have whole := made.leadsTo_after.index_add_remaining
  have further := made.progress
  dsimp only at whole further
  omega

/-- Attempts up to the end of input make the result of the driver. -/
theorem Rounds.statementsFrom_eq (rounds : Rounds state attempts last) (ready : Ready state)
    (atEnd : last.current.kind = .endOfInput) :
    statementsFrom state = (attempts.filterMap Attempt.found, last) := by
  -- the guard of the driver against attempts that take nothing is passed each time
  induction rounds with
  | refl state => rw [statementsFrom, if_pos atEnd, List.filterMap_nil]
  | @step state found after attempts last inside attempted others ih =>
    have further := ready.progress inside attempted
    rw [statementsFrom, if_neg inside, attempted]
    simp only [further, ↓reduceIte, ih (ready.next inside attempted) atEnd]
    cases found <;> rfl

/-- The driver always goes on up to the end of input. -/
theorem exists_rounds (ready : Ready state) :
    ∃ attempts last, Rounds state attempts last ∧ last.current.kind = .endOfInput := by
  fun_induction statementsFrom state with
  | case1 state atEnd => exact ⟨[], state, .refl state, atEnd⟩
  | case2 state inside found after attempted further others last othersRan ih =>
    obtain ⟨attempts, last, rounds, atEnd⟩ := ih (ready.next inside attempted)
    exact ⟨_, last, .step inside attempted rounds, atEnd⟩
  | case3 state inside found after attempted stuck =>
    exact absurd (ready.progress inside attempted) stuck

end Parse

/-- Parsing a buffer gives the statements and the reports of the attempts of the driver. -/
theorem parseTokens_of_rounds {tokens : List Token} {attempts : List Attempt} {last : ParseState}
    (rounds : Parse.Rounds (.ofTokens tokens) attempts last)
    (atEnd : last.current.kind = .endOfInput) :
    parseTokens tokens = ⟨⟨attempts.filterMap Attempt.found⟩, last.reports⟩ := by
  rw [parseTokens, Parse.programFrom, rounds.statementsFrom_eq (Parse.ready_ofTokens tokens) atEnd]

/-- Parsing a buffer is a run of the driver up to the end of input. -/
theorem exists_rounds_of_tokens (tokens : List Token) :
    ∃ attempts last, Parse.Rounds (.ofTokens tokens) attempts last ∧
      last.current.kind = .endOfInput ∧
      parseTokens tokens = ⟨⟨attempts.filterMap Attempt.found⟩, last.reports⟩ := by
  obtain ⟨attempts, last, rounds, atEnd⟩ := Parse.exists_rounds (Parse.ready_ofTokens tokens)
  exact ⟨attempts, last, rounds, atEnd, parseTokens_of_rounds rounds atEnd⟩

/-- A statement that is kept from a buffer has been read from a segment of it. -/
theorem exists_isTopLevel_of_mem {tokens : List Token} {statement : Statement}
    (mem : statement ∈ (parseTokens tokens).program.statements) :
    ∃ segment, segment <:+: tokens ∧ IsTopLevel segment statement := by
  obtain ⟨attempts, last, rounds, -, parsed⟩ := exists_rounds_of_tokens tokens
  rw [parsed] at mem
  obtain ⟨attempt, isAttempt, found⟩ := List.mem_filterMap.mp mem
  have made := rounds.made (Parse.ready_ofTokens tokens) attempt isAttempt
  rcases made.outcome with ⟨value, isFound, kept⟩ | ⟨notFound, -⟩
  · obtain rfl := Option.some.inj (found.symm.trans isFound)
    obtain ⟨segment, -, form, passes⟩ := kept.passes
    obtain ⟨taken, shape, -⟩ := made.leadsTo.taken
    have whole : tokens = taken ++ (segment ++ attempt.after.rest) := passes.rest ▸ shape
    exact ⟨segment, ⟨taken, attempt.after.rest, by rw [whole, List.append_assoc]⟩, form⟩
  · rw [found] at notFound
    cases notFound

end BraceLang
