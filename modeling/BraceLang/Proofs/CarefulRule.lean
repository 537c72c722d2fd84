import BraceLang.Parse.Expression
import BraceLang.Proofs.Acceptance

/-!
Rules that take the end of input only to report it. A rule is careful, at tokens with a kind in
`Start`, if it is put together from the basic steps in such a way that each step which takes a token
without requiring a kind for it comes after a look at the kind, or has a problem with the end of
input. A careful rule in a sound state takes tokens up to a place without coming across the end of
input (`Careful.tracks`): it gives its value there, or it reports the token at that place. It has
taken that token too only if an operand had to start there.
-/
namespace BraceLang

/-- No token is the end of input. -/
def EndFree (tokens : List Token) : Prop :=
  ∀ token ∈ tokens, token.kind ≠ .endOfInput

namespace ParseState

variable {state middle after : ParseState} {taken first second : List Token}

/-- A rule that takes some tokens and reports the next one, which it has also taken if no operand
starts there. -/
structure Stops (state : ParseState) (taken : List Token) (after : ParseState) : Prop where
  reported : ∃ middle problem, state.Passes taken middle ∧
    after.reports = state.reports ++ [middle.reportHere problem] ∧
      (after.cursor = middle.cursor ∧ problem ≠ .notAnOperand ∨
        after.cursor = middle.cursor.advance ∧ Parse.operandStart middle.current = .error problem)
  stop : after.stop = state.stop
  depth : after.depth = state.depth
  panicking : after.panicking = true

theorem stops_report {problem : Problem} (sound : state.panicking = false)
    (other : problem ≠ .notAnOperand) : state.Stops [] (state.report problem) := by
  rw [report_of_sound sound]
  exact ⟨⟨state, problem, .refl state, rfl, .inl ⟨rfl, other⟩⟩, rfl, rfl, rfl⟩

theorem stops_report_advance {problem : Problem} (sound : state.panicking = false)
    (unfit : Parse.operandStart state.current = .error problem) :
    state.Stops [] (state.report problem).advance := by
  rw [report_of_sound sound]
  exact ⟨⟨state, problem, .refl state, rfl, .inr ⟨rfl, unfit⟩⟩, rfl, rfl, rfl⟩

theorem Passes.stops (passes : state.Passes first middle) (stops : middle.Stops second after) :
    state.Stops (first ++ second) after := by
  obtain ⟨⟨last, problem, passes', reports, cursor⟩, stop, depth, panicking⟩ := stops
  rw [passes.reports] at reports
  exact ⟨⟨last, problem, passes.trans passes', reports, cursor⟩, stop.trans passes.stop,
    depth.trans passes.depth, panicking⟩

theorem Stops.of_deeper (stops : state.deeper.Stops taken after) :
    state.Stops taken after.shallower := by
  obtain ⟨⟨middle, problem, passes, reports, cursor⟩, stop, depth, panicking⟩ := stops
  exact ⟨⟨middle.shallower, problem, passes.of_deeper, reports, cursor⟩, stop,
    congrArg (· - 1) depth, panicking⟩

end ParseState

namespace Rule

/-- Rules that are put together from the basic steps and take no end of input but to report it. -/
inductive Careful : {α : Type} → (TokenKind → Prop) → Rule α → Prop where
  | pure {α : Type} {Start : TokenKind → Prop} (value : α) : Careful Start (pure value)
  | giveUp {α : Type} {Start : TokenKind → Prop} {problem : Problem}
      (other : problem ≠ .notAnOperand) : Careful Start (giveUp problem : Rule α)
  | takeAs {α : Type} {Start : TokenKind → Prop} {convert : Token → Except Problem α}
      (refuses : ∀ token, Start token.kind → token.kind = .endOfInput →
        ∃ problem, convert token = .error problem)
      (unfit : ∀ token problem, convert token = .error problem →
        Parse.operandStart token = .error problem) :
      Careful Start (takeAs convert)
  | takeKind {Start : TokenKind → Prop} {kind : TokenKind} {problem : Problem}
      (inside : kind ≠ .endOfInput) (other : problem ≠ .notAnOperand) :
      Careful Start (takeKind kind problem)
  | look {α : Type} {Start : TokenKind → Prop} {next : TokenKind → Rule α}
      (each : ∀ kind, Start kind → Careful (· = kind) (next kind)) :
      Careful Start (currentKind >>= next)
  | bind {α β : Type} {Start : TokenKind → Prop} {rule : Rule α} {next : α → Rule β}
      (first : Careful Start rule) (second : ∀ value, Careful (fun _ => True) (next value)) :
      Careful Start (rule >>= next)
  | nested {α : Type} {Start : TokenKind → Prop} {rule : Rule α} (inner : Careful Start rule) :
      Careful Start (nested rule)
  | iterate {α ρ : Type} {Start : TokenKind → Prop} {recognize : TokenKind → Option ρ}
      {step : α → ρ → Rule α}
      (round : ∀ value found, Careful (fun kind => recognize kind = some found) (step value found))
      (value : α) : Careful Start (iterate recognize step value)
  | weaken {α : Type} {Start Start' : TokenKind → Prop} {rule : Rule α}
      (weaker : Careful Start rule) (fewer : ∀ kind, Start' kind → Start kind) :
      Careful Start' rule

variable {α : Type} {Start : TokenKind → Prop} {rule : Rule α}

theorem Careful.anywhere (careful : Careful (fun _ => True) rule) : Careful Start rule :=
  careful.weaken fun _ _ => trivial

theorem careful_take (inside : ¬Start .endOfInput) : Careful Start take :=
  .takeAs (fun _ starts atEnd => absurd (atEnd ▸ starts) inside) nofun

theorem careful_require (expectation : Expectation) : Careful Start (require expectation) := by
  have other : Problem.expected expectation ≠ .notAnOperand := nofun
  exact (Careful.takeKind expectation.kind_ne_endOfInput other).bind fun _ => .pure _

theorem Careful.manyWhile {continues : TokenKind → Bool}
    (item : Careful (continues · = true) rule) : Careful Start (manyWhile continues rule) := by
  refine .iterate (fun values found => ?_) []
  refine Careful.bind (item.weaken fun kind recognized => ?_) fun _ => .pure _
  cases continued : continues kind with
  | true => rfl
  | false => simp [continued] at recognized

theorem Careful.separatedByCommas (item : Careful (fun _ => True) rule) :
    Careful Start (separatedByCommas rule) := by
  have further : Careful (fun kind => (kind == .comma) = true) (do let _ ← take; rule) :=
    (careful_take (by simp)).bind fun _ => item
  exact item.anywhere.bind fun _ => further.manyWhile.bind fun _ => .pure _

theorem Careful.itemsUpTo {closing : TokenKind} (item : Careful (fun _ => True) rule) :
    Careful Start (itemsUpTo closing rule) := by
  refine .look fun kind _ => ?_
  split
  · exact .pure _
  · exact item.separatedByCommas

/-- How a careful rule may take a sound state to another one: it takes tokens up to a place, without
the end of input among them, and gives a value or reports a problem there. -/
def Tracked (state : ParseState) (result : Option α × ParseState) : Prop :=
  ∃ taken, EndFree taken ∧
    (result.1.isSome = true ∧ state.Passes taken result.2 ∨
      result.1 = none ∧ state.Stops taken result.2)

theorem tracked_report {state : ParseState} {problem : Problem} (sound : state.panicking = false)
    (other : problem ≠ .notAnOperand) : Tracked state ((none : Option α), state.report problem) :=
  ⟨[], nofun, .inr ⟨rfl, ParseState.stops_report sound other⟩⟩

theorem tracked_advance {state : ParseState} (inside : state.current.kind ≠ .endOfInput)
    (value : α) : Tracked state (some value, state.advance) := by
  cases shape : state.rest with
  | nil => exact absurd (ParseState.current_kind_of_nil shape) inside
  | cons token rest =>
    rw [ParseState.current_of_cons shape] at inside
    exact ⟨[token], by simpa [EndFree] using inside, .inl ⟨rfl, ParseState.passes_advance shape⟩⟩

theorem Tracked.trans {state middle : ParseState} {taken : List Token}
    {result : Option α × ParseState} (free : EndFree taken) (passes : state.Passes taken middle) (tracked : Tracked middle result) :
    Tracked state result := by
  obtain ⟨others, free', outcome⟩ := tracked
  refine ⟨taken ++ others, List.forall_mem_append.mpr ⟨free, free'⟩, ?_⟩
  rcases outcome with ⟨given, passes'⟩ | ⟨absent, stops⟩
  · exact .inl ⟨given, passes.trans passes'⟩
  · exact .inr ⟨absent, passes.stops stops⟩

/-- What is tracked up to a value goes on from there. -/
theorem Tracked.next {β : Type} {state after : ParseState} {value : α}
    {result : Option β × ParseState} (tracked : Tracked state (some value, after))
    (sound : state.panicking = false)
    (following : after.panicking = false → Tracked after result) : Tracked state result := by
  obtain ⟨taken, free, ⟨-, passes⟩ | ⟨absent, -⟩⟩ := tracked
  · exact .trans free passes (following (passes.panicking.trans sound))
  · cases absent

theorem Tracked.sound {state after : ParseState} {value : α}
    (tracked : Tracked state (some value, after)) (sound : state.panicking = false) :
    after.panicking = false := by
  obtain ⟨taken, -, ⟨-, passes⟩ | ⟨absent, -⟩⟩ := tracked
  · exact passes.panicking.trans sound
  · cases absent

/-- What is tracked does not go back. -/
theorem Tracked.rest_length_le {state : ParseState} {result : Option α × ParseState}
    (tracked : Tracked state result) :
    result.2.rest.length ≤ state.rest.length := by
  obtain ⟨taken, -, ⟨-, passes⟩ | ⟨-, stops⟩⟩ := tracked
  · rw [passes.rest, List.length_append]
    exact Nat.le_add_left ..
  · obtain ⟨middle, problem, passes, -, cursor⟩ := stops.reported
    have upTo : result.2.rest.length ≤ middle.rest.length := by
      rcases cursor with ⟨same, -⟩ | ⟨same, -⟩
      · exact Nat.le_of_eq (congrArg (·.rest.length) same)
      · obtain ⟨others, rest, -⟩ := middle.leadsTo_advance.taken
        have sameRest : result.2.rest = middle.advance.rest := congrArg Cursor.rest same
        rw [sameRest, rest, List.length_append]
        exact Nat.le_add_left ..
    rw [passes.rest, List.length_append]
    omega

theorem Careful.tracks (careful : Careful Start rule) {state : ParseState}
    (sound : state.panicking = false) (starts : Start state.current.kind) :
    Tracked state (rule state) := by
  induction careful generalizing state with
  | pure value => exact ⟨[], nofun, .inl ⟨rfl, .refl state⟩⟩
  | giveUp other => exact tracked_report sound other
  | @takeAs _ _ convert refuses unfit =>
    unfold Rule.takeAs
    cases converted : convert state.current with
    | error problem =>
      have unfit := unfit state.current problem converted
      exact ⟨[], nofun, .inr ⟨rfl, ParseState.stops_report_advance sound unfit⟩⟩
    | ok value =>
      refine tracked_advance (fun atEnd => ?_) value
      obtain ⟨problem, refused⟩ := refuses _ starts atEnd
      rw [converted] at refused
      cases refused
  | @takeKind _ kind problem inside other =>
    rw [takeKind_of_sound sound]
    by_cases fits : state.current.kind = kind
    · rw [if_pos fits]
      exact tracked_advance (fits ▸ inside) _
    · rw [if_neg fits]
      exact tracked_report sound other
  | look each ih => exact ih _ starts sound rfl
  | bind first second ih ih' =>
    have tracked := ih sound starts
    rw [bind_apply]
    split <;> rename_i ran <;> rw [ran] at tracked
    · exact tracked.next sound fun sound' => ih' _ sound' trivial
    · obtain ⟨taken, free, ⟨given, -⟩ | ⟨-, stops⟩⟩ := tracked
      · cases given
      · exact ⟨taken, free, .inr ⟨rfl, stops⟩⟩
  | @nested _ _ rule inner ih =>
    rw [nested_apply]
    by_cases tooDeep : maxDepth ≤ state.depth
    · rw [if_pos tooDeep]
      exact tracked_report sound nofun
    · rw [if_neg tooDeep]
      have tracked : Tracked state.deeper (rule state.deeper) := ih sound starts
      obtain ⟨taken, free, ⟨given, passes⟩ | ⟨absent, stops⟩⟩ := tracked
      · exact ⟨taken, free, .inl ⟨given, passes.of_deeper⟩⟩
      · exact ⟨taken, free, .inr ⟨absent, stops.of_deeper⟩⟩
  | @iterate _ _ _ recognize step round value ih =>
    clear starts
    fun_induction Rule.iterate recognize step value state with
    | case1 => exact ⟨[], nofun, .inl ⟨rfl, .refl _⟩⟩
    | case2 value state found recognized after failed =>
      have tracked := ih value found sound recognized
      rwa [failed] at tracked
    | case3 value state found recognized next after ran progress ih' =>
      have tracked := ih value found sound recognized
      rw [ran] at tracked
      exact tracked.next sound ih'
    | case4 value state found recognized next after ran stuck =>
      have tracked := ih value found sound recognized
      rwa [ran] at tracked
  | weaken weaker fewer ih => exact ih sound (fewer _ starts)

end Rule

end BraceLang
