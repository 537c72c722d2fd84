import BraceLang.Proofs.DriverRun
import Mathlib.Data.List.Forall2

/-!
Tokens that are alike: of one kind and, where the text goes into the tree, of one text. Two runs
over buffers of alike tokens are related step by step. Their states have the same indices, depths
and open problems, while messages, positions and all other texts may differ; a rule whose steps
only look at what alike tokens share gives related values in related states.
-/
namespace BraceLang

/-- The kinds of the tokens whose text goes into the tree. -/
def TokenKind.isWritten : TokenKind → Bool
  | .identifier | .intLiteral | .floatLiteral | .stringLiteral | .charLiteral => true
  | _ => false

/-- Agreement in what goes into the tree. -/
structure Token.Alike (first second : Token) : Prop where
  kind : second.kind = first.kind
  text : first.kind.isWritten = true → second.text = first.text

namespace Token.Alike

theorem refl (token : Token) : token.Alike token :=
  ⟨rfl, fun _ => rfl⟩

theorem symm {first second : Token} (alike : first.Alike second) : second.Alike first :=
  ⟨alike.kind.symm, fun written => (alike.text (alike.kind ▸ written)).symm⟩

theorem trans {first second third : Token} (alike : first.Alike second)
    (alike' : second.Alike third) : first.Alike third :=
  ⟨alike'.kind.trans alike.kind, fun written =>
    (alike'.text (alike.kind.symm ▸ written)).trans (alike.text written)⟩

end Token.Alike

namespace ParseState

/-- States of two runs over buffers of alike tokens. -/
structure Alike (state other : ParseState) : Prop where
  rest : List.Forall₂ Token.Alike state.rest other.rest
  index : other.index = state.index
  reports : other.reports.map Report.index = state.reports.map Report.index
  panicking : other.panicking = state.panicking
  depth : other.depth = state.depth

variable {state other after after' : ParseState}

theorem alike_ofTokens {tokens others : List Token}
    (alike : List.Forall₂ Token.Alike tokens others) : (ofTokens tokens).Alike (ofTokens others) :=
  ⟨alike, rfl, rfl, rfl, rfl⟩

/-- At the end of a buffer the token is made up by the parser, and no part of it but its kind is
looked at. -/
theorem Alike.current (alike : state.Alike other) : state.current.Alike other.current := by
  have rest := alike.rest
  cases shape : state.rest with
  | nil =>
    rw [shape, List.forall₂_nil_left_iff] at rest
    rw [current_of_nil shape, current_of_nil rest]
    exact ⟨rfl, nofun⟩
  | cons token tokens =>
    rw [shape, List.forall₂_cons_left_iff] at rest
    obtain ⟨token', tokens', first, -, shape'⟩ := rest
    rwa [current_of_cons shape, current_of_cons shape']

theorem Alike.remaining (alike : state.Alike other) : other.remaining = state.remaining := by
  have lengths := alike.rest.length_eq
  simp only [ParseState.remaining, Cursor.remaining_eq]
  exact lengths.symm

theorem Alike.advance (alike : state.Alike other) : state.advance.Alike other.advance := by
  have rest := alike.rest
  cases shape : state.rest with
  | nil =>
    rw [shape, List.forall₂_nil_left_iff] at rest
    rwa [advance_of_nil shape, advance_of_nil rest]
  | cons token tokens =>
    rw [shape, List.forall₂_cons_left_iff] at rest
    obtain ⟨token', tokens', -, others, shape'⟩ := rest
    have passes := passes_advance shape
    have passes' := passes_advance shape'
    constructor
    · rw [List.append_cancel_left (passes.rest.symm.trans shape),
        List.append_cancel_left (passes'.rest.symm.trans shape')]
      exact others
    · rw [passes.index_eq, passes'.index_eq, alike.index]
      rfl
    · rw [passes.reports, passes'.reports, alike.reports]
    · rw [passes.panicking, passes'.panicking, alike.panicking]
    · rw [passes.depth, passes'.depth, alike.depth]

/-- What is reported may differ, but not where. -/
theorem Alike.report (alike : state.Alike other) (problem problem' : Problem) :
    (state.report problem).Alike (other.report problem') := by
  cases panicking : state.panicking with
  | true =>
    rwa [report_of_panicking panicking, report_of_panicking (alike.panicking.trans panicking)]
  | false =>
    rw [report_of_sound panicking, report_of_sound (alike.panicking.trans panicking)]
    refine { alike with reports := ?_, panicking := rfl }
    have here : (other.reportHere problem').index = (state.reportHere problem).index := alike.index
    rw [List.map_append, List.map_append, alike.reports, List.map_singleton, List.map_singleton,
      here]

theorem Alike.deeper (alike : state.Alike other) : state.deeper.Alike other.deeper :=
  { alike with depth := congrArg (· + 1) alike.depth }

theorem Alike.shallower (alike : state.Alike other) : state.shallower.Alike other.shallower :=
  { alike with depth := congrArg (· - 1) alike.depth }

theorem Alike.calm (alike : state.Alike other) :
    Alike { state with panicking := false } { other with panicking := false } :=
  { alike with panicking := rfl }

/-- As many tokens are passed over in both buffers if only their kinds are looked at. -/
theorem forall₂_dropWhile {p : TokenKind → Bool} {tokens others : List Token}
    (alike : List.Forall₂ Token.Alike tokens others) :
    (others.takeWhile (p ·.kind)).length = (tokens.takeWhile (p ·.kind)).length ∧
      List.Forall₂ Token.Alike (tokens.dropWhile (p ·.kind)) (others.dropWhile (p ·.kind)) := by
  induction alike with
  | nil => exact ⟨rfl, .nil⟩
  | @cons token token' tokens others first rest ih =>
    cases passed : p token.kind with
    | true =>
      have passed' : p token'.kind = true := first.kind ▸ passed
      simp only [List.takeWhile_cons, List.dropWhile_cons, passed, passed', ↓reduceIte]
      exact ⟨congrArg (· + 1) ih.1, ih.2⟩
    | false =>
      have passed' : p token'.kind = false := first.kind ▸ passed
      simp only [List.takeWhile_cons, List.dropWhile_cons, passed, passed', Bool.false_eq_true,
        ↓reduceIte, List.length_nil, true_and]
      exact .cons first rest

theorem Alike.skipToBoundary (alike : state.Alike other) :
    state.skipToBoundary.Alike other.skipToBoundary := by
  obtain ⟨lengths, rest⟩ := forall₂_dropWhile (p := (!endsRecovery ·)) alike.rest
  refine { alike with rest, index := ?_ }
  exact congrArg₂ (· + ·) alike.index lengths

theorem Alike.synchronize (alike : state.Alike other) :
    state.synchronize.Alike other.synchronize := by
  cases panicking : state.panicking with
  | false =>
    have panicking' := alike.panicking.trans panicking
    simpa [ParseState.synchronize, panicking, panicking'] using alike
  | true =>
    have skipped := alike.skipToBoundary
    rw [synchronize_of_panicking panicking,
      synchronize_of_panicking (alike.panicking.trans panicking), skipped.current.kind]
    cases state.skipToBoundary.current.kind with
    | endOfInput => exact skipped
    | semicolon | rightBrace => exact skipped.advance.calm
    | _ => exact skipped.calm

end ParseState

namespace Rule

variable {α β γ δ ρ : Type} {R : α → β → Prop} {S : γ → δ → Prop} {rule : Rule α} {rule' : Rule β}

/-- Runs of two rules that come out alike: both give values, related by `R`, or both give none, and
the states that they leave are alike. -/
inductive ComeOutAlike (R : α → β → Prop) :
    Option α × ParseState → Option β × ParseState → Prop where
  | given (related : R value value') (states : after.Alike after') :
      ComeOutAlike R (some value, after) (some value', after')
  | none (states : after.Alike after') : ComeOutAlike R (none, after) (none, after')

/-- Two rules that come out alike in all alike states. -/
def Alike (R : α → β → Prop) (rule : Rule α) (rule' : Rule β) : Prop :=
  ∀ ⦃state other : ParseState⦄, state.Alike other → ComeOutAlike R (rule state) (rule' other)

/-- A rule for which alike tokens are as good as the same ones. -/
def Indifferent (rule : Rule α) : Prop :=
  Alike (· = ·) rule rule

theorem Alike.imp {R' : α → β → Prop} (alike : Alike R rule rule')
    (weaker : ∀ {first second}, R first second → R' first second) : Alike R' rule rule' := by
  intro state other states
  have results := alike states
  generalize rule state = result, rule' other = result' at results
  cases results with
  | given related after => exact .given (weaker related) after
  | none after => exact .none after

theorem Alike.pure {value : α} {value' : β} (related : R value value') :
    Alike R (Pure.pure value) (Pure.pure value') :=
  fun _ _ states => .given related states

theorem indifferent_pure (value : α) : Indifferent (Pure.pure value : Rule α) :=
  .pure rfl

theorem Alike.bind {next : α → Rule γ} {next' : β → Rule δ} (first : Alike R rule rule')
    (second : ∀ {value value'}, R value value' → Alike S (next value) (next' value')) :
    Alike S (rule >>= next) (rule' >>= next') := by
  intro state other states
  have results := first states
  rw [bind_apply, bind_apply]
  generalize rule state = result, rule' other = result' at results
  cases results with
  | given related middle => exact second related middle
  | none middle => exact .none middle

/-- After an indifferent rule both runs go on with the same value. -/
theorem Indifferent.bind {next : α → Rule γ} {next' : α → Rule δ} (first : Indifferent rule)
    (second : ∀ value, Alike S (next value) (next' value)) :
    Alike S (rule >>= next) (rule >>= next') :=
  Alike.bind first fun {value _} same => same ▸ second value

theorem alike_ite {condition : Prop} [Decidable condition] {first second : Rule α}
    {first' second' : Rule β} (yes : Alike R first first') (no : Alike R second second') :
    Alike R (if condition then first else second) (if condition then first' else second') := by
  split
  · exact yes
  · exact no

theorem indifferent_currentKind : Indifferent currentKind :=
  fun _ _ states => .given states.current.kind.symm states

theorem alike_takeAs {convert : Token → Except Problem α} {convert' : Token → Except Problem β}
    (converts : ∀ {first second : Token}, first.Alike second →
      Option.Rel R (convert first).toOption (convert' second).toOption) :
    Alike R (takeAs convert) (takeAs convert') := by
  intro state other states
  have values := converts states.current
  unfold takeAs
  generalize convert state.current = result at values
  generalize convert' other.current = result' at values
  cases result <;> cases result' <;> cases values
  · exact .none (states.report _ _).advance
  · exact .given ‹_› states.advance

theorem alike_take : Alike Token.Alike take take :=
  alike_takeAs fun alike => .some alike

theorem alike_giveUp (problem problem' : Problem) :
    Alike R (giveUp problem) (giveUp problem') :=
  fun _ _ states => .none (states.report problem problem')

theorem alike_takeKind (kind : TokenKind) (problem problem' : Problem) :
    Alike (fun first second => first.Alike second ∧ first.kind = kind)
      (takeKind kind problem) (takeKind kind problem') := by
  intro state other states
  cases panicking : state.panicking with
  | true =>
    have panicking' := states.panicking.trans panicking
    rw [takeKind_of_panicking panicking, takeKind_of_panicking panicking']
    exact .none states
  | false =>
    have panicking' := states.panicking.trans panicking
    rw [takeKind_of_sound panicking, takeKind_of_sound panicking', states.current.kind]
    by_cases fits : state.current.kind = kind
    · rw [if_pos fits, if_pos fits]
      exact .given ⟨states.current, fits⟩ states.advance
    · rw [if_neg fits, if_neg fits]
      exact .none (states.report problem problem')

/-- What is expected may be said in other words, if it is the same kind of token. -/
theorem alike_require {expectation expectation' : Expectation}
    (same : expectation'.kind = expectation.kind) :
    Alike (fun text text' => expectation.kind.isWritten = true → text' = text)
      (require expectation) (require expectation') := by
  unfold require
  rw [same]
  refine (alike_takeKind _ _ _).bind fun {first second} ⟨alike, isKind⟩ => .pure fun written => ?_
  exact alike.text (isKind ▸ written)

/-- The text that is required can be any, if nothing is made of it. -/
theorem alike_require_then {next next' : Rule γ} (expectation : Expectation)
    {T : γ → γ → Prop} (second : Alike T next next') :
    Alike T (require expectation >>= fun _ => next) (require expectation >>= fun _ => next') :=
  (alike_require rfl).bind fun _ => second

/-- Names are the same in both runs. -/
theorem alike_require_name {expectation expectation' : Expectation}
    (isName : expectation.kind = .identifier) (isName' : expectation'.kind = .identifier) :
    Alike (· = ·) (require expectation) (require expectation') :=
  (alike_require (isName'.trans isName.symm)).imp fun same => (same (by rw [isName]; rfl)).symm

theorem Alike.nested (inner : Alike R rule rule') :
    Alike R (Rule.nested rule) (Rule.nested rule') := by
  intro state other states
  rw [nested_apply, nested_apply, states.depth]
  by_cases tooDeep : maxDepth ≤ state.depth
  · rw [if_pos tooDeep, if_pos tooDeep]
    exact alike_giveUp _ _ states
  · rw [if_neg tooDeep, if_neg tooDeep]
    have results := inner states.deeper
    generalize rule state.deeper = result, rule' other.deeper = result' at results
    cases results with
    | given related after => exact .given related after.shallower
    | none after => exact .none after.shallower

/-- A repetition makes as many rounds in both runs. -/
theorem Alike.iterate {recognize : TokenKind → Option ρ} {step : α → ρ → Rule α}
    {step' : β → ρ → Rule β}
    (round : ∀ {value value'} found, R value value' →
      Alike R (step value found) (step' value' found))
    {value : α} {value' : β} (related : R value value') :
    Alike R (Rule.iterate recognize step value) (Rule.iterate recognize step' value') := by
  intro state other states
  fun_induction Rule.iterate recognize step value state generalizing value' other with
  | case1 value state none =>
    rw [Rule.iterate.eq_def recognize step' value' other, states.current.kind, none]
    exact .given related states
  | case2 value state found recognized after failed =>
    have results := round found related states
    rw [failed] at results
    rw [Rule.iterate.eq_def recognize step' value' other, states.current.kind, recognized]
    dsimp only
    generalize step' value' found other = result' at results
    cases results with
    | none afters => exact .none afters
  | case3 value state found recognized next after ran progress ih =>
    have results := round found related states
    rw [ran] at results
    rw [Rule.iterate.eq_def recognize step' value' other, states.current.kind, recognized]
    dsimp only
    generalize step' value' found other = result' at results
    cases results with
    | given related' afters =>
      rw [← afters.remaining, ← states.remaining] at progress
      simp only [progress, ↓reduceIte]
      exact ih related' afters
  | case4 value state found recognized next after ran stuck =>
    have results := round found related states
    rw [ran] at results
    rw [Rule.iterate.eq_def recognize step' value' other, states.current.kind, recognized]
    dsimp only
    generalize step' value' found other = result' at results
    cases results with
    | given related' afters =>
      rw [← afters.remaining, ← states.remaining] at stuck
      simp only [stuck, ↓reduceIte]
      exact .given related' afters

theorem Alike.manyWhile (item : Alike R rule rule') (continues : TokenKind → Bool) :
    Alike (List.Forall₂ R) (Rule.manyWhile continues rule) (Rule.manyWhile continues rule') := by
  refine Alike.iterate (fun _ values => ?_) .nil
  exact item.bind fun related => .pure (List.rel_append values (.cons related .nil))

theorem Indifferent.manyWhile (item : Indifferent rule) (continues : TokenKind → Bool) :
    Indifferent (Rule.manyWhile continues rule) :=
  (Alike.manyWhile item continues).imp fun values => List.forall₂_eq_eq_eq ▸ values

theorem Indifferent.separatedByCommas (item : Indifferent rule) :
    Indifferent (Rule.separatedByCommas rule) :=
  item.bind fun _ =>
    (Indifferent.manyWhile (alike_take.bind fun _ => item) _).bind fun _ => indifferent_pure _

theorem Indifferent.itemsUpTo (item : Indifferent rule) (closing : TokenKind) :
    Indifferent (Rule.itemsUpTo closing rule) :=
  indifferent_currentKind.bind fun _ => alike_ite (indifferent_pure _) item.separatedByCommas

end Rule

end BraceLang
