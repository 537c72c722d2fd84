import BraceLang.Parse.State

/-!
Rules of the grammar as functions on the state of parsing. A rule gives a value, or it gives up
after a problem; either way it leaves a state. Rules are put together from a few steps: looking
at the kind of the current token, taking it, requiring a token for a reason, giving up, running
a rule one level deeper, and repeating a rule for as long as the current token calls for it.
-/
namespace BraceLang

/-- A rule that reads tokens and gives an `α`, or nothing once there is a problem. -/
def Rule (α : Type) : Type :=
  ParseState → Option α × ParseState

namespace Rule

/-- One rule after another. The second one is not run if the first one gives nothing. -/
def andThen {α β : Type} (rule : Rule α) (next : α → Rule β) : Rule β := fun state =>
  match rule state with
  | (some value, after) => next value after
  | (none, after) => (none, after)

instance : Monad Rule where
  pure value := fun state => (some value, state)
  bind := andThen

@[simp] theorem pure_apply {α : Type} (value : α) (state : ParseState) :
    (pure value : Rule α) state = (some value, state) := rfl

theorem bind_apply {α β : Type} (rule : Rule α) (next : α → Rule β) (state : ParseState) :
    (rule >>= next) state =
      match rule state with
      | (some value, after) => next value after
      | (none, after) => (none, after) := rfl

private theorem andThen_pure {α : Type} (rule : Rule α) : andThen rule pure = rule := by
  funext state
  unfold andThen
  split <;> simp_all

private theorem andThen_assoc {α β γ : Type} (rule : Rule α) (next : α → Rule β)
    (last : β → Rule γ) :
    andThen (andThen rule next) last = andThen rule fun value => andThen (next value) last := by
  funext state
  unfold andThen
  cases rule state with
  | mk value after => cases value <;> rfl

instance : LawfulMonad Rule :=
  LawfulMonad.mk' Rule andThen_pure (fun _ _ => rfl) andThen_assoc

/-- The kind of the current token. -/
def currentKind : Rule TokenKind := fun state =>
  (some state.current.kind, state)

/-- Takes the current token for the value that `convert` finds in it. If `convert` finds a
problem instead, the problem is reported at that token, which is taken all the same. -/
def takeAs {α : Type} (convert : Token → Except Problem α) : Rule α := fun state =>
  match convert state.current with
  | .ok value => (some value, state.advance)
  | .error problem => (none, (state.report problem).advance)

/-- Takes the current token. -/
def take : Rule Token :=
  takeAs .ok

/-- Gives up and reports a problem at the current token, which is not taken. -/
def giveUp {α : Type} (problem : Problem) : Rule α := fun state =>
  (none, state.report problem)

/-- Takes a token of the given kind. Without one, the problem is reported; and nothing is taken
while an earlier problem is being recovered from. -/
def takeKind (kind : TokenKind) (problem : Problem) : Rule Token := fun state =>
  let checked := if state.current.kind = kind then state else state.report problem
  if checked.panicking then (none, checked) else (some checked.current, checked.advance)

/-- Takes the token that is required, and gives its text. -/
def require (expectation : Expectation) : Rule String := do
  let token ← takeKind expectation.kind (.expected expectation)
  pure token.text

/-- Runs a rule one level deeper. At the greatest depth the rule is not run, and the current
token is reported. -/
def nested {α : Type} (rule : Rule α) : Rule α := fun state =>
  if maxDepth ≤ state.depth then (none, state.report (.nestingTooDeep maxDepth))
  else
    let (value, after) := rule state.deeper
    (value, after.shallower)

/-- Repeats `step` for as long as `recognize` has an answer for the kind of the current token.
A round that takes no token is the last one. -/
def iterate {α ρ : Type} (recognize : TokenKind → Option ρ) (step : α → ρ → Rule α)
    (value : α) : Rule α := fun state =>
  match recognize state.current.kind with
  | none => (some value, state)
  | some found =>
    match step value found state with
    | (none, after) => (none, after)
    | (some next, after) =>
      if after.remaining < state.remaining then iterate recognize step next after
      else (some next, after)
termination_by state => state.remaining

/-- Repeats a rule for as long as the current token has a kind in `continues`, and collects
what the rule gives. -/
def manyWhile {α : Type} (continues : TokenKind → Bool) (rule : Rule α) : Rule (List α) :=
  iterate (fun kind => if continues kind then some () else none)
    (fun values _ => do pure (values ++ [← rule])) []

/-- One or more items with commas between them. -/
def separatedByCommas {α : Type} (item : Rule α) : Rule (List α) := do
  let first ← item
  let others ← manyWhile (· == .comma) do
    let _ ← take
    item
  pure (first :: others)

/-- Items with commas between them, or none if the current token is the one that closes them. -/
def itemsUpTo {α : Type} (closing : TokenKind) (item : Rule α) : Rule (List α) := do
  if (← currentKind) = closing then pure [] else separatedByCommas item

end Rule

end BraceLang
