import BraceLang.Parse.Program

/-!
Parsing step by step. A session is a token buffer with a state of parsing it; a caller can look
at tokens, take them, report problems, recover and run any rule, also inside nested rules, and
can at last have the whole buffer parsed. Each step can be observed: what it gave, whether a
problem is open after it, which problems it reported, and the token that is current then.
-/
namespace BraceLang

/-- One step of a session. -/
inductive Operation where
  | peek (ahead : Nat)
  | take
  | expect (kind : TokenKind) (message : String)
  | takeKind (kind : TokenKind) (message : String)
  | reportAt (ahead : Nat) (message : String)
  /-- A report about any token, also one that is not in the buffer. -/
  | reportToken (token : Token) (message : String)
  | synchronize
  /-- Steps inside so many nested rules. -/
  | nested (times : Nat) (steps : List Operation)
  | expression
  | expressionAbove (least : BindingPower)
  | initializer
  | arrayLiteral
  | statement
  | block
  | topLevelStatement
  /-- A type whose name is the current token, whatever its kind. -/
  | typeAfterName
  /-- A type whose name has been taken before, or is any other token. -/
  | typeNamed (name : Token)
  | typeName (context : String)

/-- The state of parsing as an observer sees it after a step. -/
structure StepView where
  /-- Whether no problem is open. -/
  good : Bool
  /-- The problems that the step reported. -/
  reports : List Report
  /-- The token that is current. -/
  next : Token

/-- What a step gives. -/
inductive Outcome where
  /-- The step has no value. -/
  | done
  /-- The step could have had a value and has none. -/
  | absent
  | token (token : Token)
  | expression (value : Expression)
  | statement (value : Statement)
  | typeName (type : TypeName)
  | steps (outcomes : List (Outcome × StepView))
  /-- The steps inside nested rules were not run. -/
  | tooDeep

namespace Outcome

/-- The outcome of running a rule: its value, or none. -/
def ofRule {α : Type} (wrap : α → Outcome) (rule : Rule α) (state : ParseState) :
    Outcome × ParseState :=
  match rule state with
  | (some value, after) => (wrap value, after)
  | (none, after) => (.absent, after)

end Outcome

namespace Operation

/-- What can be seen of a step from the states before and after it. -/
def view (before after : ParseState) : StepView :=
  ⟨!after.panicking, after.reports.drop before.reports.length, after.current⟩

mutual

/-- Runs a step. -/
def run : Operation → ParseState → Outcome × ParseState
  | peek ahead, state => (.token (state.peek ahead), state)
  | take, state => Outcome.ofRule .token Rule.take state
  | expect kind message, state =>
    (.done, if state.current.kind = kind then state else state.report (.stated message))
  | takeKind kind message, state =>
    Outcome.ofRule .token (Rule.takeKind kind (.stated message)) state
  | reportAt ahead message, state => (.done, state.reportAt ahead (.stated message))
  | reportToken token message, state => (.done, state.reportToken token (.stated message))
  | synchronize, state => (.done, state.synchronize)
  | nested times steps, state =>
    let inner : Rule (List (Outcome × StepView)) := fun entered =>
      let (outcomes, left) := runAll steps entered
      (some outcomes, left)
    match Nat.repeat Rule.nested times inner state with
    | (some outcomes, after) => (.steps outcomes, after)
    | (none, after) => (.tooDeep, after)
  | expression, state => Outcome.ofRule .expression Parse.expression state
  | expressionAbove least, state =>
    Outcome.ofRule .expression (Parse.expressionAbove least) state
  | initializer, state => Outcome.ofRule .expression Parse.initializer state
  | arrayLiteral, state => Outcome.ofRule .expression Parse.arrayLiteral state
  | statement, state => Outcome.ofRule .statement Parse.statement state
  | block, state => Outcome.ofRule (.statement ∘ .block) (Parse.block Parse.statement) state
  | topLevelStatement, state => Outcome.ofRule .statement Parse.topLevelStatement state
  | typeAfterName, state =>
    Outcome.ofRule .typeName (do Parse.typeAfterName (← Rule.take).text) state
  | typeNamed name, state => Outcome.ofRule .typeName (Parse.typeAfterName name.text) state
  | typeName context, state =>
    Outcome.ofRule .typeName (Parse.typeName (.typeFor context)) state

/-- Runs steps one after another and observes each of them. -/
def runAll : List Operation → ParseState → List (Outcome × StepView) × ParseState
  | [], state => ([], state)
  | step :: steps, state =>
    let (outcome, after) := run step state
    let (outcomes, last) := runAll steps after
    ((outcome, view state after) :: outcomes, last)

end

end Operation

/-- A token buffer and a state of parsing it. -/
structure Session where
  tokens : List Token
  state : ParseState

namespace Session

/-- The session that has not read anything of a buffer. -/
def ofTokens (tokens : List Token) : Session :=
  ⟨tokens, .ofTokens tokens⟩

/-- The session after some steps, and what each of them gave. -/
def run (session : Session) (steps : List Operation) :
    List (Outcome × StepView) × Session :=
  let (outcomes, state) := Operation.runAll steps session.state
  (outcomes, { session with state })

/-- Parses the whole buffer. The cursor goes back to the start; the problems reported so far
stay, and so does a problem that is still open. -/
def parse (session : Session) : ParseResult :=
  Parse.programFrom { session.state with cursor := .ofTokens session.tokens }

end Session

end BraceLang
