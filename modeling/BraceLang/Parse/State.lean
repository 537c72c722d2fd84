import BraceLang.Diagnostic
import BraceLang.Parse.Cursor

/-!
The state of parsing: a cursor into a token buffer, the problems reported so far, whether the
last of them is still being recovered from, and how deeply rules are nested. While a problem is
being recovered from no other one is reported, so that one mistake gives one message.
-/
namespace BraceLang

/-- How deeply expressions, statements and array literals may be nested. -/
def maxDepth : Nat := 128

/-- A problem, the token it was found at, and the index of that token in the buffer. A problem
at the end of a buffer has the buffer's length as its index. -/
structure Report where
  index : Nat
  token : Token
  problem : Problem
  deriving DecidableEq, Repr

/-- The diagnostic for a report: the problem in words, and the stretch of its token. -/
def Report.diagnostic (report : Report) : Diagnostic :=
  .atToken (report.problem.message report.token.text) report.token

/-- The state of parsing a token buffer. -/
structure ParseState where
  cursor : Cursor
  /-- The place at which the end of input is seen, past the last token. -/
  stop : Position
  /-- The problems reported so far, the earliest first. -/
  reports : List Report
  /-- Whether the last problem is still being recovered from. -/
  panicking : Bool
  /-- The number of nested rules that are being run. -/
  depth : Nat
  /-- The greatest depth at which a nested rule has been run so far. -/
  deepest : Nat
  deriving DecidableEq, Repr

namespace ParseState

/-- The place at which the end of a buffer is seen: that of its last token. -/
def stopOf (tokens : List Token) : Position :=
  (tokens.getLast?.map Token.position).getD .start

/-- The state before a token buffer is read. -/
def ofTokens (tokens : List Token) : ParseState where
  cursor := .ofTokens tokens
  stop := stopOf tokens
  reports := []
  panicking := false
  depth := 0
  deepest := 0

/-- The tokens before the cursor, the nearest first. -/
def before (state : ParseState) : List Token :=
  state.cursor.before

/-- The tokens from the cursor on. -/
def rest (state : ParseState) : List Token :=
  state.cursor.rest

/-- The number of tokens from the cursor to the end of the buffer. -/
def remaining (state : ParseState) : Nat :=
  state.cursor.remaining

/-- The token `ahead` places after the cursor. -/
def peek (state : ParseState) (ahead : Nat) : Token :=
  state.rest[ahead]?.getD (.endAt state.stop)

/-- The token at the cursor. -/
def current (state : ParseState) : Token :=
  state.peek 0

/-- The state with the cursor one token further. -/
def advance (state : ParseState) : ParseState :=
  { state with cursor := state.cursor.advance }

/-- The state with a problem reported at the token `ahead` places after the cursor. A problem
that turns up while another one is being recovered from is not reported. -/
def reportAt (state : ParseState) (ahead : Nat) (problem : Problem) : ParseState :=
  if state.panicking then state
  else
    let report := ⟨state.cursor.index + min ahead state.remaining, state.peek ahead, problem⟩
    { state with reports := state.reports ++ [report], panicking := true }

/-- The state with a problem reported at the cursor. -/
def report (state : ParseState) (problem : Problem) : ParseState :=
  state.reportAt 0 problem

/-- The state with a problem reported about a token that need not be in the buffer. The report has
the index of the cursor. -/
def reportToken (state : ParseState) (token : Token) (problem : Problem) : ParseState :=
  if state.panicking then state
  else
    let report := ⟨state.cursor.index, token, problem⟩
    { state with reports := state.reports ++ [report], panicking := true }

/-- The state one level deeper. -/
def deeper (state : ParseState) : ParseState :=
  { state with depth := state.depth + 1, deepest := max state.deepest (state.depth + 1) }

/-- The state one level less deep. -/
def shallower (state : ParseState) : ParseState :=
  { state with depth := state.depth - 1 }

/-- Holds of the tokens at which recovery stops: the ends of statements, the words that start a
statement at the top level, and the end of input. -/
def endsRecovery : TokenKind → Bool
  | .endOfInput | .semicolon | .rightBrace => true
  | .kwFn | .kwEnum | .kwUsing | .kwStruct | .kwNamespace => true
  | _ => false

/-- The state with the cursor at the next token that ends recovery, or past the last token. -/
def skipToBoundary (state : ParseState) : ParseState :=
  { state with cursor := state.cursor.skipWhile (!endsRecovery ·.kind) }

/-- Recovery from a problem. Tokens are passed over until a statement can start: a semicolon or
a closing brace is passed over too, and a word that starts a statement is left. At the end of
input there is nothing to recover with, and the problem stays open. -/
def synchronize (state : ParseState) : ParseState :=
  if state.panicking then
    let reached := state.skipToBoundary
    match reached.current.kind with
    | .endOfInput => reached
    | .semicolon | .rightBrace => { reached.advance with panicking := false }
    | _ => { reached with panicking := false }
  else state

end ParseState

end BraceLang
