import BraceLang.Parse.Statement
import BraceLang.Source.Scanner

/-!
Programs. A program is read one statement at a time; a statement that cannot be read is left
out, and reading goes on after recovery from its problem. There is always a tree, and it holds
the statements that were read without a problem.
-/
namespace BraceLang

/-- What parsing gives: the statements without problems, and all problems in source order. -/
structure ParseResult where
  program : Program
  reports : List Report

namespace ParseResult

/-- The problems as diagnostics. -/
def diagnostics (result : ParseResult) : List Diagnostic :=
  result.reports.map Report.diagnostic

end ParseResult

namespace Parse

/-- Tries to read one statement at the top level, and recovers if there is none. -/
def attempt (state : ParseState) : Option Statement × ParseState :=
  match topLevelStatement state with
  | (some statement, after) => (some statement, after)
  | (none, after) => (none, after.synchronize)

/-- The statements from the cursor up to the end of input. An attempt that takes no token is
the last one. -/
def statementsFrom (state : ParseState) : List Statement × ParseState :=
  if state.current.kind = .endOfInput then ([], state)
  else
    let (found, after) := attempt state
    if after.remaining < state.remaining then
      let (others, last) := statementsFrom after
      (found.toList ++ others, last)
    else (found.toList, after)
termination_by state.remaining

/-- The program from the cursor on, with the problems of the state before those found in it. -/
def programFrom (state : ParseState) : ParseResult :=
  let (statements, last) := statementsFrom state
  ⟨⟨statements⟩, last.reports⟩

end Parse

/-- The program in a token buffer. -/
def parseTokens (tokens : List Token) : ParseResult :=
  Parse.programFrom (.ofTokens tokens)

/-- The program in a source text. -/
def parseSource (source : String) : ParseResult :=
  parseTokens (tokenize source)

end BraceLang
