import BraceLang.Parse.Program
import BraceLang.Tree.Json
import BraceLang.Tree.Sexpr

/-!
What the program writes for its settings and what it reads. A source text, from a file or from
standard input, is shown as a tree or as a list of tokens; problems go to the error output, each
followed by an empty line, and then there is no tree.
-/
namespace BraceLang.CommandLine

/-- The form in which a tree is shown. -/
inductive Format where
  | json
  | sexpr
  deriving DecidableEq, Repr

/-- What is asked of a run: the file to read, if it is not standard input, tokens in place of the
tree, the form of the tree, and nothing but problems. -/
structure Settings where
  file : Option String
  tokens : Bool
  format : Option Format
  quiet : Bool
  deriving DecidableEq, Repr

/-- What a run of the program leaves behind. -/
structure Output where
  exitCode : Nat
  stdout : String
  stderr : String
  deriving DecidableEq, Repr

/-- Why a file could not be read. -/
inductive FileProblem where
  | notFound
  | isDirectory
  | notDirectory
  /-- Some other reason, in the words of the system. -/
  | other (reason : String)
  deriving DecidableEq, Repr

/-- The reason in words, with the number that the system has for it. -/
def FileProblem.message : FileProblem → String
  | notFound => "No such file or directory (os error 2)"
  | isDirectory => "Is a directory (os error 21)"
  | notDirectory => "Not a directory (os error 20)"
  | other reason => reason

/-- The output when the file of the given name cannot be read. -/
def unreadable (name : String) (problem : FileProblem) : Output :=
  ⟨1, "", "Error: Reading " ++ name ++ "\n\nCaused by:\n    " ++ problem.message ++ "\n"⟩

/-- The tokens of a source text, one on each line. -/
def tokenLines (source : String) : String :=
  String.join ((tokenize source).map fun token => token.listing ++ "\n")

/-- The tree of a program in the given form. -/
def showTree (program : Program) : Format → String
  | .json => program.toJson.render
  | .sexpr => program.toSexpr.render

/-- The output for a source text that was read from `name`. -/
def process (settings : Settings) (name source : String) : Output :=
  if settings.tokens then ⟨0, tokenLines source, ""⟩
  else
    let result := parseSource source
    match result.diagnostics with
    | [] =>
      if settings.quiet then ⟨0, "", ""⟩
      else ⟨0, showTree result.program (settings.format.getD .json) ++ "\n", ""⟩
    | diagnostics =>
      ⟨1, "", String.join (diagnostics.map fun diagnostic =>
        diagnostic.render source name ++ "\n\n")⟩

/-- The output for the given settings, with the contents of the file if one is named and of
standard input otherwise. -/
def answer (settings : Settings) (input : String) (file : String → Except FileProblem String) :
    Output :=
  match settings.file with
  | none => process settings "<stdin>" input
  | some name =>
    match file name with
    | .ok source => process settings name source
    | .error problem => unreadable name problem

end BraceLang.CommandLine
