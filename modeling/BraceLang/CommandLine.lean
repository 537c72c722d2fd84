import BraceLang.CommandLine.Answer

/-!
The command line as a function from its arguments and what can be read to what is written. This is
the outer layer of the program: arguments become settings, by the usual conventions for options, and
what is written follows from the settings alone (`answer`). The words of the help and of the refusal
of an argument are this program's own.
-/
namespace BraceLang.CommandLine

/-- The form of a given name. -/
def Format.ofName? : String → Option Format
  | "json" => some .json
  | "sexpr" => some .sexpr
  | _ => none

/-- The settings without arguments. -/
def Settings.default : Settings :=
  ⟨none, false, none, false⟩

/-- Why the arguments give no settings. -/
inductive Refusal where
  | version
  | help
  /-- The arguments cannot be understood from this one on. -/
  | unexpected (argument : String)
  deriving DecidableEq, Repr

namespace Settings

/-- The settings with the file to read. There is only one, and its name is not empty. -/
def withFile (settings : Settings) (name : String) : Except Refusal Settings :=
  if settings.file.isSome || name.isEmpty then .error (.unexpected name)
  else .ok { settings with file := some name }

/-- The settings with a list of tokens in place of the tree. -/
def withTokens (settings : Settings) : Except Refusal Settings :=
  if settings.tokens then .error (.unexpected "--tokens")
  else .ok { settings with tokens := true }

/-- The settings with nothing but problems shown. -/
def withQuiet (settings : Settings) : Except Refusal Settings :=
  if settings.quiet then .error (.unexpected "--quiet")
  else .ok { settings with quiet := true }

/-- The settings with a form for the tree. -/
def withFormat (settings : Settings) (name : String) : Except Refusal Settings :=
  match settings.format, Format.ofName? name with
  | none, some format => .ok { settings with format := some format }
  | _, _ => .error (.unexpected "--format")

/-- The settings with a run of one-letter options. -/
def withLetters (settings : Settings) : List Char → Except Refusal Settings
  | [] => .ok settings
  | 'q' :: letters => do (← settings.withQuiet).withLetters letters
  | 'V' :: _ => .error .version
  | 'h' :: _ => .error .help
  | letter :: _ => .error (.unexpected (String.ofList ['-', letter]))

/-- The settings with the arguments after `--`, which are no options whatever they look like. -/
def withNames (settings : Settings) : List String → Except Refusal Settings
  | [] => .ok settings
  | name :: names => do (← settings.withFile name).withNames names

/-- The form that an option of the shape `--format=json` asks for. -/
def formatOption? (argument : List Char) : Option String :=
  let option := "--format=".toList
  if option.isPrefixOf argument then some (String.ofList (argument.drop option.length)) else none

/-- The settings with the given arguments, read from left to right. -/
def withArguments (settings : Settings) : List String → Except Refusal Settings
  | [] => .ok settings
  | "--" :: names => settings.withNames names
  | "--version" :: _ => .error .version
  | "--help" :: _ => .error .help
  | "--tokens" :: arguments => do (← settings.withTokens).withArguments arguments
  | "--quiet" :: arguments => do (← settings.withQuiet).withArguments arguments
  | "--format" :: name :: arguments => do (← settings.withFormat name).withArguments arguments
  | argument :: arguments => do
    let text := argument.toList
    let next ←
      match formatOption? text with
      | some name => settings.withFormat name
      | none =>
        match text with
        | '-' :: '-' :: _ => .error (.unexpected argument)
        | '-' :: letter :: letters => settings.withLetters (letter :: letters)
        | _ => settings.withFile argument
    next.withArguments arguments

end Settings

/-- The output when there are no settings to run with. -/
def refuse : Refusal → Output
  | .version => ⟨0, "fridayc 0.1.0\n", ""⟩
  | .help => ⟨0, "Usage: fridayc [--tokens] [--format json|sexpr] [--quiet] [FILE]\n", ""⟩
  | .unexpected argument => ⟨2, "", "error: unexpected argument '" ++ argument ++ "'\n"⟩

/-- The output for the given arguments. -/
def run (arguments : List String) (input : String)
    (file : String → Except FileProblem String) : Output :=
  match Settings.default.withArguments arguments with
  | .ok settings => answer settings input file
  | .error refusal => refuse refusal

end BraceLang.CommandLine
