import BraceLang.CommandLine

/-!
The program: it reads what its arguments ask for, and writes what the command line answers.
-/
namespace BraceLang.CommandLine

/-- The contents of a file, or why it cannot be read. -/
def readSource (name : String) : IO (Except FileProblem String) := do
  try
    return .ok (← IO.FS.readFile name)
  catch failure =>
    match failure with
    | .noFileOrDirectory .. => return .error .notFound
    | .inappropriateType none .. => return .error .isDirectory
    | .inappropriateType .. => return .error .notDirectory
    | other => return .error (.other (toString other))

/-- The output for the given arguments, with the file or the input that they call for. -/
def runOnSystem (arguments : List String) : IO Output := do
  match Settings.default.withArguments arguments with
  | .error refusal => return refuse refusal
  | .ok settings =>
    match settings.file with
    | some name =>
      let contents ← readSource name
      return answer settings "" fun _ => contents
    | none =>
      let input ← (← IO.getStdin).readToEnd
      return answer settings input fun _ => .error .notFound

end BraceLang.CommandLine

def main (arguments : List String) : IO UInt32 := do
  let output ← BraceLang.CommandLine.runOnSystem arguments
  (← IO.getStdout).putStr output.stdout
  (← IO.getStderr).putStr output.stderr
  return output.exitCode.toUInt32
