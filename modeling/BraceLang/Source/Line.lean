/-!
The lines of a source text. Lines end at line feeds; a carriage return at the end of a line
belongs to the line break and is not shown.
-/
namespace BraceLang

/-- The text up to the next line feed, after `skipped` line feeds have been passed. -/
def lineAfter? : Nat → List Char → Option (List Char)
  | 0, text => some (text.takeWhile (· != '\n'))
  | skipped + 1, text =>
    match text.dropWhile (· != '\n') with
    | [] => none
    | _ :: rest => lineAfter? skipped rest

/-- A line without the carriage return at its end, if it has one. -/
def dropCarriageReturn (line : List Char) : List Char :=
  if line.getLast? = some '\r' then line.dropLast else line

/-- The line of a source text with the given number, counted from one. -/
def sourceLine? (source : String) : Nat → Option String
  | 0 => none
  | row + 1 => (lineAfter? row source.toList).map (String.ofList ∘ dropCarriageReturn)

example : sourceLine? "a\r\nb" 1 = some "a" := by decide +kernel

example : sourceLine? "a\n" 2 = some "" := by decide +kernel

example : sourceLine? "a\n" 3 = none := by decide +kernel

end BraceLang
