import BraceLang.Token.Basic

/-!
The pieces of a source text. A text falls into runs of blanks, comments, words, numbers,
strings, characters and symbols, each as long as it can be; where none of these fits, into a
string that never ends or a stray character. The pieces of a text, put together again, are the
text (`pieces_flatten`), and none of them is empty.
-/
namespace BraceLang

/-- What a piece of a source text is. -/
inductive PieceForm where
  | blank
  | comment
  | word
  | integer
  | decimal
  | string
  | character
  | symbol (kind : TokenKind)
  | unterminated
  | stray
  deriving DecidableEq, Repr

/-- A stretch of source text together with what it is. -/
structure Piece where
  form : PieceForm
  text : List Char
  deriving DecidableEq, Repr

/-- Blanks separate tokens and mean nothing else. -/
def isBlank (c : Char) : Bool :=
  c == ' ' || c == '\t' || c == '\r' || c == '\n'

/-- Words start with a letter of the ASCII alphabet or a low line. -/
def isWordStart (c : Char) : Bool :=
  c.isAlpha || c == '_'

/-- Words go on with letters, low lines and decimal digits. -/
def isWordPart (c : Char) : Bool :=
  c.isAlphanum || c == '_'

/-- The spellings of operators and punctuation. A spelling that another one starts with comes
after it, so that the first one that fits a text is also the longest. -/
def symbolSpellings : List (List Char × TokenKind) :=
  [(['<', '<', '='], .shiftLeftAssign), (['>', '>', '='], .shiftRightAssign),
   (['+', '='], .plusAssign), (['-', '='], .minusAssign), (['*', '='], .starAssign),
   (['/', '='], .slashAssign), (['%', '='], .moduloAssign), (['&', '='], .bitAndAssign),
   (['|', '='], .bitOrAssign), (['<', '<'], .shiftLeft), (['>', '>'], .shiftRight),
   (['=', '='], .equal), (['!', '='], .notEqual), (['<', '='], .lessEqual),
   (['>', '='], .greaterEqual), (['-', '>'], .arrow), (['=', '>'], .implies),
   (['&', '&'], .and), (['|', '|'], .or), (['+'], .plus), (['-'], .minus), (['*'], .star),
   (['/'], .slash), (['%'], .modulo), (['!'], .not), (['&'], .bitAnd), (['|'], .bitOr),
   (['~'], .bitNot), (['='], .assign), (['('], .leftParen), ([')'], .rightParen),
   (['['], .leftSquare), ([']'], .rightSquare), (['{'], .leftBrace), (['}'], .rightBrace),
   (['.'], .dot), ([','], .comma), ([';'], .semicolon), ([':'], .colon), (['>'], .greater),
   (['<'], .less)]

namespace Piece

/-- The run of characters in `p` at the start of a text, as a piece of the given form. -/
def run (form : PieceForm) (p : Char → Bool) (text : List Char) : Piece × List Char :=
  (⟨form, text.takeWhile p⟩, text.dropWhile p)

/-- A number at the start of a text: digits and, if a point and more digits follow, those too. -/
def number (text : List Char) : Piece × List Char :=
  let whole := text.takeWhile Char.isDigit
  match text.dropWhile Char.isDigit with
  | '.' :: digit :: rest =>
    if digit.isDigit then
      (⟨.decimal, whole ++ '.' :: digit :: rest.takeWhile Char.isDigit⟩,
        rest.dropWhile Char.isDigit)
    else (⟨.integer, whole⟩, '.' :: digit :: rest)
  | rest => (⟨.integer, whole⟩, rest)

/-- What follows a double quotation mark: a string up to the next one, if there is a next one.
Without it the string takes all that is left. -/
def string (text : List Char) : Piece × List Char :=
  let body := text.takeWhile (· != '"')
  match text.dropWhile (· != '"') with
  | [] => (⟨.unterminated, '"' :: body⟩, [])
  | closing :: rest => (⟨.string, '"' :: body ++ [closing]⟩, rest)

/-- What follows a single quotation mark: a character and a second mark, or else the mark is
a stray character. -/
def character (text : List Char) : Piece × List Char :=
  match text with
  | c :: '\'' :: rest =>
    if c != '\'' && c != '\n' then (⟨.character, ['\'', c, '\'']⟩, rest)
    else (⟨.stray, ['\'']⟩, text)
  | _ => (⟨.stray, ['\'']⟩, text)

/-- The first spelling of the table that fits, or else one stray character. -/
def symbol (c : Char) (text : List Char) : Piece × List Char :=
  match symbolSpellings.find? (fun entry => entry.1.isPrefixOf (c :: text)) with
  | some (spelling, kind) => (⟨.symbol kind, spelling⟩, (c :: text).drop spelling.length)
  | none => (⟨.stray, [c]⟩, text)

/-- The first piece of a text that starts with `c`, and what follows the piece. -/
def first (c : Char) (text : List Char) : Piece × List Char :=
  if isBlank c then run .blank isBlank (c :: text)
  else if c == '/' && text.head? == some '/' then run .comment (· != '\n') (c :: text)
  else if isWordStart c then run .word isWordPart (c :: text)
  else if c.isDigit then number (c :: text)
  else if c == '"' then string text
  else if c == '\'' then character text
  else symbol c text

private theorem run_append (form : PieceForm) (p : Char → Bool) (text : List Char) :
    (run form p text).1.text ++ (run form p text).2 = text := by
  simp [run]

private theorem number_append (text : List Char) :
    (number text).1.text ++ (number text).2 = text := by
  have whole := List.takeWhile_append_dropWhile (p := Char.isDigit) (l := text)
  unfold number
  split
  · rename_i digit rest shape
    rw [shape] at whole
    split
    · simpa using whole
    · exact whole
  · exact whole

private theorem string_append (text : List Char) :
    (string text).1.text ++ (string text).2 = '"' :: text := by
  have body := List.takeWhile_append_dropWhile (p := (· != '"')) (l := text)
  unfold string
  split <;> rename_i shape <;> rw [shape] at body <;> simpa using body

private theorem character_append (text : List Char) :
    (character text).1.text ++ (character text).2 = '\'' :: text := by
  unfold character
  split
  · split <;> rfl
  · rfl

private theorem symbol_append (c : Char) (text : List Char) :
    (symbol c text).1.text ++ (symbol c text).2 = c :: text := by
  unfold symbol
  split
  · rename_i spelling kind found
    have fits := List.find?_some found
    obtain ⟨rest, shape⟩ := List.isPrefixOf_iff_prefix.mp fits
    simp only at shape ⊢
    rw [← shape, List.drop_left]
  · rfl

/-- Splitting off the first piece loses nothing. -/
theorem first_append (c : Char) (text : List Char) :
    (first c text).1.text ++ (first c text).2 = c :: text := by
  unfold first
  split
  · exact run_append ..
  split
  · exact run_append ..
  split
  · exact run_append ..
  split
  · exact number_append ..
  split
  · rename_i mark
    rw [string_append, eq_of_beq mark]
  split
  · rename_i mark
    rw [character_append, eq_of_beq mark]
  · exact symbol_append ..

private theorem run_text_length_pos {p : Char → Bool} {c : Char} (holds : p c = true)
    (form : PieceForm) (text : List Char) : 0 < (run form p (c :: text)).1.text.length := by
  simp [run, holds]

private theorem number_text_length_pos {c : Char} (digit : c.isDigit = true)
    (text : List Char) : 0 < (number (c :: text)).1.text.length := by
  unfold number
  split
  · split <;> simp [digit]
  · simp [digit]

private theorem symbol_text_length_pos (c : Char) (text : List Char) :
    0 < (symbol c text).1.text.length := by
  unfold symbol
  split
  · rename_i spelling kind found
    have nonempty : ∀ entry ∈ symbolSpellings, 0 < entry.1.length := by decide
    exact nonempty _ (List.mem_of_find?_eq_some found)
  · simp

/-- A piece covers at least one character. -/
theorem first_text_length_pos (c : Char) (text : List Char) :
    0 < (first c text).1.text.length := by
  unfold first
  split
  · rename_i blank
    exact run_text_length_pos blank ..
  split
  · rename_i slashes
    simp only [Bool.and_eq_true, beq_iff_eq] at slashes
    exact run_text_length_pos (by simp [slashes.1]) ..
  split
  · rename_i letter
    refine run_text_length_pos ?_ ..
    simp only [isWordStart, isWordPart, Char.isAlphanum, Bool.or_eq_true] at letter ⊢
    rcases letter with h | h <;> simp [h]
  split
  · rename_i digit
    exact number_text_length_pos digit ..
  split
  · unfold string
    split <;> simp
  split
  · unfold character
    split
    · split <;> simp
    · simp
  · exact symbol_text_length_pos ..

/-- What follows the first piece of a text is shorter than the text. -/
theorem first_rest_length_lt (c : Char) (text : List Char) :
    (first c text).2.length < (c :: text).length := by
  have nonempty := first_text_length_pos c text
  have lengths := congrArg List.length (first_append c text)
  rw [List.length_append] at lengths
  omega

/-- The token that a piece standing at `position` makes, if it makes one. Strings and
characters are tokens without their quotation marks. -/
def token? (piece : Piece) (position : Position) : Option Token :=
  let covering (kind : TokenKind) (text : List Char) : Option Token :=
    some ⟨kind, String.ofList text, position⟩
  match piece.form with
  | .blank | .comment => none
  | .word => covering (.ofWord (String.ofList piece.text)) piece.text
  | .integer => covering .intLiteral piece.text
  | .decimal => covering .floatLiteral piece.text
  | .string => covering .stringLiteral piece.text.tail.dropLast
  | .character => covering .charLiteral piece.text.tail.dropLast
  | .symbol kind => covering kind piece.text
  | .unterminated | .stray => covering .illegal piece.text

end Piece

/-- The pieces of a text, from its start to its end. -/
def pieces : List Char → List Piece
  | [] => []
  | c :: text => (Piece.first c text).1 :: pieces (Piece.first c text).2
termination_by text => text.length
decreasing_by exact Piece.first_rest_length_lt c text

/-- Cutting a text into pieces loses nothing and reads nothing twice. -/
theorem pieces_flatten (text : List Char) : (pieces text).flatMap Piece.text = text := by
  fun_induction pieces text with
  | case1 => rfl
  | case2 c text ih => rw [List.flatMap_cons, ih, Piece.first_append]

end BraceLang
