import BraceLang.Text.Position
import BraceLang.Text.Quoted
import BraceLang.Token.Kind

/-!
Tokens: a kind, the text that was read, and the place where it starts. Two tokens say the same
when kind and text agree, wherever they stand. A token is listed on one line, which shows its
text, in quoted form, exactly when the kind does not determine it.
-/
namespace BraceLang

/-- One unit of a source text. -/
structure Token where
  kind : TokenKind
  text : String
  position : Position
  deriving DecidableEq, Repr

namespace Token

/-- The end of a text, as a token that covers none of it. -/
def endAt (position : Position) : Token :=
  ⟨.endOfInput, "", position⟩

/-- The number of characters that a token covers in a diagnostic. It has no bound; a counter of 32
bits agrees with it below `2 ^ 32`. -/
def length (token : Token) : Nat :=
  token.text.length

/-- Agreement of two tokens in kind and text. -/
def saysSame (first second : Token) : Bool :=
  first.kind == second.kind && first.text == second.text

/-- Holds of a token whose kind is among `kinds`. -/
def isAnyOf (token : Token) (kinds : List TokenKind) : Bool :=
  kinds.contains token.kind

/-- The line for a token in a listing: place, kind and, where the kind leaves it open, text. -/
def listing (token : Token) : String :=
  let place := toString token.position.row ++ ":" ++ toString token.position.col
  let heading := place ++ " " ++ token.kind.name
  if token.kind.carriesText then heading ++ " " ++ Text.quoteString token.text else heading

end Token

end BraceLang
