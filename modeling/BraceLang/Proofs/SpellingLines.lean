import BraceLang.Proofs.LineBreak

/-!
Tokens spelled out, each on lines of its own. A piece of maximal munch is one piece also when it
stands alone, since no longer lexeme was there to be cut off (`Munch.alone`), and no piece but the
last one leaves a string open. So the pieces of a text that make tokens can be put on lines of their
own: read again, they are the same tokens (`tokenize_lines`).
-/
namespace BraceLang

/-- The spellings of some lexemes with a line break between any two of them. -/
def Lexeme.lines (lexemes : List Lexeme) : String :=
  String.ofList (['\n'].intercalate (lexemes.map spelling))

/-- What the token of a piece says, if the piece makes a token. -/
def Piece.lexeme? (piece : Piece) : Option Lexeme :=
  (piece.token? .start).map Token.lexeme

variable {text rest : List Char} {piece : Piece} {found items : List Piece}

theorem Piece.map_lexeme_token? (piece : Piece) (position : Position) :
    (piece.token? position).map Token.lexeme = piece.lexeme? := by
  obtain ⟨form, text⟩ := piece
  cases form <;> rfl

/-- What the tokens of some pieces say does not depend on where the pieces stand. -/
theorem tokensOfPieces_lexemes (position : Position) (found : List Piece) :
    (tokensOfPieces position found).map Token.lexeme =
      found.filterMap Piece.lexeme? ++ [⟨.endOfInput, ""⟩] := by
  induction found generalizing position with
  | nil => rfl
  | cons piece found ih =>
    rw [tokensOfPieces, List.filterMap_cons, ← piece.map_lexeme_token? position]
    cases piece.token? position with
    | none => exact ih _
    | some token => exact congrArg (token.lexeme :: ·) (ih _)

/-- A piece is cut off as a whole when nothing follows it. -/
theorem Munch.alone (munch : Munch text piece rest) : Munch piece.text piece [] := by
  cases munch with
  | lexeme longest =>
    exact .lexeme ⟨longest.isLexeme, List.prefix_refl _, fun _ starts => starts.length_le⟩
      (List.append_nil _).symm
  | unterminated absent => exact .unterminated absent
  | stray absent noQuote =>
    exact .stray (fun isLexeme starts => absent isLexeme (starts.trans ⟨_, rfl⟩)) noQuote

theorem Munched.alone (munched : Munched text found) :
    ∀ piece ∈ found, Munched piece.text [piece] := by
  induction munched with
  | nil => nofun
  | cons first _ ih => exact List.forall_mem_cons.mpr ⟨.cons first.alone .nil, ih⟩

/-- A string without an end has no piece after it. -/
theorem Munched.pairwise (munched : Munched text found) :
    found.Pairwise fun piece _ => piece.form ≠ .unterminated := by
  induction munched with
  | nil => exact .nil
  | cons first others ih =>
    refine .cons (fun later mem isOpen => ?_) ih
    obtain ⟨-, rfl⟩ := first.of_unterminated isOpen
    cases others with
    | nil => cases mem
    | cons next => exact next.ne_nil rfl

/-- Pieces on lines of their own say what they say in their text. -/
theorem lexemes_of_lines (alone : ∀ piece ∈ items, Munched piece.text [piece])
    (ends : items.Pairwise fun piece _ => piece.form ≠ .unterminated) (position : Position) :
    (tokensOfPieces position
      (pieces (['\n'].intercalate (items.map Piece.text)))).map Token.lexeme =
        items.filterMap Piece.lexeme? ++ [⟨.endOfInput, ""⟩] := by
  induction items generalizing position with
  | nil => rw [List.map_nil, List.intercalate_nil, pieces, tokensOfPieces_lexemes]
  | cons piece items ih =>
    rw [List.forall_mem_cons] at alone
    rw [List.pairwise_cons] at ends
    cases items with
    | nil =>
      rw [List.map_singleton, List.intercalate_singleton, ← munched_iff.mp alone.1,
        tokensOfPieces_lexemes]
    | cons next items =>
      have closed : ∀ other ∈ [piece], other.form ≠ .unterminated := by
        simpa using ends.1 next List.mem_cons_self
      obtain ⟨tokens, made, whole⟩ := tokensOfPieces_append_line alone.1 closed position
        (['\n'].intercalate ((next :: items).map Piece.text))
      have lexemes := tokensOfPieces_lexemes position [piece]
      rw [made, List.map_append] at lexemes
      have first : tokens.map Token.lexeme = [piece].filterMap Piece.lexeme? :=
        List.append_cancel_right lexemes
      have shape : ['\n'].intercalate ((piece :: next :: items).map Piece.text) =
          piece.text ++ '\n' :: ['\n'].intercalate ((next :: items).map Piece.text) := by
        rw [List.map_cons, List.map_cons, List.intercalate_cons_cons, ← List.map_cons,
          List.append_assoc, List.singleton_append]
      rw [shape, whole, List.map_append, ih alone.2 ends.2, first, ← List.append_assoc,
        ← List.filterMap_append, List.singleton_append]

theorem Lexeme.spelling_of_bare {lexeme : Lexeme} (bare : lexeme.kind.carriesText = false) :
    lexeme.spelling = lexeme.text.toList := by
  unfold spelling
  split <;> rename_i isKind
  · rw [isKind] at bare
    cases bare
  · rw [isKind] at bare
    cases bare
  · rfl

/-- A token is spelled as the piece that makes it. -/
theorem Piece.Means.spelling {token : Token} (means : piece.Means token) (isCut : piece.IsCut) :
    token.lexeme.spelling = piece.text := by
  cases means with
  | @reserved lexeme kind position found =>
    rw [Lexeme.spelling_of_bare (carriesText_of_reserved found)]
    exact String.toList_ofList
  | identifier | integer | decimal | unterminated | stray => exact String.toList_ofList
  | @string body => simp [Token.lexeme, Lexeme.spelling]
  | character => simp [Token.lexeme, Lexeme.spelling]
  | symbol =>
    rcases isCut with isLexeme | ⟨illegal, -⟩
    · cases isLexeme with
      | symbol listed =>
        rw [Lexeme.spelling_of_bare (carriesText_of_listed listed)]
        exact String.toList_ofList
    · rcases illegal with illegal | illegal <;> cases illegal

theorem spellings_of_makes {tokens : List Token} (made : List.Forall₂ Piece.Makes items tokens)
    (isCut : ∀ piece ∈ items, piece.IsCut) :
    (tokens.map Token.lexeme).map Lexeme.spelling = items.map Piece.text := by
  induction made with
  | nil => rfl
  | cons makes _ ih =>
    rw [List.forall_mem_cons] at isCut
    rw [List.map_cons, List.map_cons, List.map_cons, makes.meaning.spelling isCut.1, ih isCut.2]

/-- Pieces without a token say nothing. -/
theorem filterMap_lexeme?_isSaid (found : List Piece) :
    (found.filter Piece.isSaid).filterMap Piece.lexeme? = found.filterMap Piece.lexeme? := by
  rw [List.filterMap_filter]
  refine List.filterMap_congr fun piece _ => ?_
  cases said : piece.isSaid with
  | true => rfl
  | false => simp [Piece.lexeme?, Piece.token?_eq_none said]

/-- Spelled tokens are read again as the same tokens. If the tokens of any text, with or without
illegal ones, are spelled out with a line break between any two of them, the text that comes of it
has the same kinds of tokens with the same texts, up to the end. -/
theorem tokenize_lines (source : String) :
    ∃ tokens last, tokenize source = tokens ++ [.endAt last] ∧
      (tokenize (Lexeme.lines (tokens.map Token.lexeme))).map Token.lexeme =
        (tokenize source).map Token.lexeme := by
  have munched : Munched source.toList (pieces source.toList) := munched_iff.mpr rfl
  obtain ⟨tokens, last, shape, made⟩ := tokensOfPieces_makes munched.isCut .start
  let items := (pieces source.toList).filter Piece.isSaid
  have isItem {piece : Piece} (mem : piece ∈ items) : piece ∈ pieces source.toList :=
    List.mem_of_mem_filter mem
  have spellings := spellings_of_makes made fun piece mem => munched.isCut piece (isItem mem)
  have lines := lexemes_of_lines (fun piece mem => munched.alone piece (isItem mem))
    (munched.pairwise.filter Piece.isSaid) .start
  refine ⟨tokens, last, shape, ?_⟩
  rw [tokenize, tokenize, Lexeme.lines, spellings, String.toList_ofList, lines,
    filterMap_lexeme?_isSaid, tokensOfPieces_lexemes]

end BraceLang
