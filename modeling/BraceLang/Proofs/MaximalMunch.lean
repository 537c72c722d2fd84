import BraceLang.Proofs.LongestLexeme
import Mathlib.Data.List.Forall2

/-!
Maximal munch. At each place of a text the longest lexeme there is cut off; where no lexeme stands,
a quotation mark takes all that is left, and any other character is cut off by itself. Every text
falls into pieces in exactly one way under this rule (`munched_iff`), and the tokens of a source
text are what these pieces say, one for each piece that is neither blank nor a comment
(`tokenize_maximal_munch`).
-/
namespace BraceLang

/-- A lexeme that a text starts with, where no longer one stands. -/
structure IsLongest (form : PieceForm) (lexeme text : List Char) : Prop where
  isLexeme : IsLexeme form lexeme
  starts : lexeme <+: text
  longest : ∀ {other shorter}, IsLexeme other shorter → shorter <+: text →
    shorter.length ≤ lexeme.length

/-- No lexeme stands at the start of a text. -/
def NoLexeme (text : List Char) : Prop :=
  ∀ {form lexeme}, IsLexeme form lexeme → ¬lexeme <+: text

/-- The piece that is cut off a text, and the rest of the text. -/
inductive Munch : List Char → Piece → List Char → Prop where
  | lexeme (longest : IsLongest form lexeme text) (whole : text = lexeme ++ rest) :
      Munch text ⟨form, lexeme⟩ rest
  | unterminated (absent : NoLexeme ('"' :: text)) :
      Munch ('"' :: text) ⟨.unterminated, '"' :: text⟩ []
  | stray (absent : NoLexeme (c :: text)) (noQuote : c ≠ '"') :
      Munch (c :: text) ⟨.stray, [c]⟩ text

/-- The pieces that a text falls into, from its start to its end. -/
inductive Munched : List Char → List Piece → Prop where
  | nil : Munched [] []
  | cons (first : Munch text piece rest) (others : Munched rest found) :
      Munched text (piece :: found)

/-- Holds of the pieces that make a token. -/
def Piece.isSaid (piece : Piece) : Bool :=
  piece.form != .blank && piece.form != .comment

theorem Piece.token?_eq_none {piece : Piece} (silent : piece.isSaid = false)
    (position : Position) : piece.token? position = none := by
  obtain ⟨form, text⟩ := piece
  cases form <;> first | rfl | cases silent

/-- What the token of a piece is. A word is what it is reserved for, or else an identifier; strings
and characters are without their quotation marks; what is no lexeme is illegal. -/
inductive Piece.Means : Piece → Token → Prop where
  | reserved (found : TokenKind.reserved? (.ofList lexeme) = some kind) :
      Means ⟨.word, lexeme⟩ ⟨kind, .ofList lexeme, position⟩
  | identifier (free : TokenKind.reserved? (.ofList lexeme) = none) :
      Means ⟨.word, lexeme⟩ ⟨.identifier, .ofList lexeme, position⟩
  | integer : Means ⟨.integer, lexeme⟩ ⟨.intLiteral, .ofList lexeme, position⟩
  | decimal : Means ⟨.decimal, lexeme⟩ ⟨.floatLiteral, .ofList lexeme, position⟩
  | string : Means ⟨.string, '"' :: (body ++ ['"'])⟩ ⟨.stringLiteral, .ofList body, position⟩
  | character : Means ⟨.character, ['\'', c, '\'']⟩ ⟨.charLiteral, .ofList [c], position⟩
  | symbol : Means ⟨.symbol kind, lexeme⟩ ⟨kind, .ofList lexeme, position⟩
  | unterminated : Means ⟨.unterminated, lexeme⟩ ⟨.illegal, .ofList lexeme, position⟩
  | stray : Means ⟨.stray, lexeme⟩ ⟨.illegal, .ofList lexeme, position⟩

/-- A piece makes a token that says what the piece is. The token is a float exactly if it is a
number with a point, it is illegal exactly if the piece is no lexeme, and it is never the end. -/
structure Piece.Makes (piece : Piece) (token : Token) : Prop where
  meaning : piece.Means token
  pointed : piece.form = .integer ∨ piece.form = .decimal →
    (token.kind = .floatLiteral ↔ '.' ∈ piece.text)
  illegal : token.kind = .illegal ↔ ¬∃ form, IsLexeme form piece.text
  inside : token.kind ≠ .endOfInput

variable {text rest rest' : List Char} {piece piece' : Piece} {found : List Piece}

/-- The longest lexeme at a place is determined by the text. -/
theorem IsLongest.unique {form other : PieceForm} {lexeme lexeme' : List Char}
    (longest : IsLongest form lexeme text) (longest' : IsLongest other lexeme' text) :
    form = other ∧ lexeme = lexeme' := by
  have bound := longest.longest longest'.isLexeme longest'.starts
  have bound' := longest'.longest longest.isLexeme longest.starts
  obtain rfl : lexeme = lexeme' :=
    (List.prefix_of_prefix_length_le longest.starts longest'.starts bound').eq_of_length_le bound
  exact ⟨longest.isLexeme.form_unique longest'.isLexeme, rfl⟩

/-- One piece only can be cut off a text. -/
theorem Munch.unique (first : Munch text piece rest) (second : Munch text piece' rest') :
    piece = piece' ∧ rest = rest' := by
  cases first with
  | lexeme longest whole =>
    cases second with
    | lexeme longest' whole' =>
      obtain ⟨rfl, rfl⟩ := longest.unique longest'
      exact ⟨rfl, List.append_cancel_left (whole.symm.trans whole')⟩
    | unterminated absent | stray absent => exact absurd longest.starts (absent longest.isLexeme)
  | unterminated absent =>
    cases second with
    | lexeme longest => exact absurd longest.starts (absent longest.isLexeme)
    | unterminated => exact ⟨rfl, rfl⟩
    | stray _ noQuote => exact absurd rfl noQuote
  | stray absent noQuote =>
    cases second with
    | lexeme longest => exact absurd longest.starts (absent longest.isLexeme)
    | unterminated => exact absurd rfl noQuote
    | stray => exact ⟨rfl, rfl⟩

/-- There is nothing to cut off an empty text. -/
theorem Munch.ne_nil (munch : Munch text piece rest) : text ≠ [] := by
  cases munch with
  | lexeme longest whole => exact whole ▸ List.append_ne_nil_of_left_ne_nil longest.isLexeme.ne_nil _
  | unterminated | stray => exact List.cons_ne_nil _ _

/-- A text with a lexeme at its start has a lexeme as its first piece. -/
theorem noLexeme_of_first {c : Char} (illegal : (Piece.first c text).1.form.isLexical = false) :
    NoLexeme (c :: text) := by
  rintro form lexeme isLexeme ⟨rest, shape⟩
  obtain ⟨lexical, -⟩ := Piece.coversFirst_of_isLexeme isLexeme shape
  rw [illegal] at lexical
  cases lexical

/-- The first piece of a text is what maximal munch cuts off. -/
theorem munch_first (c : Char) (text : List Char) :
    Munch (c :: text) (Piece.first c text).1 (Piece.first c text).2 := by
  rcases Piece.isFirst_first c text with isLexeme | ⟨rfl, illegal⟩ | ⟨noQuote, illegal⟩
  · have whole := Piece.first_append c text
    have longest : IsLongest (Piece.first c text).1.form (Piece.first c text).1.text (c :: text) := by
      refine ⟨isLexeme, ⟨_, whole⟩, ?_⟩
      rintro other shorter isLexeme' ⟨rest, shape⟩
      exact (Piece.coversFirst_of_isLexeme isLexeme' shape).2
    exact .lexeme longest whole.symm
  · have absent : NoLexeme ('"' :: text) := noLexeme_of_first (by rw [illegal]; rfl)
    rw [illegal]
    exact .unterminated absent
  · have absent : NoLexeme (c :: text) := noLexeme_of_first (by rw [illegal]; rfl)
    rw [illegal]
    exact .stray absent noQuote

/-- A text falls into its pieces, and in no other way. -/
theorem munched_iff : Munched text found ↔ found = pieces text := by
  constructor
  · intro munched
    induction munched with
    | nil => rw [pieces]
    | @cons text piece rest found first others ih =>
      obtain ⟨c, text, rfl⟩ := List.exists_cons_of_ne_nil first.ne_nil
      obtain ⟨rfl, rfl⟩ := first.unique (munch_first c text)
      rw [pieces, ih]
  · rintro rfl
    fun_induction pieces text with
    | case1 => exact .nil
    | case2 c text ih => exact .cons (munch_first c text) ih

/-- A piece of maximal munch is a lexeme of its form, or no lexeme of any form. -/
def Piece.IsCut (piece : Piece) : Prop :=
  IsLexeme piece.form piece.text ∨
    ((piece.form = .unterminated ∨ piece.form = .stray) ∧ ∀ form, ¬IsLexeme form piece.text)

theorem Munch.isCut (munch : Munch text piece rest) : piece.IsCut := by
  cases munch with
  | lexeme longest => exact .inl longest.isLexeme
  | unterminated absent =>
    exact .inr ⟨.inl rfl, fun form isLexeme => absent isLexeme (List.prefix_refl _)⟩
  | stray absent =>
    exact .inr ⟨.inr rfl, fun form isLexeme => absent isLexeme ⟨_, rfl⟩⟩

theorem Munched.isCut (munched : Munched text found) : ∀ piece ∈ found, piece.IsCut := by
  induction munched with
  | nil => nofun
  | cons first _ ih => exact List.forall_mem_cons.mpr ⟨first.isCut, ih⟩

/-- The kinds that words and symbols stand for are neither illegal nor the end of input. -/
theorem isLegal_of_reserved {word : String} {kind : TokenKind}
    (found : TokenKind.reserved? word = some kind) : kind ≠ .illegal ∧ kind ≠ .endOfInput := by
  have kinds : ∀ entry ∈ TokenKind.reservedWords, entry.2 ≠ .illegal ∧ entry.2 ≠ .endOfInput := by
    decide
  obtain ⟨earlier, later, whole, -⟩ := List.lookup_eq_some_iff.mp found
  exact kinds (word, kind) (by simp [whole])

theorem isLegal_of_listed {spelling : List Char} {kind : TokenKind}
    (listed : (spelling, kind) ∈ symbolSpellings) : kind ≠ .illegal ∧ kind ≠ .endOfInput := by
  have kinds : ∀ entry ∈ symbolSpellings, entry.2 ≠ .illegal ∧ entry.2 ≠ .endOfInput := by decide
  exact kinds _ listed

/-- The text of words and symbols does not go beyond their kind. -/
theorem carriesText_of_reserved {word : String} {kind : TokenKind}
    (found : TokenKind.reserved? word = some kind) : kind.carriesText = false := by
  have kinds : ∀ entry ∈ TokenKind.reservedWords, entry.2.carriesText = false := by decide
  obtain ⟨earlier, later, whole, -⟩ := List.lookup_eq_some_iff.mp found
  exact kinds (word, kind) (by simp [whole])

theorem carriesText_of_listed {spelling : List Char} {kind : TokenKind}
    (listed : (spelling, kind) ∈ symbolSpellings) : kind.carriesText = false := by
  have kinds : ∀ entry ∈ symbolSpellings, entry.2.carriesText = false := by decide
  exact kinds _ listed

/-- What a piece of maximal munch says. -/
theorem token?_makes (isCut : piece.IsCut) (position : Position) :
    (piece.isSaid = false ∧ piece.token? position = none) ∨
      ∃ token, piece.isSaid = true ∧ piece.token? position = some token ∧ piece.Makes token := by
  obtain ⟨form, text⟩ := piece
  rcases isCut with isLexeme | ⟨illegal, absent⟩
  · have legal {kind : TokenKind} (isLegal : kind ≠ .illegal) :
        kind = .illegal ↔ ¬∃ form, IsLexeme form text :=
      iff_of_false isLegal (not_not_intro ⟨form, isLexeme⟩)
    cases isLexeme with
    | blank | comment => exact .inl ⟨rfl, rfl⟩
    | @word c parts =>
      right
      cases shape : TokenKind.reserved? (.ofList (c :: parts)) with
      | none =>
        refine ⟨⟨.identifier, .ofList (c :: parts), position⟩, rfl, ?_, .identifier shape, by simp,
          legal (by simp), by simp⟩
        simp only [Piece.token?, TokenKind.ofWord, shape, Option.getD_none]
      | some kind =>
        obtain ⟨isLegal, inside⟩ := isLegal_of_reserved shape
        refine ⟨⟨kind, .ofList (c :: parts), position⟩, rfl, ?_, .reserved shape, by simp,
          legal isLegal, inside⟩
        simp only [Piece.token?, TokenKind.ofWord, shape, Option.getD_some]
    | integer nonempty digits =>
      have noPoint : '.' ∉ text := fun mem => absurd (digits '.' mem) (by unfold IsDigit; decide)
      exact .inr ⟨_, rfl, rfl, .integer, fun _ => iff_of_false (by simp) noPoint,
        legal (by simp), by simp⟩
    | decimal => exact .inr ⟨_, rfl, rfl, .decimal, by simp, legal (by simp), by simp⟩
    | string => exact .inr ⟨_, rfl, rfl, by simpa using .string, by simp, legal (by simp), by simp⟩
    | character => exact .inr ⟨_, rfl, rfl, .character, by simp, legal (by simp), by simp⟩
    | symbol listed =>
      obtain ⟨isLegal, inside⟩ := isLegal_of_listed listed
      exact .inr ⟨_, rfl, rfl, .symbol, by simp, legal isLegal, inside⟩
  · have none : ¬∃ form, IsLexeme form text := not_exists.mpr absent
    rcases illegal with rfl | rfl
    · exact .inr ⟨_, rfl, rfl, .unterminated, by simp, by simp [none], by simp⟩
    · exact .inr ⟨_, rfl, rfl, .stray, by simp, by simp [none], by simp⟩

theorem tokensOfPieces_makes (isCut : ∀ piece ∈ found, piece.IsCut) (position : Position) :
    ∃ tokens last, tokensOfPieces position found = tokens ++ [.endAt last] ∧
      List.Forall₂ Piece.Makes (found.filter Piece.isSaid) tokens := by
  induction found generalizing position with
  | nil => exact ⟨[], position, rfl, .nil⟩
  | cons piece found ih =>
    rw [List.forall_mem_cons] at isCut
    obtain ⟨tokens, last, shape, made⟩ := ih isCut.2 (position.after piece.text)
    rcases token?_makes isCut.1 position with ⟨silent, none⟩ | ⟨token, said, some, makes⟩
    · refine ⟨tokens, last, ?_, ?_⟩
      · simp only [tokensOfPieces, none, shape]
      · rwa [List.filter_cons_of_neg (by simp [silent])]
    · refine ⟨token :: tokens, last, ?_, ?_⟩
      · simp only [tokensOfPieces, some, shape, List.cons_append]
      · rw [List.filter_cons_of_pos said]
        exact .cons makes made

/-- A source text is tokenized by maximal munch. It falls into pieces in one way only, nothing of it
is lost or read twice, and its tokens are those of the pieces, followed by the end. -/
theorem tokenize_maximal_munch (source : String) :
    (∀ found, Munched source.toList found ↔ found = pieces source.toList) ∧
    (pieces source.toList).flatMap Piece.text = source.toList ∧
    ∃ tokens last, tokenize source = tokens ++ [.endAt last] ∧
      List.Forall₂ Piece.Makes ((pieces source.toList).filter Piece.isSaid) tokens :=
  ⟨fun _ => munched_iff, pieces_flatten _,
    tokensOfPieces_makes (munched_iff.mpr rfl).isCut .start⟩

end BraceLang
