import BraceLang.Proofs.ConcreteExpression
import BraceLang.Proofs.SourceForm
import BraceLang.Source.Scanner

/-!
Lexemes are found again in their text. A lexeme is readable if its spelling, before a blank or the
end of the text, is cut off as one piece that says the lexeme; a text of readable lexemes with
blanks between them has tokens that say just these lexemes.
-/
namespace BraceLang

namespace Lexeme

/-- The text after a lexeme: none, or a blank and more. -/
def Follows (rest : List Char) : Prop :=
  rest = [] ∨ ∃ tail, rest = ' ' :: tail

/-- The spelling of a lexeme is cut off as a piece that says the lexeme. -/
def Readable (lexeme : Lexeme) : Prop :=
  ∀ rest, Follows rest → ∃ c text piece, lexeme.spelling ++ rest = c :: text ∧
    Piece.first c text = (piece, rest) ∧
    ∀ position, piece.token? position = some ⟨lexeme.kind, lexeme.text, position⟩

/-- A run of characters ends before a blank that is none of them. -/
theorem takeWhile_of_follows {p : Char → Bool} {run rest : List Char}
    (all : ∀ c ∈ run, p c = true) (blank : p ' ' = false) (follows : Follows rest) :
    (run ++ rest).takeWhile p = run ∧ (run ++ rest).dropWhile p = rest := by
  rw [List.takeWhile_append_of_pos all, List.dropWhile_append_of_pos all]
  rcases follows with rfl | ⟨tail, rfl⟩
  · simp
  · simp [blank]

theorem isBlank_cases {c : Char} (blank : isBlank c = true) :
    c = ' ' ∨ c = '\t' ∨ c = '\r' ∨ c = '\n' := by
  simpa [isBlank, or_assoc] using blank

/-- No word starts with a blank or a slash. -/
theorem isBlank_of_isWordStart {c : Char} (starts : isWordStart c = true) :
    isBlank c = false ∧ (c == '/') = false := by
  constructor
  · cases blank : isBlank c with
    | false => rfl
    | true => rcases isBlank_cases blank with rfl | rfl | rfl | rfl <;> cases starts
  · cases slash : c == '/' with
    | false => rfl
    | true =>
      obtain rfl := eq_of_beq slash
      cases starts

/-- Letters and the low line come after the digits. -/
theorem lt_toNat_of_isWordStart {c : Char} (starts : isWordStart c = true) :
    '9'.toNat < c.toNat := by
  rcases Bool.or_eq_true_iff.mp starts with letter | low
  · rcases Bool.or_eq_true_iff.mp letter with upper | lower
    · have least := UInt32.le_iff_toNat_le.mp (of_decide_eq_true upper).1
      exact Nat.lt_of_lt_of_le (by decide) least
    · have least := UInt32.le_iff_toNat_le.mp (of_decide_eq_true (Bool.and_eq_true_iff.mp lower).1)
      exact Nat.lt_of_lt_of_le (by decide) least
  · obtain rfl := eq_of_beq low
    decide

/-- No number starts with a blank or a slash, and none is a word. -/
theorem isBlank_of_isDigit {c : Char} (digit : c.isDigit = true) :
    isBlank c = false ∧ (c == '/') = false ∧ isWordStart c = false := by
  refine ⟨?_, ?_, ?_⟩
  · cases blank : isBlank c with
    | false => rfl
    | true => rcases isBlank_cases blank with rfl | rfl | rfl | rfl <;> cases digit
  · cases slash : c == '/' with
    | false => rfl
    | true =>
      obtain rfl := eq_of_beq slash
      cases digit
  · cases word : isWordStart c with
    | false => rfl
    | true =>
      have most := (Char.isDigit_iff_toNat.mp digit).2
      exact absurd (lt_toNat_of_isWordStart word) (Nat.not_lt.mpr most)

variable {rest : List Char}

/-- A word is a piece that is as long as the word. -/
theorem first_word {c : Char} {more : List Char} (starts : isWordStart c = true)
    (parts : ∀ c ∈ more, isWordPart c = true) (follows : Follows rest) :
    Piece.first c (more ++ rest) = (⟨.word, c :: more⟩, rest) := by
  obtain ⟨noBlank, noSlash⟩ := isBlank_of_isWordStart starts
  have startPart : isWordPart c = true := by
    simp only [isWordStart, isWordPart, Char.isAlphanum, Bool.or_eq_true] at starts ⊢
    rcases starts with letter | low
    · exact .inl (.inl letter)
    · exact .inr low
  obtain ⟨taken, left⟩ :=
    takeWhile_of_follows (List.forall_mem_cons.mpr ⟨startPart, parts⟩) rfl follows
  rw [List.cons_append] at taken left
  simp [Piece.first, noBlank, noSlash, starts, Piece.run, taken, left]

theorem first_digit {c : Char} (digit : c.isDigit = true) (text : List Char) :
    Piece.first c text = Piece.number (c :: text) := by
  obtain ⟨noBlank, noSlash, noWord⟩ := isBlank_of_isDigit digit
  simp [Piece.first, noBlank, noSlash, noWord, digit]

/-- Digits are a whole number as long as they are. -/
theorem number_digits {digits : List Char} (all : ∀ c ∈ digits, c.isDigit = true)
    (follows : Follows rest) : Piece.number (digits ++ rest) = (⟨.integer, digits⟩, rest) := by
  obtain ⟨taken, left⟩ := takeWhile_of_follows all rfl follows
  unfold Piece.number
  rw [taken, left]
  rcases follows with rfl | ⟨tail, rfl⟩ <;> rfl

/-- Digits around a point are a decimal as long as they are. -/
theorem number_pointed {whole fraction : List Char} (allWhole : ∀ c ∈ whole, c.isDigit = true)
    (nonempty : fraction ≠ []) (allFraction : ∀ c ∈ fraction, c.isDigit = true)
    (follows : Follows rest) :
    Piece.number (whole ++ '.' :: fraction ++ rest) =
      (⟨.decimal, whole ++ '.' :: fraction⟩, rest) := by
  obtain ⟨digit, more, rfl⟩ := List.exists_cons_of_ne_nil nonempty
  rw [List.forall_mem_cons] at allFraction
  obtain ⟨taken, left⟩ := takeWhile_of_follows allFraction.2 rfl follows
  have point : ('.' : Char).isDigit = false := rfl
  unfold Piece.number
  rw [List.append_assoc, List.takeWhile_append_of_pos allWhole,
    List.dropWhile_append_of_pos allWhole]
  simp [point, allFraction.1, taken, left]

theorem readable_word {kind : TokenKind} {text : String} {c : Char} {more : List Char}
    (shape : text.toList = c :: more) (starts : isWordStart c = true)
    (parts : more.all isWordPart = true) (isKind : TokenKind.ofWord text = kind)
    (plain : (⟨kind, text⟩ : Lexeme).spelling = text.toList) : Readable ⟨kind, text⟩ := by
  intro rest follows
  refine ⟨c, more ++ rest, _, ?_, first_word starts (List.all_eq_true.mp parts) follows, ?_⟩
  · rw [plain, shape, List.cons_append]
  · intro position
    simp only [Piece.token?]
    rw [← shape, String.ofList_toList, isKind]

/-- A name is a word that is not reserved. -/
theorem readable_named {text : String} (isName : IsNameText text) : Readable (named text) := by
  obtain ⟨⟨c, more, shape, starts, parts⟩, free⟩ := isName
  refine readable_word shape starts (List.all_eq_true.mpr parts) ?_ rfl
  rw [TokenKind.ofWord, free, Option.getD_none]

theorem readable_digits {text : String} (nonempty : text.toList ≠ [])
    (all : ∀ c ∈ text.toList, c.isDigit = true) : Readable ⟨.intLiteral, text⟩ := by
  intro rest follows
  obtain ⟨c, more, shape⟩ := List.exists_cons_of_ne_nil nonempty
  have number := number_digits all follows
  rw [shape] at number all
  refine ⟨c, more ++ rest, ⟨.integer, c :: more⟩, ?_, ?_, ?_⟩
  · rw [spelling, shape, List.cons_append]
  · rw [first_digit (all c List.mem_cons_self)]
    exact number
  · intro position
    simp only [Piece.token?]
    rw [← shape, String.ofList_toList]

theorem readable_pointed {text : String} (pointed : IsPointed text) :
    Readable ⟨.floatLiteral, text⟩ := by
  intro rest follows
  obtain ⟨whole, fraction, shape, wholeNonempty, nonempty, allWhole, allFraction⟩ := pointed
  obtain ⟨c, more, rfl⟩ := List.exists_cons_of_ne_nil wholeNonempty
  refine ⟨c, more ++ '.' :: fraction ++ rest, ⟨.decimal, c :: more ++ '.' :: fraction⟩, ?_, ?_, ?_⟩
  · rw [spelling, shape]
    rfl
  · rw [first_digit (allWhole c List.mem_cons_self)]
    exact number_pointed allWhole nonempty allFraction follows
  · intro position
    simp only [Piece.token?]
    rw [← shape, String.ofList_toList]

theorem readable_string {value : String} (unquoted : '"' ∉ value.toList) :
    Readable ⟨.stringLiteral, value⟩ := by
  intro rest follows
  have body : ∀ c ∈ value.toList, (c != '"') = true := by
    intro c inside
    simp only [bne_iff_ne]
    rintro rfl
    exact unquoted inside
  refine ⟨'"', value.toList ++ '"' :: rest, ⟨.string, '"' :: value.toList ++ ['"']⟩, ?_, ?_, ?_⟩
  · simp [spelling]
  · have taken : (value.toList ++ '"' :: rest).takeWhile (· != '"') = value.toList := by
      rw [List.takeWhile_append_of_pos body]
      simp
    have left : (value.toList ++ '"' :: rest).dropWhile (· != '"') = '"' :: rest := by
      rw [List.dropWhile_append_of_pos body]
      simp
    have string : Piece.string (value.toList ++ '"' :: rest) =
        (⟨.string, '"' :: value.toList ++ ['"']⟩, rest) := by
      unfold Piece.string
      rw [taken, left]
    exact string
  · intro position
    simp [Piece.token?]

theorem readable_char {value : Char} (unquoted : value ≠ '\'') (inLine : value ≠ '\n') :
    Readable ⟨.charLiteral, value.toString⟩ := by
  intro rest follows
  refine ⟨'\'', value :: '\'' :: rest, ⟨.character, ['\'', value, '\'']⟩, ?_, ?_, ?_⟩
  · simp [spelling]
  · have character : Piece.character (value :: '\'' :: rest) =
        (⟨.character, ['\'', value, '\'']⟩, rest) := by
      unfold Piece.character
      simp [unquoted, inLine]
    exact character
  · intro position
    simp [Piece.token?]

theorem readable_symbol {kind : TokenKind} {c : Char} {more : List Char}
    (shape : (mark kind).spelling = c :: more) (isText : kind.spelling = String.ofList (c :: more))
    (atEnd : Piece.first c more = (⟨.symbol kind, c :: more⟩, []))
    (beforeBlank : ∀ tail,
      Piece.first c (more ++ ' ' :: tail) = (⟨.symbol kind, c :: more⟩, ' ' :: tail)) :
    Readable (mark kind) := by
  intro rest follows
  refine ⟨c, more ++ rest, ⟨.symbol kind, c :: more⟩, ?_, ?_, ?_⟩
  · rw [shape, List.cons_append]
  · rcases follows with rfl | ⟨tail, rfl⟩
    · rwa [List.append_nil]
    · exact beforeBlank tail
  · intro position
    simp only [Piece.token?, mark, isText]

/-- Words and symbols are read by the tables that say how they are spelled. -/
theorem readable_mark {kind : TokenKind} (isMark : kind.isMark = true) : Readable (mark kind) := by
  cases kind with
  | illegal | endOfInput | identifier | intLiteral | stringLiteral | charLiteral | floatLiteral =>
    cases isMark
  | kwFn | kwThis | kwIf | kwElse | kwElif | kwWhile | kwFor | kwEnum | kwStruct | kwNamespace
  | kwReturn | kwConst | kwLet | kwUsing | kwNull | kwTrue | kwFalse | kwPrint | and | or | not =>
    exact readable_word rfl rfl rfl rfl rfl
  | _ => exact readable_symbol rfl rfl rfl fun _ => rfl

/-- A readable lexeme does not start with a blank, since blanks say nothing. -/
theorem Readable.spelling_append {lexeme : Lexeme} (readable : lexeme.Readable)
    (follows : Follows rest) :
    ∃ c text, lexeme.spelling ++ rest = c :: text ∧ isBlank c = false ∧
      ∀ position, ∃ position' token, token.lexeme = lexeme ∧
        tokensOfPieces position (pieces (c :: text)) =
          token :: tokensOfPieces position' (pieces rest) := by
  obtain ⟨c, text, piece, shape, first, spells⟩ := readable rest follows
  refine ⟨c, text, shape, ?_, fun position => ?_⟩
  · cases blank : isBlank c with
    | false => rfl
    | true =>
      rw [Piece.first, if_pos blank] at first
      obtain ⟨rfl, -⟩ := Prod.mk.inj first
      cases spells .start
  · refine ⟨position.after piece.text, ⟨lexeme.kind, lexeme.text, position⟩, rfl, ?_⟩
    rw [pieces, first]
    simp only [tokensOfPieces, spells]

/-- Before text that does not go on with blanks, a single blank says nothing. -/
theorem tokensOfPieces_blank {c : Char} (text : List Char) (position : Position)
    (noBlank : isBlank c = false) :
    ∃ position', tokensOfPieces position (pieces (' ' :: c :: text)) =
      tokensOfPieces position' (pieces (c :: text)) := by
  have first : Piece.first ' ' (c :: text) = (⟨.blank, [' ']⟩, c :: text) := by
    have blank : isBlank ' ' = true := rfl
    simp [Piece.first, Piece.run, blank, noBlank]
  refine ⟨position.after [' '], ?_⟩
  rw [pieces, first]
  rfl

theorem follows_flatMap (lexemes : List Lexeme) :
    Follows (lexemes.flatMap fun lexeme => ' ' :: lexeme.spelling) := by
  cases lexemes with
  | nil => exact .inl rfl
  | cons lexeme lexemes => exact .inr ⟨_, rfl⟩

theorem map_lexeme_tokensOfPieces {lexemes : List Lexeme}
    (readable : ∀ lexeme ∈ lexemes, lexeme.Readable) (position : Position) :
    (tokensOfPieces position
      (pieces (lexemes.flatMap fun lexeme => ' ' :: lexeme.spelling))).map Token.lexeme =
        lexemes ++ [⟨.endOfInput, ""⟩] := by
  induction lexemes generalizing position with
  | nil => simp [pieces, tokensOfPieces, Token.endAt, Token.lexeme]
  | cons lexeme lexemes ih =>
    rw [List.forall_mem_cons] at readable
    obtain ⟨c, text, shape, noBlank, cut⟩ :=
      readable.1.spelling_append (follows_flatMap lexemes)
    obtain ⟨start, skipped⟩ := tokensOfPieces_blank text position noBlank
    obtain ⟨next, token, spells, tokens⟩ := cut start
    rw [List.flatMap_cons, List.cons_append, shape, skipped, tokens, List.map_cons, spells,
      ih readable.2, List.cons_append]

/-- The tokens of a text of readable lexemes say these lexemes, up to the end of the text. -/
theorem tokenize_source {lexemes : List Lexeme}
    (readable : ∀ lexeme ∈ lexemes, lexeme.Readable) :
    ∃ tokens last, tokenize (source lexemes) = tokens ++ [last] ∧
      tokens.map Token.lexeme = lexemes ∧ last.kind = .endOfInput := by
  have whole : (tokenize (source lexemes)).map Token.lexeme = lexemes ++ [⟨.endOfInput, ""⟩] := by
    rw [tokenize, source, String.toList_ofList]
    cases lexemes with
    | nil => simp [pieces, tokensOfPieces, Token.endAt, Token.lexeme]
    | cons lexeme lexemes =>
      rw [List.forall_mem_cons] at readable
      obtain ⟨c, text, shape, -, cut⟩ := readable.1.spelling_append (follows_flatMap lexemes)
      obtain ⟨next, token, spells, tokens⟩ := cut .start
      rw [List.map_cons, intercalate_cons, List.flatMap_map, shape, tokens, List.map_cons, spells,
        map_lexeme_tokensOfPieces readable.2, List.cons_append]
  obtain ⟨tokens, ends, shape, spells, endSpells⟩ := List.map_eq_append_iff.mp whole
  obtain ⟨last, rfl, isEnd⟩ := List.map_eq_singleton_iff.mp endSpells
  exact ⟨tokens, last, shape, spells, congrArg Lexeme.kind isEnd⟩

end Lexeme

end BraceLang
