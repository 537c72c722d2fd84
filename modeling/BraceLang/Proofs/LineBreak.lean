import BraceLang.Proofs.MaximalMunch
import BraceLang.Proofs.SourceLine

/-!
Line breaks between texts. A line feed inside a lexeme is a blank or stands in a string, so that no
lexeme reaches over the end of a text that neither ends in blanks nor leaves a string open
(`IsLexeme.prefix_of_append_line`). Such a text is cut into the same pieces when a line and more
text follow it, and blanks at its end make no token (`tokensOfPieces_append_line`). What follows the
line break is read as it is alone, further down (`tokenize_append_line`).
-/
namespace BraceLang

/-- The same column on a row further down. -/
def Position.lower (rows : Nat) (position : Position) : Position :=
  ⟨position.row + rows, position.col⟩

/-- The same token on a row further down. -/
def Token.lower (rows : Nat) (token : Token) : Token :=
  { token with position := token.position.lower rows }

variable {text rest : List Char} {piece : Piece} {found : List Piece}

theorem Position.lower_step (rows : Nat) (position : Position) (c : Char) :
    (position.lower rows).step c = (position.step c).lower rows := by
  unfold step
  split
  · exact congrArg (Position.mk · 1) (Nat.add_right_comm ..)
  · rfl

theorem Position.lower_after (rows : Nat) (position : Position) (text : List Char) :
    (position.lower rows).after text = (position.after text).lower rows := by
  induction text generalizing position with
  | nil => rfl
  | cons c text ih => rw [after_cons, after_cons, lower_step, ih]

theorem Piece.token?_lower (piece : Piece) (rows : Nat) (position : Position) :
    piece.token? (position.lower rows) = (piece.token? position).map (Token.lower rows) := by
  obtain ⟨form, text⟩ := piece
  cases form <;> rfl

/-- Pieces that start further down make the same tokens further down. -/
theorem tokensOfPieces_lower (rows : Nat) (position : Position) (found : List Piece) :
    tokensOfPieces (position.lower rows) found =
      (tokensOfPieces position found).map (Token.lower rows) := by
  induction found generalizing position with
  | nil => rfl
  | cons piece found ih =>
    rw [tokensOfPieces, tokensOfPieces, Piece.token?_lower, Position.lower_after, ih]
    cases piece.token? position <;> rfl

/-! ## Blanks say nothing, wherever a run of them is cut off -/

theorem tokensOfPieces_dropBlanks (position : Position) (text : List Char) :
    tokensOfPieces position (pieces text) =
      tokensOfPieces (position.after (text.takeWhile isBlank))
        (pieces (text.dropWhile isBlank)) := by
  cases text with
  | nil => rfl
  | cons c text =>
    cases blank : isBlank c with
    | false => rw [List.takeWhile_cons_of_neg (by simp [blank]), List.dropWhile_cons_of_neg
        (by simp [blank]), Position.after_nil]
    | true =>
      rw [pieces, Piece.first_of_blank blank]
      rfl

theorem tokensOfPieces_blanks {blanks : List Char} (all : ∀ c ∈ blanks, isBlank c = true)
    (position : Position) (text : List Char) :
    tokensOfPieces position (pieces (blanks ++ text)) =
      tokensOfPieces (position.after blanks) (pieces text) := by
  rw [tokensOfPieces_dropBlanks, List.takeWhile_append_of_pos all, List.dropWhile_append_of_pos all,
    Position.after_append, ← tokensOfPieces_dropBlanks]

/-! ## Only blanks and strings reach over a line break -/

/-- A line feed is a blank, or it stands in a string. -/
theorem IsLexeme.form_of_newline {form : PieceForm} {lexeme : List Char}
    (isLexeme : IsLexeme form lexeme) (mem : '\n' ∈ lexeme) : form = .blank ∨ form = .string := by
  have noDigit : ¬IsDigit '\n' := by unfold IsDigit; decide
  have noLetter : ¬IsLetter '\n' := by unfold IsLetter; decide
  cases isLexeme with
  | blank => exact .inl rfl
  | string => exact .inr rfl
  | comment inLine =>
    simp [inLine] at mem
  | word starts parts =>
    rcases List.mem_cons.mp mem with rfl | mem
    · exact absurd starts noLetter
    · exact absurd (parts _ mem) (not_or.mpr ⟨noLetter, noDigit⟩)
  | integer _ digits => exact absurd (digits _ mem) noDigit
  | decimal _ digits _ digits' =>
    rcases List.mem_append.mp mem with mem | mem
    · exact absurd (digits _ mem) noDigit
    · rcases List.mem_cons.mp mem with point | mem
      · cases point
      · exact absurd (digits' _ mem) noDigit
  | character _ inLine =>
    simp [Ne.symm inLine] at mem
  | symbol listed =>
    have inLine : ∀ entry ∈ symbolSpellings, '\n' ∉ entry.1 := by decide
    exact absurd mem (inLine _ listed)

/-- A lexeme that ends behind a line break after some text starts inside that text, unless the text
is blank or is a string without an end. -/
theorem IsLexeme.prefix_of_append_line {form : PieceForm} {lexeme second : List Char}
    (isLexeme : IsLexeme form lexeme) (starts : lexeme <+: text ++ '\n' :: second)
    (visible : ¬∀ c ∈ text, isBlank c = true) (closed : ∀ body, text = '"' :: body → '"' ∈ body) :
    lexeme <+: text := by
  have line : text ++ ['\n'] <+: text ++ '\n' :: second := ⟨second, by simp⟩
  have beyond : lexeme <+: text ∨ text ++ ['\n'] <+: lexeme := by
    rcases List.prefix_or_prefix_of_prefix starts line with within | beyond
    · rcases List.prefix_concat_iff.mp within with rfl | within
      · exact .inr (List.prefix_refl _)
      · exact .inl within
    · exact .inr beyond
  rcases beyond with within | beyond
  · exact within
  · have newline : '\n' ∈ lexeme := beyond.subset (by simp)
    rcases isLexeme.form_of_newline newline with rfl | rfl
    · cases isLexeme with
      | blank _ blanks =>
        refine absurd (fun c mem => ?_) visible
        exact isBlank_iff.mpr (blanks c (beyond.subset (by simp [mem])))
    · cases isLexeme with
      | @string body unquoted =>
        -- the text starts with the opening quotation mark and stops before the closing one
        have before : text ++ ['\n'] <+: '"' :: body := by
          rw [← List.cons_append] at beyond
          rcases List.prefix_concat_iff.mp beyond with whole | before
          · have final := congrArg List.getLast? whole
            rw [List.getLast?_concat, List.getLast?_concat] at final
            cases final
          · exact before
        obtain ⟨more, shape⟩ := before
        cases text with
        | nil => exact absurd (List.forall_mem_nil _) visible
        | cons c text =>
          obtain ⟨rfl, inside⟩ := List.cons.inj shape
          have quoted := closed text rfl
          exact absurd (by simp [← inside, quoted]) unquoted

/-- A quotation mark takes the whole of a text in which there is no other one. -/
theorem munch_open (unquoted : '"' ∉ text) :
    Munch ('"' :: text) ⟨.unterminated, '"' :: text⟩ [] := by
  have body : ∀ c ∈ text, (c != '"') = true := by
    intro c mem
    rw [bne_iff_ne]
    rintro rfl
    exact unquoted mem
  have whole : Piece.first '"' text = (⟨.unterminated, '"' :: text⟩, []) := by
    have isString : Piece.first '"' text = Piece.string text := rfl
    rw [isString, Piece.string, List.takeWhile_eq_self_iff.mpr body,
      List.dropWhile_eq_nil_iff.mpr body]
  have munch := munch_first '"' text
  rwa [whole] at munch

/-- The same piece is cut off a text when a line break and more text follow it. -/
theorem Munch.append_line (munch : Munch text piece rest) (ends : piece.form ≠ .unterminated)
    (visible : ¬∀ c ∈ text, isBlank c = true) (second : List Char) :
    Munch (text ++ '\n' :: second) piece (rest ++ '\n' :: second) := by
  have closed : ∀ body, text = '"' :: body → '"' ∈ body := by
    rintro body rfl
    by_contra unquoted
    obtain ⟨rfl, -⟩ := munch.unique (munch_open unquoted)
    exact ends rfl
  have within {form : PieceForm} {lexeme : List Char} (isLexeme : IsLexeme form lexeme)
      (starts : lexeme <+: text ++ '\n' :: second) : lexeme <+: text :=
    isLexeme.prefix_of_append_line starts visible closed
  cases munch with
  | lexeme longest whole =>
    have starts := longest.starts.trans (List.prefix_append text ('\n' :: second))
    refine .lexeme ⟨longest.isLexeme, starts, fun isLexeme before => ?_⟩ ?_
    · exact longest.longest isLexeme (within isLexeme before)
    · rw [whole, List.append_assoc]
  | unterminated => exact absurd rfl ends
  | stray absent noQuote =>
    exact .stray (fun isLexeme before => absent isLexeme (within isLexeme before)) noQuote

/-- What is cut off a text and what is left of it are the text. -/
theorem Munch.text_append (munch : Munch text piece rest) : piece.text ++ rest = text := by
  cases munch with
  | lexeme _ whole => exact whole.symm
  | unterminated => exact List.append_nil _
  | stray => rfl

/-- Blanks make no token, and with a line break after them they are still blanks. -/
theorem tokensOfPieces_blanks_line (munched : Munched text found)
    (blanks : ∀ c ∈ text, isBlank c = true) (position : Position) (second : List Char) :
    tokensOfPieces position found = [.endAt (position.after text)] ∧
      tokensOfPieces position (pieces (text ++ '\n' :: second)) =
        tokensOfPieces (position.after (text ++ ['\n'])) (pieces second) := by
  have withBreak : ∀ c ∈ text ++ ['\n'], isBlank c = true :=
    List.forall_mem_append.mpr ⟨blanks, by simp [isBlank]⟩
  have before := tokensOfPieces_blanks blanks position []
  have after := tokensOfPieces_blanks withBreak position second
  rw [List.append_nil, ← munched_iff.mp munched, pieces, tokensOfPieces] at before
  rw [List.append_assoc, List.singleton_append] at after
  exact ⟨before, after⟩

/-- Two texts with a line break between them have the tokens of the first one, and after them those
of the second one, if no string is open at the break. -/
theorem tokensOfPieces_append_line (munched : Munched text found)
    (ends : ∀ piece ∈ found, piece.form ≠ .unterminated) (position : Position)
    (second : List Char) :
    ∃ tokens, tokensOfPieces position found = tokens ++ [.endAt (position.after text)] ∧
      tokensOfPieces position (pieces (text ++ '\n' :: second)) =
        tokens ++ tokensOfPieces (position.after (text ++ ['\n'])) (pieces second) := by
  induction munched generalizing position with
  | nil => exact ⟨[], tokensOfPieces_blanks_line .nil nofun position second⟩
  | @cons text piece rest found first others ih =>
    by_cases blanks : ∀ c ∈ text, isBlank c = true
    · exact ⟨[], tokensOfPieces_blanks_line (.cons first others) blanks position second⟩
    · rw [List.forall_mem_cons] at ends
      obtain ⟨tokens, shape, whole⟩ := ih ends.2 (position.after piece.text)
      have cut : pieces (text ++ '\n' :: second) = piece :: pieces (rest ++ '\n' :: second) :=
        (munched_iff.mp (.cons (first.append_line ends.1 blanks second) (munched_iff.mpr rfl))).symm
      rw [← Position.after_append, first.text_append] at shape
      rw [← Position.after_append, ← List.append_assoc, first.text_append] at whole
      rw [cut, tokensOfPieces, tokensOfPieces, shape, whole]
      cases piece.token? position with
      | none => exact ⟨tokens, rfl, rfl⟩
      | some token => exact ⟨token :: tokens, rfl, rfl⟩

/-- A piece that makes a token makes it among the tokens of the text. -/
theorem exists_mem_tokensOfPieces (position : Position) (mem : piece ∈ found) :
    ∃ place, ∀ token, piece.token? place = some token → token ∈ tokensOfPieces position found := by
  induction found generalizing position with
  | nil => cases mem
  | cons other found ih =>
    rw [tokensOfPieces]
    rcases List.mem_cons.mp mem with rfl | mem
    · refine ⟨position, fun token makes => ?_⟩
      rw [makes]
      exact List.mem_cons_self
    · obtain ⟨place, later⟩ := ih (position.after other.text) mem
      refine ⟨place, fun token makes => ?_⟩
      cases other.token? position with
      | none => exact later token makes
      | some first => exact List.mem_cons_of_mem first (later token makes)

/-- A string without an end takes all that is left, from its quotation mark on. -/
theorem Munch.of_unterminated (munch : Munch text piece rest)
    (isOpen : piece.form = .unterminated) :
    piece.text.head? = some '"' ∧ rest = [] := by
  cases munch with
  | lexeme longest =>
    have isLexeme := longest.isLexeme
    simp only at isOpen
    rw [isOpen] at isLexeme
    cases isLexeme
  | unterminated => exact ⟨rfl, rfl⟩
  | stray => cases isOpen

theorem Munched.head?_unterminated (munched : Munched text found) (mem : piece ∈ found)
    (isOpen : piece.form = .unterminated) : piece.text.head? = some '"' := by
  induction munched with
  | nil => cases mem
  | cons first _ ih =>
    rcases List.mem_cons.mp mem with rfl | mem
    · exact (first.of_unterminated isOpen).1
    · exact ih mem

/-- Lexing is compositional at line breaks. If no string is left open in a text, then with a line
break and any other text after it the tokens are those of the text, up to its end, and then those of
the other text, in the same columns, further down by the rows of the first text. Rows are counted as
in `Position`, without a bound. -/
theorem tokenize_append_line {first : String}
    (ends : ∀ token ∈ tokenize first,
      token.kind = .illegal → token.text.toList.head? ≠ some '"') (second : String) :
    ∃ tokens last, tokenize first = tokens ++ [.endAt last] ∧
      tokenize (first ++ "\n" ++ second) =
        tokens ++ (tokenize second).map (Token.lower (1 + first.toList.count '\n')) := by
  have munched : Munched first.toList (pieces first.toList) := munched_iff.mpr rfl
  have closed : ∀ piece ∈ pieces first.toList, piece.form ≠ .unterminated := by
    intro piece mem isOpen
    obtain ⟨place, made⟩ := exists_mem_tokensOfPieces .start mem
    have illegal : piece.token? place = some ⟨.illegal, .ofList piece.text, place⟩ := by
      simp only [Piece.token?, isOpen]
    apply ends _ (made _ illegal) rfl
    rw [String.toList_ofList]
    exact munched.head?_unterminated mem isOpen
  obtain ⟨tokens, alone, whole⟩ :=
    tokensOfPieces_append_line munched closed .start second.toList
  have below : Position.start.after (first.toList ++ ['\n']) =
      Position.start.lower (1 + first.toList.count '\n') := by
    rw [Position.after_append, Position.after_cons, Position.after_nil, Position.step, if_pos rfl,
      Position.row_after, Nat.add_assoc, Nat.add_comm _ 1]
    rfl
  have shape : (first ++ "\n" ++ second).toList = first.toList ++ '\n' :: second.toList := by simp
  refine ⟨tokens, _, alone, ?_⟩
  rw [tokenize, shape, whole, below, tokensOfPieces_lower, tokenize]

/-- A line feed between two single quotation marks is no character literal, also after a comment
with a mark in it, a string over two lines and a point behind a number. -/
theorem tokenize_append_line_between_marks :
    let first := "// \"\n\"a\nb\" 7.'"
    let second := "'5"
    (∀ token ∈ tokenize first,
        token.kind = .illegal → token.text.toList.head? ≠ some '"') ∧
      ∃ tokens last, tokenize first = tokens ++ [.endAt last] ∧
        tokenize (first ++ "\n" ++ second) =
          tokens ++ (tokenize second).map (Token.lower 3) := by
  intro first second
  have ends : ∀ token ∈ tokenize first,
      token.kind = .illegal → token.text.toList.head? ≠ some '"' := by
    decide +kernel
  have rows : 1 + first.toList.count '\n' = 3 := by decide +kernel
  exact ⟨ends, rows ▸ tokenize_append_line ends second⟩

end BraceLang
