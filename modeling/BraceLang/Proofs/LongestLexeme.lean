import BraceLang.Proofs.SourceLexing

/-!
The first piece of a text is its longest lexeme. Lexemes are said here by what they consist of,
without an order in which they are tried: blanks, comments, words, numbers, strings, characters and
symbols. No lexeme that a text starts with is longer than the first piece of the text
(`Piece.coversFirst_of_isLexeme`), and the first piece is a lexeme itself, a string without an end,
or a single character (`Piece.isFirst_first`).
-/
namespace BraceLang

/-- The letters of words: those of the ASCII alphabet, and the low line. -/
def IsLetter (c : Char) : Prop :=
  ('A' ≤ c ∧ c ≤ 'Z') ∨ ('a' ≤ c ∧ c ≤ 'z') ∨ c = '_'

/-- The decimal digits. -/
def IsDigit (c : Char) : Prop :=
  '0' ≤ c ∧ c ≤ '9'

/-- The lexemes of each form. Unterminated strings and stray characters are no lexemes. -/
inductive IsLexeme : PieceForm → List Char → Prop where
  | blank (nonempty : text ≠ []) (blanks : ∀ c ∈ text, c ∈ [' ', '\t', '\r', '\n']) :
      IsLexeme .blank text
  | comment (inLine : '\n' ∉ text) : IsLexeme .comment ('/' :: '/' :: text)
  | word (starts : IsLetter c) (parts : ∀ c ∈ text, IsLetter c ∨ IsDigit c) :
      IsLexeme .word (c :: text)
  | integer (nonempty : whole ≠ []) (digits : ∀ c ∈ whole, IsDigit c) : IsLexeme .integer whole
  | decimal (nonempty : whole ≠ []) (digits : ∀ c ∈ whole, IsDigit c)
      (nonempty' : fraction ≠ []) (digits' : ∀ c ∈ fraction, IsDigit c) :
      IsLexeme .decimal (whole ++ '.' :: fraction)
  | string (unquoted : '"' ∉ body) : IsLexeme .string ('"' :: (body ++ ['"']))
  | character (unquoted : c ≠ '\'') (inLine : c ≠ '\n') : IsLexeme .character ['\'', c, '\'']
  | symbol (listed : (spelling, kind) ∈ symbolSpellings) : IsLexeme (.symbol kind) spelling

theorem isBlank_iff {c : Char} : isBlank c = true ↔ c ∈ [' ', '\t', '\r', '\n'] := by
  simp [isBlank, or_assoc]

theorem isDigit_iff {c : Char} : c.isDigit = true ↔ IsDigit c := by
  simp [Char.isDigit, IsDigit, Char.le_def]

theorem isUpper_iff {c : Char} : c.isUpper = true ↔ 'A' ≤ c ∧ c ≤ 'Z' := by
  change decide (c.val ≥ 'A'.val ∧ c.val ≤ 'Z'.val) = true ↔ _
  simp [Char.le_def]

theorem isLower_iff {c : Char} : c.isLower = true ↔ 'a' ≤ c ∧ c ≤ 'z' := by
  change (decide (c.val ≥ 'a'.val) && decide (c.val ≤ 'z'.val)) = true ↔ _
  simp [Char.le_def]

theorem isWordStart_iff {c : Char} : isWordStart c = true ↔ IsLetter c := by
  change ((c.isUpper || c.isLower) || c == '_') = true ↔ _
  simp only [Bool.or_eq_true, isUpper_iff, isLower_iff, beq_iff_eq, IsLetter, or_assoc]

theorem isWordPart_iff {c : Char} : isWordPart c = true ↔ IsLetter c ∨ IsDigit c := by
  rw [← isWordStart_iff, ← isDigit_iff, isWordStart, isWordPart, Char.isAlphanum]
  simp [or_right_comm]

/-- Holds of the forms of lexemes: of all but unterminated strings and stray characters. -/
def PieceForm.isLexical : PieceForm → Bool
  | .unterminated | .stray => false
  | _ => true

namespace Piece

variable {c : Char} {text rest : List Char}

/-- The first piece of a text is a lexeme at least as long as a given one. -/
def CoversFirst (lexeme : List Char) (c : Char) (text : List Char) : Prop :=
  (first c text).1.form.isLexical = true ∧ lexeme.length ≤ (first c text).1.text.length

/-- A run of characters that a text starts with is not longer than the longest one there. -/
theorem length_le_takeWhile {p : Char → Bool} {run : List Char} (all : ∀ c ∈ run, p c = true)
    (rest : List Char) : run.length ≤ ((run ++ rest).takeWhile p).length := by
  rw [List.takeWhile_append_of_pos all, List.length_append]
  exact Nat.le_add_right ..

theorem coversFirst_of_run {form : PieceForm} {p : Char → Bool} {lexeme : List Char}
    (isRun : first c text = run form p (c :: text)) (lexical : form.isLexical = true)
    (all : ∀ c ∈ lexeme, p c = true) (shape : lexeme ++ rest = c :: text) :
    CoversFirst lexeme c text := by
  rw [CoversFirst, isRun]
  exact ⟨lexical, shape ▸ length_le_takeWhile all rest⟩

theorem first_of_blank (blank : isBlank c = true) (text : List Char) :
    first c text = run .blank isBlank (c :: text) := by
  rw [first, if_pos blank]

theorem first_of_wordStart (starts : isWordStart c = true) (text : List Char) :
    first c text = run .word isWordPart (c :: text) := by
  obtain ⟨noBlank, noSlash⟩ := Lexeme.isBlank_of_isWordStart starts
  simp [first, noBlank, noSlash, starts]

/-- The digits at the start of a number are all in it. -/
theorem length_le_number (text : List Char) :
    (text.takeWhile Char.isDigit).length ≤ (number text).1.text.length ∧
      (number text).1.form.isLexical = true := by
  unfold number
  split
  · split
    · simp [PieceForm.isLexical]
    · simp [PieceForm.isLexical]
  · simp [PieceForm.isLexical]

/-- A point between digits is in the number, with all digits that follow it. -/
theorem number_decimal {whole : List Char} {digit : Char} {more : List Char}
    (digits : ∀ c ∈ whole, c.isDigit = true) (isDigit : digit.isDigit = true) :
    number (whole ++ '.' :: digit :: more) =
      (⟨.decimal, whole ++ '.' :: digit :: more.takeWhile Char.isDigit⟩,
        more.dropWhile Char.isDigit) := by
  have point : ('.' : Char).isDigit = false := rfl
  unfold number
  rw [List.takeWhile_append_of_pos digits, List.dropWhile_append_of_pos digits]
  simp [point, isDigit]

/-- A string ends at the first quotation mark. -/
theorem string_of_unquoted {body : List Char} (unquoted : '"' ∉ body) (rest : List Char) :
    string (body ++ '"' :: rest) = (⟨.string, '"' :: (body ++ ['"'])⟩, rest) := by
  have inside : ∀ c ∈ body, (c != '"') = true := by
    intro c mem
    rw [bne_iff_ne]
    rintro rfl
    exact unquoted mem
  unfold string
  rw [List.takeWhile_append_of_pos inside, List.dropWhile_append_of_pos inside]
  simp

theorem character_of_unquoted {c : Char} (unquoted : c ≠ '\'') (inLine : c ≠ '\n')
    (rest : List Char) :
    character (c :: '\'' :: rest) = (⟨.character, ['\'', c, '\'']⟩, rest) := by
  simp [character, unquoted, inLine]

/-- A symbol is told from the other forms by its first character, except that a second slash
after a slash starts a comment. -/
theorem first_of_listed {spelling : List Char} {kind : TokenKind}
    (listed : (spelling, kind) ∈ symbolSpellings) (shape : spelling ++ rest = c :: text) :
    first c text = symbol c text ∨
      (spelling = ['/'] ∧ first c text = run .comment (· != '\n') ('/' :: '/' :: text.tail)) := by
  have heads : ∀ entry ∈ symbolSpellings, let c := entry.1.headD ' '
      entry.1 ≠ [] ∧ isBlank c = false ∧ isWordStart c = false ∧ c.isDigit = false ∧ c ≠ '"' ∧
        c ≠ '\'' ∧ (c = '/' → entry.1.tail ∈ [[], ['=']]) := by
    decide
  obtain ⟨nonempty, head⟩ := heads _ listed
  obtain ⟨c', more, rfl⟩ := List.exists_cons_of_ne_nil nonempty
  obtain ⟨rfl, rfl⟩ := List.cons.inj shape
  obtain ⟨noBlank, noWord, noDigit, noQuote, noMark, slash⟩ := head
  rw [List.headD_cons] at noBlank noWord noDigit noQuote noMark slash
  by_cases comment : c' = '/' ∧ (more ++ rest).head? = some '/'
  · obtain ⟨rfl, second⟩ := comment
    right
    have isTail : more = [] ∨ more = ['='] := by simpa using slash rfl
    rcases isTail with rfl | rfl
    · obtain ⟨tail, rfl⟩ : ∃ tail, rest = '/' :: tail := List.head?_eq_some_iff.mp second
      exact ⟨rfl, rfl⟩
    · cases second
  · left
    have noComment : ¬(c' == '/' && (more ++ rest).head? == some '/') = true := by
      simpa only [Bool.and_eq_true, beq_iff_eq] using comment
    change first c' (more ++ rest) = symbol c' (more ++ rest)
    rw [first, if_neg (by simp [noBlank]), if_neg noComment, if_neg (by simp [noWord]),
      if_neg (by simp [noDigit]), if_neg (by simpa using noQuote), if_neg (by simpa using noMark)]

/-- The symbol that is found in the table is the longest one that fits, since no spelling comes
after a shorter one. -/
theorem length_le_symbol {spelling : List Char} {kind : TokenKind}
    (listed : (spelling, kind) ∈ symbolSpellings) (shape : spelling ++ rest = c :: text) :
    (symbol c text).1.form.isLexical = true ∧
      spelling.length ≤ (symbol c text).1.text.length := by
  have ordered : symbolSpellings.Pairwise fun entry later => later.1.length ≤ entry.1.length := by
    decide
  have fits : spelling.isPrefixOf (c :: text) = true :=
    List.isPrefixOf_iff_prefix.mpr ⟨rest, shape⟩
  unfold symbol
  split
  · rename_i found foundKind isFound
    refine ⟨rfl, ?_⟩
    obtain ⟨-, earlier, later, whole, unfit⟩ := List.find?_eq_some_iff_append.mp isFound
    rw [whole] at listed ordered
    obtain ⟨-, ordered, -⟩ := List.pairwise_append.mp ordered
    rcases List.mem_append.mp listed with mem | mem
    · have noFit := unfit _ mem
      simp [fits] at noFit
    · rcases List.mem_cons.mp mem with same | mem
      · exact Nat.le_of_eq (congrArg (List.length ∘ Prod.fst) same)
      · exact (List.pairwise_cons.mp ordered).1 _ mem
  · rename_i noneFound
    exact absurd fits (List.find?_eq_none.mp noneFound _ listed)

/-- No lexeme that a text starts with is longer than the first piece of the text. -/
theorem coversFirst_of_isLexeme {form : PieceForm} {lexeme : List Char}
    (isLexeme : IsLexeme form lexeme) (shape : lexeme ++ rest = c :: text) :
    CoversFirst lexeme c text := by
  cases isLexeme with
  | blank nonempty blanks =>
    have all : ∀ c ∈ lexeme, isBlank c = true := fun c mem => isBlank_iff.mpr (blanks c mem)
    obtain ⟨c', more, rfl⟩ := List.exists_cons_of_ne_nil nonempty
    obtain ⟨rfl, -⟩ := List.cons.inj shape
    exact coversFirst_of_run (first_of_blank (all _ List.mem_cons_self) text) rfl all shape
  | @comment inside inLine =>
    have all : ∀ c ∈ '/' :: '/' :: inside, (c != '\n') = true := by
      intro c mem
      rw [bne_iff_ne]
      rintro rfl
      simp [inLine] at mem
    cases shape
    have isRun : first '/' ('/' :: (inside ++ rest)) =
        run .comment (· != '\n') ('/' :: '/' :: (inside ++ rest)) := rfl
    exact coversFirst_of_run isRun rfl all rfl
  | @word c' parts' starts parts =>
    have start := isWordStart_iff.mpr starts
    have all : ∀ c ∈ c' :: parts', isWordPart c = true := by
      rw [List.forall_mem_cons]
      exact ⟨isWordPart_iff.mpr (.inl starts), fun c mem => isWordPart_iff.mpr (parts c mem)⟩
    obtain ⟨rfl, -⟩ := List.cons.inj shape
    exact coversFirst_of_run (first_of_wordStart start text) rfl all shape
  | integer nonempty digits =>
    have all : ∀ c ∈ lexeme, c.isDigit = true := fun c mem => isDigit_iff.mpr (digits c mem)
    obtain ⟨c', more, rfl⟩ := List.exists_cons_of_ne_nil nonempty
    obtain ⟨rfl, -⟩ := List.cons.inj shape
    obtain ⟨bound, lexical⟩ := length_le_number (c' :: text)
    rw [CoversFirst, Lexeme.first_digit (all _ List.mem_cons_self)]
    have digits := length_le_takeWhile all rest
    rw [shape] at digits
    exact ⟨lexical, Nat.le_trans digits bound⟩
  | @decimal whole fraction nonempty digits nonempty' digits' =>
    have all : ∀ c ∈ whole, c.isDigit = true := fun c mem => isDigit_iff.mpr (digits c mem)
    obtain ⟨digit, more, rfl⟩ := List.exists_cons_of_ne_nil nonempty'
    rw [List.forall_mem_cons] at digits'
    have all' : ∀ c ∈ more, c.isDigit = true := fun c mem => isDigit_iff.mpr (digits'.2 c mem)
    have start : c.isDigit = true := by
      obtain ⟨c', others, rfl⟩ := List.exists_cons_of_ne_nil nonempty
      obtain ⟨rfl, -⟩ := List.cons.inj shape
      exact all _ List.mem_cons_self
    have number : number (whole ++ '.' :: digit :: (more ++ rest)) = _ :=
      number_decimal all (isDigit_iff.mpr digits'.1)
    rw [CoversFirst, Lexeme.first_digit start, ← shape, List.append_assoc, List.cons_append,
      List.cons_append, number]
    have bound := length_le_takeWhile all' rest
    simp only [List.length_append, List.length_cons]
    exact ⟨rfl, by omega⟩
  | @string body unquoted =>
    obtain ⟨rfl, rfl⟩ : '"' = c ∧ body ++ '"' :: rest = text := by simpa using shape
    have isFirst : first '"' (body ++ '"' :: rest) = string (body ++ '"' :: rest) := rfl
    rw [CoversFirst, isFirst, string_of_unquoted unquoted]
    exact ⟨rfl, Nat.le_refl _⟩
  | @character c' unquoted inLine =>
    obtain ⟨rfl, rfl⟩ : '\'' = c ∧ c' :: '\'' :: rest = text := by simpa using shape
    have isFirst : first '\'' (c' :: '\'' :: rest) = character (c' :: '\'' :: rest) := rfl
    rw [CoversFirst, isFirst, character_of_unquoted unquoted inLine]
    exact ⟨rfl, Nat.le_refl _⟩
  | symbol listed =>
    rcases first_of_listed listed shape with isSymbol | ⟨rfl, isComment⟩
    · rw [CoversFirst, isSymbol]
      exact length_le_symbol listed shape
    · rw [CoversFirst, isComment]
      exact ⟨rfl, by simp [run]⟩

/-- What the first piece of a text is, if it is a lexeme, and what it covers, if it is not. -/
def IsFirst (c : Char) (text : List Char) (result : Piece × List Char) : Prop :=
  IsLexeme result.1.form result.1.text ∨
    (c = '"' ∧ result = (⟨.unterminated, '"' :: text⟩, [])) ∨
    (c ≠ '"' ∧ result = (⟨.stray, [c]⟩, text))

theorem isLexeme_number {text : List Char} (digit : c.isDigit = true) :
    IsLexeme (number (c :: text)).1.form (number (c :: text)).1.text := by
  have nonempty : (c :: text).takeWhile Char.isDigit ≠ [] := by simp [digit]
  have digits {text : List Char} : ∀ c ∈ text.takeWhile Char.isDigit, IsDigit c :=
    fun c mem => isDigit_iff.mp (List.all_eq_true.mp List.all_takeWhile c mem)
  unfold number
  split
  · split
    · rename_i first rest shape isDigit
      refine .decimal nonempty digits (List.cons_ne_nil _ _) ?_
      exact List.forall_mem_cons.mpr ⟨isDigit_iff.mp isDigit, digits⟩
    · exact .integer nonempty digits
  · exact .integer nonempty digits

theorem isFirst_string (text : List Char) : IsFirst '"' text (string text) := by
  have whole := List.takeWhile_append_dropWhile (p := (· != '"')) (l := text)
  have unquoted : '"' ∉ text.takeWhile (· != '"') := by
    intro mem
    simpa using List.all_eq_true.mp List.all_takeWhile _ mem
  unfold string
  split
  · rename_i shape
    rw [shape, List.append_nil] at whole
    rw [whole]
    exact .inr (.inl ⟨rfl, rfl⟩)
  · rename_i closing rest shape
    obtain rfl : closing = '"' := by
      have stops := List.head?_dropWhile_not (· != '"') text
      rw [shape] at stops
      simpa using stops
    exact .inl (.string unquoted)

theorem isFirst_character (text : List Char) : IsFirst '\'' text (character text) := by
  have stray : IsFirst '\'' text (⟨.stray, ['\'']⟩, text) := .inr (.inr ⟨by decide, rfl⟩)
  unfold character
  split
  · split
    · rename_i c rest fits
      simp only [Bool.and_eq_true, bne_iff_ne] at fits
      exact .inl (.character fits.1 fits.2)
    · exact stray
  · exact stray

theorem isFirst_symbol (noQuote : c ≠ '"') (text : List Char) :
    IsFirst c text (symbol c text) := by
  unfold symbol
  split
  · rename_i spelling kind found
    exact .inl (.symbol (List.mem_of_find?_eq_some found))
  · exact .inr (.inr ⟨noQuote, rfl⟩)

theorem isFirst_first (c : Char) (text : List Char) : IsFirst c text (first c text) := by
  unfold first
  split
  · rename_i blank
    refine .inl (.blank (by simp [run, blank]) fun c mem => ?_)
    exact isBlank_iff.mp (List.all_eq_true.mp List.all_takeWhile c mem)
  split
  · rename_i slashes
    simp only [Bool.and_eq_true, beq_iff_eq] at slashes
    obtain ⟨rfl, second⟩ := slashes
    obtain ⟨tail, rfl⟩ := List.head?_eq_some_iff.mp second
    have inLine : '\n' ∉ tail.takeWhile (· != '\n') := by
      intro mem
      simpa using List.all_eq_true.mp List.all_takeWhile _ mem
    exact .inl (.comment inLine)
  split
  · rename_i letter
    have starts := isWordStart_iff.mp letter
    have start : isWordPart c = true := isWordPart_iff.mpr (.inl starts)
    have shape : (c :: text).takeWhile isWordPart = c :: text.takeWhile isWordPart := by
      simp [start]
    left
    rw [run, shape]
    refine .word starts fun c mem => ?_
    exact isWordPart_iff.mp (List.all_eq_true.mp List.all_takeWhile c mem)
  split
  · rename_i digit
    exact .inl (isLexeme_number digit)
  split
  · rename_i quote
    obtain rfl := eq_of_beq quote
    exact isFirst_string text
  split
  · rename_i mark
    obtain rfl := eq_of_beq mark
    exact isFirst_character text
  · rename_i noQuote _
    exact isFirst_symbol (by simpa using noQuote) text

/-- The form of a lexeme is determined by the lexeme, since the first piece of a text that is no
longer than the lexeme has this form. -/
theorem form_first_of_isLexeme {form : PieceForm} (isLexeme : IsLexeme form (c :: text)) :
    (first c text).1.form = form := by
  generalize whole : c :: text = lexeme at isLexeme
  cases isLexeme with
  | blank nonempty blanks =>
    subst whole
    rw [first_of_blank (isBlank_iff.mpr (blanks c List.mem_cons_self))]
    rfl
  | comment inLine =>
    cases whole
    rfl
  | word starts parts =>
    obtain ⟨rfl, rfl⟩ := List.cons.inj whole
    rw [first_of_wordStart (isWordStart_iff.mpr starts)]
    rfl
  | integer nonempty digits =>
    subst whole
    have all : ∀ digit ∈ c :: text, digit.isDigit = true :=
      fun digit mem => isDigit_iff.mpr (digits digit mem)
    have number := Lexeme.number_digits all (.inl rfl)
    rw [List.append_nil] at number
    rw [Lexeme.first_digit (all c List.mem_cons_self), number]
  | @decimal digits fraction nonempty all nonempty' all' =>
    obtain ⟨digit, more, rfl⟩ := List.exists_cons_of_ne_nil nonempty'
    have all := fun c mem => isDigit_iff.mpr (all c mem)
    have start : c.isDigit = true := by
      obtain ⟨c', others, rfl⟩ := List.exists_cons_of_ne_nil nonempty
      obtain ⟨rfl, -⟩ := List.cons.inj whole
      exact all _ List.mem_cons_self
    rw [Lexeme.first_digit start, whole,
      number_decimal all (isDigit_iff.mpr (all' digit List.mem_cons_self))]
  | @string body unquoted =>
    obtain ⟨rfl, rfl⟩ := List.cons.inj whole
    have isFirst : first '"' (body ++ ['"']) = string (body ++ ['"']) := rfl
    rw [isFirst, string_of_unquoted unquoted]
  | @character c' unquoted inLine =>
    obtain ⟨rfl, rfl⟩ := List.cons.inj whole
    have isFirst : first '\'' [c', '\''] = character [c', '\''] := rfl
    rw [isFirst, character_of_unquoted unquoted inLine]
  | symbol listed =>
    have forms : ∀ entry ∈ symbolSpellings,
        (first (entry.1.headD ' ') entry.1.tail).1.form = .symbol entry.2 := by
      decide
    subst whole
    exact forms _ listed

end Piece

/-- A lexeme has at least one character. -/
theorem IsLexeme.ne_nil {form : PieceForm} {lexeme : List Char} (isLexeme : IsLexeme form lexeme) :
    lexeme ≠ [] := by
  cases isLexeme with
  | blank nonempty | integer nonempty => exact nonempty
  | comment | word | string | character => exact List.cons_ne_nil _ _
  | decimal => simp
  | symbol listed =>
    have nonempty : ∀ entry ∈ symbolSpellings, entry.1 ≠ [] := by decide
    exact nonempty _ listed

/-- A lexeme has one form only. -/
theorem IsLexeme.form_unique {form other : PieceForm} {lexeme : List Char}
    (isLexeme : IsLexeme form lexeme) (isLexeme' : IsLexeme other lexeme) : form = other := by
  obtain ⟨c, text, rfl⟩ := List.exists_cons_of_ne_nil isLexeme.ne_nil
  exact (Piece.form_first_of_isLexeme isLexeme).symm.trans
    (Piece.form_first_of_isLexeme isLexeme')

end BraceLang
