import BraceLang.CommandLine.Answer
import BraceLang.Proofs.DiagnosticLayout
import BraceLang.Proofs.QuotedText

/-!
The listing of tokens. A token is listed by its row, its column and its kind, none of which has the
character that ends it, and by its text in quoted form, if the kind leaves the text open. So tokens
are listed alike exactly when they agree in what their listing is for (`Token.listing_eq_iff`). All
characters of a listing stand for themselves, so no text in it breaks the line, and a list of tokens
has as many lines as tokens (`CommandLine.splitOn_tokenLines`).
-/
namespace BraceLang

/-- The characters that end a line by one convention or another: the line feed, the vertical tab,
the form feed, the carriage return, the next line and the separators of lines and paragraphs. -/
def lineBreaks : List Char :=
  ['\n', '\x0b', '\x0c', '\r', '\x85', '\u2028', '\u2029']

/-- Line breaks are among the characters that do not stand for themselves in quoted text. -/
theorem isPrintable_of_mem_lineBreaks : ∀ c ∈ lineBreaks, Text.isPrintable c = false := by
  have each : lineBreaks.all (fun c => !Text.isPrintable c) = true := by decide +kernel
  intro c mem
  simpa using List.all_eq_true.mp each c mem

/-- Two texts are told apart by what stands before the first mark and by what stands after it. -/
theorem append_cons_inj {mark : Char} {before before' after after' : List Char}
    (first : mark ∉ before) (first' : mark ∉ before')
    (same : before ++ mark :: after = before' ++ mark :: after') :
    before = before' ∧ after = after' := by
  have widths := congrArg (List.idxOf? mark) same
  rw [idxOf?_append_cons after first, idxOf?_append_cons after' first'] at widths
  obtain ⟨rfl, tails⟩ := List.append_inj same (Option.some.inj widths)
  exact ⟨rfl, (List.cons.inj tails).2⟩

/-- Numbers of the same digits are equal. -/
theorem toDigits_inj {first second : Nat} (same : Nat.toDigits 10 first = Nat.toDigits 10 second) :
    first = second := by
  have values := congrArg (Nat.ofDigitChars 10 · 0) same
  simpa only [Nat.ofDigitChars_ten_toDigits] using values

/-- Names of kinds are words of characters that stand for themselves. -/
theorem TokenKind.isPrintable_name (kind : TokenKind) :
    ∀ c ∈ kind.name.toList, c ≠ ' ' ∧ Text.isPrintable c = true := by
  have each : kind.name.toList.all (fun c => c != ' ' && Text.isPrintable c) = true := by
    cases kind <;> decide
  intro c mem
  simpa using List.all_eq_true.mp each c mem

theorem TokenKind.blank_notMem_name (kind : TokenKind) : ' ' ∉ kind.name.toList :=
  fun mem => (kind.isPrintable_name ' ' mem).1 rfl

theorem TokenKind.carriesText_iff (kind : TokenKind) :
    kind.carriesText = true ↔ kind ∈
      [identifier, intLiteral, floatLiteral, stringLiteral, charLiteral, illegal] := by
  cases kind <;> decide

namespace Token

/-- What follows the kind in the listing of a token, with a blank after it: the quoted text of a
token whose kind leaves the text open. -/
def shownText (token : Token) : List Char :=
  if token.kind.carriesText then Text.quote '"' token.text.toList ++ [' '] else []

/-- With a blank after it, a listing is a row, a column and a kind, each up to a character that it
does not have itself, and the text. -/
theorem toList_listing (token : Token) :
    token.listing.toList ++ [' '] =
      Nat.toDigits 10 token.position.row ++ ':' :: (Nat.toDigits 10 token.position.col ++
        ' ' :: (token.kind.name.toList ++ ' ' :: token.shownText)) := by
  unfold listing shownText
  cases token.kind.carriesText with
  | true => simp [Text.quoteString]
  | false => simp

theorem text_eq_of_shownText_eq {first second : Token} (kinds : first.kind = second.kind)
    (carries : first.kind.carriesText = true) (same : first.shownText = second.shownText) :
    first.text = second.text := by
  rw [shownText, if_pos carries, shownText, if_pos (kinds ▸ carries)] at same
  exact String.toList_inj.mp (Text.quote_append_inj (.inl rfl) same).1

/-- Tokens are listed alike exactly when they stand at one place, are of one kind and, if the kind
leaves the text open, have one text. -/
theorem listing_eq_iff (first second : Token) :
    first.listing = second.listing ↔ first.position = second.position ∧
      first.kind = second.kind ∧ (first.kind.carriesText = true → first.text = second.text) := by
  constructor
  · intro same
    have shown := congrArg (fun listing : String => listing.toList ++ [' ']) same
    simp only [toList_listing] at shown
    obtain ⟨rows, shown⟩ :=
      append_cons_inj (notMem_toDigits rfl _) (notMem_toDigits rfl _) shown
    obtain ⟨cols, shown⟩ :=
      append_cons_inj (notMem_toDigits rfl _) (notMem_toDigits rfl _) shown
    obtain ⟨names, texts⟩ := append_cons_inj first.kind.blank_notMem_name
      second.kind.blank_notMem_name shown
    have kinds : first.kind = second.kind := TokenKind.name_injective (String.toList_inj.mp names)
    have places : first.position = second.position := by
      rw [Position.mk.injEq]
      exact ⟨toDigits_inj rows, toDigits_inj cols⟩
    exact ⟨places, kinds, fun carries => text_eq_of_shownText_eq kinds carries texts⟩
  · rintro ⟨places, kinds, texts⟩
    simp only [listing, places, kinds]
    by_cases carries : second.kind.carriesText = true
    · rw [if_pos carries, if_pos carries, texts (kinds ▸ carries)]
    · rw [if_neg carries, if_neg carries]

/-- All characters of a listing stand for themselves. -/
theorem isPrintable_of_mem_listing (token : Token) :
    ∀ c ∈ token.listing.toList, Text.isPrintable c = true := by
  have digits (number : Nat) : ∀ c ∈ Nat.toDigits 10 number, Text.isPrintable c = true :=
    Text.isPrintable_of_mem_toDigits (by decide) (by decide)
  have name : ∀ c ∈ token.kind.name.toList, Text.isPrintable c = true :=
    fun c mem => (token.kind.isPrintable_name c mem).2
  have text : ∀ c ∈ token.shownText, Text.isPrintable c = true := by
    unfold shownText
    split
    · exact List.forall_mem_append.mpr ⟨Text.isPrintable_of_mem_quote (.inl rfl) _,
        List.forall_mem_singleton.mpr rfl⟩
    · nofun
  have shown : ∀ c ∈ token.listing.toList ++ [' '], Text.isPrintable c = true := by
    simp only [toList_listing, List.forall_mem_append, List.forall_mem_cons]
    exact ⟨digits _, rfl, digits _, rfl, name, rfl, text⟩
  exact (List.forall_mem_append.mp shown).1

/-- No text breaks the line that its token is listed on. -/
theorem notMem_listing_of_mem_lineBreaks (token : Token) :
    ∀ c ∈ lineBreaks, c ∉ token.listing.toList := by
  intro c breaks mem
  have printable := token.isPrintable_of_mem_listing c mem
  rw [isPrintable_of_mem_lineBreaks c breaks] at printable
  cases printable

end Token

namespace CommandLine

/-- The settings call for this source text: the contents of the file that they name, or else what
is read from standard input. -/
inductive Settings.Reads (settings : Settings) (input : String)
    (file : String → Except FileProblem String) : String → Prop where
  | input (unnamed : settings.file = none) : Reads settings input file input
  | file (named : settings.file = some name) (found : file name = .ok source) :
      Reads settings input file source

variable {settings : Settings} {input source : String} {file : String → Except FileProblem String}

theorem answer_of_reads (reads : settings.Reads input file source) :
    ∃ name, answer settings input file = process settings name source := by
  unfold answer
  cases reads with
  | input unnamed =>
    rw [unnamed]
    exact ⟨_, rfl⟩
  | file named found =>
    rw [named]
    simp only [found]
    exact ⟨_, rfl⟩

/-- A run that is asked for tokens lists those of the text that it reads. -/
theorem answer_of_tokens (asked : settings.tokens = true)
    (reads : settings.Reads input file source) :
    answer settings input file = ⟨0, tokenLines source, ""⟩ := by
  obtain ⟨name, answered⟩ := answer_of_reads reads
  rw [answered, process, if_pos asked]

/-- Lines that are each ended by a line feed are found again. -/
theorem splitOn_ended {lines : List (List Char)} (each : ∀ line ∈ lines, '\n' ∉ line) :
    (lines.flatMap (· ++ ['\n'])).splitOn '\n' = lines ++ [[]] := by
  induction lines with
  | nil => rfl
  | cons line lines ih =>
    rw [List.forall_mem_cons] at each
    rw [List.flatMap_cons, List.append_assoc, List.singleton_append,
      List.splitOn_append_cons_self_of_not_mem each.1, ih each.2, List.cons_append]

/-- The lines of a list of tokens are their listings. -/
theorem splitOn_tokenLines (source : String) :
    (tokenLines source).toList.splitOn '\n' =
      (tokenize source).map (·.listing.toList) ++ [[]] := by
  have each : ∀ line ∈ (tokenize source).map (·.listing.toList), '\n' ∉ line := by
    intro line mem
    obtain ⟨token, -, rfl⟩ := List.mem_map.mp mem
    exact token.notMem_listing_of_mem_lineBreaks '\n' (by decide)
  have text : (tokenLines source).toList =
      ((tokenize source).map (·.listing.toList)).flatMap (· ++ ['\n']) := by
    simp [tokenLines, String.toList_join, List.flatMap_map]
  rw [text, splitOn_ended each]

/-- A list of tokens has one line for each token, from which the token can be told. A run that is
asked for the tokens of a source text, whatever else is asked of it, prints the listings of its
tokens in their order, each ended by a line feed, and nothing else; and no listing has a line break
of its own. Tokens are listed alike exactly when they agree in row, column and kind and, for the six
kinds that leave the text open, in their text. -/
theorem tokenLines_faithful :
    (∀ {settings : Settings} {input source : String} {file : String → Except FileProblem String},
      settings.tokens = true → settings.Reads input file source →
      ∃ stdout, answer settings input file = ⟨0, stdout, ""⟩ ∧
        stdout.toList.splitOn '\n' = (tokenize source).map (·.listing.toList) ++ [[]]) ∧
    (∀ token : Token, ∀ c ∈ lineBreaks, c ∉ token.listing.toList) ∧
    ∀ first second : Token, first.listing = second.listing ↔
      first.position.row = second.position.row ∧ first.position.col = second.position.col ∧
      first.kind = second.kind ∧
      (first.kind ∈ [.identifier, .intLiteral, .floatLiteral, .stringLiteral, .charLiteral,
        .illegal] → first.text = second.text) := by
  refine ⟨?_, Token.notMem_listing_of_mem_lineBreaks, fun first second => ?_⟩
  · intro settings input source file asked reads
    exact ⟨tokenLines source, answer_of_tokens asked reads, splitOn_tokenLines source⟩
  · rw [Token.listing_eq_iff, Position.mk.injEq, and_assoc, TokenKind.carriesText_iff]

/-- A string that goes on for two lines and holds a backslash, and an open quotation mark after it,
are listed on one line each, also when nothing but problems is asked for. A line break is not listed
as an escaped one. -/
theorem tokenLines_faithful_long_string :
    let source := "\"a\\n\nb\"'"
    let settings : Settings := ⟨none, true, none, true⟩
    let file : String → Except FileProblem String := fun _ => .error .notFound
    settings.tokens = true ∧ settings.Reads source file source ∧
      (answer settings source file).stdout.toList.splitOn '\n' =
        ["1:1 STR_LITERAL \"a\\\\n\\nb\"", "2:3 ILLEGAL \"'\"", "2:4 END", ""].map
          String.toList ∧
      Token.listing ⟨.illegal, "\n", .start⟩ ≠ Token.listing ⟨.illegal, "\\n", .start⟩ := by
  intro source settings file
  have asked : settings.tokens = true := rfl
  have reads : settings.Reads source file source := .input rfl
  obtain ⟨lists, -, told⟩ := tokenLines_faithful
  obtain ⟨stdout, ran, lines⟩ := lists asked reads
  refine ⟨asked, reads, ?_, fun same => ?_⟩
  · have listed : (tokenize source).map (·.listing.toList) ++ [[]] =
        ["1:1 STR_LITERAL \"a\\\\n\\nb\"", "2:3 ILLEGAL \"'\"", "2:4 END", ""].map
          String.toList := by decide +kernel
    rw [ran]
    exact lines.trans listed
  · have texts := ((told _ _).mp same).2.2.2 (by decide)
    exact absurd texts (by decide)

end CommandLine

end BraceLang
