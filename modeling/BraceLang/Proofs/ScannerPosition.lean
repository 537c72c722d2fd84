import BraceLang.Proofs.ReportOrder
import BraceLang.Proofs.SourceLine

/-!
Places of tokens and lines of the source text. However a scanner has been moved, by asking it for
tokens and by skipping bytes, it stands between two characters of its source text, at the place of
what it has not read (`Scanner.Reached.past`). So the line of a token's row shows, at the token's
column, what the token was cut from, and every diagnostic is about a line that exists
(`positions_agree_with_lines`).
-/
namespace BraceLang

/-- The number of bytes of a text. -/
def byteSize (text : List Char) : Nat :=
  (String.ofList text).utf8ByteSize

theorem byteSize_toList (text : String) : byteSize text.toList = text.utf8ByteSize := by
  rw [byteSize, String.ofList_toList]

@[simp] theorem byteSize_nil : byteSize [] = 0 := rfl

@[simp] theorem byteSize_cons (c : Char) (text : List Char) :
    byteSize (c :: text) = c.utf8Size + byteSize text := by
  simp [byteSize, String.ofList_cons]

theorem byteSize_append (first second : List Char) :
    byteSize (first ++ second) = byteSize first + byteSize second := by
  simp [byteSize, String.ofList_append]

theorem eq_nil_of_byteSize_eq_zero {text : List Char} (none : byteSize text = 0) : text = [] := by
  cases text with
  | nil => rfl
  | cons c text =>
    have positive := c.utf8Size_pos
    rw [byteSize_cons] at none
    omega

/-- Of two starts of the same text, the one that has no more bytes is a start of the other. -/
theorem prefix_of_byteSize_le {first second rest rest' : List Char}
    (same : first ++ rest = second ++ rest') (fewer : byteSize first ≤ byteSize second) :
    first <+: second := by
  rcases List.prefix_or_prefix_of_prefix (List.prefix_append first rest) ⟨rest', same.symm⟩ with
    shorter | ⟨more, rfl⟩
  · exact shorter
  · rw [byteSize_append] at fewer
    simp [eq_nil_of_byteSize_eq_zero (show byteSize more = 0 by omega)]

/-- The first piece of a text that makes a token does not start with a blank. -/
theorem Piece.first_visible {c : Char} {text : List Char} {position : Position} {token : Token}
    (covers : (first c text).1.token? position = some token) :
    c ≠ '\n' ∧ c ≠ '\r' ∧ (first c text).1.text.head? = some c := by
  have noBlank : isBlank c = false := by
    cases blank : isBlank c with
    | false => rfl
    | true =>
      rw [first, if_pos blank] at covers
      cases covers
  have head := congrArg List.head? (first_append c text)
  rw [List.head?_append_of_ne_nil _ (List.length_pos_iff.mp (first_text_length_pos c text)),
    List.head?_cons] at head
  refine ⟨?_, ?_, head⟩ <;> rintro rfl <;> cases noBlank

namespace Scanner

/-- The scanners that calls on a new one lead to, in any order: the next token is asked for, or
some bytes are skipped, which must be there and end between two characters. -/
inductive Reached (source : String) : Scanner → Prop where
  | new : Reached source (.ofSource source)
  | next (earlier : Reached source scanner) : Reached source scanner.next.2
  | skip (earlier : Reached source scanner) (moved : scanner.skipBytes? size = some after) :
      Reached source after

/-- A scanner is past the text `taken` of its source, at the place after this text. The end of the
source has been handed out only if nothing is left. -/
structure Past (source : String) (taken : List Char) (scanner : Scanner) : Prop where
  whole : source.toList = taken ++ scanner.rest
  position : scanner.position = Position.start.after taken
  finished : scanner.finished = true → scanner.rest = []

/-- What a scan from a place of a text comes to, after pieces that make no token: the end of the
text, or the token of the next piece. -/
inductive Finds (position : Position) (text : List Char) : Token → Scanner → Prop where
  | ending (unsaid : ∀ piece ∈ pieces text, piece.isSaid = false) :
      Finds position text (.endAt (position.after text)) ⟨[], position.after text, true⟩
  | token {silent : List Piece} {c : Char} {more : List Char}
      (whole : text = silent.flatMap Piece.text ++ c :: more)
      (cut : pieces text = silent ++ (Piece.first c more).1 :: pieces (Piece.first c more).2)
      (unsaid : ∀ piece ∈ silent, piece.isSaid = false)
      (makes : (Piece.first c more).1.Makes token)
      (made : (Piece.first c more).1.token? (position.after (silent.flatMap Piece.text)) =
        some token) :
      Finds position text token
        ⟨(Piece.first c more).2,
          position.after (silent.flatMap Piece.text ++ (Piece.first c more).1.text), false⟩

variable {source : String} {scanner after : Scanner} {taken : List Char} {token : Token}

/-- Bytes are split off exactly if some characters at the start of a text have so many. -/
theorem splitAtByte?_eq_some_iff {size : Nat} {text rest : List Char} :
    splitAtByte? size text = some (taken, rest) ↔ text = taken ++ rest ∧ byteSize taken = size := by
  fun_induction splitAtByte? size text generalizing taken rest with
  | case1 text =>
    constructor
    · intro split
      cases split
      simp
    · rintro ⟨rfl, none⟩
      simp [eq_nil_of_byteSize_eq_zero none]
  | case2 size =>
    constructor
    · intro split
      cases split
    · rintro ⟨nothing, bytes⟩
      simp [(List.append_eq_nil_iff.mp nothing.symm).1] at bytes
  | case3 size c text fits ih =>
    constructor
    · intro split
      obtain ⟨⟨others, left⟩, inner, same⟩ := Option.map_eq_some_iff.mp split
      cases same
      obtain ⟨rfl, bytes⟩ := ih.mp inner
      refine ⟨rfl, ?_⟩
      rw [byteSize_cons]
      omega
    · rintro ⟨whole, bytes⟩
      cases taken with
      | nil => simp at bytes
      | cons d others =>
        obtain ⟨rfl, shape⟩ := List.cons.inj whole
        rw [byteSize_cons] at bytes
        rw [ih.mpr ⟨shape, by omega⟩]
        rfl
  | case4 size c text tooLong =>
    constructor
    · intro split
      cases split
    · rintro ⟨whole, bytes⟩
      cases taken with
      | nil => simp at bytes
      | cons d others =>
        obtain ⟨rfl, -⟩ := List.cons.inj whole
        rw [byteSize_cons] at bytes
        omega

theorem past_ofSource (source : String) : (ofSource source).Past source [] :=
  ⟨rfl, rfl, nofun⟩

/-- The number of bytes of its source that a scanner is past. -/
def offset (source : String) (scanner : Scanner) : String.Pos.Raw :=
  ⟨source.utf8ByteSize - scanner.remainder.utf8ByteSize⟩

theorem Past.offset_eq (past : scanner.Past source taken) :
    scanner.offset source = ⟨byteSize taken⟩ := by
  have whole : source.utf8ByteSize = byteSize taken + byteSize scanner.rest := by
    rw [← byteSize_append, ← past.whole, byteSize_toList]
  rw [offset, whole, remainder, ← byteSize, Nat.add_sub_cancel]

theorem Past.offset_isValid (past : scanner.Past source taken) :
    (scanner.offset source).IsValid source := by
  rw [past.offset_eq, String.Pos.Raw.isValid_iff_exists_append]
  refine ⟨.ofList taken, .ofList scanner.rest, ?_, rfl⟩
  rw [← String.ofList_append, ← past.whole, String.ofList_toList]

/-- The bytes that may be skipped are those that end between two characters of the source. -/
theorem Past.skipBytes?_isSome_iff (past : scanner.Past source taken) (size : Nat) :
    (scanner.skipBytes? size).isSome ↔
      (⟨(scanner.offset source).byteIdx + size⟩ : String.Pos.Raw).IsValid source := by
  rw [past.offset_eq, String.Pos.Raw.isValid_iff_exists_append, skipBytes?, Option.isSome_map,
    Option.isSome_iff_exists]
  constructor
  · rintro ⟨⟨more, rest⟩, split⟩
    obtain ⟨shape, bytes⟩ := splitAtByte?_eq_some_iff.mp split
    refine ⟨.ofList (taken ++ more), .ofList rest, ?_, ?_⟩
    · rw [← String.ofList_append, List.append_assoc, ← shape, ← past.whole, String.ofList_toList]
    · rw [← bytes, ← byteSize_append]
      rfl
  · rintro ⟨first, second, split, place⟩
    have bytes : byteSize taken + size = byteSize first.toList := by
      rw [byteSize_toList]
      exact congrArg String.Pos.Raw.byteIdx place
    have same : taken ++ scanner.rest = first.toList ++ second.toList := by
      rw [← past.whole, split, String.toList_append]
    obtain ⟨more, shape⟩ := prefix_of_byteSize_le same (by omega)
    rw [← shape, byteSize_append] at bytes
    rw [← shape, List.append_assoc] at same
    exact ⟨_, splitAtByte?_eq_some_iff.mpr ⟨List.append_cancel_left same, by omega⟩⟩

theorem Past.skip {size : Nat} (past : scanner.Past source taken)
    (moved : scanner.skipBytes? size = some after) :
    ∃ more, after.Past source (taken ++ more) := by
  obtain ⟨⟨more, rest⟩, split, rfl⟩ := Option.map_eq_some_iff.mp moved
  obtain ⟨shape, -⟩ := splitAtByte?_eq_some_iff.mp split
  refine ⟨more, ⟨?_, ?_, ?_⟩⟩
  · rw [past.whole, shape, List.append_assoc]
  · rw [past.position, Position.after_append]
  · intro finished
    have nothing := shape.symm.trans (past.finished finished)
    exact (List.append_eq_nil_iff.mp nothing).2

/-- A piece that makes no token is passed over. -/
theorem Finds.of_silent {position : Position} {c : Char} {text : List Char}
    (silent : (Piece.first c text).1.isSaid = false)
    (finds : Finds (position.after (Piece.first c text).1.text) (Piece.first c text).2 token after) :
    Finds position (c :: text) token after := by
  have whole := Piece.first_append c text
  have cut : pieces (c :: text) = (Piece.first c text).1 :: pieces (Piece.first c text).2 := by
    rw [pieces]
  cases finds with
  | ending unsaid =>
    rw [← Position.after_append, whole]
    exact .ending (cut ▸ List.forall_mem_cons.mpr ⟨silent, unsaid⟩)
  | token whole' cut' unsaid makes made =>
    rw [← Position.after_append, ← List.flatMap_cons] at made
    rw [← Position.after_append, ← List.append_assoc, ← List.flatMap_cons]
    refine .token ?_ ?_ (List.forall_mem_cons.mpr ⟨silent, unsaid⟩) makes made
    · rw [List.flatMap_cons, List.append_assoc, ← whole', whole]
    · rw [cut, cut', List.cons_append]

theorem nextFrom_finds (position : Position) (text : List Char) :
    ∃ token after, nextFrom position text = (some token, after) ∧
      Finds position text token after := by
  fun_induction nextFrom position text with
  | case1 position => exact ⟨_, _, rfl, .ending (by rw [pieces]; exact List.forall_mem_nil _)⟩
  | case2 position c text piece rest token covers =>
    rcases token?_makes (munch_first c text).isCut position with ⟨-, none⟩ | ⟨other, -, some, makes⟩
    · rw [none] at covers
      cases covers
    · obtain rfl := Option.some.inj (some.symm.trans covers)
      have cut : pieces (c :: text) = [] ++ (Piece.first c text).1 :: pieces (Piece.first c text).2 := by
        rw [pieces, List.nil_append]
      have whole : c :: text = [].flatMap Piece.text ++ c :: text := rfl
      exact ⟨_, _, rfl, .token whole cut (List.forall_mem_nil _) makes covers⟩
  | case3 position c text piece rest covers ih =>
    obtain ⟨token, after, found, finds⟩ := ih
    refine ⟨token, after, found, .of_silent ?_ finds⟩
    rcases token?_makes (munch_first c text).isCut position with ⟨unsaid, -⟩ | ⟨other, -, some, -⟩
    · exact unsaid
    · rw [some] at covers
      cases covers

/-- A scanner that hands out a token has found it in the text to come. -/
theorem next_finds (handed : scanner.next = (some token, after)) :
    scanner.finished = false ∧ Finds scanner.position scanner.rest token after := by
  unfold next at handed
  cases finished : scanner.finished with
  | true => simp [finished] at handed
  | false =>
    obtain ⟨other, last, found, finds⟩ := nextFrom_finds scanner.position scanner.rest
    rw [finished, if_neg Bool.false_ne_true, found] at handed
    cases handed
    exact ⟨rfl, finds⟩

/-- Asking for a token leaves a scanner between two characters of its source. -/
theorem Past.next (past : scanner.Past source taken) :
    ∃ more, scanner.next.2.Past source (taken ++ more) := by
  cases handed : scanner.next with
  | mk found after =>
    cases found with
    | none =>
      have unmoved : after = scanner := by
        unfold Scanner.next at handed
        split at handed
        · exact (Prod.mk.inj handed).2.symm
        · obtain ⟨token, last, found, -⟩ := nextFrom_finds scanner.position scanner.rest
          rw [found] at handed
          cases handed
      exact ⟨[], by simpa [unmoved] using past⟩
    | some token =>
      obtain ⟨-, finds⟩ := next_finds handed
      cases finds with
      | ending unsaid =>
        refine ⟨scanner.rest, ⟨?_, ?_, fun _ => rfl⟩⟩
        · rw [past.whole, List.append_nil]
        · rw [past.position, Position.after_append]
      | @token _ silent c more whole cut unsaid makes made =>
        refine ⟨silent.flatMap Piece.text ++ (Piece.first c more).1.text, ⟨?_, ?_, nofun⟩⟩
        · rw [past.whole, whole, ← Piece.first_append c more]
          simp
        · rw [past.position, ← Position.after_append]

/-- However it has been moved, a scanner stands between two characters of its source. -/
theorem Reached.past (reached : Reached source scanner) : ∃ taken, scanner.Past source taken := by
  induction reached with
  | new => exact ⟨[], past_ofSource source⟩
  | next earlier ih =>
    obtain ⟨taken, past⟩ := ih
    obtain ⟨more, past'⟩ := past.next
    exact ⟨_, past'⟩
  | skip earlier moved ih =>
    obtain ⟨taken, past⟩ := ih
    obtain ⟨more, past'⟩ := past.skip moved
    exact ⟨_, past'⟩

end Scanner

/-- A source text has a character at a place: it is in the line of the place's row, at the place's
column, counted from one. -/
def ShowsAt (source : String) (place : Position) (c : Char) : Prop :=
  1 ≤ place.col ∧
    ∃ line, sourceLine? source place.row = some line ∧ line.toList[place.col - 1]? = some c

/-- The place after a start of a text is shown with the character that comes next. -/
theorem showsAt_after {source : String} {taken rest : List Char} {c : Char}
    (whole : source.toList = taken ++ c :: rest) (inLine : c ≠ '\n') (visible : c ≠ '\r') :
    ShowsAt source (Position.start.after taken) c := by
  constructor
  · rw [Position.col_after_start]
    exact Nat.le_add_right ..
  · exact exists_sourceLine? whole inLine visible

/-- A scanner hands out the token of the next piece that makes one, and the first character of the
piece is shown at the place of the token; or it hands out the end of the text, in the last line. -/
theorem Scanner.Past.handed {source : String} {taken : List Char} {scanner after : Scanner}
    {token : Token} (past : scanner.Past source taken)
    (handed : scanner.next = (some token, after)) :
    (token.kind ≠ .endOfInput → ∃ silent piece c,
      pieces scanner.rest = silent ++ piece :: pieces after.rest ∧
      (∀ other ∈ silent, other.isSaid = false) ∧
      piece.Makes token ∧ piece.text.head? = some c ∧ ShowsAt source token.position c) ∧
    (token.kind = .endOfInput →
      sourceLine? source token.position.row =
        some (.ofList (dropCarriageReturn (lastLine source.toList))) ∧
      sourceLine? source (token.position.row + 1) = none) := by
  obtain ⟨-, finds⟩ := next_finds handed
  cases finds with
  | ending unsaid =>
    refine ⟨fun inside => absurd rfl inside, fun _ => ?_⟩
    rw [past.position, ← Position.after_append, ← past.whole]
    exact sourceLine?_row_of_end source
  | @token _ silent c more whole cut unsaid makes made =>
    refine ⟨fun _ => ⟨silent, _, c, cut, unsaid, makes, ?_⟩, fun atEnd => absurd atEnd makes.inside⟩
    obtain ⟨inLine, visible, head⟩ := Piece.first_visible made
    refine ⟨head, ?_⟩
    have shape : source.toList = (taken ++ silent.flatMap Piece.text) ++ c :: more := by
      rw [past.whole, whole, List.append_assoc]
    rw [Piece.token?_position made, past.position, ← Position.after_append]
    exact showsAt_after shape inLine visible

/-- Rows and columns of a text count its characters. -/
theorem Position.after_start_le {source : String} {taken rest : List Char}
    (whole : source.toList = taken ++ rest) :
    (start.after taken).row ≤ 1 + source.length ∧ (start.after taken).col ≤ 1 + source.length := by
  have within : taken.length ≤ source.length := by
    rw [← String.length_toList, whole, List.length_append]
    exact Nat.le_add_right ..
  constructor
  · rw [row_after]
    exact Nat.add_le_add_left (Nat.le_trans List.count_le_length within) _
  · rw [col_after_start]
    exact Nat.add_le_add_left (Nat.le_trans (length_lastLine_le taken) within) _

/-- A token stands at the place after some start of the text that it was cut from. -/
theorem exists_of_mem_tokensOfPieces {found : List Piece} {position : Position} :
    ∀ token ∈ tokensOfPieces position found, ∃ taken rest,
      found.flatMap Piece.text = taken ++ rest ∧ token.position = position.after taken := by
  induction found generalizing position with
  | nil =>
    intro token mem
    obtain rfl := List.mem_singleton.mp mem
    exact ⟨[], [], rfl, rfl⟩
  | cons piece found ih =>
    intro token mem
    have later : token ∈ tokensOfPieces (position.after piece.text) found → ∃ taken rest,
        (piece :: found).flatMap Piece.text = taken ++ rest ∧
          token.position = position.after taken := by
      intro mem
      obtain ⟨taken, rest, shape, place⟩ := ih token mem
      refine ⟨piece.text ++ taken, rest, ?_, ?_⟩
      · rw [List.flatMap_cons, shape, List.append_assoc]
      · rw [place, Position.after_append]
    cases covers : piece.token? position with
    | none =>
      simp only [tokensOfPieces, covers] at mem
      exact later mem
    | some first =>
      simp only [tokensOfPieces, covers, List.mem_cons] at mem
      rcases mem with rfl | mem
      · exact ⟨[], _, rfl, Piece.token?_position covers⟩
      · exact later mem

/-- A diagnostic of a source text is about the place of one of its tokens. -/
theorem exists_token_of_mem_diagnostics {source : String} :
    ∀ diagnostic ∈ (parseSource source).diagnostics, ∃ token ∈ tokenize source,
      diagnostic.position = token.position := by
  intro diagnostic mem
  obtain ⟨report, isReport, rfl⟩ := List.mem_map.mp mem
  obtain ⟨tokens, final, shape, -⟩ :=
    tokensOfPieces_makes (munched_iff.mpr rfl : Munched source.toList _).isCut .start
  have tokenized : tokenize source = tokens ++ [.endAt final] := shape
  obtain ⟨attempts, last, rounds, -, parsed⟩ := exists_rounds_of_tokens (tokens ++ [.endAt final])
  rw [parseSource, tokenized, parsed] at isReport
  have within := rounds.reports_index_lt rfl report isReport
  have placed := (rounds.reports_placed report isReport).2
  rw [tokenAt, List.getElem?_eq_getElem within, Option.getD_some] at placed
  exact ⟨report.token, tokenized ▸ placed ▸ List.getElem_mem within, rfl⟩

/-- The places that a scanner counts are those of the lines. In whatever way tokens are asked for
and bytes are skipped, the scanner stands between two characters, its row counts the line feeds
before it, its column the characters after the last of them, and neither outgrows 32 bits. A token
is cut from a piece whose first character is in the line of its row at its column, and the end of
the text is in the last line. So each diagnostic of a source text is about a line of it. -/
theorem positions_agree_with_lines {source : String} (short : source.length < 2 ^ 32 - 1) :
    (∀ {scanner}, Scanner.Reached source scanner →
      (∃ taken, source.toList = taken ++ scanner.rest ∧
        (scanner.offset source).IsValid source ∧
        scanner.offset source = (String.ofList taken).rawEndPos ∧
        scanner.position.row = 1 + taken.count '\n' ∧
        scanner.position.col = 1 + (lastLine taken).length ∧
        scanner.position.row < 2 ^ 32 ∧ scanner.position.col < 2 ^ 32) ∧
      (∀ size, (scanner.skipBytes? size).isSome ↔
        (⟨(scanner.offset source).byteIdx + size⟩ : String.Pos.Raw).IsValid source) ∧
      ∀ {token after}, scanner.next = (some token, after) →
        (token.kind ≠ .endOfInput → ∃ silent piece c,
          pieces scanner.rest = silent ++ piece :: pieces after.rest ∧
          (∀ other ∈ silent, other.isSaid = false) ∧
          piece.Makes token ∧ piece.text.head? = some c ∧ ShowsAt source token.position c) ∧
        (token.kind = .endOfInput →
          sourceLine? source token.position.row =
            some (.ofList (dropCarriageReturn (lastLine source.toList))) ∧
          sourceLine? source (token.position.row + 1) = none)) ∧
    ∀ diagnostic ∈ (parseSource source).diagnostics,
      1 ≤ diagnostic.position.row ∧ 1 ≤ diagnostic.position.col ∧
        ∃ line, sourceLine? source diagnostic.position.row = some line := by
  constructor
  · intro scanner reached
    obtain ⟨taken, past⟩ := reached.past
    have row := past.position ▸ Position.row_after .start taken
    have col := past.position ▸ Position.col_after_start taken
    have bounds := Position.after_start_le past.whole
    rw [← past.position] at bounds
    exact ⟨⟨taken, past.whole, past.offset_isValid, past.offset_eq, row, col, by omega, by omega⟩,
      past.skipBytes?_isSome_iff, past.handed⟩
  · intro diagnostic mem
    obtain ⟨token, isToken, place⟩ := exists_token_of_mem_diagnostics diagnostic mem
    obtain ⟨taken, rest, whole, after⟩ := exists_of_mem_tokensOfPieces token isToken
    rw [pieces_flatten] at whole
    rw [place, after]
    refine ⟨?_, ?_, _, sourceLine?_row whole⟩
    · rw [Position.row_after]
      exact Nat.le_add_right ..
    · rw [Position.col_after_start]
      exact Nat.le_add_right ..

/-- Skipping the four bytes of the first line, its break included, leads to a string of the second
line. -/
theorem positions_agree_after_skipped_line :
    ∃ scanner token after, Scanner.Reached "é\r\n\t\"x\" y" scanner ∧
      scanner.next = (some token, after) ∧ token = ⟨.stringLiteral, "x", ⟨2, 2⟩⟩ ∧
      ∃ (piece : Piece) (c : Char), piece.Makes token ∧ piece.text.head? = some c ∧
        ShowsAt "é\r\n\t\"x\" y" token.position c := by
  let scanner : Scanner := ⟨"\t\"x\" y".toList, ⟨2, 1⟩, false⟩
  let token : Token := ⟨.stringLiteral, "x", ⟨2, 2⟩⟩
  let after : Scanner := ⟨" y".toList, ⟨2, 5⟩, false⟩
  have skipped : (Scanner.ofSource "é\r\n\t\"x\" y").skipBytes? 4 = some scanner := by
    decide +kernel
  have reached : Scanner.Reached "é\r\n\t\"x\" y" scanner := .skip .new skipped
  have handed : scanner.next = (some token, after) := by decide +kernel
  have agrees := (positions_agree_with_lines (by decide)).1 reached
  obtain ⟨silent, piece, c, -, -, makes, head, shown⟩ := (agrees.2.2 handed).1 nofun
  exact ⟨scanner, token, after, reached, handed, rfl, piece, c, makes, head, shown⟩

end BraceLang
