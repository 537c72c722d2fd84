import BraceLang.Source.Piece

/-!
Reading tokens off a source text. A scanner stands between two pieces of the text, or anywhere
the caller has moved it to, and hands out one token at a time; the last token of all is the end
of the text, which is handed out once. Scanning everything at once gives the same tokens as
asking for them one by one (`Scanner.remaining_eq_next`).
-/
namespace BraceLang

/-- The tokens of a run of pieces that starts at `position`, closed by the end of the text. -/
def tokensOfPieces (position : Position) : List Piece → List Token
  | [] => [Token.endAt position]
  | piece :: pieces =>
    let following := tokensOfPieces (position.after piece.text) pieces
    match piece.token? position with
    | some token => token :: following
    | none => following

/-- All tokens of a source text, the last of which is its end. -/
def tokenize (source : String) : List Token :=
  tokensOfPieces .start (pieces source.toList)

/-- A place in a source text from which tokens are still to be read. -/
structure Scanner where
  /-- The text that has not been read. -/
  rest : List Char
  /-- Where that text starts. -/
  position : Position
  /-- Whether the end of the text has been handed out. -/
  finished : Bool
  deriving DecidableEq, Repr

namespace Scanner

/-- The scanner that has read nothing of a source text. -/
def ofSource (source : String) : Scanner :=
  ⟨source.toList, .start, false⟩

/-- The text that has not been read. -/
def remainder (scanner : Scanner) : String :=
  String.ofList scanner.rest

/-- Holds when no text is left. -/
def atEnd (scanner : Scanner) : Bool :=
  scanner.rest.isEmpty

/-- The first token of a text that starts at `position`, and the scanner after it. Pieces that
make no token are passed over. -/
def nextFrom (position : Position) : List Char → Option Token × Scanner
  | [] => (some (Token.endAt position), ⟨[], position, true⟩)
  | c :: text =>
    let piece := (Piece.first c text).1
    let rest := (Piece.first c text).2
    match piece.token? position with
    | some token => (some token, ⟨rest, position.after piece.text, false⟩)
    | none => nextFrom (position.after piece.text) rest
termination_by text => text.length
decreasing_by exact Piece.first_rest_length_lt c text

/-- The next token, and the scanner after it. After the end of the text there is none. -/
def next (scanner : Scanner) : Option Token × Scanner :=
  if scanner.finished then (none, scanner) else nextFrom scanner.position scanner.rest

/-- All tokens that are still to be handed out. -/
def remaining (scanner : Scanner) : List Token :=
  if scanner.finished then [] else tokensOfPieces scanner.position (pieces scanner.rest)

/-- The scanner after all of its tokens. -/
def exhausted (scanner : Scanner) : Scanner :=
  ⟨[], scanner.position.after scanner.rest, true⟩

/-- The characters that the first `size` bytes of a text hold, and the text after them. There
are none if the text is shorter, or if the bytes end inside a character. -/
def splitAtByte? : Nat → List Char → Option (List Char × List Char)
  | 0, text => some ([], text)
  | _ + 1, [] => none
  | size + 1, c :: text =>
    if c.utf8Size ≤ size + 1 then
      (splitAtByte? (size + 1 - c.utf8Size) text).map fun (taken, rest) => (c :: taken, rest)
    else none
termination_by _ text => text.length

/-- The scanner moved over the next `size` bytes, whatever they hold. -/
def skipBytes? (scanner : Scanner) (size : Nat) : Option Scanner :=
  (splitAtByte? size scanner.rest).map fun (taken, rest) =>
    { scanner with rest, position := scanner.position.after taken }

/-- A scan of the whole text is what a new scanner hands out. -/
theorem remaining_ofSource (source : String) :
    (ofSource source).remaining = tokenize source := by
  simp [remaining, ofSource, tokenize]

private theorem tokensOfPieces_eq_nextFrom (position : Position) (text : List Char) :
    ∃ token, (nextFrom position text).1 = some token ∧
      tokensOfPieces position (pieces text) =
        token :: (nextFrom position text).2.remaining := by
  fun_induction nextFrom position text with
  | case1 position => exact ⟨_, rfl, by simp [pieces, tokensOfPieces, remaining]⟩
  | case2 position c text piece rest token covers =>
    refine ⟨token, rfl, ?_⟩
    simp only [piece] at covers
    simp [pieces, tokensOfPieces, covers, remaining, piece, rest]
  | case3 position c text piece rest covers ih =>
    simp only [piece] at covers
    simpa [pieces, tokensOfPieces, covers] using ih

/-- The tokens still to be handed out are the next one and those that follow it, or none when
there is no next one. -/
theorem remaining_eq_next (scanner : Scanner) :
    scanner.remaining =
      match scanner.next with
      | (some token, after) => token :: after.remaining
      | (none, _) => [] := by
  by_cases finished : scanner.finished = true
  · simp [remaining, next, finished]
  · obtain ⟨token, found, shape⟩ := tokensOfPieces_eq_nextFrom scanner.position scanner.rest
    have ahead : scanner.next = (some token, (nextFrom scanner.position scanner.rest).2) := by
      simp only [next, finished]
      exact Prod.ext found rfl
    rw [ahead]
    simp only [← shape]
    simp [remaining, finished]

end Scanner

end BraceLang
