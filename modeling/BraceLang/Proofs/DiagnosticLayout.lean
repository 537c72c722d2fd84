import BraceLang.Diagnostic
import BraceLang.Proofs.SourceLine

/-!
Where the parts of a shown diagnostic stand. The last three of its five lines each have a bar, and
the last one has the carets. `Diagnostic.isLaidOut_render` gives the offset of every part. The bar
of the source line is one character to the right of the two others, since the gutter is as wide as
the number of the row and one blank while the source line has a blank on either side of the number.
So the carets start one character to the left of the column that they are about.
-/
namespace BraceLang

/-- The offsets in their lines of the parts of a shown diagnostic: of the bar of the empty gutter
line, the bar before the source line and the start of its text, the bar of the underline and the
first of its carets, and the number of these. -/
@[ext]
structure Layout where
  gutterBar : Nat
  lineBar : Nat
  lineStart : Nat
  underlineBar : Nat
  caret : Nat
  carets : Nat
  deriving DecidableEq, Repr

/-- A text of five lines shows a line of a source text with its parts at the offsets of a layout. -/
def IsLaidOut (shown line : String) (layout : Layout) : Prop :=
  ∃ heading place gutter mark underline,
    shown.toList.splitOn '\n' = [heading, place, gutter, mark ++ line.toList, underline] ∧
    gutter.idxOf? '|' = some layout.gutterBar ∧
    mark.idxOf? '|' = some layout.lineBar ∧
    mark.length = layout.lineStart ∧
    underline.idxOf? '|' = some layout.underlineBar ∧
    underline.idxOf? '^' = some layout.caret ∧
    underline.drop layout.caret = List.replicate layout.carets '^'

/-- The three bars stand at one offset, and the first caret at that of a column of the source
line. -/
def Layout.IsAligned (layout : Layout) (col : Nat) : Prop :=
  layout.gutterBar = layout.lineBar ∧ layout.underlineBar = layout.lineBar ∧
    layout.caret = layout.lineStart + (col - 1)

/-- A text shows a line with one layout only. -/
theorem IsLaidOut.unique {shown line : String} {layout layout' : Layout}
    (isLaid : IsLaidOut shown line layout) (isLaid' : IsLaidOut shown line layout') :
    layout = layout' := by
  obtain ⟨heading, place, gutter, mark, underline, lines, bar, lineBar, start, below, caret, run⟩ :=
    isLaid
  obtain ⟨_, _, _, _, _, lines', bar', lineBar', start', below', caret', run'⟩ := isLaid'
  obtain ⟨-, -, rfl, marked, rfl, -⟩ : _ ∧ _ ∧ _ ∧ _ ∧ _ ∧ _ := by
    simpa only [List.cons.injEq] using lines.symm.trans lines'
  obtain rfl := List.append_cancel_right marked
  have sameCaret : layout.caret = layout'.caret := Option.some.inj (caret.symm.trans caret')
  have sameRun := congrArg List.length (run.symm.trans (sameCaret ▸ run'))
  rw [List.length_replicate, List.length_replicate] at sameRun
  exact Layout.ext (Option.some.inj (bar.symm.trans bar'))
    (Option.some.inj (lineBar.symm.trans lineBar')) (start.symm.trans start')
    (Option.some.inj (below.symm.trans below')) sameCaret sameRun

/-- A character stands where the text before it, which does not have it, ends. -/
theorem idxOf?_append_cons {c : Char} {before : List Char} (after : List Char)
    (first : c ∉ before) : (before ++ c :: after).idxOf? c = some before.length := by
  rw [List.idxOf?_eq_some_iff]
  refine ⟨by simp, by simp, fun j earlier same => first ?_⟩
  rw [List.getElem_append_left earlier] at same
  exact same ▸ List.getElem_mem earlier

/-- No digit of a number is a character that is no digit. -/
theorem notMem_toDigits {c : Char} (noDigit : c.isDigit = false) (value : Nat) :
    c ∉ Nat.toDigits 10 value := by
  intro mem
  rw [Nat.isDigit_of_mem_toDigits (by decide) (by decide) mem] at noDigit
  cases noDigit

namespace Diagnostic

theorem newline_notMem_name (category : Category) : '\n' ∉ category.name.toList := by
  cases category <;> decide

variable (file : String) (diagnostic : Diagnostic)

/-- The digits of the row that a diagnostic is about. -/
def rowDigits : List Char :=
  Nat.toDigits 10 diagnostic.position.row

/-- The line with the category and the message. -/
def headingLine : List Char :=
  diagnostic.category.name.toList ++ ": ".toList ++ diagnostic.message.toList

/-- The line with the file and the place. -/
def placeLine : List Char :=
  "-> ".toList ++ file.toList ++ ":".toList ++ diagnostic.rowDigits ++ ":".toList ++
    Nat.toDigits 10 diagnostic.position.col

/-- The line with a bar only. -/
def gutterLine : List Char :=
  List.replicate (diagnostic.rowDigits.length + 1) ' ' ++ ['|']

/-- What stands before the text of the source line. -/
def lineMark : List Char :=
  ' ' :: diagnostic.rowDigits ++ [' ', '|', ' ']

/-- The line with a bar and the carets. -/
def underline : List Char :=
  diagnostic.gutterLine ++ ' ' :: List.replicate (diagnostic.position.col - 1) ' ' ++
    List.replicate (max diagnostic.length 1) '^'

/-- A shown diagnostic is its five lines, joined. -/
theorem toList_render (source : String) :
    (diagnostic.render source file).toList = ['\n'].intercalate
      [diagnostic.headingLine, diagnostic.placeLine file, diagnostic.gutterLine,
        diagnostic.lineMark ++ ((sourceLine? source diagnostic.position.row).getD "").toList,
        diagnostic.underline] := by
  let row := diagnostic.position.row.repr
  let col := diagnostic.position.col.repr
  let gutter := String.ofList (List.replicate (row.length + 1) ' ') ++ "|"
  have width : row.length = diagnostic.rowDigits.length := by
    rw [← String.length_toList, Nat.toList_repr, rowDigits]
  have shown : diagnostic.render source file =
      diagnostic.category.name ++ ": " ++ diagnostic.message ++ "\n"
        ++ "-> " ++ file ++ ":" ++ row ++ ":" ++ col ++ "\n"
        ++ gutter ++ "\n"
        ++ " " ++ row ++ " | " ++ (sourceLine? source diagnostic.position.row).getD "" ++ "\n"
        ++ gutter ++ " " ++ String.ofList (List.replicate (diagnostic.position.col - 1) ' ')
        ++ String.ofList (List.replicate (max diagnostic.length 1) '^') := rfl
  rw [shown]
  simp only [String.toList_append, String.toList_ofList, Nat.toList_repr, width, row, col, gutter]
  simp [List.intercalate, headingLine, placeLine, lineMark, underline, gutterLine, rowDigits]

variable {file diagnostic}

/-- The lines of a shown diagnostic, unless its message or the name of its file has more. -/
theorem splitOn_render {source line : String} (fileInLine : '\n' ∉ file.toList)
    (messageInLine : '\n' ∉ diagnostic.message.toList)
    (found : sourceLine? source diagnostic.position.row = some line) :
    (diagnostic.render source file).toList.splitOn '\n' =
      [diagnostic.headingLine, diagnostic.placeLine file, diagnostic.gutterLine,
        diagnostic.lineMark ++ line.toList, diagnostic.underline] := by
  have rowInLine := notMem_toDigits (c := '\n') rfl diagnostic.position.row
  have colInLine := notMem_toDigits (c := '\n') rfl diagnostic.position.col
  have nameInLine := newline_notMem_name diagnostic.category
  have sourceInLine := newline_notMem_of_sourceLine? found
  rw [toList_render, found, Option.getD_some]
  refine List.splitOn_intercalate '\n' ?_ (List.cons_ne_nil _ _)
  simp [headingLine, placeLine, gutterLine, lineMark, underline, rowDigits, fileInLine,
    messageInLine, rowInLine, colInLine, nameInLine, sourceInLine]

/-- The layout that a diagnostic is shown with. -/
def layout (diagnostic : Diagnostic) : Layout where
  gutterBar := diagnostic.rowDigits.length + 1
  lineBar := diagnostic.rowDigits.length + 2
  lineStart := diagnostic.rowDigits.length + 4
  underlineBar := diagnostic.rowDigits.length + 1
  caret := diagnostic.rowDigits.length + 3 + (diagnostic.position.col - 1)
  carets := max diagnostic.length 1

theorem idxOf?_gutterLine (after : List Char) :
    (diagnostic.gutterLine ++ after).idxOf? '|' = some (diagnostic.rowDigits.length + 1) := by
  rw [gutterLine, List.append_assoc, List.singleton_append, idxOf?_append_cons after (by simp),
    List.length_replicate]

theorem idxOf?_lineMark : diagnostic.lineMark.idxOf? '|' = some (diagnostic.rowDigits.length + 2) := by
  have noBar := notMem_toDigits (c := '|') rfl diagnostic.position.row
  have split : diagnostic.lineMark = (' ' :: diagnostic.rowDigits ++ [' ']) ++ '|' :: [' '] := by
    simp [lineMark]
  rw [split, idxOf?_append_cons _ (by simp [rowDigits, noBar])]
  simp

/-- The underline is blank from its bar to its carets. -/
theorem underline_eq : ∃ before, '^' ∉ before ∧ before.length = diagnostic.layout.caret ∧
    diagnostic.underline = before ++ List.replicate diagnostic.layout.carets '^' := by
  refine ⟨diagnostic.gutterLine ++ ' ' :: List.replicate (diagnostic.position.col - 1) ' ',
    ?_, ?_, rfl⟩
  · simp [gutterLine]
  · simp [gutterLine, layout]
    omega

theorem isLaidOut_render {source line : String} (fileInLine : '\n' ∉ file.toList)
    (messageInLine : '\n' ∉ diagnostic.message.toList)
    (found : sourceLine? source diagnostic.position.row = some line) :
    IsLaidOut (diagnostic.render source file) line diagnostic.layout := by
  obtain ⟨before, noCaret, width, underlined⟩ := diagnostic.underline_eq
  refine ⟨_, _, _, _, _, splitOn_render fileInLine messageInLine found, ?_, idxOf?_lineMark, ?_,
    ?_, ?_, ?_⟩
  · rw [← List.append_nil diagnostic.gutterLine, idxOf?_gutterLine]
    rfl
  · simp [lineMark, layout]
  · rw [underline, List.append_assoc, idxOf?_gutterLine]
    rfl
  · have some : 1 ≤ diagnostic.layout.carets := Nat.le_max_right ..
    have caret : List.replicate diagnostic.layout.carets '^' =
        '^' :: List.replicate (diagnostic.layout.carets - 1) '^' := by
      rw [← List.replicate_succ, Nat.sub_add_cancel some]
    rw [underlined, caret, idxOf?_append_cons _ noCaret, width]
  · rw [underlined, ← width, List.drop_left]

theorem not_isAligned_layout : ¬ diagnostic.layout.IsAligned diagnostic.position.col := by
  rintro ⟨bars, -, -⟩
  simp [layout] at bars

/-- A diagnostic about a line of a source text is shown in five lines with one layout. The bar
before the source line is one character to the right of the two others, and the first caret is one
character to the left of the column in the text of the source line, so that nothing that is shown
is aligned. -/
theorem carets_stand_one_left {source line : String} (fileInLine : '\n' ∉ file.toList)
    (messageInLine : '\n' ∉ diagnostic.message.toList)
    (found : sourceLine? source diagnostic.position.row = some line) :
    ∃ layout, (∀ other, IsLaidOut (diagnostic.render source file) line other ↔ other = layout) ∧
      layout.gutterBar = (toString diagnostic.position.row).length + 1 ∧
      layout.underlineBar = layout.gutterBar ∧
      layout.lineBar = layout.gutterBar + 1 ∧
      layout.lineStart = layout.lineBar + 2 ∧
      layout.lineStart + (diagnostic.position.col - 1) = layout.caret + 1 ∧
      layout.carets = max diagnostic.length 1 ∧
      ¬ layout.IsAligned diagnostic.position.col := by
  have isLaid := isLaidOut_render fileInLine messageInLine found
  have width : (toString diagnostic.position.row).length = diagnostic.rowDigits.length := by
    rw [← String.length_toList, Nat.toString_eq_repr, Nat.toList_repr, rowDigits]
  refine ⟨diagnostic.layout, fun other => ?_, ?_, rfl, rfl, rfl, ?_, rfl, not_isAligned_layout⟩
  · constructor
    · exact fun isLaid' => isLaid'.unique isLaid
    · rintro rfl
      exact isLaid
  · rw [width]
    rfl
  · simp only [layout]
    omega

/-- The caret for a number at the start of its line stands below the blank before it. -/
theorem caret_left_of_number :
    let diagnostic : Diagnostic := ⟨.syntaxError, "m", ⟨1, 1⟩, 1⟩
    sourceLine? "1;" 1 = some "1;" ∧ ∃ layout,
      IsLaidOut (diagnostic.render "1;" "a") "1;" layout ∧
      layout.lineStart = layout.caret + 1 := by
  intro diagnostic
  have found : sourceLine? "1;" diagnostic.position.row = some "1;" := by decide +kernel
  have fileInLine : '\n' ∉ "a".toList := by decide
  have messageInLine : '\n' ∉ diagnostic.message.toList := by decide
  obtain ⟨layout, only, -, -, -, -, caret, -⟩ :=
    carets_stand_one_left fileInLine messageInLine found
  exact ⟨found, layout, (only layout).mpr rfl, caret⟩

/-- A diagnostic about this number is not shown with aligned bars and carets. -/
theorem number_not_aligned :
    let diagnostic : Diagnostic := ⟨.syntaxError, "m", ⟨1, 1⟩, 1⟩
    '\n' ∉ "a".toList ∧ '\n' ∉ diagnostic.message.toList ∧
      sourceLine? "1;" diagnostic.position.row = some "1;" ∧
      ¬ ∃ layout, IsLaidOut (diagnostic.render "1;" "a") "1;" layout ∧
        layout.IsAligned diagnostic.position.col := by
  intro diagnostic
  have found : sourceLine? "1;" diagnostic.position.row = some "1;" := by decide +kernel
  have fileInLine : '\n' ∉ "a".toList := by decide
  have messageInLine : '\n' ∉ diagnostic.message.toList := by decide
  refine ⟨fileInLine, messageInLine, found, ?_⟩
  rintro ⟨layout, isLaid, aligned⟩
  obtain rfl := isLaid.unique (isLaidOut_render fileInLine messageInLine found)
  exact not_isAligned_layout aligned

end Diagnostic

end BraceLang
