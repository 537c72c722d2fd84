import BraceLang.Source.Line
import BraceLang.Text.Position
import Mathlib.Data.List.DropRight

/-!
Places and lines. The row of a place counts the line feeds before it, and its column counts the
characters after the last of them. The line with the number of that row is what stands between the
last line feed before the place and the next one after it (`lineAfter?_append`), so that a character
is found in its line by its column (`exists_sourceLine?`).
-/
namespace BraceLang

/-- What stands after the last line feed of a text. -/
def lastLine (text : List Char) : List Char :=
  text.rtakeWhile (· != '\n')

@[simp] theorem lastLine_nil : lastLine [] = [] := by
  simp [lastLine]

@[simp] theorem lastLine_concat_newline (text : List Char) : lastLine (text ++ ['\n']) = [] :=
  List.rtakeWhile_concat_neg _ _ _ (by simp)

theorem lastLine_concat {c : Char} (text : List Char) (inLine : c ≠ '\n') :
    lastLine (text ++ [c]) = lastLine text ++ [c] :=
  List.rtakeWhile_concat_pos _ _ _ (by simpa using inLine)

theorem length_lastLine_le (text : List Char) : (lastLine text).length ≤ text.length :=
  (List.rtakeWhile_suffix (· != '\n') text).length_le

namespace Position

/-- Rows are counted by line feeds. -/
theorem row_after (p : Position) (text : List Char) :
    (p.after text).row = p.row + text.count '\n' := by
  induction text generalizing p with
  | nil => rfl
  | cons c text ih =>
    rw [after_cons, ih, step]
    by_cases newline : c = '\n'
    · simp [newline, Nat.add_comm, Nat.add_left_comm]
    · simp [newline]

/-- Columns are counted from the last line feed on. -/
theorem col_after_start (text : List Char) :
    (start.after text).col = 1 + (lastLine text).length := by
  induction text using List.reverseRecOn with
  | nil => simp [start]
  | append_singleton text c ih =>
    rw [after_append, after_cons, after_nil, step]
    by_cases newline : c = '\n'
    · simp [newline]
    · simp [newline, ih, lastLine_concat, Nat.add_assoc]

end Position

theorem lineAfter?_succ_newline (skipped : Nat) (text : List Char) :
    lineAfter? (skipped + 1) ('\n' :: text) = lineAfter? skipped text := by
  simp [lineAfter?]

theorem lineAfter?_succ_cons {c : Char} (inLine : c ≠ '\n') (skipped : Nat) (text : List Char) :
    lineAfter? (skipped + 1) (c :: text) = lineAfter? (skipped + 1) text := by
  simp [lineAfter?, inLine]

/-- Once all line feeds of a text have been passed, what is left is what comes after it. -/
theorem lineAfter?_append_newline (skipped : Nat) (taken rest : List Char) :
    lineAfter? (skipped + (taken.count '\n' + 1)) (taken ++ '\n' :: rest) =
      lineAfter? skipped rest := by
  induction taken with
  | nil => simp [lineAfter?_succ_newline]
  | cons c taken ih =>
    by_cases newline : c = '\n'
    · rw [newline, List.count_cons_self, List.cons_append, ← Nat.add_assoc skipped,
        lineAfter?_succ_newline, ih]
    · rw [List.count_cons_of_ne newline, List.cons_append, ← Nat.add_assoc skipped,
        lineAfter?_succ_cons newline, Nat.add_assoc, ih]

/-- There is no line after as many line feeds as a text has, and one more. -/
theorem lineAfter?_count_succ (text : List Char) :
    lineAfter? (text.count '\n' + 1) text = none := by
  induction text with
  | nil => simp [lineAfter?]
  | cons c text ih =>
    by_cases newline : c = '\n'
    · rw [newline, List.count_cons_self, lineAfter?_succ_newline, ih]
    · rw [List.count_cons_of_ne newline, lineAfter?_succ_cons newline, ih]

/-- The line at a place of a text: what is in it before the place, and what is in it after. -/
theorem lineAfter?_append (taken rest : List Char) :
    lineAfter? (taken.count '\n') (taken ++ rest) =
      some (lastLine taken ++ rest.takeWhile (· != '\n')) := by
  induction taken using List.reverseRecOn generalizing rest with
  | nil => simp [lineAfter?]
  | append_singleton taken c ih =>
    by_cases newline : c = '\n'
    · have passed := lineAfter?_append_newline 0 taken rest
      simpa [newline, lineAfter?] using passed
    · have here := ih (c :: rest)
      simpa [newline, Ne.symm newline, lastLine_concat] using here

/-- The line of a place: what stands before and after the place, between two line feeds. -/
theorem sourceLine?_row {source : String} {taken rest : List Char}
    (whole : source.toList = taken ++ rest) :
    sourceLine? source (Position.start.after taken).row =
      some (.ofList (dropCarriageReturn (lastLine taken ++ rest.takeWhile (· != '\n')))) := by
  have row : (Position.start.after taken).row = taken.count '\n' + 1 := by
    rw [Position.row_after, Position.start, Nat.add_comm]
  rw [row, sourceLine?, whole, lineAfter?_append]
  rfl

/-- The line of the place after a whole text is its last one. -/
theorem sourceLine?_row_of_end (source : String) :
    let row := (Position.start.after source.toList).row
    sourceLine? source row = some (.ofList (dropCarriageReturn (lastLine source.toList))) ∧
      sourceLine? source (row + 1) = none := by
  have whole : source.toList = source.toList ++ [] := (List.append_nil _).symm
  constructor
  · simpa using sourceLine?_row whole
  · simp [sourceLine?, Position.row_after, Position.start, Nat.add_comm 1, lineAfter?_count_succ]

/-- A carriage return is dropped from the end of a line only, so that any other character stays
where it is. -/
theorem getElem?_dropCarriageReturn {text : List Char} {index : Nat} {c : Char}
    (stands : text[index]? = some c) (visible : c ≠ '\r') :
    (dropCarriageReturn text)[index]? = some c := by
  unfold dropCarriageReturn
  by_cases closes : text.getLast? = some '\r'
  · rw [if_pos closes]
    obtain ⟨inside, same⟩ := List.getElem?_eq_some_iff.mp stands
    have notLast : index ≠ text.length - 1 := by
      intro last
      rw [List.getLast?_eq_getElem?, ← last, stands] at closes
      exact visible (Option.some.inj closes)
    have kept : index < text.dropLast.length := by
      rw [List.length_dropLast]
      omega
    rw [List.getElem?_eq_getElem kept, List.getElem_dropLast, same]
  · rwa [if_neg closes]

/-- A character that is no line break is found in the line of its row, at its column. -/
theorem exists_sourceLine? {source : String} {taken rest : List Char} {c : Char}
    (whole : source.toList = taken ++ c :: rest) (inLine : c ≠ '\n') (visible : c ≠ '\r') :
    ∃ line, sourceLine? source (Position.start.after taken).row = some line ∧
      line.toList[(Position.start.after taken).col - 1]? = some c := by
  refine ⟨_, sourceLine?_row whole, ?_⟩
  have stands : (lastLine taken ++ (c :: rest).takeWhile (· != '\n'))[(lastLine taken).length]? =
      some c := by
    simp [inLine]
  rw [Position.col_after_start, Nat.add_sub_cancel_left, String.toList_ofList]
  exact getElem?_dropCarriageReturn stands visible

/-- A line holds no line feed. -/
theorem newline_notMem_of_lineAfter? {skipped : Nat} {text line : List Char}
    (found : lineAfter? skipped text = some line) : '\n' ∉ line := by
  fun_induction lineAfter? skipped text with
  | case1 text =>
    cases found
    intro mem
    simpa using List.all_eq_true.mp List.all_takeWhile _ mem
  | case2 => cases found
  | case3 skipped text c rest shape ih => exact ih found

theorem newline_notMem_of_sourceLine? {source line : String} {row : Nat}
    (found : sourceLine? source row = some line) : '\n' ∉ line.toList := by
  cases row with
  | zero => cases found
  | succ skipped =>
    obtain ⟨whole, isLine, rfl⟩ := Option.map_eq_some_iff.mp found
    have inWhole := newline_notMem_of_lineAfter? isLine
    rw [Function.comp_apply, String.toList_ofList, dropCarriageReturn]
    split
    · exact fun mem => inWhole ((List.dropLast_sublist _).subset mem)
    · exact inWhole

end BraceLang
