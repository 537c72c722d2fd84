import BraceLang.Json
import BraceLang.Proofs.NumberText

/-!
JSON texts and the values that they stand for. The reader below knows the grammar of JSON only: it
takes blanks between tokens, escapes of every form and numbers as the grammar has them, and refuses
control characters in strings and text after the value. Strings, numbers and lists of items are read
from what is written for them, each whatever stands after it.
-/
namespace BraceLang.Json

/-- Blanks can stand before and after each token of a JSON text. -/
def isBlank (c : Char) : Bool :=
  c == ' ' || c == '\t' || c == '\n' || c == '\r'

/-- A text without the blanks at its start. -/
def skipBlanks (text : List Char) : List Char :=
  text.dropWhile isBlank

/-- The value of a hexadecimal digit in either case. -/
def hexValue? (c : Char) : Option Nat :=
  if c.isDigit then some (c.toNat - '0'.toNat)
  else if 'a' ≤ c ∧ c ≤ 'f' then some (10 + (c.toNat - 'a'.toNat))
  else if 'A' ≤ c ∧ c ≤ 'F' then some (10 + (c.toNat - 'A'.toNat))
  else none

/-- The character whose number is given by four hexadecimal digits. Numbers that stand for half a
character are refused. -/
def charOfHex? (first second third fourth : Char) : Option Char := do
  let code := 16 * (16 * (16 * (← hexValue? first) + (← hexValue? second)) + (← hexValue? third))
    + (← hexValue? fourth)
  if code.isValidChar then some (Char.ofNat code) else none

/-- The character that a letter stands for after a backslash. -/
def charOfLetter? : Char → Option Char
  | '"' => some '"'
  | '\\' => some '\\'
  | '/' => some '/'
  | 'b' => some '\x08'
  | 'f' => some '\x0c'
  | 'n' => some '\n'
  | 'r' => some '\r'
  | 't' => some '\t'
  | _ => none

/-- A character before those that are read next. -/
def before (c : Char) (read : Option (List Char × List Char)) : Option (List Char × List Char) :=
  read.map fun (others, rest) => (c :: others, rest)

/-- The rest of a string after its first quotation mark, and the text after the second one. -/
def readString? : List Char → Option (List Char × List Char)
  | [] => none
  | '"' :: rest => some ([], rest)
  | '\\' :: 'u' :: first :: second :: third :: fourth :: rest =>
    (charOfHex? first second third fourth).bind fun c => before c (readString? rest)
  | '\\' :: letter :: rest => (charOfLetter? letter).bind fun c => before c (readString? rest)
  | c :: rest => if c.toNat < 0x20 ∨ c = '\\' then none else before c (readString? rest)

/-- The characters that numbers are made of. -/
def isNumberChar (c : Char) : Bool :=
  c.isDigit || c == '.' || c == 'e' || c == 'E' || c == '+' || c == '-'

/-- Holds of the numbers of JSON: perhaps a minus, digits without a zero in front of others, perhaps
a point with digits after it, and perhaps an exponent. -/
def isNumber (text : List Char) : Bool :=
  let magnitude := if text.head? = some '-' then text.tail else text
  let whole := magnitude.takeWhile Char.isDigit
  let inOrder := whole == ['0'] || (!whole.isEmpty && whole.head? != some '0')
  match magnitude.dropWhile Char.isDigit with
  | '.' :: rest =>
    inOrder && !(rest.takeWhile Char.isDigit).isEmpty &&
      (Number.readExponent? (rest.dropWhile Char.isDigit)).isSome
  | rest => inOrder && (Number.readExponent? rest).isSome

/-- A number, as long as its characters go on. -/
def readNumber? (text : List Char) : Option (Json × List Char) :=
  let number := text.takeWhile isNumberChar
  if isNumber number then some (.number (String.ofList number), text.dropWhile isNumberChar)
  else none

section

variable {α : Type} (close : Char) (item : List Char → Option (α × List Char))

/-- Items with commas between them, up to the bracket that closes them. The bound is a number of
items. -/
def readItems? : Nat → List Char → Option (List α × List Char)
  | 0, _ => none
  | more + 1, text => do
    let (first, rest) ← item text
    match skipBlanks rest with
    | ',' :: rest =>
      let (others, rest) ← readItems? more rest
      some (first :: others, rest)
    | c :: rest => if c = close then some ([first], rest) else none
    | [] => none

/-- Any number of items with commas between them, up to the bracket that closes them. -/
def readList? (most : Nat) (text : List Char) : Option (List α × List Char) :=
  match skipBlanks text with
  | [] => none
  | c :: rest => if c = close then some ([], rest) else readItems? close item most (c :: rest)

end

/-- A member of an object: a string, a colon and a value. -/
def readMember? (value : List Char → Option (Json × List Char)) (text : List Char) :
    Option ((String × Json) × List Char) :=
  match skipBlanks text with
  | '"' :: rest => do
    let (key, rest) ← readString? rest
    match skipBlanks rest with
    | ':' :: rest =>
      let (member, rest) ← value rest
      some ((String.ofList key, member), rest)
    | _ => none
  | _ => none

/-- A value and the text after it. The bound is on the levels of nesting and on the lengths of the
lists. -/
def readValue? : Nat → List Char → Option (Json × List Char)
  | 0, _ => none
  | bound + 1, text =>
    match skipBlanks text with
    | 'n' :: 'u' :: 'l' :: 'l' :: rest => some (.null, rest)
    | 't' :: 'r' :: 'u' :: 'e' :: rest => some (.bool true, rest)
    | 'f' :: 'a' :: 'l' :: 's' :: 'e' :: rest => some (.bool false, rest)
    | '"' :: rest => do
      let (value, rest) ← readString? rest
      some (.string (String.ofList value), rest)
    | '[' :: rest => do
      let (items, rest) ← readList? ']' (readValue? bound) bound rest
      some (.array items, rest)
    | '{' :: rest => do
      let (members, rest) ← readList? '}' (readMember? (readValue? bound)) bound rest
      some (.object members, rest)
    | rest => readNumber? rest

/-- The value that a text stands for, if the text is one JSON value and nothing else. No value is
nested more deeply than its text is long, and no list is longer. -/
def read? (text : String) : Option Json := do
  let (value, rest) ← readValue? text.length text.toList
  if (skipBlanks rest).isEmpty then some value else none

example : read? " [1.50, \x7b\"a\\u0041\\/\" : null\x7d]" =
    some (.array [.number "1.50", .object [("aA/", .null)]]) := by rfl

example : (read? "[01]", read? "[1,]", read? "\"\t\"", read? "1. ") = (none, none, none, none) := by
  rfl

/-! ## Strings are read up to their closing mark -/

/-- A control character is read from its number. -/
theorem charOfHex?_control {c : Char} (control : c.toNat < 0x20) :
    charOfHex? '0' '0' (hexDigit (c.toNat / 16)) (hexDigit (c.toNat % 16)) = some c := by
  have each : ∀ code : Fin 0x20,
      charOfHex? '0' '0' (hexDigit (code / 16)) (hexDigit (code % 16)) =
        some (Char.ofNat code) := by decide
  exact (each ⟨c.toNat, control⟩).trans (congrArg some (Char.ofNat_toNat c))

/-- A character that stands for itself is read as it is. -/
theorem readString?_cons {c : Char} {text : List Char} (unmarked : ¬(c = '"' ∨ c = '\\'))
    (printable : ¬c.toNat < 0x20) : readString? (c :: text) = before c (readString? text) := by
  rw [not_or] at unmarked
  rw [readString?.eq_def (c :: text)]
  split
  · rename_i shape
    cases shape
  · rename_i shape
    exact absurd (List.cons.inj shape).1 unmarked.1
  · rename_i shape
    exact absurd (List.cons.inj shape).1 unmarked.2
  · rename_i shape
    exact absurd (List.cons.inj shape).1 unmarked.2
  · rename_i shape
    cases shape
    exact if_neg (not_or.mpr ⟨printable, unmarked.2⟩)

/-- A character is read from what is written for it. -/
theorem readString?_escape (c : Char) (text : List Char) :
    readString? (escape c ++ text) = before c (readString? text) := by
  unfold escape
  split
  · rename_i marked
    rcases marked with rfl | rfl <;> rfl
  iterate 5
    split
    · subst c
      rfl
  split
  · rename_i control
    exact congrArg (Option.bind · fun c => before c (readString? text)) (charOfHex?_control control)
  · exact readString?_cons ‹_› ‹_›

/-- A string is read from its text. -/
theorem readString?_quote (text rest : List Char) :
    readString? (text.flatMap escape ++ '"' :: rest) = some (text, rest) := by
  induction text with
  | nil => rfl
  | cons c text ih =>
    rw [List.flatMap_cons, List.append_assoc, readString?_escape, ih]
    rfl

/-! ## Numbers are read up to the first character that is in none -/

/-- Holds of the texts of numbers. -/
def IsNumber (text : List Char) : Prop :=
  ∃ numeral : Numeral, numeral.WellFormed ∧ (text = numeral.text ∨ text = '-' :: numeral.text)

/-- A text after which no number goes on. -/
def EndsNumber (rest : List Char) : Prop :=
  ∀ c, rest.head? = some c → isNumberChar c = false

/-- A numeral is made of number characters only. -/
theorem isNumberChar_of_mem_text {numeral : Numeral} (formed : numeral.WellFormed) :
    ∀ c ∈ numeral.text, isNumberChar c = true :=
  formed.forall_mem_text (fun c digit => by simp [isNumberChar, digit]) (by simp [isNumberChar])

theorem isNumber_of_text {numeral : Numeral} (formed : numeral.WellFormed) {text : List Char}
    (shape : (if text.head? = some '-' then text.tail else text) = numeral.text) :
    isNumber text = true := by
  have reads := Numeral.readExponent?_exponentText formed
  have inOrder : (numeral.whole == ['0'] ||
      (!numeral.whole.isEmpty && numeral.whole.head? != some '0')) = true := by
    by_cases zero : numeral.whole = ['0']
    · simp [zero]
    · have first := mt formed.leading zero
      simp [formed.nonempty, first]
  unfold isNumber
  dsimp only
  rw [shape, Numeral.takeWhile_text formed, Numeral.dropWhile_text formed]
  unfold Numeral.fractionText
  by_cases noFraction : numeral.fraction = []
  · rw [if_pos noFraction, List.nil_append]
    split
    · exact absurd ‹_› Numeral.exponentText_ne_point
    · simp only [inOrder, reads, Option.isSome_some, Bool.and_self]
  · rw [if_neg noFraction, List.cons_append]
    simp only [inOrder, Numeral.takeWhile_fraction formed, Numeral.dropWhile_fraction formed, reads,
      Option.isSome_some, Bool.and_true, Bool.true_and, Bool.not_eq_true',
      List.isEmpty_eq_false_iff]
    exact noFraction

/-- The texts of numbers are numbers to the reader. -/
theorem IsNumber.isNumber {text : List Char} (number : IsNumber text) : isNumber text = true := by
  obtain ⟨numeral, formed, rfl | rfl⟩ := number
  · apply isNumber_of_text formed
    obtain ⟨c, more, shape, digit⟩ := formed.starts
    have unsigned : numeral.text.head? ≠ some '-' := by
      rw [shape]
      rintro ⟨⟩
      cases digit
    exact if_neg unsigned
  · exact isNumber_of_text formed rfl

theorem IsNumber.isNumberChar {text : List Char} (number : IsNumber text) :
    ∀ c ∈ text, isNumberChar c = true := by
  obtain ⟨numeral, formed, rfl | rfl⟩ := number
  · exact isNumberChar_of_mem_text formed
  · exact List.forall_mem_cons.mpr ⟨rfl, isNumberChar_of_mem_text formed⟩

/-- A number is read from its text. -/
theorem readNumber?_append {text rest : List Char} (number : IsNumber text)
    (ends : EndsNumber rest) :
    readNumber? (text ++ rest) = some (.number (String.ofList text), rest) := by
  have stops : rest.takeWhile Json.isNumberChar = [] ∧ rest.dropWhile Json.isNumberChar = rest := by
    cases rest with
    | nil => exact ⟨rfl, rfl⟩
    | cons c rest => simp [ends c rfl]
  unfold readNumber?
  rw [List.takeWhile_append_of_pos number.isNumberChar,
    List.dropWhile_append_of_pos number.isNumberChar, stops.1, stops.2, List.append_nil]
  exact if_pos number.isNumber

theorem IsNumber.starts {text : List Char} (number : IsNumber text) :
    ∃ c more, text = c :: more ∧ (c.isDigit = true ∨ c = '-') := by
  obtain ⟨numeral, formed, rfl | rfl⟩ := number
  · obtain ⟨c, more, shape, digit⟩ := formed.starts
    exact ⟨c, more, shape, .inl digit⟩
  · exact ⟨'-', _, rfl, .inr rfl⟩

/-! ## Lists are read if each of their items is -/

theorem skipBlanks_cons {c : Char} (notBlank : isBlank c = false) (text : List Char) :
    skipBlanks (c :: text) = c :: text :=
  List.dropWhile_cons_of_neg (by simp [notBlank])

/-- Joined texts are no shorter than each of them. -/
theorem length_le_intercalate {texts : List (List Char)} {text separator : List Char}
    (inside : text ∈ texts) : text.length ≤ (separator.intercalate texts).length := by
  induction texts with
  | nil => cases inside
  | cons first others ih =>
    cases others with
    | nil =>
      obtain rfl := List.mem_singleton.mp inside
      rw [List.intercalate_singleton]
    | cons second others =>
      rw [List.intercalate_cons_cons, List.length_append, List.length_append]
      rcases List.mem_cons.mp inside with rfl | later
      · omega
      · have := ih later
        omega

/-- Joined texts are no fewer than the separators between them. -/
theorem length_le_length_intercalate {separator : List Char} (nonempty : separator ≠ [])
    (texts : List (List Char)) : texts.length ≤ (separator.intercalate texts).length + 1 := by
  have one := List.length_pos_iff.mpr nonempty
  induction texts with
  | nil => exact Nat.zero_le _
  | cons first others ih =>
    cases others with
    | nil => exact Nat.le_add_left ..
    | cons second others =>
      rw [List.intercalate_cons_cons, List.length_append, List.length_append, List.length_cons]
      omega

section

variable {α : Type} {close : Char} {item : List Char → Option (α × List Char)}
  {textOf : α → List Char}

/-- Holds of the items that a reader finds in their texts, wherever no number could go on. -/
def ReadsEach (item : List Char → Option (α × List Char)) (textOf : α → List Char)
    (values : List α) : Prop :=
  ∀ value ∈ values, ∀ rest, EndsNumber rest → item (textOf value ++ rest) = some (value, rest)

theorem endsNumber_cons {c : Char} (ends : isNumberChar c = false) (rest : List Char) :
    EndsNumber (c :: rest) := by
  rintro _ ⟨⟩
  exact ends

theorem readItems?_blank (skips : ∀ text, item (' ' :: text) = item text) (most : Nat)
    (text : List Char) :
    readItems? close item most (' ' :: text) = readItems? close item most text := by
  cases most with
  | zero => rfl
  | succ most => rw [readItems?, readItems?, skips]

/-- Items are read from their texts with commas and blanks between them. -/
theorem readItems?_join {first : α} {others : List α} {most : Nat}
    (bracket : close = ']' ∨ close = '}') (skips : ∀ text, item (' ' :: text) = item text)
    (reads : ReadsEach item textOf (first :: others)) (within : others.length < most)
    (rest : List Char) :
    readItems? close item most
        ([',', ' '].intercalate ((first :: others).map textOf) ++ close :: rest) =
      some (first :: others, rest) := by
  induction others generalizing first most with
  | nil =>
    obtain ⟨most, rfl⟩ := Nat.exists_eq_succ_of_ne_zero (Nat.ne_zero_of_lt within)
    have ends : EndsNumber (close :: rest) := by
      rcases bracket with rfl | rfl <;> exact endsNumber_cons rfl rest
    have read := reads first List.mem_cons_self (close :: rest) ends
    rw [List.map_singleton, List.intercalate_singleton, readItems?, read]
    rcases bracket with rfl | rfl <;> rfl
  | cons second others ih =>
    obtain ⟨most, rfl⟩ := Nat.exists_eq_succ_of_ne_zero (Nat.ne_zero_of_lt within)
    have readsOthers : ReadsEach item textOf (second :: others) := fun value mem =>
      reads value (List.mem_cons_of_mem _ mem)
    have ends : ∀ text, EndsNumber (',' :: text) := endsNumber_cons rfl
    have read := reads first List.mem_cons_self _ (ends (' ' ::
      ([',', ' '].intercalate ((second :: others).map textOf) ++ close :: rest)))
    have text : [',', ' '].intercalate ((first :: second :: others).map textOf) ++ close :: rest =
        textOf first ++ ',' :: ' ' ::
          ([',', ' '].intercalate ((second :: others).map textOf) ++ close :: rest) := by
      simp only [List.map_cons, List.intercalate_cons_cons, List.append_assoc, List.cons_append,
        List.nil_append]
    have further : readItems? close item most (' ' ::
        ([',', ' '].intercalate ((second :: others).map textOf) ++ close :: rest)) =
          some (second :: others, rest) := by
      rw [readItems?_blank skips]
      exact ih readsOthers (Nat.lt_of_succ_lt_succ within)
    rw [text, readItems?, read]
    exact congrArg (Option.bind · fun (others, rest) => some (first :: others, rest)) further

/-- A list is read from the texts of its items, if none of them looks like its end. -/
theorem readList?_join {values : List α} {most : Nat}
    (bracket : close = ']' ∨ close = '}') (skips : ∀ text, item (' ' :: text) = item text)
    (reads : ReadsEach item textOf values)
    (starts : ∀ value ∈ values, ∃ c more, textOf value = c :: more ∧ isBlank c = false ∧ c ≠ close)
    (within : values.length ≤ most) (rest : List Char) :
    readList? close item most ([',', ' '].intercalate (values.map textOf) ++ close :: rest) =
      some (values, rest) := by
  cases values with
  | nil =>
    have notBlank : isBlank close = false := by rcases bracket with rfl | rfl <;> rfl
    rw [List.map_nil, List.intercalate_nil, List.nil_append, readList?, skipBlanks_cons notBlank]
    exact if_pos rfl
  | cons first others =>
    obtain ⟨c, more, shape, notBlank, notClose⟩ := starts first List.mem_cons_self
    have read := readItems?_join bracket skips reads within rest
    obtain ⟨text, whole⟩ : ∃ text, [',', ' '].intercalate ((first :: others).map textOf) ++
        close :: rest = c :: text := by
      rw [List.map_cons, shape, List.intercalate_cons_cons_left]
      exact ⟨_, rfl⟩
    rw [whole] at read ⊢
    rw [readList?, skipBlanks_cons notBlank, ← read]
    exact if_neg notClose

end

end BraceLang.Json
