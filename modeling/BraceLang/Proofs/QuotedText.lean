import BraceLang.Text.Quoted

/-!
Quoted text can be read again. One character is read from what is written for it, whatever follows,
and nothing that is written for a character starts with the quotation mark. So quoted text ends at
its second mark and nowhere before, and two texts that are quoted alike are equal
(`quote_append_inj`). All that is written stands for itself, so that a quoted text never leaves its
line (`isPrintable_of_mem_quote`).
-/
namespace BraceLang.Text

/-- The value of a hexadecimal digit in lower case. -/
def hexValue (c : Char) : Nat :=
  if c.isDigit then c.toNat - '0'.toNat else 10 + (c.toNat - 'a'.toNat)

/-- The number that hexadecimal digits stand for. -/
def ofHexDigits (digits : List Char) : Nat :=
  digits.foldl (fun number c => 16 * number + hexValue c) 0

/-- The character that a letter stands for after a backslash. Most stand for themselves. -/
def ofLetter : Char → Char
  | '0' => '\x00'
  | 't' => '\t'
  | 'r' => '\r'
  | 'n' => '\n'
  | c => c

/-- A character as it is written between quotation marks, and the text after it. -/
def readEscaped? : List Char → Option (Char × List Char)
  | [] => none
  | '\\' :: 'u' :: '{' :: rest =>
    some (.ofNat (ofHexDigits (rest.takeWhile (· != '}'))), (rest.dropWhile (· != '}')).tail)
  | '\\' :: letter :: rest => some (ofLetter letter, rest)
  | c :: rest => some (c, rest)

theorem hexValue_digitChar {digit : Nat} (small : digit < 16) :
    hexValue (Nat.digitChar digit) = digit ∧ Nat.digitChar digit ≠ '}' := by
  have each : ∀ digit : Fin 16,
      hexValue (Nat.digitChar digit) = digit ∧ Nat.digitChar digit ≠ '}' := by decide
  exact each ⟨digit, small⟩

/-- A number has no digits but those of its base. -/
theorem exists_of_mem_toDigits {base : Nat} (positional : 1 < base) (number : Nat) {c : Char}
    (mem : c ∈ Nat.toDigits base number) : ∃ digit < base, c = Nat.digitChar digit := by
  induction number using Nat.strongRecOn with
  | ind number ih =>
    by_cases single : number < base
    · rw [Nat.toDigits_of_lt_base single] at mem
      exact ⟨number, single, List.mem_singleton.mp mem⟩
    · have more : base ≤ number := Nat.not_lt.mp single
      rw [Nat.toDigits_of_base_le positional more, List.mem_append] at mem
      rcases mem with other | last
      · exact ih _ (Nat.div_lt_self (by omega) positional) other
      · exact ⟨number % base, Nat.mod_lt number (by omega), List.mem_singleton.mp last⟩

/-- A number is read from its digits. -/
theorem ofHexDigits_toDigits (number : Nat) : ofHexDigits (Nat.toDigits 16 number) = number := by
  induction number using Nat.strongRecOn with
  | ind number ih =>
    by_cases single : number < 16
    · rw [Nat.toDigits_of_lt_base single, ofHexDigits, List.foldl_cons, List.foldl_nil,
        (hexValue_digitChar single).1, Nat.mul_zero, Nat.zero_add]
    · have more : 16 ≤ number := Nat.not_lt.mp single
      have last := hexValue_digitChar (Nat.mod_lt number (by decide : 0 < 16))
      have others := ih (number / 16) (Nat.div_lt_self (by omega) (by decide))
      unfold ofHexDigits at others ⊢
      rw [Nat.toDigits_of_base_le (by decide) more, List.foldl_append, others, List.foldl_cons,
        List.foldl_nil, last.1, Nat.div_add_mod]

/-- A character is read from its number. -/
theorem readEscaped?_escapeByNumber (c : Char) (rest : List Char) :
    readEscaped? (escapeByNumber c ++ rest) = some (c, rest) := by
  have within : ∀ d ∈ Nat.toDigits 16 c.toNat, (d != '}') = true := by
    intro d mem
    obtain ⟨digit, small, rfl⟩ := exists_of_mem_toDigits (by decide) _ mem
    exact bne_iff_ne.mpr (hexValue_digitChar small).2
  have text : escapeByNumber c ++ rest =
      '\\' :: 'u' :: '{' :: (Nat.toDigits 16 c.toNat ++ '}' :: rest) := by
    simp [escapeByNumber]
  rw [text]
  simp only [readEscaped?, List.takeWhile_append_of_pos within,
    List.dropWhile_append_of_pos within]
  simp [ofHexDigits_toDigits, Char.ofNat_toNat]

theorem isPrintable_digitChar {digit : Nat} (small : digit < 16) :
    isPrintable (Nat.digitChar digit) = true := by
  have each : ∀ digit : Fin 16, isPrintable (Nat.digitChar digit) = true := by decide
  exact each ⟨digit, small⟩

/-- The digits of a number stand for themselves. -/
theorem isPrintable_of_mem_toDigits {base : Nat} (positional : 1 < base) (small : base ≤ 16)
    {number : Nat} : ∀ d ∈ Nat.toDigits base number, isPrintable d = true := by
  intro d mem
  obtain ⟨digit, below, rfl⟩ := exists_of_mem_toDigits positional _ mem
  exact isPrintable_digitChar (Nat.lt_of_lt_of_le below small)

section

variable {mark : Char} (isMark : mark = '"' ∨ mark = '\'')
include isMark

/-- A character is read from what is written for it. -/
theorem readEscaped?_escape (c : Char) (rest : List Char) :
    readEscaped? (escape mark c ++ rest) = some (c, rest) := by
  unfold escape
  iterate 4
    split
    · subst c
      rfl
  split
  · rename_i marked
    rcases marked with rfl | rfl
    · rfl
    · rcases isMark with rfl | rfl <;> rfl
  split
  · rename_i unmarked _
    rw [List.singleton_append, readEscaped?.eq_def]
    split
    · rename_i shape
      cases shape
    · rename_i shape
      exact absurd (.inl (List.cons.inj shape).1) unmarked
    · rename_i shape
      exact absurd (.inl (List.cons.inj shape).1) unmarked
    · rename_i shape
      cases shape
      rfl
  · exact readEscaped?_escapeByNumber c rest

/-- What is written for a character does not start with the quotation mark. -/
theorem escape_append_ne (c : Char) (rest rest' : List Char) :
    escape mark c ++ rest ≠ mark :: rest' := by
  have notBackslash : '\\' ≠ mark := by rcases isMark with rfl | rfl <;> decide
  unfold escape escapeByNumber
  iterate 5
    split
    · exact fun same => notBackslash (List.cons.inj same).1
  split
  · rename_i unmarked _
    exact fun same => unmarked (.inr (List.cons.inj same).1)
  · exact fun same => notBackslash (List.cons.inj same).1

/-- Text between quotation marks ends at the second mark. -/
theorem escaped_append_inj {text text' rest rest' : List Char}
    (same : text.flatMap (escape mark) ++ mark :: rest =
      text'.flatMap (escape mark) ++ mark :: rest') : text = text' ∧ rest = rest' := by
  induction text generalizing text' with
  | nil =>
    cases text' with
    | nil => exact ⟨rfl, (List.cons.inj same).2⟩
    | cons c' text' =>
      rw [List.flatMap_cons, List.append_assoc] at same
      exact absurd same.symm (escape_append_ne isMark c' _ _)
  | cons c text ih =>
    cases text' with
    | nil =>
      rw [List.flatMap_cons, List.append_assoc] at same
      exact absurd same (escape_append_ne isMark c _ _)
    | cons c' text' =>
      rw [List.flatMap_cons, List.flatMap_cons, List.append_assoc, List.append_assoc] at same
      have read := congrArg readEscaped? same
      rw [readEscaped?_escape isMark, readEscaped?_escape isMark] at read
      obtain ⟨rfl, further⟩ := Prod.mk.inj (Option.some.inj read)
      obtain ⟨rfl, rfl⟩ := ih further
      exact ⟨rfl, rfl⟩

/-- Quoted text and what follows it are told apart. -/
theorem quote_append_inj {text text' rest rest' : List Char}
    (same : quote mark text ++ rest = quote mark text' ++ rest') : text = text' ∧ rest = rest' := by
  simp only [quote, List.cons_append, List.append_assoc, List.nil_append] at same
  exact escaped_append_inj isMark (List.cons.inj same).2

/-- What is written for a character stands for itself, whatever the character. -/
theorem isPrintable_of_mem_escape (c : Char) : ∀ d ∈ escape mark c, isPrintable d = true := by
  unfold escape
  iterate 4
    split
    · exact List.forall_mem_cons.mpr ⟨rfl, List.forall_mem_singleton.mpr rfl⟩
  split
  · rename_i marked
    have printable : isPrintable c = true := by
      rcases marked with rfl | rfl
      · rfl
      · rcases isMark with rfl | rfl <;> rfl
    exact List.forall_mem_cons.mpr ⟨rfl, List.forall_mem_singleton.mpr printable⟩
  split
  · rename_i printable
    exact List.forall_mem_singleton.mpr printable
  · have digits : ∀ d ∈ Nat.toDigits 16 c.toNat, isPrintable d = true :=
      isPrintable_of_mem_toDigits (by decide) (Nat.le_refl 16)
    simp only [escapeByNumber, List.forall_mem_append, List.forall_mem_cons]
    exact ⟨⟨⟨rfl, rfl, rfl, nofun⟩, digits⟩, rfl, nofun⟩

/-- Quoted text has no character that does not stand for itself. -/
theorem isPrintable_of_mem_quote (text : List Char) :
    ∀ d ∈ quote mark text, isPrintable d = true := by
  have markPrintable : isPrintable mark = true := by rcases isMark with rfl | rfl <;> rfl
  have inner : ∀ d ∈ text.flatMap (escape mark), isPrintable d = true := by
    intro d mem
    obtain ⟨c, -, written⟩ := List.mem_flatMap.mp mem
    exact isPrintable_of_mem_escape isMark c d written
  exact List.forall_mem_append.mpr ⟨List.forall_mem_cons.mpr ⟨markPrintable, inner⟩,
    List.forall_mem_singleton.mpr markPrintable⟩

end

end BraceLang.Text
