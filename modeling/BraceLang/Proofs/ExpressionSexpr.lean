import BraceLang.Proofs.NumberText
import BraceLang.Proofs.SexprReading
import BraceLang.Proofs.WellFormedTree
import BraceLang.Tree.Sexpr
import Mathlib

/-!
What the symbolic expressions of expressions say about them. There are no tags for the kinds of
leaf: an expression that is no operation is an atom, and the kind of token that its text looks like
says which leaf it is, since names are not reserved words and every number with a fraction has a
point or an exponent. All else is a list that starts with an operator or a word, and with the number
of items that the operation has.
-/
namespace BraceLang

namespace Sexpr

/-! ## Symbols, numerals, names and types are atoms -/

/-- What holds of no delimiter holds of bare characters only. -/
theorem isBare_of_holds {p : Char → Bool} {c : Char} (holds : p c = true)
    (none : [' ', '(', ')', '[', ']'].any p = false) : isBare c = true := by
  have other : ∀ d ∈ [' ', '(', ')', '[', ']'], c ≠ d := by
    rintro d mem rfl
    rw [List.any_eq_true.mpr ⟨c, mem, holds⟩] at none
    cases none
  simp only [List.forall_mem_cons] at other
  simp [isBare, other]

theorem isBare_of_isDigit {c : Char} (digit : c.isDigit = true) : isBare c = true :=
  isBare_of_holds digit rfl

theorem isBare_of_isWordPart {c : Char} (part : isWordPart c = true) : isBare c = true :=
  isBare_of_holds part rfl

/-- Holds of the texts of atoms that are neither quoted nor hold brackets. -/
def isPlain : List Char → Bool
  | [] => false
  | c :: rest => isBare c && c != '"' && c != '\'' && rest.all isBare

theorem isAtom_of_isPlain {text : List Char} (plain : isPlain text = true) : IsAtom text := by
  cases text with
  | nil => cases plain
  | cons c rest =>
    simp only [isPlain, Bool.and_eq_true, bne_iff_ne, List.all_eq_true] at plain
    obtain ⟨⟨⟨first, noString⟩, noChar⟩, others⟩ := plain
    exact .bare first ⟨noString, noChar⟩ (isRun_of_bare others)

theorem isAtom_symbol (kind : TokenKind) : IsAtom kind.symbol.toList := by
  cases kind <;> exact isAtom_of_isPlain rfl

/-- A text that starts with a digit is an atom if it is bare. -/
theorem isAtom_of_digit {c : Char} {rest : List Char} (digit : c.isDigit = true)
    (bare : ∀ d ∈ rest, isBare d = true) : IsAtom (c :: rest) := by
  refine .bare (isBare_of_isDigit digit) ⟨?_, ?_⟩ (isRun_of_bare bare)
  · rintro rfl
    cases digit
  · rintro rfl
    cases digit

/-- The text of a natural number is one digit and others. -/
theorem toList_natural {value : Int} (natural : 0 ≤ value) :
    ∃ c rest, (toString value).toList = c :: rest ∧ c.isDigit = true ∧
      ∀ d ∈ rest, d.isDigit = true := by
  obtain ⟨number, rfl⟩ := Int.eq_ofNat_of_zero_le natural
  have nonempty : Nat.toDigits 10 number ≠ [] := Nat.toDigits_ne_nil
  obtain ⟨c, rest, shape⟩ := List.exists_cons_of_ne_nil nonempty
  have digits : ∀ d ∈ c :: rest, d.isDigit = true := shape ▸ isDigit_toDigits
  obtain ⟨digit, others⟩ := List.forall_mem_cons.mp digits
  exact ⟨c, rest, (toString_natCast_toList number).trans shape, digit, others⟩

theorem isAtom_numeral {numeral : Numeral} (formed : numeral.WellFormed) :
    IsAtom numeral.text := by
  obtain ⟨c, more, shape, digit⟩ := formed.starts
  have bare : ∀ d ∈ c :: more, isBare d = true :=
    shape ▸ formed.forall_mem_text (fun _ => isBare_of_isDigit) (by simp [isBare])
  rw [shape]
  exact isAtom_of_digit digit (List.forall_mem_cons.mp bare).2

/-- A name with pairs of brackets after it is an atom. -/
theorem isAtom_word {text pairs : List Char} (word : IsWord text) (run : IsRun pairs) :
    IsAtom (text ++ pairs) := by
  obtain ⟨c, rest, rfl, starts, parts⟩ := word
  refine .bare (isBare_of_holds starts rfl) ⟨?_, ?_⟩ ((isRun_of_bare fun d mem =>
    isBare_of_isWordPart (parts d mem)).append run)
  · rintro rfl
    cases starts
  · rintro rfl
    cases starts

theorem isAtom_name {name : String} (isName : IsNameText name) : IsAtom name.toList := by
  have atom := isAtom_word isName.1 .nil
  rwa [List.append_nil] at atom

/-- Pairs of brackets. -/
def pairs (dimensions : Nat) : List Char :=
  (List.replicate dimensions ['[', ']']).flatten

theorem isRun_pairs (dimensions : Nat) : IsRun (pairs dimensions) := by
  induction dimensions with
  | zero => exact .nil
  | succ dimensions ih => exact .pair ih

theorem length_pairs (dimensions : Nat) : (pairs dimensions).length = dimensions * 2 := by
  simp [pairs]

/-- A name ends where its pairs of brackets start. -/
theorem takeWhile_word {text : List Char} (word : IsWord text) (dimensions : Nat) :
    (text ++ pairs dimensions).takeWhile isWordPart = text := by
  obtain ⟨c, rest, rfl, starts, parts⟩ := word
  have part : isWordPart c = true := isWordPart_iff.mpr (.inl (isWordStart_iff.mp starts))
  have stops : (pairs dimensions).takeWhile isWordPart = [] := by cases dimensions <;> rfl
  rw [List.takeWhile_append_of_pos (List.forall_mem_cons.mpr ⟨part, parts⟩), stops,
    List.append_nil]

end Sexpr

open Sexpr (form IsAtom pairs)

theorem TypeName.toList_spelling (type : TypeName) :
    type.spelling.toList = type.name.toList ++ pairs type.dimensions := by
  rw [spelling, String.toList_append, String.toList_join, List.flatMap_replicate]
  rfl

theorem TypeName.isAtom_spelling {type : TypeName} (formed : type.WellFormed) :
    IsAtom type.spelling.toList := by
  rw [toList_spelling]
  exact Sexpr.isAtom_word formed.1 (Sexpr.isRun_pairs _)

/-- Types of one spelling are equal, since no name holds a bracket. -/
theorem TypeName.spelling_injective {first second : TypeName} (formed : first.WellFormed)
    (formed' : second.WellFormed) (same : first.spelling = second.spelling) : first = second := by
  obtain ⟨name, dimensions⟩ := first
  obtain ⟨name', dimensions'⟩ := second
  have texts := congrArg String.toList same
  rw [toList_spelling, toList_spelling] at texts
  have names := congrArg (List.takeWhile isWordPart) texts
  rw [Sexpr.takeWhile_word formed.1, Sexpr.takeWhile_word formed'.1] at names
  obtain rfl := String.toList_inj.mp names
  have lengths := congrArg List.length (List.append_cancel_left texts)
  rw [Sexpr.length_pairs, Sexpr.length_pairs] at lengths
  exact congrArg (TypeName.mk name) (Nat.mul_right_cancel Nat.two_pos lengths)

/-! ## The text of a leaf says which leaf it is -/

/-- Expressions that are shown as atoms, with the kind of token that their texts look like and their
texts. -/
inductive Expression.IsLeaf : Expression → TokenKind → String → Prop where
  | name (isName : IsNameText name) : IsLeaf (.identifier name) .identifier name
  | isTrue : IsLeaf (.bool true) .kwTrue "true"
  | isFalse : IsLeaf (.bool false) .kwFalse "false"
  | this : IsLeaf (.object .kwThis) .kwThis "this"
  | null : IsLeaf (.object .kwNull) .kwNull "null"
  | string (value : String) : IsLeaf (.string value) .stringLiteral (Text.quoteString value)
  | char (value : Char) : IsLeaf (.char value) .charLiteral (Text.quoteChar value)
  | int (natural : 0 ≤ value) : IsLeaf (.int value) .intLiteral (toString value)
  | float (isFinite : value.isFinite = true) (unsigned : value.isNegative = false) :
      IsLeaf (.float value) .floatLiteral (Sexpr.ofBinary64 value)

/-- The kind of token that the text of an atom looks like. -/
def Sexpr.kindOfAtom (text : String) : TokenKind :=
  match text.toList with
  | [] => .illegal
  | c :: rest =>
    if c = '"' then .stringLiteral
    else if c = '\'' then .charLiteral
    else if c.isDigit then if rest.all Char.isDigit then .intLiteral else .floatLiteral
    else TokenKind.ofWord text

theorem Sexpr.kindOfAtom_digits {text : String} {c : Char} {rest : List Char}
    (shape : text.toList = c :: rest) (digit : c.isDigit = true) :
    kindOfAtom text = if rest.all Char.isDigit then .intLiteral else .floatLiteral := by
  have noString : c ≠ '"' := by
    rintro rfl
    cases digit
  have noChar : c ≠ '\'' := by
    rintro rfl
    cases digit
  simp only [kindOfAtom, shape, if_neg noString, if_neg noChar, if_pos digit]

/-- A double that is not negative has the text of its numeral. -/
theorem Sexpr.toList_ofBinary64 {value : Binary64} (isFinite : value.isFinite = true)
    (unsigned : value.isNegative = false) :
    ∃ numeral : Numeral, numeral.WellFormed ∧ (ofBinary64 value).toList = numeral.text ∧
      ∃ c ∈ numeral.text, c.isDigit = false := by
  cases value with
  | nan | infinity => cases isFinite
  | finite negative significand exponent canonical =>
    obtain rfl : negative = false := unsigned
    refine ⟨_, numberLayout.wellFormed_finiteNumeral canonical, ?_,
      Numeral.exists_not_isDigit (numberLayout.finiteNumeral_pointed significand exponent)⟩
    rw [ofBinary64, String.toList_ofList, DecimalLayout.finite_eq_text]
    rfl

/-- Finite numbers of one text are equal. -/
theorem Sexpr.ofBinary64_injective {first second : Binary64} (isFinite : first.isFinite = true)
    (isFinite' : second.isFinite = true) (same : ofBinary64 first = ofBinary64 second) :
    first = second := by
  cases first with
  | nan | infinity => cases isFinite
  | finite negative significand exponent canonical =>
    cases second with
    | nan | infinity => cases isFinite'
    | finite negative' significand' exponent' canonical' =>
      exact numberLayout.finite_injective canonical canonical' (String.ofList_inj.mp same)

namespace Expression.IsLeaf

variable {expression other : Expression} {kind : TokenKind} {text text' : String}

theorem toSexpr_eq (leaf : IsLeaf expression kind text) : expression.toSexpr = .atom text := by
  cases leaf <;> rfl

theorem isAtom (leaf : IsLeaf expression kind text) : IsAtom text.toList := by
  cases leaf with
  | name isName => exact Sexpr.isAtom_name isName
  | isTrue | isFalse | this | null => exact Sexpr.isAtom_of_isPlain rfl
  | string value =>
    rw [Text.quoteString, String.toList_ofList]
    exact .quoted (.inl rfl) _
  | char value =>
    rw [Text.quoteChar, String.toList_ofList]
    exact .quoted (.inr rfl) _
  | int natural =>
    obtain ⟨c, rest, shape, digit, others⟩ := Sexpr.toList_natural natural
    rw [shape]
    exact Sexpr.isAtom_of_digit digit fun d mem => Sexpr.isBare_of_isDigit (others d mem)
  | float isFinite unsigned =>
    obtain ⟨numeral, formed, shape, -⟩ := Sexpr.toList_ofBinary64 isFinite unsigned
    rw [shape]
    exact Sexpr.isAtom_numeral formed

/-- The text of a leaf looks like the kind of token that the leaf stands for. -/
theorem kindOfAtom_eq (leaf : IsLeaf expression kind text) : Sexpr.kindOfAtom text = kind := by
  cases leaf with
  | name isName =>
    obtain ⟨⟨c, rest, shape, starts, -⟩, free⟩ := isName
    have noString : c ≠ '"' := by
      rintro rfl
      cases starts
    have noChar : c ≠ '\'' := by
      rintro rfl
      cases starts
    have noDigit : ¬c.isDigit = true := by
      intro digit
      rw [(Lexeme.isBlank_of_isDigit digit).2.2] at starts
      cases starts
    simp only [Sexpr.kindOfAtom, shape, if_neg noString, if_neg noChar, if_neg noDigit,
      TokenKind.ofWord, free, Option.getD_none]
  | isTrue | isFalse | this | null => rfl
  | string value =>
    simp [Sexpr.kindOfAtom, Text.quoteString, Text.quote]
  | char value =>
    simp [Sexpr.kindOfAtom, Text.quoteChar, Text.quote]
  | int natural =>
    obtain ⟨c, rest, shape, digit, others⟩ := Sexpr.toList_natural natural
    rw [Sexpr.kindOfAtom_digits shape digit]
    exact if_pos (List.all_eq_true.mpr others)
  | float isFinite unsigned =>
    obtain ⟨numeral, formed, shape, d, inside, mark⟩ :=
      Sexpr.toList_ofBinary64 isFinite unsigned
    obtain ⟨c, rest, shape', digit⟩ := formed.starts
    rw [Sexpr.kindOfAtom_digits (shape.trans shape') digit]
    -- a point or the letter of an exponent tells the number from a whole one
    have notAll : ¬rest.all Char.isDigit = true := by
      intro all
      have digits : ∀ d ∈ c :: rest, d.isDigit = true :=
        List.forall_mem_cons.mpr ⟨digit, List.all_eq_true.mp all⟩
      rw [digits d (shape' ▸ inside)] at mark
      cases mark
    exact if_neg notAll

/-- Leaves of one kind and one text are equal. -/
theorem unique (leaf : IsLeaf expression kind text) (leaf' : IsLeaf other kind text')
    (same : text = text') : expression = other := by
  cases leaf with
  | name =>
    cases leaf' with
    | name => exact congrArg Expression.identifier same
  | isTrue | isFalse | this | null =>
    cases leaf'
    rfl
  | string value =>
    cases leaf' with
    | string value' =>
      have texts := congrArg (· ++ []) (String.ofList_inj.mp same)
      have values := (Text.quote_append_inj (.inl rfl) texts).1
      exact congrArg Expression.string (String.toList_inj.mp values)
  | char value =>
    cases leaf' with
    | char value' =>
      have texts := congrArg (· ++ []) (String.ofList_inj.mp same)
      have values := (Text.quote_append_inj (.inr rfl) texts).1
      exact congrArg Expression.char (List.cons.inj values).1
  | int =>
    cases leaf' with
    | int => exact congrArg Expression.int (Int.repr_injective same)
  | @float value isFinite =>
    cases leaf' with
    | @float value' isFinite' =>
      exact congrArg Expression.float (Sexpr.ofBinary64_injective isFinite isFinite' same)

end Expression.IsLeaf

/-! ## No operator is written as a word that forms start with -/

/-- Operators of one symbol are equal. -/
theorem TokenKind.symbol_injective {first second : TokenKind}
    (same : first.symbol = second.symbol) : first = second := by
  have found : ∀ kind : TokenKind, all.find? (·.symbol == kind.symbol) = some kind := by
    intro kind
    cases kind <;> decide
  have read := found first
  rw [same, found second] at read
  exact (Option.some.inj read).symm

/-- The words that lists start with if they are shown for statements. -/
def Sexpr.statementWords : List String :=
  ["print", "return", "block", "if", "while", "for", "struct", "enum", "fn", "namespace", "using",
   "const", "let"]

/-- The words that lists start with if they are shown for no operator. -/
def Sexpr.words : List String :=
  "call" :: "index" :: statementWords

/-- No operator has such a word for a symbol. -/
theorem TokenKind.symbol_ne {word : String} (isWord : word ∈ Sexpr.words) (kind : TokenKind) :
    kind.symbol ≠ word := by
  rintro rfl
  revert isWord
  cases kind <;> decide

/-! ## Expressions of one form are equal -/

theorem Expression.allToSexpr_eq_map (expressions : List Expression) :
    Expression.allToSexpr expressions = expressions.map Expression.toSexpr := by
  induction expressions with
  | nil => rfl
  | cons expression expressions ih => rw [allToSexpr, ih, List.map_cons]

/-- A list that starts with a word is legible if its items are. -/
theorem Sexpr.legible_form {head : String} {items : List Sexpr} (word : IsAtom head.toList)
    (each : ∀ item ∈ items, item.Legible) : (form head items).Legible :=
  .list (List.forall_mem_cons.mpr ⟨.atom word, each⟩)

theorem Expression.IsLeaf.legible {expression : Expression} {kind : TokenKind} {text : String}
    (leaf : IsLeaf expression kind text) : expression.toSexpr.Legible := by
  rw [leaf.toSexpr_eq]
  exact .atom leaf.isAtom

namespace Expression.WellFormed

theorem bool_isLeaf (value : Bool) : ∃ kind text, IsLeaf (.bool value) kind text := by
  cases value with
  | true => exact ⟨_, _, .isTrue⟩
  | false => exact ⟨_, _, .isFalse⟩

theorem object_isLeaf {word : TokenKind} (isWord : word = .kwThis ∨ word = .kwNull) :
    ∃ kind text, IsLeaf (.object word) kind text := by
  rcases isWord with rfl | rfl
  · exact ⟨_, _, .this⟩
  · exact ⟨_, _, .null⟩

/-- An expression is either a leaf or shown as a list. -/
theorem isLeaf_or_form {expression : Expression} (formed : expression.WellFormed) :
    (∃ kind text, IsLeaf expression kind text) ∨
      ∃ head items, expression.toSexpr = form head items ∧
        (head = "call" ∨ head = "index" ∨ ∃ kind : TokenKind, head = kind.symbol) := by
  cases formed with
  | identifier isName => exact .inl ⟨_, _, .name isName⟩
  | bool value => exact .inl (bool_isLeaf value)
  | object isWord => exact .inl (object_isLeaf isWord)
  | string => exact .inl ⟨_, _, .string _⟩
  | float isFinite unsigned => exact .inl ⟨_, _, .float isFinite unsigned⟩
  | int natural => exact .inl ⟨_, _, .int natural⟩
  | char => exact .inl ⟨_, _, .char _⟩
  | unary | binary => exact .inr ⟨_, _, rfl, .inr (.inr ⟨_, rfl⟩)⟩
  | call => exact .inr ⟨_, _, rfl, .inl rfl⟩
  | subscript => exact .inr ⟨_, _, rfl, .inr (.inl rfl)⟩

theorem legible {expression : Expression} (formed : expression.WellFormed) :
    expression.toSexpr.Legible := by
  induction formed with
  | identifier isName => exact (IsLeaf.name isName).legible
  | bool value =>
    obtain ⟨_, _, leaf⟩ := bool_isLeaf value
    exact leaf.legible
  | object isWord =>
    obtain ⟨_, _, leaf⟩ := object_isLeaf isWord
    exact leaf.legible
  | string => exact (IsLeaf.string _).legible
  | float isFinite unsigned => exact (IsLeaf.float isFinite unsigned).legible
  | int natural => exact (IsLeaf.int natural).legible
  | char => exact (IsLeaf.char _).legible
  | unary _ _ operand =>
    exact Sexpr.legible_form (Sexpr.isAtom_symbol _) (List.forall_mem_singleton.mpr operand)
  | binary _ _ _ left right =>
    exact Sexpr.legible_form (Sexpr.isAtom_symbol _)
      (List.forall_mem_cons.mpr ⟨left, List.forall_mem_singleton.mpr right⟩)
  | call _ _ callee arguments =>
    rw [toSexpr, allToSexpr_eq_map]
    exact Sexpr.legible_form (Sexpr.isAtom_of_isPlain rfl)
      (List.forall_mem_cons.mpr ⟨callee, List.forall_mem_map.mpr arguments⟩)
  | subscript _ _ base index =>
    exact Sexpr.legible_form (Sexpr.isAtom_of_isPlain rfl)
      (List.forall_mem_cons.mpr ⟨base, List.forall_mem_singleton.mpr index⟩)

end Expression.WellFormed

theorem Sexpr.form_inj {head head' : String} {items items' : List Sexpr} :
    form head items = form head' items' ↔ head = head' ∧ items = items' := by
  simp [form]

/-- Two lists are equal if their items are shown alike, each of which is shown like no other. -/
theorem eq_of_map_eq {α β : Type} {f : α → β} {p : α → Prop} {firsts seconds : List α}
    (each : ∀ first ∈ firsts, ∀ {second}, p second → f first = f second → first = second)
    (every : ∀ second ∈ seconds, p second) (same : firsts.map f = seconds.map f) :
    firsts = seconds := by
  induction firsts generalizing seconds with
  | nil =>
    cases seconds with
    | nil => rfl
    | cons => cases same
  | cons first firsts ih =>
    cases seconds with
    | nil => cases same
    | cons second seconds =>
      obtain ⟨head, tail⟩ := List.cons.inj same
      obtain ⟨isFirst, others⟩ := List.forall_mem_cons.mp each
      obtain ⟨isSecond, others'⟩ := List.forall_mem_cons.mp every
      rw [isFirst isSecond head, ih others others' tail]

theorem Expression.IsLeaf.eq_of_toSexpr_eq {first second : Expression} {kind : TokenKind}
    {text : String} (leaf : IsLeaf first kind text) (formed : second.WellFormed)
    (same : first.toSexpr = second.toSexpr) : first = second := by
  rw [leaf.toSexpr_eq] at same
  rcases formed.isLeaf_or_form with ⟨kind', text', leaf'⟩ | ⟨head, items, shape, -⟩
  · rw [leaf'.toSexpr_eq] at same
    have texts := Sexpr.atom.inj same
    obtain rfl : kind = kind' := by rw [← leaf.kindOfAtom_eq, texts, leaf'.kindOfAtom_eq]
    exact leaf.unique leaf' texts
  · rw [shape] at same
    cases same

/-- Well-formed expressions of one symbolic expression are equal. -/
theorem Expression.WellFormed.eq_of_toSexpr_eq {first second : Expression}
    (formed : first.WellFormed) (formed' : second.WellFormed)
    (same : first.toSexpr = second.toSexpr) : first = second := by
  induction formed generalizing second with
  | identifier isName => exact (IsLeaf.name isName).eq_of_toSexpr_eq formed' same
  | bool value =>
    obtain ⟨_, _, leaf⟩ := bool_isLeaf value
    exact leaf.eq_of_toSexpr_eq formed' same
  | object isWord =>
    obtain ⟨_, _, leaf⟩ := object_isLeaf isWord
    exact leaf.eq_of_toSexpr_eq formed' same
  | string => exact (IsLeaf.string _).eq_of_toSexpr_eq formed' same
  | float isFinite unsigned =>
    exact (IsLeaf.float isFinite unsigned).eq_of_toSexpr_eq formed' same
  | int natural => exact (IsLeaf.int natural).eq_of_toSexpr_eq formed' same
  | char => exact (IsLeaf.char _).eq_of_toSexpr_eq formed' same
  | @unary operator value _ _ ih =>
    cases formed' with
    | @unary operator' value' _ operand' =>
      obtain ⟨heads, items⟩ := Sexpr.form_inj.mp same
      rw [TokenKind.symbol_injective heads, ih operand' (List.cons.inj items).1]
    | binary => cases (List.cons.inj (Sexpr.form_inj.mp same).2).2
    | call => exact absurd (Sexpr.form_inj.mp same).1 (operator.symbol_ne (by decide))
    | subscript => exact absurd (Sexpr.form_inj.mp same).1 (operator.symbol_ne (by decide))
    | _ => cases same
  | @binary left right operator _ _ _ ihLeft ihRight =>
    cases formed' with
    | @binary left' right' operator' _ ofLeft ofRight =>
      obtain ⟨heads, items⟩ := Sexpr.form_inj.mp same
      obtain ⟨lefts, others⟩ := List.cons.inj items
      rw [TokenKind.symbol_injective heads, ihLeft ofLeft lefts,
        ihRight ofRight (List.cons.inj others).1]
    | unary => cases (List.cons.inj (Sexpr.form_inj.mp same).2).2
    | call => exact absurd (Sexpr.form_inj.mp same).1 (operator.symbol_ne (by decide))
    | subscript => exact absurd (Sexpr.form_inj.mp same).1 (operator.symbol_ne (by decide))
    | _ => cases same
  | @call callee arguments _ _ ihCallee ihArguments =>
    cases formed' with
    | @call callee' arguments' ofCallee ofArguments =>
      obtain ⟨callees, others⟩ := List.cons.inj (Sexpr.form_inj.mp same).2
      rw [allToSexpr_eq_map, allToSexpr_eq_map] at others
      rw [ihCallee ofCallee callees, eq_of_map_eq ihArguments ofArguments others]
    | @unary operator | @binary _ _ operator =>
      exact absurd (Sexpr.form_inj.mp same).1.symm (operator.symbol_ne (by decide))
    | subscript => exact absurd (Sexpr.form_inj.mp same).1 (by decide)
    | _ => cases same
  | @subscript base index _ _ ihBase ihIndex =>
    cases formed' with
    | @subscript base' index' ofBase ofIndex =>
      obtain ⟨bases, others⟩ := List.cons.inj (Sexpr.form_inj.mp same).2
      rw [ihBase ofBase bases, ihIndex ofIndex (List.cons.inj others).1]
    | @unary operator | @binary _ _ operator =>
      exact absurd (Sexpr.form_inj.mp same).1.symm (operator.symbol_ne (by decide))
    | call => exact absurd (Sexpr.form_inj.mp same).1 (by decide)
    | _ => cases same

/-- No expression is shown as a statement of another form is. -/
theorem Expression.WellFormed.toSexpr_ne_form {expression : Expression}
    (formed : expression.WellFormed) {word : String} {items : List Sexpr}
    (isWord : word ∈ Sexpr.statementWords) : expression.toSexpr ≠ form word items := by
  intro same
  rcases formed.isLeaf_or_form with ⟨_, _, leaf⟩ | ⟨head, items', shape, heads⟩
  · rw [leaf.toSexpr_eq] at same
    cases same
  · rw [shape, Sexpr.form_inj] at same
    obtain ⟨rfl, -⟩ := same
    rcases heads with rfl | rfl | ⟨kind, rfl⟩
    · exact absurd isWord (by decide)
    · exact absurd isWord (by decide)
    · have inWords := List.mem_cons_of_mem "call" (List.mem_cons_of_mem "index" isWord)
      exact kind.symbol_ne inWords rfl

/-- No expression is shown as an array literal is. -/
theorem Expression.WellFormed.toSexpr_ne_vector {expression : Expression}
    (formed : expression.WellFormed) {items : List Sexpr} :
    expression.toSexpr ≠ .vector items := by
  intro same
  rcases formed.isLeaf_or_form with ⟨_, _, leaf⟩ | ⟨_, _, shape, -⟩
  · rw [leaf.toSexpr_eq] at same
    cases same
  · rw [shape] at same
    cases same

theorem Expression.WellFormedInitially.legible {value : Expression}
    (formed : value.WellFormedInitially) : value.toSexpr.Legible := by
  induction formed with
  | expression formed => exact formed.legible
  | array _ ih =>
    rw [toSexpr, allToSexpr_eq_map]
    exact .vector (List.forall_mem_map.mpr ih)

theorem Expression.WellFormedInitially.eq_of_toSexpr_eq {first second : Expression}
    (formed : first.WellFormedInitially) (formed' : second.WellFormedInitially)
    (same : first.toSexpr = second.toSexpr) : first = second := by
  induction formed generalizing second with
  | expression formed =>
    cases formed' with
    | expression formed' => exact formed.eq_of_toSexpr_eq formed' same
    | array => exact absurd same formed.toSexpr_ne_vector
  | @array elements _ ih =>
    cases formed' with
    | expression formed' => exact absurd same.symm formed'.toSexpr_ne_vector
    | @array elements' each' =>
      have items := Sexpr.vector.inj same
      rw [allToSexpr_eq_map, allToSexpr_eq_map] at items
      rw [eq_of_map_eq ih each' items]

end BraceLang
