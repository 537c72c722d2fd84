import BraceLang.Proofs.ProgramGrammar
import BraceLang.Proofs.SourceGrammar
import BraceLang.Proofs.SourceLexing

/-!
The text of a program is read as the program. All of its lexemes are readable, so its tokens say
what has been written; and tokens that say a well-placed program are in the grammar, for this
program.
-/
namespace BraceLang

open Lexeme

/-- Lexemes that are all readable. -/
def Legible (lexemes : List Lexeme) : Prop :=
  ∀ lexeme ∈ lexemes, lexeme.Readable

@[simp] theorem legible_nil : Legible [] :=
  nofun

@[simp] theorem legible_cons {lexeme : Lexeme} {lexemes : List Lexeme} :
    Legible (lexeme :: lexemes) ↔ lexeme.Readable ∧ Legible lexemes :=
  List.forall_mem_cons

@[simp] theorem legible_append {first second : List Lexeme} :
    Legible (first ++ second) ↔ Legible first ∧ Legible second :=
  List.forall_mem_append

theorem legible_flatMap {α : Type} {values : List α} {lexemesOf : α → List Lexeme}
    (each : ∀ value ∈ values, Legible (lexemesOf value)) : Legible (values.flatMap lexemesOf) := by
  intro lexeme inside
  obtain ⟨value, isValue, inside⟩ := List.mem_flatMap.mp inside
  exact each value isValue lexeme inside

theorem legible_mark_cons {kind : TokenKind} {lexemes : List Lexeme} (isMark : kind.isMark = true)
    (rest : Legible lexemes) : Legible (mark kind :: lexemes) :=
  legible_cons.mpr ⟨readable_mark isMark, rest⟩

theorem legible_append_mark {kind : TokenKind} {lexemes : List Lexeme} (isMark : kind.isMark = true)
    (first : Legible lexemes) : Legible (lexemes ++ [mark kind]) :=
  legible_append.mpr ⟨first, legible_mark_cons isMark legible_nil⟩

theorem legible_named_after {kind : TokenKind} {title : String} {lexemes : List Lexeme}
    (isMark : kind.isMark = true) (isName : IsNameText title) (rest : Legible lexemes) :
    Legible (mark kind :: named title :: lexemes) :=
  legible_mark_cons isMark (legible_cons.mpr ⟨readable_named isName, rest⟩)

theorem legible_inParens {lexemes : List Lexeme} (inside : Legible lexemes) :
    Legible (inParens lexemes) :=
  legible_mark_cons rfl (legible_append_mark rfl inside)

theorem legible_inBraces {lexemes : List Lexeme} (inside : Legible lexemes) :
    Legible (inBraces lexemes) :=
  legible_mark_cons rfl (legible_append_mark rfl inside)

theorem legible_withCommas {α : Type} {values : List α} {lexemesOf : α → List Lexeme}
    (each : ∀ value ∈ values, Legible (lexemesOf value)) :
    Legible (withCommas (values.map lexemesOf)) := by
  cases values with
  | nil => exact legible_nil
  | cons value values =>
    rw [List.forall_mem_cons] at each
    rw [withCommas, List.map_cons, intercalate_cons, List.flatMap_map]
    refine legible_append.mpr ⟨each.1, legible_flatMap fun value inside => ?_⟩
    exact legible_mark_cons rfl (each.2 value inside)

theorem isMark_of_unary {operator : TokenKind} (isUnary : operator.prefixRule? = some .unary) :
    operator.isMark = true := by
  cases operator <;> first | rfl | cases isUnary

theorem isMark_of_infixRule? {operator : TokenKind} {rule : InfixRule}
    (known : operator.infixRule? = some rule) : operator.isMark = true := by
  cases operator <;> first | rfl | cases known

section

variable {floatText : Binary64 → String}

theorem legible_expression {expression : Expression} (placed : expression.WellPlaced floatText) :
    Legible (expression.lexemes floatText) := by
  induction placed with
  | identifier isName => exact legible_cons.mpr ⟨readable_named isName, legible_nil⟩
  | bool value => cases value <;> exact legible_mark_cons rfl legible_nil
  | object isWord => rcases isWord with rfl | rfl <;> exact legible_mark_cons rfl legible_nil
  | string unquoted => exact legible_cons.mpr ⟨readable_string unquoted, legible_nil⟩
  | float isFinite pointed reads => exact legible_cons.mpr ⟨readable_pointed pointed, legible_nil⟩
  | int natural bounded =>
    obtain ⟨digits, rfl⟩ := Int.eq_ofNat_of_zero_le natural
    refine legible_cons.mpr ⟨readable_digits ?_ ?_, legible_nil⟩
    · rw [toString_natCast_toList]
      exact Nat.toDigits_ne_nil
    · rw [toString_natCast_toList]
      exact fun c inside => Nat.isDigit_of_mem_toDigits (by decide) (by decide) inside
  | char unquoted inLine => exact legible_cons.mpr ⟨readable_char unquoted inLine, legible_nil⟩
  | unary isUnary _ operand =>
    exact legible_mark_cons (isMark_of_unary isUnary) (legible_inParens operand)
  | binary isInfix _ _ _ _ left right =>
    obtain ⟨rule, known⟩ := isInfix
    exact legible_append.mpr ⟨legible_inParens left,
      legible_mark_cons (isMark_of_infixRule? known) (legible_inParens right)⟩
  | call _ _ callee arguments =>
    rw [Expression.lexemes, Expression.eachLexemes_eq_map]
    exact legible_append.mpr ⟨legible_inParens callee,
      legible_inParens (legible_withCommas arguments)⟩
  | subscript _ _ base index =>
    exact legible_append.mpr ⟨legible_inParens base,
      legible_mark_cons rfl (legible_append_mark rfl index)⟩

theorem legible_initializer {expression : Expression}
    (placed : expression.WellPlacedInitially floatText) :
    Legible (expression.lexemes floatText) := by
  induction placed with
  | expression placed => exact legible_expression placed
  | array _ elements =>
    rw [Expression.lexemes, Expression.eachLexemes_eq_map]
    exact legible_mark_cons rfl (legible_append_mark rfl (legible_withCommas elements))

theorem legible_type {type : TypeName} (placed : type.WellPlaced) : Legible type.lexemes := by
  refine legible_cons.mpr ⟨readable_named placed, ?_⟩
  intro lexeme inside
  obtain ⟨pair, isPair, inside⟩ := List.mem_flatten.mp inside
  obtain rfl := List.eq_of_mem_replicate isPair
  exact legible_mark_cons rfl (legible_mark_cons rfl legible_nil) lexeme inside

theorem legible_typedName {typed : TypedName} (placed : typed.WellPlaced) :
    Legible typed.lexemes :=
  legible_cons.mpr ⟨readable_named placed.1, legible_mark_cons rfl (legible_type placed.2)⟩

mutual

theorem legible_statement (statement : Statement) (placed : statement.WellPlaced floatText) :
    Legible (statement.lexemes floatText) := by
  match statement with
  | .expression value => exact legible_append_mark rfl (legible_expression placed)
  | .print value | .returned value =>
    exact legible_mark_cons rfl (legible_append_mark rfl (legible_expression placed))
  | .conditional condition body alternative =>
    have clause := legible_append.mpr
      ⟨legible_expression placed.1, legible_inBraces (legible_statements body placed.2.1)⟩
    exact legible_append.mpr
      ⟨legible_mark_cons rfl clause, legible_alternative alternative placed.2.2⟩
  | .whileLoop condition body =>
    exact legible_mark_cons rfl (legible_append.mpr
      ⟨legible_expression placed.1, legible_inBraces (legible_statements body placed.2)⟩)
  | .forLoop initializer condition modifier body =>
    obtain ⟨first, second, third, inside⟩ := placed
    have clause : Legible
        (mark .semicolon :: (modifier.lexemes floatText ++
          inBraces (Statement.allLexemes floatText body))) :=
      legible_mark_cons rfl (legible_append.mpr
        ⟨legible_expression third, legible_inBraces (legible_statements body inside)⟩)
    have checked := legible_append.mpr ⟨legible_expression second, clause⟩
    exact legible_mark_cons rfl (legible_append.mpr
      ⟨legible_expression first, legible_mark_cons rfl checked⟩)
  | .structType title fields =>
    refine legible_named_after rfl placed.1 (legible_inBraces (legible_flatMap ?_))
    exact fun field inside => legible_append_mark rfl (legible_typedName (placed.2 field inside))
  | .enumType title constants =>
    refine legible_named_after rfl placed.1 (legible_inBraces (legible_withCommas ?_))
    exact fun constant inside =>
      legible_cons.mpr ⟨readable_named (placed.2 constant inside), legible_nil⟩
  | .function title parameters type body =>
    obtain ⟨isName, each, isType, inside⟩ := placed
    have parametersLegible : Legible (withCommas (parameters.map TypedName.lexemes)) :=
      legible_withCommas fun parameter inside => legible_typedName (each parameter inside)
    have result := legible_append.mpr
      ⟨legible_type isType, legible_inBraces (legible_statements body inside)⟩
    exact legible_named_after rfl isName (legible_mark_cons rfl (legible_append.mpr
      ⟨parametersLegible, legible_mark_cons rfl (legible_mark_cons rfl result)⟩))
  | .declaration constant title type value =>
    obtain ⟨isName, isType, isInitial⟩ := placed
    have assigned : Legible (mark .assign :: (value.lexemes floatText ++ [mark .semicolon])) :=
      legible_mark_cons rfl (legible_append_mark rfl (legible_initializer isInitial))
    have typed := legible_append.mpr ⟨legible_type isType, assigned⟩
    cases constant <;> exact legible_named_after rfl isName (legible_mark_cons rfl typed)
  | .block body => exact placed.elim
  | .inNamespace title => exact placed.elim
  | .usingNamespace title => exact placed.elim

theorem legible_statements (statements : List Statement)
    (placed : Statement.AllWellPlaced floatText statements) :
    Legible (Statement.allLexemes floatText statements) := by
  match statements with
  | [] => exact legible_nil
  | statement :: statements =>
    exact legible_append.mpr
      ⟨legible_statement statement placed.1, legible_statements statements placed.2⟩

theorem legible_alternative (alternative : Alternative)
    (placed : alternative.WellPlaced floatText) : Legible (alternative.lexemes floatText) := by
  match alternative with
  | .absent => exact legible_nil
  | .elseIf condition body rest =>
    have clause := legible_append.mpr
      ⟨legible_expression placed.1, legible_inBraces (legible_statements body placed.2.1)⟩
    exact legible_append.mpr ⟨legible_mark_cons rfl clause, legible_alternative rest placed.2.2⟩
  | .otherwise body =>
    exact legible_mark_cons rfl (legible_inBraces (legible_statements body placed))

end

theorem legible_statement_outside {statement : Statement}
    (placed : statement.WellPlacedOutside floatText) :
    Legible (statement.lexemes floatText) := by
  match statement with
  | .function title parameters type body => exact legible_statement _ placed
  | .structType title fields | .enumType title constants =>
    have inBody : Statement.WellPlaced floatText _ := placed
    exact legible_statement _ inBody
  | .inNamespace title | .usingNamespace title =>
    exact legible_named_after rfl placed (legible_mark_cons rfl legible_nil)

/-- A well-placed program is read from its text, and without a problem. -/
theorem parseSource_source {program : Program} (placed : program.WellPlaced floatText)
    (within : program.levels ≤ maxDepth) :
    parseSource (program.source floatText) = ⟨program, []⟩ := by
  have legible : Legible (Statement.allLexemes floatText program.statements) := by
    rw [Statement.allLexemes_eq_flatMap]
    exact legible_flatMap fun statement inside =>
      legible_statement_outside (placed statement inside)
  obtain ⟨tokens, last, shape, spells, ends⟩ := tokenize_source legible
  have form : IsProgram tokens program := isProgram_of_lexemes placed spells within
  rw [parseSource, Program.source, shape]
  exact parseTokens_of_isProgram form ends

end

/-- A namespace and a function that declares an array of doubles and returns the first of them,
negated. -/
theorem parseSource_function_returning_element :
    let half : Binary64 := .finite false (2 ^ 52) 1021 (by decide)
    let program : Program := ⟨[.inNamespace "n",
      .function "f" [⟨"i", ⟨"int", 0⟩⟩] ⟨"float", 0⟩
        [.declaration false "a" ⟨"float", 1⟩ (.array [.float half]),
          .returned (.unary .minus (.subscript (.identifier "a") (.int 0)))]]⟩
    program.source (fun _ => "0.5") =
        "namespace n ; fn f ( i : int ) -> float \x7b let a : float [ ] = [ 0.5 ] ; " ++
          "return - ( ( a ) [ 0 ] ) ; \x7d" ∧
      parseSource (program.source fun _ => "0.5") = ⟨program, []⟩ := by
  intro half program
  let floatText : Binary64 → String := fun _ => "0.5"
  have pointed : IsPointed "0.5" :=
    ⟨['0'], ['5'], by decide, nofun, nofun, List.forall_mem_singleton.mpr rfl,
      List.forall_mem_singleton.mpr rfl⟩
  have element : Expression.WellPlaced floatText (.float half) :=
    .float rfl pointed (by decide +kernel)
  have array : Expression.WellPlacedInitially floatText (.array [.float half]) :=
    .array (List.forall_mem_singleton.mpr (.expression element))
  have returned : Expression.WellPlaced floatText
      (.unary .minus (.subscript (.identifier "a") (.int 0))) :=
    .unary rfl (.subscript (.identifier (by decide)) (.int (by decide) (by decide)))
  have parameters : ∀ parameter ∈ [(⟨"i", ⟨"int", 0⟩⟩ : TypedName)], parameter.WellPlaced :=
    List.forall_mem_singleton.mpr (by decide)
  have body : Statement.AllWellPlaced floatText
      [.declaration false "a" ⟨"float", 1⟩ (.array [.float half]),
        .returned (.unary .minus (.subscript (.identifier "a") (.int 0)))] :=
    ⟨⟨by decide, by decide, array⟩, returned, trivial⟩
  have title : IsNameText "n" := by decide
  have placed : program.WellPlaced floatText :=
    List.forall_mem_cons.mpr ⟨title, List.forall_mem_singleton.mpr
      ⟨by decide, parameters, by decide, body⟩⟩
  have within : program.levels ≤ maxDepth := by decide
  exact ⟨by decide +kernel, parseSource_source placed within⟩

end BraceLang
