import BraceLang.Proofs.ExpressionSegment
import BraceLang.Proofs.ProgramGrammar
import BraceLang.Proofs.SourceForm

/-!
Tokens that say the lexemes of a well-placed tree are in the grammar, for this tree. Parentheses
around operands make every expression properly bound, so that each form of expression and statement
is put together from its parts; the levels of the text are those that the grammar counts.
-/
namespace BraceLang

open Lexeme

section

variable {α : Type} {tokens : List Token} {lexemes : List Lexeme}

theorem kind_of_lexeme_mark {token : Token} {kind : TokenKind} (spells : token.lexeme = mark kind) :
    token.kind = kind :=
  congrArg Lexeme.kind spells

/-- What stands in brackets, between the tokens of the brackets. -/
theorem exists_bracketed {first last : TokenKind}
    (spells : tokens.map Token.lexeme = mark first :: (lexemes ++ [mark last])) :
    ∃ opening inside close, tokens = opening :: (inside ++ [close]) ∧ opening.kind = first ∧
      inside.map Token.lexeme = lexemes ∧ close.kind = last := by
  obtain ⟨opening, rest, rfl, opens, spells⟩ := List.map_eq_cons_iff.mp spells
  obtain ⟨inside, ends, rfl, insideSpells, endSpells⟩ := List.map_eq_append_iff.mp spells
  obtain ⟨close, rfl, closes⟩ := List.map_eq_singleton_iff.mp endSpells
  exact ⟨opening, inside, close, rfl, kind_of_lexeme_mark opens, insideSpells,
    kind_of_lexeme_mark closes⟩

/-- Items one after another, if each is an item by itself. -/
theorem many_of_lexemes {Item : List Token → α → Prop} {values : List α}
    {lexemesOf : α → List Lexeme} (spells : tokens.map Token.lexeme = values.flatMap lexemesOf)
    (each : ∀ value ∈ values, ∀ segment : List Token, segment.map Token.lexeme = lexemesOf value →
      Item segment value) : Many Item tokens values := by
  induction values generalizing tokens with
  | nil =>
    obtain rfl := List.map_eq_nil_iff.mp spells
    exact .nil
  | cons value values ih =>
    rw [List.forall_mem_cons] at each
    obtain ⟨first, others, rfl, firstSpells, othersSay⟩ := List.map_eq_append_iff.mp spells
    exact .cons (each.1 first firstSpells) (ih othersSay each.2)

/-- Items with commas between them, if each is an item by itself. -/
theorem listed_of_lexemes {Item : List Token → α → Prop} {values : List α}
    {lexemesOf : α → List Lexeme}
    (spells : tokens.map Token.lexeme = withCommas (values.map lexemesOf))
    (each : ∀ value ∈ values, ∀ segment : List Token, segment.map Token.lexeme = lexemesOf value →
      Item segment value) : Listed Item tokens values := by
  cases values with
  | nil => exact .inl ⟨List.map_eq_nil_iff.mp spells, rfl⟩
  | cons value values =>
    rw [List.forall_mem_cons] at each
    rw [withCommas, List.map_cons, intercalate_cons, List.flatMap_map] at spells
    obtain ⟨first, others, rfl, firstSpells, othersSay⟩ := List.map_eq_append_iff.mp spells
    refine .inr (.intro (each.1 first firstSpells) (many_of_lexemes othersSay ?_))
    intro value inside segment spells
    obtain ⟨comma, item, rfl, isComma, itemSpells⟩ := List.map_eq_cons_iff.mp spells
    exact ⟨comma, item, rfl, kind_of_lexeme_mark isComma, each.2 value inside item itemSpells⟩

end

section

variable {floatText : Binary64 → String} {depth : Nat} {tokens : List Token}

theorem Expression.eachLexemes_eq_map (expressions : List Expression) :
    Expression.eachLexemes floatText expressions =
      expressions.map (Expression.lexemes floatText) := by
  induction expressions with
  | nil => rfl
  | cons expression expressions ih => rw [Expression.eachLexemes, ih, List.map_cons]

theorem Expression.levels_le_levelsOfAll {expressions : List Expression} {expression : Expression}
    (inside : expression ∈ expressions) :
    expression.levels ≤ Expression.levelsOfAll expressions := by
  induction expressions with
  | nil => cases inside
  | cons first others ih =>
    rw [Expression.levelsOfAll]
    rcases inside with _ | ⟨_, inside⟩
    · exact Nat.le_max_left ..
    · exact Nat.le_trans (ih inside) (Nat.le_max_right ..)

theorem splitSign_of_isDigit {c : Char} {text : List Char} (digit : c.isDigit = true) :
    Number.splitSign (c :: text) = (false, c :: text) := by
  unfold Number.splitSign
  split
  · rename_i shape
    cases shape
    cases digit
  · rename_i shape
    cases shape
    cases digit
  · rfl

/-- A whole number is read from its digits. -/
theorem readInt64?_toDigits {value : Nat} (bounded : value < 2 ^ 63) :
    Number.readInt64? (Nat.toDigits 10 value) = some (value : Int) := by
  have digits : ∀ c ∈ Nat.toDigits 10 value, c.isDigit = true := fun c inside =>
    Nat.isDigit_of_mem_toDigits (by decide) (by decide) inside
  have value_eq : Number.ofDigits (Nat.toDigits 10 value) = value := Nat.ofDigitChars_ten_toDigits
  obtain ⟨c, text, shape⟩ := List.exists_cons_of_ne_nil (Nat.toDigits_ne_nil (n := value) (b := 10))
  rw [shape] at digits value_eq ⊢
  unfold Number.readInt64?
  rw [splitSign_of_isDigit (digits c List.mem_cons_self)]
  have all : (c :: text).all Char.isDigit = true := List.all_eq_true.mpr digits
  have fits : value < Nat.pow 2 63 := bounded
  simp only [all, value_eq, fits]
  rfl

/-- A natural number is written in digits only. -/
theorem toString_natCast_toList (value : Nat) :
    (toString (value : Int)).toList = Nat.toDigits 10 value := by
  have text : toString (value : Int) = Nat.repr value := rfl
  rw [text, Nat.repr_eq_ofList_toDigits, String.toList_ofList]

theorem operandStart_intLiteral {text : String} {value : Int}
    (reads : Number.readInt64? text.toList = some value) (position : Position) :
    Parse.operandStart ⟨.intLiteral, text, position⟩ = .ok (.complete (.int value)) := by
  simp only [Parse.operandStart, TokenKind.prefixRule?, Parse.operandByRule, Parse.literal, reads]
  rfl

theorem operandStart_floatLiteral {text : String} {value : Binary64}
    (reads : Number.readBinary64? text.toList = some value) (isFinite : value.isFinite = true)
    (position : Position) :
    Parse.operandStart ⟨.floatLiteral, text, position⟩ = .ok (.complete (.float value)) := by
  simp only [Parse.operandStart, TokenKind.prefixRule?, Parse.operandByRule, Parse.literal, reads]
  simp only [bind, Except.bind, isFinite, ↓reduceIte]
  rfl

theorem operandStart_charLiteral {text : String} {value : Char} (only : text.toList = [value])
    (position : Position) :
    Parse.operandStart ⟨.charLiteral, text, position⟩ = .ok (.complete (.char value)) := by
  simp only [Parse.operandStart, TokenKind.prefixRule?, Parse.operandByRule, Parse.literal, only]
  rfl

/-- A token that is an operand by itself denotes its value. -/
theorem isElement_atom {lexeme : Lexeme} {value : Expression}
    (spells : tokens.map Token.lexeme = [lexeme])
    (starts : ∀ position, Parse.operandStart ⟨lexeme.kind, lexeme.text, position⟩ =
      .ok (.complete value))
    (isAtom : lexeme.kind.isAtom = true) (within : depth + 1 ≤ maxDepth) :
    Concrete.IsElement depth tokens value := by
  obtain ⟨token, rfl, rfl⟩ := List.map_eq_singleton_iff.mp spells
  have grown : (Concrete.atom token).Grown .lowest depth [token] value .endOfInput :=
    Concrete.grown_atom (starts token.position) isAtom within
  exact ⟨_, grown.denotes⟩

/-- Some tokens denote an expression that stands whole in every place: no operator around it takes
a part of it. -/
def IsEnclosed (depth : Nat) (segment : List Token) (value : Expression) : Prop :=
  ∃ expression : Concrete, ∀ least next, expression.Grown least depth segment value next

/-- An operand in parentheses stands whole in every place. -/
theorem isEnclosed_inParens {expression : Expression}
    (spells : tokens.map Token.lexeme = inParens (expression.lexemes floatText))
    (inner : ∀ {segment : List Token},
      segment.map Token.lexeme = expression.lexemes floatText →
        Concrete.IsElement (depth + 1) segment expression) :
    IsEnclosed depth tokens expression := by
  obtain ⟨opening, inside, close, rfl, opens, insideSpells, closes⟩ := exists_bracketed spells
  obtain ⟨concrete, denotes⟩ := inner insideSpells
  exact ⟨.group concrete, fun least next => denotes.group opens closes⟩

theorem isElement_unary {operator : Token} {value : Expression}
    (isUnary : operator.kind.prefixRule? = some .unary)
    (operand : IsEnclosed (depth + 1) tokens value) :
    Concrete.IsElement depth (operator :: tokens) (.unary operator.kind value) := by
  obtain ⟨group, grown⟩ := operand
  have held : group.Grown .unary (depth + 1) tokens value .endOfInput := grown _ _
  have whole : (Concrete.unary operator.kind group).Grown .lowest depth (operator :: tokens)
      (.unary operator.kind value) .endOfInput :=
    held.denotes.unary isUnary ⟨held.above, by decide, held.released⟩
  exact ⟨_, whole.denotes⟩

theorem isElement_binary {operator : Token} {first second : List Token} {left right : Expression}
    (isInfix : operator.kind.isInfix) (leftOperand : IsEnclosed depth first left)
    (rightOperand : IsEnclosed (depth + 1) second right) :
    Concrete.IsElement depth (first ++ operator :: second) (.binary left operator.kind right) := by
  obtain ⟨leftGroup, leftGrown⟩ := leftOperand
  obtain ⟨rightGroup, rightGrown⟩ := rightOperand
  have held : rightGroup.Grown operator.kind.rightPower (depth + 1) second right .endOfInput :=
    rightGrown _ _
  have whole := (leftGrown .lowest operator.kind).binary isInfix isInfix.precedence_pos held.denotes
    ⟨held.above, Nat.zero_le _, held.released⟩
  exact ⟨_, whole.denotes⟩

theorem isElement_call {opening close : Token} {first inside : List Token} {callee : Expression}
    {arguments : List Expression} (calleeOperand : IsEnclosed depth first callee)
    (opens : opening.kind = .leftParen)
    (items : Listed (Concrete.IsElement (depth + 1)) inside arguments)
    (closes : close.kind = .rightParen) :
    Concrete.IsElement depth (first ++ opening :: (inside ++ [close]))
      (.call callee arguments) := by
  obtain ⟨group, grown⟩ := calleeOperand
  have above : BindingPower.lowest < opening.kind.precedence := by
    rw [opens]
    decide
  obtain ⟨concretes, whole⟩ : ∃ concretes, (Concrete.call group concretes).Grown .lowest depth
      (first ++ opening :: (inside ++ [close])) (.call callee arguments) .endOfInput :=
    (grown _ _).call opens above items closes
  exact ⟨_, whole.denotes⟩

theorem isElement_subscript {opening close : Token} {first inside : List Token}
    {base index : Expression} (baseOperand : IsEnclosed depth first base)
    (opens : opening.kind = .leftSquare)
    (indexElement : Concrete.IsElement (depth + 1) inside index)
    (closes : close.kind = .rightSquare) :
    Concrete.IsElement depth (first ++ opening :: (inside ++ [close])) (.subscript base index) := by
  obtain ⟨group, grown⟩ := baseOperand
  obtain ⟨concrete, denotes⟩ := indexElement
  have above : BindingPower.lowest < opening.kind.precedence := by
    rw [opens]
    decide
  have whole : (Concrete.subscript group concrete).Grown .lowest depth
      (first ++ opening :: (inside ++ [close])) (.subscript base index) .endOfInput :=
    (grown _ _).subscript opens above denotes closes
  exact ⟨_, whole.denotes⟩

theorem isInfix_of_infixRule? {operator : TokenKind} {rule : InfixRule}
    (known : operator.infixRule? = some rule) (noCall : operator ≠ .leftParen)
    (noSubscript : operator ≠ .leftSquare) : operator.isInfix := by
  cases rule with
  | leftAssociative => exact .inl known
  | rightAssociative => exact .inr known
  | call => exact absurd (TokenKind.eq_leftParen_of_call known) noCall
  | subscript => exact absurd (TokenKind.eq_leftSquare_of_subscript known) noSubscript

/-- Each literal is read as the value it was written for, and each operand stands whole. -/
theorem isElement_of_lexemes {expression : Expression}
    (placed : expression.WellPlaced floatText)
    (spells : tokens.map Token.lexeme = expression.lexemes floatText)
    (within : depth + expression.levels ≤ maxDepth) :
    Concrete.IsElement depth tokens expression := by
  induction placed generalizing tokens depth with
  | identifier isName => exact isElement_atom spells (fun _ => rfl) rfl within
  | bool value => cases value <;> exact isElement_atom spells (fun _ => rfl) rfl within
  | object isWord =>
    rcases isWord with rfl | rfl <;> exact isElement_atom spells (fun _ => rfl) rfl within
  | string unquoted => exact isElement_atom spells (fun _ => rfl) rfl within
  | float isFinite pointed reads =>
    exact isElement_atom spells (operandStart_floatLiteral reads isFinite) rfl within
  | @int value natural bounded =>
    obtain ⟨digits, rfl⟩ := Int.eq_ofNat_of_zero_le natural
    have reads : Number.readInt64? (toString (digits : Int)).toList = some (digits : Int) := by
      rw [toString_natCast_toList]
      exact readInt64?_toDigits (by omega)
    exact isElement_atom spells (operandStart_intLiteral reads) rfl within
  | char unquoted inLine =>
    exact isElement_atom spells (operandStart_charLiteral (by simp)) rfl within
  | unary isUnary _ element =>
    rw [Expression.levels] at within
    obtain ⟨token, rest, rfl, isOperator, restSpells⟩ := List.map_eq_cons_iff.mp spells
    obtain rfl := kind_of_lexeme_mark isOperator
    apply isElement_unary isUnary
    exact isEnclosed_inParens restSpells fun spells => element spells (by omega)
  | binary isInfix noCall noSubscript _ _ leftElement rightElement =>
    rw [Expression.levels] at within
    obtain ⟨first, rest, rfl, firstSpells, restSpells⟩ := List.map_eq_append_iff.mp spells
    obtain ⟨token, second, rfl, isOperator, secondSpells⟩ := List.map_eq_cons_iff.mp restSpells
    obtain rfl := kind_of_lexeme_mark isOperator
    obtain ⟨rule, known⟩ := isInfix
    apply isElement_binary (isInfix_of_infixRule? known noCall noSubscript)
    · exact isEnclosed_inParens firstSpells fun spells => leftElement spells (by omega)
    · exact isEnclosed_inParens secondSpells fun spells => rightElement spells (by omega)
  | call _ _ calleeElement argumentElement =>
    rw [Expression.levels] at within
    obtain ⟨first, rest, rfl, firstSpells, restSpells⟩ := List.map_eq_append_iff.mp spells
    obtain ⟨opening, inside, close, rfl, opens, insideSpells, closes⟩ := exists_bracketed restSpells
    rw [Expression.eachLexemes_eq_map] at insideSpells
    refine isElement_call ?_ opens ?_ closes
    · exact isEnclosed_inParens firstSpells fun spells => calleeElement spells (by omega)
    · apply listed_of_lexemes insideSpells
      intro argument isArgument segment spells
      have levels := Expression.levels_le_levelsOfAll isArgument
      exact argumentElement argument isArgument spells (by omega)
  | subscript _ _ baseElement indexElement =>
    rw [Expression.levels] at within
    obtain ⟨first, rest, rfl, firstSpells, restSpells⟩ := List.map_eq_append_iff.mp spells
    obtain ⟨opening, inside, close, rfl, opens, insideSpells, closes⟩ := exists_bracketed restSpells
    refine isElement_subscript ?_ opens (indexElement insideSpells (by omega)) closes
    exact isEnclosed_inParens firstSpells fun spells => baseElement spells (by omega)

theorem isExpression_of_lexemes {expression : Expression}
    (placed : expression.WellPlaced floatText)
    (spells : tokens.map Token.lexeme = expression.lexemes floatText)
    (within : depth + expression.levels ≤ maxDepth) : IsExpression depth tokens expression :=
  isExpression_iff.mpr (isElement_of_lexemes placed spells within)

theorem isInitializer_of_lexemes {expression : Expression}
    (placed : expression.WellPlacedInitially floatText)
    (spells : tokens.map Token.lexeme = expression.lexemes floatText)
    (within : depth + expression.levels ≤ maxDepth) : IsInitializer depth tokens expression := by
  induction placed generalizing tokens depth with
  | expression placed =>
    rw [IsInitializer]
    exact .inl (isExpression_of_lexemes placed spells within)
  | array each initial =>
    rw [Expression.levels] at within
    obtain ⟨opening, inside, close, rfl, opens, insideSpells, closes⟩ := exists_bracketed spells
    rw [Expression.eachLexemes_eq_map] at insideSpells
    rw [IsInitializer]
    refine .inr ⟨by omega, opening, inside, close, _, rfl, opens, closes, ?_, rfl⟩
    refine listed_of_lexemes insideSpells fun element isElement segment spells => ?_
    have levels := Expression.levels_le_levelsOfAll isElement
    exact initial element isElement spells (by omega)

theorem text_of_lexeme_named {token : Token} {title : String}
    (spells : token.lexeme = named title) : token.kind = .identifier ∧ token.text = title :=
  Lexeme.mk.inj spells

theorem isType_of_lexemes {type : TypeName} (spells : tokens.map Token.lexeme = type.lexemes) :
    IsType tokens type := by
  have pairs : ∀ {dimensions : Nat} {segment : List Token}, segment.map Token.lexeme =
      (List.replicate dimensions [mark .leftSquare, mark .rightSquare]).flatten →
      ∃ texts, Many IsBracketPair segment texts ∧ texts.length = dimensions := by
    intro dimensions
    induction dimensions with
    | zero =>
      intro segment spells
      obtain rfl := List.map_eq_nil_iff.mp spells
      exact ⟨[], .nil, rfl⟩
    | succ dimensions ih =>
      intro segment spells
      rw [List.replicate_succ, List.flatten_cons] at spells
      obtain ⟨pair, others, rfl, pairSpells, othersSay⟩ := List.map_eq_append_iff.mp spells
      obtain ⟨opening, close, rfl, opens, closes⟩ :
          ∃ opening close : Token, pair = [opening, close] ∧ opening.kind = .leftSquare ∧
            close.kind = .rightSquare := by
        obtain ⟨opening, rest, rfl, opens, restSpells⟩ := List.map_eq_cons_iff.mp pairSpells
        obtain ⟨close, rfl, closes⟩ := List.map_eq_singleton_iff.mp restSpells
        exact ⟨opening, close, rfl, kind_of_lexeme_mark opens, kind_of_lexeme_mark closes⟩
      obtain ⟨texts, many, rfl⟩ := ih othersSay
      exact ⟨close.text :: texts, .cons (.intro opens closes) many, rfl⟩
  obtain ⟨token, rest, rfl, nameSpells, restSpells⟩ := List.map_eq_cons_iff.mp spells
  obtain ⟨isName, isText⟩ := text_of_lexeme_named nameSpells
  obtain ⟨texts, many, isLength⟩ := pairs restSpells
  have form := IsType.intro isName many
  rwa [isText, isLength] at form

theorem isTypedName_of_lexemes {typed : TypedName}
    (spells : tokens.map Token.lexeme = typed.lexemes) : IsTypedName tokens typed := by
  obtain ⟨token, rest, rfl, nameSpells, restSpells⟩ := List.map_eq_cons_iff.mp spells
  obtain ⟨colon, rest, rfl, colonSpells, typeSpells⟩ := List.map_eq_cons_iff.mp restSpells
  obtain ⟨isName, isText⟩ := text_of_lexeme_named nameSpells
  have type := isType_of_lexemes typeSpells
  have form := IsTypedName.intro isName (kind_of_lexeme_mark colonSpells) type
  rwa [isText] at form

theorem isField_of_lexemes {typed : TypedName}
    (spells : tokens.map Token.lexeme = typed.lexemes ++ [mark .semicolon]) :
    IsField tokens typed := by
  obtain ⟨inside, ends, rfl, typedSpells, endSpells⟩ := List.map_eq_append_iff.mp spells
  obtain ⟨semicolon, rfl, isEnd⟩ := List.map_eq_singleton_iff.mp endSpells
  exact .intro (isTypedName_of_lexemes typedSpells) (kind_of_lexeme_mark isEnd)

theorem isStruct_of_lexemes {title : String} {fields : List TypedName}
    (spells : tokens.map Token.lexeme = (Statement.structType title fields).lexemes floatText) :
    IsStruct tokens (.structType title fields) := by
  rw [Statement.lexemes] at spells
  obtain ⟨word, rest, rfl, isWord, spells⟩ := List.map_eq_cons_iff.mp spells
  obtain ⟨token, rest, rfl, nameSpells, spells⟩ := List.map_eq_cons_iff.mp spells
  obtain ⟨opening, inside, close, rfl, opens, insideSpells, closes⟩ := exists_bracketed spells
  obtain ⟨isName, isText⟩ := text_of_lexeme_named nameSpells
  have items : Many IsField inside fields :=
    many_of_lexemes insideSpells fun _ _ _ spells => isField_of_lexemes spells
  have form := IsStruct.intro (kind_of_lexeme_mark isWord) isName opens items closes
  rwa [isText] at form

theorem isEnum_of_lexemes {title : String} {constants : List String}
    (spells : tokens.map Token.lexeme = (Statement.enumType title constants).lexemes floatText) :
    IsEnum tokens (.enumType title constants) := by
  rw [Statement.lexemes] at spells
  obtain ⟨word, rest, rfl, isWord, spells⟩ := List.map_eq_cons_iff.mp spells
  obtain ⟨token, rest, rfl, nameSpells, spells⟩ := List.map_eq_cons_iff.mp spells
  obtain ⟨opening, inside, close, rfl, opens, insideSpells, closes⟩ := exists_bracketed spells
  obtain ⟨isName, isText⟩ := text_of_lexeme_named nameSpells
  have items : Listed IsName inside constants := by
    refine listed_of_lexemes insideSpells fun constant _ segment spells => ?_
    obtain ⟨token, rfl, tokenSpells⟩ := List.map_eq_singleton_iff.mp spells
    obtain ⟨isName, rfl⟩ := text_of_lexeme_named tokenSpells
    exact .intro isName
  have form := IsEnum.intro (kind_of_lexeme_mark isWord) isName opens items closes
  rwa [isText] at form

/-! ## Forms that hold bodies are in the grammar if the statements of the bodies are -/

variable {Inner : List Token → Statement → Prop} {body : List Statement}

theorem isBlock_of_lexemes
    (spells : tokens.map Token.lexeme = inBraces (Statement.allLexemes floatText body))
    (each : ∀ {segment : List Token},
      segment.map Token.lexeme = Statement.allLexemes floatText body → Many Inner segment body) :
    IsBlock Inner tokens body := by
  obtain ⟨opening, inside, close, rfl, opens, insideSpells, closes⟩ := exists_bracketed spells
  exact .intro opens (each insideSpells) closes

theorem isClause_of_lexemes {word : TokenKind} {condition : Expression}
    (placed : condition.WellPlaced floatText)
    (spells : tokens.map Token.lexeme = mark word ::
      (condition.lexemes floatText ++ inBraces (Statement.allLexemes floatText body)))
    (within : depth + condition.levels ≤ maxDepth)
    (each : ∀ {segment : List Token},
      segment.map Token.lexeme = Statement.allLexemes floatText body → Many Inner segment body) :
    IsClause depth Inner word tokens (condition, body) := by
  obtain ⟨token, rest, rfl, isWord, spells⟩ := List.map_eq_cons_iff.mp spells
  obtain ⟨first, second, rfl, conditionSpells, blockSpells⟩ := List.map_eq_append_iff.mp spells
  exact .intro (kind_of_lexeme_mark isWord) (isExpression_of_lexemes placed conditionSpells within)
    (isBlock_of_lexemes blockSpells each)

theorem isFunction_of_lexemes {title : String} {parameters : List TypedName} {type : TypeName}
    (spells : tokens.map Token.lexeme =
      (Statement.function title parameters type body).lexemes floatText)
    (each : ∀ {segment : List Token},
      segment.map Token.lexeme = Statement.allLexemes floatText body → Many Inner segment body) :
    IsFunction depth Inner tokens (.function title parameters type body) := by
  rw [Statement.lexemes] at spells
  obtain ⟨word, rest, rfl, isWord, spells⟩ := List.map_eq_cons_iff.mp spells
  obtain ⟨token, rest, rfl, nameSpells, spells⟩ := List.map_eq_cons_iff.mp spells
  obtain ⟨opening, rest, rfl, opens, spells⟩ := List.map_eq_cons_iff.mp spells
  obtain ⟨first, rest, rfl, parametersSay, spells⟩ := List.map_eq_append_iff.mp spells
  obtain ⟨close, rest, rfl, closes, spells⟩ := List.map_eq_cons_iff.mp spells
  obtain ⟨arrow, rest, rfl, isArrow, spells⟩ := List.map_eq_cons_iff.mp spells
  obtain ⟨second, third, rfl, typeSpells, blockSpells⟩ := List.map_eq_append_iff.mp spells
  obtain ⟨isName, isText⟩ := text_of_lexeme_named nameSpells
  have items : Listed IsTypedName first parameters :=
    listed_of_lexemes parametersSay fun _ _ _ spells => isTypedName_of_lexemes spells
  have block : IsFunctionBody depth Inner third body := .block (isBlock_of_lexemes blockSpells each)
  have form := IsFunction.intro (kind_of_lexeme_mark isWord) isName (kind_of_lexeme_mark opens)
    items (kind_of_lexeme_mark closes) (kind_of_lexeme_mark isArrow) (isType_of_lexemes typeSpells)
    block
  rwa [isText] at form

theorem isForLoop_of_lexemes {initial condition modifier : Expression}
    (placed : initial.WellPlaced floatText ∧ condition.WellPlaced floatText ∧
      modifier.WellPlaced floatText)
    (spells : tokens.map Token.lexeme =
      (Statement.forLoop initial condition modifier body).lexemes floatText)
    (within : depth + max (max initial.levels condition.levels) modifier.levels ≤ maxDepth)
    (each : ∀ {segment : List Token},
      segment.map Token.lexeme = Statement.allLexemes floatText body → Many Inner segment body) :
    IsForLoop depth Inner tokens (.forLoop initial condition modifier body) := by
  rw [Statement.lexemes] at spells
  obtain ⟨word, rest, rfl, isWord, spells⟩ := List.map_eq_cons_iff.mp spells
  obtain ⟨first, rest, rfl, initialSpells, spells⟩ := List.map_eq_append_iff.mp spells
  obtain ⟨semicolon, rest, rfl, endsInitial, spells⟩ := List.map_eq_cons_iff.mp spells
  obtain ⟨second, rest, rfl, conditionSpells, spells⟩ := List.map_eq_append_iff.mp spells
  obtain ⟨semicolon', rest, rfl, endsCondition, spells⟩ := List.map_eq_cons_iff.mp spells
  obtain ⟨third, fourth, rfl, modifierSpells, blockSpells⟩ := List.map_eq_append_iff.mp spells
  exact .intro (kind_of_lexeme_mark isWord)
    (isExpression_of_lexemes placed.1 initialSpells (by omega)) (kind_of_lexeme_mark endsInitial)
    (isExpression_of_lexemes placed.2.1 conditionSpells (by omega))
    (kind_of_lexeme_mark endsCondition)
    (isExpression_of_lexemes placed.2.2 modifierSpells (by omega))
    (isBlock_of_lexemes blockSpells each)

theorem isExpressionUpToSemicolon_of_lexemes {expression : Expression}
    (placed : expression.WellPlaced floatText)
    (spells : tokens.map Token.lexeme = expression.lexemes floatText ++ [mark .semicolon])
    (within : depth + expression.levels ≤ maxDepth) :
    IsExpressionUpToSemicolon depth tokens expression := by
  obtain ⟨inside, ends, rfl, expressionSpells, endSpells⟩ := List.map_eq_append_iff.mp spells
  obtain ⟨semicolon, rfl, isEnd⟩ := List.map_eq_singleton_iff.mp endSpells
  exact .intro (isExpression_of_lexemes placed expressionSpells within) (kind_of_lexeme_mark isEnd)

theorem isDeclaration_of_lexemes {constant : Bool} {title : String} {type : TypeName}
    {value : Expression} (placed : value.WellPlacedInitially floatText)
    (spells : tokens.map Token.lexeme =
      (Statement.declaration constant title type value).lexemes floatText)
    (within : depth + value.levels ≤ maxDepth) :
    IsDeclaration depth tokens (.declaration constant title type value) := by
  rw [Statement.lexemes] at spells
  obtain ⟨word, rest, rfl, wordSpells, spells⟩ := List.map_eq_cons_iff.mp spells
  obtain ⟨token, rest, rfl, nameSpells, spells⟩ := List.map_eq_cons_iff.mp spells
  obtain ⟨colon, rest, rfl, isColon, spells⟩ := List.map_eq_cons_iff.mp spells
  obtain ⟨first, rest, rfl, typeSpells, spells⟩ := List.map_eq_append_iff.mp spells
  obtain ⟨assign, rest, rfl, isAssign, spells⟩ := List.map_eq_cons_iff.mp spells
  obtain ⟨second, ends, rfl, valueSpells, endSpells⟩ := List.map_eq_append_iff.mp spells
  obtain ⟨semicolon, rfl, isEnd⟩ := List.map_eq_singleton_iff.mp endSpells
  obtain ⟨isName, isText⟩ := text_of_lexeme_named nameSpells
  have isWord := kind_of_lexeme_mark wordSpells
  have isOne : word.kind = .kwLet ∨ word.kind = .kwConst := by
    cases constant <;> simp [isWord]
  have isConstant : (word.kind == .kwConst) = constant := by
    cases constant <;> simp [isWord]
  have form := IsDeclaration.intro isOne isName (kind_of_lexeme_mark isColon)
    (isType_of_lexemes typeSpells) (kind_of_lexeme_mark isAssign)
    (isInitializer_of_lexemes placed valueSpells within) (kind_of_lexeme_mark isEnd)
  rwa [isText, isConstant] at form

mutual

/-- Induction on the statement: those inside its bodies are one level deeper. -/
theorem isStatement_of_lexemes (statement : Statement) {depth : Nat} {tokens : List Token}
    (placed : statement.WellPlaced floatText)
    (spells : tokens.map Token.lexeme = statement.lexemes floatText)
    (within : depth + 1 + statement.levels ≤ maxDepth) : IsStatement depth tokens statement := by
  rw [IsStatement]
  refine ⟨by omega, ?_⟩
  match statement with
  | .expression value =>
    exact .expression (isExpressionUpToSemicolon_of_lexemes placed spells within)
  | .print value =>
    obtain ⟨word, rest, rfl, isWord, spells⟩ := List.map_eq_cons_iff.mp spells
    exact .print (kind_of_lexeme_mark isWord)
      (isExpressionUpToSemicolon_of_lexemes placed spells within)
  | .returned value =>
    obtain ⟨word, rest, rfl, isWord, spells⟩ := List.map_eq_cons_iff.mp spells
    exact .returned (kind_of_lexeme_mark isWord)
      (isExpressionUpToSemicolon_of_lexemes placed spells within)
  | .conditional condition body alternative =>
    rw [Statement.levels] at within
    obtain ⟨first, rest, rfl, clauseSpells, restSpells⟩ := List.map_eq_append_iff.mp spells
    have clause : IsClause (depth + 1) (IsStatement (depth + 1)) .kwIf first (condition, body) :=
      isClause_of_lexemes placed.1 clauseSpells (by omega) fun spells =>
        many_isStatement_of_lexemes body placed.2.1 spells (by omega)
    obtain ⟨further, last, others, final, rfl, clauses, isLast, rfl⟩ :=
      alternative_of_lexemes alternative placed.2.2 restSpells
        (Nat.le_trans (Nat.add_le_add_left (Nat.le_max_right ..) _) within)
    exact .conditional (.intro clause clauses isLast)
  | .whileLoop condition body =>
    rw [Statement.levels] at within
    exact .whileLoop (isClause_of_lexemes placed.1 spells (by omega) fun spells =>
      many_isStatement_of_lexemes body placed.2 spells (by omega))
  | .forLoop initializer condition modifier body =>
    rw [Statement.levels] at within
    exact .forLoop (isForLoop_of_lexemes ⟨placed.1, placed.2.1, placed.2.2.1⟩ spells (by omega)
      fun spells => many_isStatement_of_lexemes body placed.2.2.2 spells (by omega))
  | .structType title fields => exact .structType (isStruct_of_lexemes spells)
  | .enumType title constants => exact .enumType (isEnum_of_lexemes spells)
  | .function title parameters type body =>
    exact .function (isFunction_of_lexemes spells fun spells =>
      many_isStatement_of_lexemes body placed.2.2.2 spells within)
  | .declaration constant title type value =>
    exact .declaration (isDeclaration_of_lexemes placed.2.2 spells within)
  | .block body => exact placed.elim
  | .inNamespace title => exact placed.elim
  | .usingNamespace title => exact placed.elim

theorem many_isStatement_of_lexemes (statements : List Statement) {depth : Nat}
    {tokens : List Token} (placed : Statement.AllWellPlaced floatText statements)
    (spells : tokens.map Token.lexeme = Statement.allLexemes floatText statements)
    (within : depth + Statement.levelsOfAll statements ≤ maxDepth) :
    Many (IsStatement depth) tokens statements := by
  match statements with
  | [] =>
    obtain rfl := List.map_eq_nil_iff.mp spells
    exact .nil
  | statement :: statements =>
    rw [Statement.levelsOfAll] at within
    obtain ⟨first, others, rfl, firstSpells, othersSay⟩ := List.map_eq_append_iff.mp spells
    exact .cons (isStatement_of_lexemes statement placed.1 firstSpells (by omega))
      (many_isStatement_of_lexemes statements placed.2 othersSay (by omega))

theorem alternative_of_lexemes (alternative : Alternative) {depth : Nat} {tokens : List Token}
    (placed : alternative.WellPlaced floatText)
    (spells : tokens.map Token.lexeme = alternative.lexemes floatText)
    (within : depth + alternative.levels ≤ maxDepth) :
    ∃ further last others final, tokens = further ++ last ∧
      Many (IsClause depth (IsStatement depth) .kwElif) further others ∧
      IsLastAlternative (IsStatement depth) last final ∧ .elseIfs others final = alternative := by
  match alternative with
  | .absent =>
    obtain rfl := List.map_eq_nil_iff.mp spells
    exact ⟨[], [], [], .absent, rfl, .nil, .absent, rfl⟩
  | .elseIf condition body rest =>
    rw [Alternative.levels] at within
    obtain ⟨first, second, rfl, clauseSpells, restSpells⟩ := List.map_eq_append_iff.mp spells
    have clause : IsClause depth (IsStatement depth) .kwElif first (condition, body) :=
      isClause_of_lexemes placed.1 clauseSpells (by omega) fun spells =>
        many_isStatement_of_lexemes body placed.2.1 spells (by omega)
    obtain ⟨further, last, others, final, rfl, clauses, isLast, rfl⟩ :=
      alternative_of_lexemes rest placed.2.2 restSpells
        (Nat.le_trans (Nat.add_le_add_left (Nat.le_max_right ..) _) within)
    exact ⟨first ++ further, last, (condition, body) :: others, final, (List.append_assoc ..).symm,
      .cons clause clauses, isLast, rfl⟩
  | .otherwise body =>
    obtain ⟨word, rest, rfl, isWord, blockSpells⟩ := List.map_eq_cons_iff.mp spells
    have block : IsBlock (IsStatement depth) rest body :=
      isBlock_of_lexemes blockSpells fun spells =>
        many_isStatement_of_lexemes body placed spells within
    exact ⟨[], word :: rest, [], .otherwise body, rfl, .nil,
      .otherwise (kind_of_lexeme_mark isWord) block, rfl⟩

end

theorem isTopLevel_of_lexemes {statement : Statement}
    (placed : statement.WellPlacedOutside floatText)
    (spells : tokens.map Token.lexeme = statement.lexemes floatText)
    (within : statement.levels ≤ maxDepth) : IsTopLevel tokens statement := by
  have directive : ∀ {word : TokenKind} {title : String},
      tokens.map Token.lexeme = [mark word, named title, mark .semicolon] →
      ∃ first second third : Token, tokens = [first, second, third] ∧ first.kind = word ∧
        second.kind = .identifier ∧ second.text = title ∧ third.kind = .semicolon := by
    intro word title spells
    obtain ⟨first, rest, rfl, isWord, spells⟩ := List.map_eq_cons_iff.mp spells
    obtain ⟨second, rest, rfl, nameSpells, spells⟩ := List.map_eq_cons_iff.mp spells
    obtain ⟨third, rfl, isEnd⟩ := List.map_eq_singleton_iff.mp spells
    obtain ⟨isName, isText⟩ := text_of_lexeme_named nameSpells
    exact ⟨first, second, third, rfl, kind_of_lexeme_mark isWord, isName, isText,
      kind_of_lexeme_mark isEnd⟩
  match statement with
  | .function title parameters type body =>
    have bodyPlaced : Statement.AllWellPlaced floatText body := placed.2.2.2
    have bodyWithin : 0 + Statement.levelsOfAll body ≤ maxDepth := by
      simpa [Statement.levels] using within
    exact .function (isFunction_of_lexemes spells fun spells =>
      many_isStatement_of_lexemes body bodyPlaced spells bodyWithin)
  | .structType title fields => exact .structType (isStruct_of_lexemes spells)
  | .enumType title constants => exact .enumType (isEnum_of_lexemes spells)
  | .inNamespace title =>
    obtain ⟨first, second, third, rfl, isWord, isName, rfl, isEnd⟩ := directive spells
    exact .inNamespace isWord isName isEnd
  | .usingNamespace title =>
    obtain ⟨first, second, third, rfl, isWord, isName, rfl, isEnd⟩ := directive spells
    exact .usingNamespace isWord isName isEnd

theorem Statement.allLexemes_eq_flatMap (statements : List Statement) :
    Statement.allLexemes floatText statements =
      statements.flatMap (Statement.lexemes floatText) := by
  induction statements with
  | nil => rfl
  | cons statement statements ih => rw [Statement.allLexemes, ih, List.flatMap_cons]

theorem Program.levels_le {program : Program} {statement : Statement}
    (inside : statement ∈ program.statements) : statement.levels ≤ program.levels := by
  obtain ⟨statements⟩ := program
  induction statements with
  | nil => cases inside
  | cons first others ih =>
    rcases inside with _ | ⟨_, inside⟩
    · exact Nat.le_max_left ..
    · exact Nat.le_trans (ih inside) (Nat.le_max_right ..)

/-- Tokens that say the lexemes of a well-placed program are this program. -/
theorem isProgram_of_lexemes {program : Program} (placed : program.WellPlaced floatText)
    (spells : tokens.map Token.lexeme = Statement.allLexemes floatText program.statements)
    (within : program.levels ≤ maxDepth) : IsProgram tokens program := by
  rw [Statement.allLexemes_eq_flatMap] at spells
  exact many_of_lexemes spells fun statement inside segment spells =>
    isTopLevel_of_lexemes (placed statement inside) spells
      (Nat.le_trans (Program.levels_le inside) within)

end

end BraceLang
