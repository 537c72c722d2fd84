import BraceLang.Proofs.DriverRun
import BraceLang.Proofs.MaximalMunch
import BraceLang.Proofs.SourceGrammar

/-!
The trees of source texts. What a source text is cut into has a spelling of its kind: names are
words that are not reserved, numbers are digits, and no string or character holds its own quotation
mark. Each form of the grammar builds a well-formed tree from such tokens; and since every statement
that parsing keeps has passed a segment of its form, the tree of every source text is well formed,
whatever was reported about the rest of the text (`parseSource_wellFormed`).
-/
namespace BraceLang

/-- Holds of the doubles with a sign. -/
def Binary64.isNegative : Binary64 → Bool
  | .nan => false
  | .infinity negative | .finite negative .. => negative

/-- Expressions that parsing can give where any expression can stand. Array literals and types are
not among them. -/
inductive Expression.WellFormed : Expression → Prop where
  | identifier (isName : IsNameText title) : WellFormed (.identifier title)
  | bool (value : Bool) : WellFormed (.bool value)
  | object (isWord : word = .kwThis ∨ word = .kwNull) : WellFormed (.object word)
  | string (unquoted : '"' ∉ value.toList) : WellFormed (.string value)
  | float (isFinite : value.isFinite = true) (unsigned : value.isNegative = false) :
      WellFormed (.float value)
  | int (natural : 0 ≤ value) (bounded : value < 2 ^ 63) : WellFormed (.int value)
  | char (unquoted : value ≠ '\'') (inLine : value ≠ '\n') : WellFormed (.char value)
  | unary (isUnary : operator ∈ [.plus, .minus, .not, .bitNot]) (operand : WellFormed value) :
      WellFormed (.unary operator value)
  | binary (isInfix : operator.infixRule? = some .leftAssociative ∨
        operator.infixRule? = some .rightAssociative)
      (left : WellFormed first) (right : WellFormed second) :
      WellFormed (.binary first operator second)
  | call (callee : WellFormed function) (each : ∀ argument ∈ arguments, WellFormed argument) :
      WellFormed (.call function arguments)
  | subscript (base : WellFormed first) (index : WellFormed second) :
      WellFormed (.subscript first second)

/-- Expressions that parsing can give as the first value of a variable. -/
inductive Expression.WellFormedInitially : Expression → Prop where
  | expression (formed : Expression.WellFormed value) : WellFormedInitially value
  | array (each : ∀ element ∈ elements, WellFormedInitially element) :
      WellFormedInitially (.array elements)

/-- A type with a name. -/
def TypeName.WellFormed (type : TypeName) : Prop :=
  IsNameText type.name

/-- A name and a type that has one. -/
def TypedName.WellFormed (typed : TypedName) : Prop :=
  IsNameText typed.name ∧ typed.type.WellFormed

mutual

/-- Statements that parsing can give in a body. Neither namespaces nor blocks are among them. -/
def Statement.WellFormed : Statement → Prop
  | .expression value | .print value | .returned value => value.WellFormed
  | .conditional condition body alternative =>
    condition.WellFormed ∧ Statement.AllWellFormed body ∧ alternative.WellFormed
  | .whileLoop condition body => condition.WellFormed ∧ Statement.AllWellFormed body
  | .forLoop initializer condition modifier body =>
    initializer.WellFormed ∧ condition.WellFormed ∧ modifier.WellFormed ∧
      Statement.AllWellFormed body
  | .structType title fields => IsNameText title ∧ ∀ field ∈ fields, field.WellFormed
  | .enumType title constants => IsNameText title ∧ ∀ constant ∈ constants, IsNameText constant
  | .function title parameters returnType body =>
    IsNameText title ∧ (∀ parameter ∈ parameters, parameter.WellFormed) ∧
      returnType.WellFormed ∧ Statement.AllWellFormed body
  | .declaration _ title type value =>
    IsNameText title ∧ type.WellFormed ∧ value.WellFormedInitially
  | .block _ | .inNamespace _ | .usingNamespace _ => False

/-- What parsing can give after the body of a conditional. -/
def Alternative.WellFormed : Alternative → Prop
  | .absent => True
  | .elseIf condition body alternative =>
    condition.WellFormed ∧ Statement.AllWellFormed body ∧ alternative.WellFormed
  | .otherwise body => Statement.AllWellFormed body

/-- Bodies of well-formed statements. -/
def Statement.AllWellFormed : List Statement → Prop
  | [] => True
  | statement :: statements => statement.WellFormed ∧ Statement.AllWellFormed statements

end

/-- Statements that parsing can give at the top level: functions, structs, enums and namespaces. -/
def Statement.WellFormedOutside (statement : Statement) : Prop :=
  match statement with
  | .function .. | .structType .. | .enumType .. => statement.WellFormed
  | .inNamespace title | .usingNamespace title => IsNameText title
  | _ => False

/-- Programs that parsing can give. -/
def Program.WellFormed (program : Program) : Prop :=
  ∀ statement ∈ program.statements, statement.WellFormedOutside

theorem Statement.allWellFormed_iff {statements : List Statement} :
    Statement.AllWellFormed statements ↔ ∀ statement ∈ statements, statement.WellFormed := by
  induction statements with
  | nil => simp [Statement.AllWellFormed]
  | cons statement statements ih => simp [Statement.AllWellFormed, ih]

/-! ## Tokens of a source text are spelled as their kinds are -/

/-- A token has a text that its kind can have in a source text. -/
def Token.Spelled (token : Token) : Prop :=
  match token.kind with
  | .identifier => IsNameText token.text
  | .intLiteral => token.text.toList ≠ [] ∧ ∀ c ∈ token.text.toList, c.isDigit = true
  | .floatLiteral => IsPointed token.text
  | .stringLiteral => '"' ∉ token.text.toList
  | .charLiteral => ∃ c, token.text.toList = [c] ∧ c ≠ '\'' ∧ c ≠ '\n'
  | _ => True

/-- The text of a token matters only if its kind carries one. -/
theorem Token.spelled_of_carriesText {token : Token} (bare : token.kind.carriesText = false) :
    token.Spelled := by
  unfold Token.Spelled
  split <;> rename_i isKind <;> first | exact trivial | (rw [isKind] at bare; cases bare)

theorem IsLexeme.isWord {text : List Char} (lexeme : IsLexeme .word text) : IsWord text := by
  cases lexeme with
  | word starts parts =>
    exact ⟨_, _, rfl, isWordStart_iff.mpr starts, fun c mem => isWordPart_iff.mpr (parts c mem)⟩

/-- A token that a piece of a source text makes is spelled as its kind. -/
theorem Piece.Means.spelled {piece : Piece} {token : Token} (means : piece.Means token)
    (isCut : piece.IsCut) : token.Spelled := by
  have lexeme : piece.form.isLexical = true → IsLexeme piece.form piece.text := by
    intro lexical
    rcases isCut with isLexeme | ⟨illegal | illegal, -⟩
    · exact isLexeme
    · rw [illegal] at lexical
      cases lexical
    · rw [illegal] at lexical
      cases lexical
  cases means with
  | reserved found => exact Token.spelled_of_carriesText (carriesText_of_reserved found)
  | identifier free =>
    have isWord := (lexeme rfl).isWord
    exact ⟨by rwa [String.toList_ofList], free⟩
  | integer =>
    cases lexeme rfl with
    | integer nonempty digits =>
      refine ⟨?_, ?_⟩ <;> rw [String.toList_ofList]
      · exact nonempty
      · exact fun c mem => isDigit_iff.mpr (digits c mem)
  | decimal =>
    cases lexeme rfl with
    | decimal nonempty digits nonempty' digits' =>
      exact ⟨_, _, String.toList_ofList, nonempty, nonempty',
        fun c mem => isDigit_iff.mpr (digits c mem), fun c mem => isDigit_iff.mpr (digits' c mem)⟩
  | @string body =>
    have isLexeme := lexeme rfl
    generalize whole : '"' :: (body ++ ['"']) = text at isLexeme
    cases isLexeme with
    | string unquoted =>
      obtain rfl := List.append_cancel_right (List.cons.inj whole).2
      simpa [Token.Spelled] using unquoted
  | character =>
    cases lexeme rfl with
    | character unquoted inLine => exact ⟨_, String.toList_ofList, unquoted, inLine⟩
  | symbol =>
    cases lexeme rfl with
    | symbol listed => exact Token.spelled_of_carriesText (carriesText_of_listed listed)
  | unterminated | stray => exact trivial

/-- Tokens that pieces make one after another are spelled as their kinds. -/
theorem spelled_of_makes {pieces : List Piece} {tokens : List Token}
    (made : List.Forall₂ Piece.Makes pieces tokens) (isCut : ∀ piece ∈ pieces, piece.IsCut) :
    ∀ token ∈ tokens, token.Spelled := by
  induction made with
  | nil => nofun
  | cons makes _ ih =>
    rw [List.forall_mem_cons] at isCut ⊢
    exact ⟨makes.meaning.spelled isCut.1, ih isCut.2⟩

/-- All tokens of a source text are spelled as their kinds. -/
theorem spelled_of_mem_tokenize {source : String} :
    ∀ token ∈ tokenize source, token.Spelled := by
  have isCut : ∀ piece ∈ pieces source.toList, piece.IsCut := (munched_iff.mpr rfl).isCut
  obtain ⟨tokens, last, shape, made⟩ := tokensOfPieces_makes isCut .start
  rw [tokenize, shape]
  intro token mem
  rcases List.mem_append.mp mem with inside | isLast
  · exact spelled_of_makes made (fun piece mem => isCut piece (List.mem_of_mem_filter mem))
      token inside
  · obtain rfl := List.mem_singleton.mp isLast
    exact trivial

/-! ## Leaves and operators make well-formed expressions -/

/-- The kinds of the tokens that start an expression by a rule. -/
def PrefixRule.kinds : PrefixRule → List TokenKind
  | .identifier => [.identifier]
  | .bool => [.kwTrue, .kwFalse]
  | .object => [.kwThis, .kwNull]
  | .int => [.intLiteral]
  | .float => [.floatLiteral]
  | .string => [.stringLiteral]
  | .char => [.charLiteral]
  | .unary => [.plus, .minus, .not, .bitNot]
  | .grouping => [.leftParen]

theorem mem_kinds_of_prefixRule? {kind : TokenKind} {rule : PrefixRule}
    (found : kind.prefixRule? = some rule) : kind ∈ rule.kinds := by
  cases kind <;> cases found <;> decide

theorem Binary64.isNegative_ofParts (negative : Bool) (significand exponent : Nat) :
    (ofParts negative significand exponent).isNegative = negative := by
  unfold ofParts
  split <;> rfl

theorem Binary64.isNegative_ofQuotient (negative : Bool) (numerator denominator : Nat) :
    (ofQuotient negative numerator denominator).isNegative = negative := by
  unfold ofQuotient
  dsimp only
  split <;> exact isNegative_ofParts ..

/-- A decimal with a sign is a double with this sign. -/
theorem Decimal.isNegative_toBinary64 (negative : Bool) (d : Decimal) :
    (d.toBinary64 negative).isNegative = negative := by
  unfold toBinary64
  split
  · rfl
  split
  · rfl
  split
  · rfl
  split <;> exact Binary64.isNegative_ofQuotient ..

theorem isNegative_of_readNamed? {negative : Bool} {text : List Char} {value : Binary64}
    (reads : Number.readNamed? negative text = some value) : value.isNegative = true →
    negative = true := by
  unfold Number.readNamed? at reads
  dsimp only at reads
  split at reads
  · cases reads
    nofun
  split at reads <;> cases reads
  exact id

/-- A number that starts with a digit has no sign. -/
theorem isNegative_of_readBinary64? {c : Char} {text : List Char} {value : Binary64}
    (digit : c.isDigit = true) (reads : Number.readBinary64? (c :: text) = some value) :
    value.isNegative = false := by
  unfold Number.readBinary64? at reads
  rw [splitSign_of_isDigit digit] at reads
  dsimp only at reads
  split at reads
  · cases reads
    exact Decimal.isNegative_toBinary64 ..
  · exact Bool.eq_false_iff.mpr fun negative => nomatch isNegative_of_readNamed? reads negative

/-- A run of digits is read as a number that fits 63 bits. -/
theorem bounded_of_readInt64? {digits : List Char} {value : Int}
    (all : ∀ c ∈ digits, c.isDigit = true) (reads : Number.readInt64? digits = some value) :
    0 ≤ value ∧ value < 2 ^ 63 := by
  cases digits with
  | nil => cases reads
  | cons c rest =>
    unfold Number.readInt64? at reads
    rw [splitSign_of_isDigit (all c List.mem_cons_self)] at reads
    dsimp only at reads
    split at reads
    · cases reads
    rw [if_neg Bool.false_ne_true] at reads
    split at reads
    · rename_i fits
      cases reads
      exact ⟨Int.natCast_nonneg _, Int.ofNat_lt.mpr fits⟩
    · cases reads

/-- A literal that goes on to a result has a value. -/
theorem exists_of_literal {α β : Type} {type : LiteralType} {read? : List Char → Option α}
    {token : Token} {following : α → Except Problem β} {result : β}
    (taken : (Parse.literal type read? token >>= following) = .ok result) :
    ∃ value, read? token.text.toList = some value ∧ following value = .ok result := by
  unfold Parse.literal at taken
  split at taken
  · exact ⟨_, ‹_›, taken⟩
  · cases taken

/-- An operand that a token is by itself. -/
theorem wellFormed_of_operandStart {token : Token} {value : Expression}
    (spelled : token.Spelled) (starts : Parse.operandStart token = .ok (.complete value)) :
    value.WellFormed := by
  obtain ⟨kind, text, position⟩ := token
  unfold Parse.operandStart at starts
  split at starts
  · rename_i rule isRule
    have isKind := mem_kinds_of_prefixRule? isRule
    cases rule with
    | identifier =>
      obtain rfl := List.mem_singleton.mp isKind
      cases starts
      exact .identifier spelled
    | bool =>
      cases starts
      exact .bool _
    | object =>
      cases starts
      exact .object (by simpa [PrefixRule.kinds] using isKind)
    | string =>
      obtain rfl := List.mem_singleton.mp isKind
      cases starts
      exact .string spelled
    | int =>
      obtain rfl := List.mem_singleton.mp isKind
      obtain ⟨number, reads, same⟩ := exists_of_literal starts
      cases same
      obtain ⟨natural, bounded⟩ := bounded_of_readInt64? spelled.2 reads
      exact .int natural bounded
    | float =>
      obtain rfl := List.mem_singleton.mp isKind
      obtain ⟨number, reads, same⟩ := exists_of_literal starts
      split at same
      · rename_i isFinite
        cases same
        obtain ⟨whole, fraction, shape, nonempty, -, digits, -⟩ := spelled
        obtain ⟨c, rest, rfl⟩ := List.exists_cons_of_ne_nil nonempty
        rw [shape] at reads
        exact .float isFinite (isNegative_of_readBinary64? (digits c List.mem_cons_self) reads)
      · cases same
    | char =>
      obtain rfl := List.mem_singleton.mp isKind
      obtain ⟨c, reads, same⟩ := exists_of_literal starts
      cases same
      obtain ⟨only, shape, unquoted, inLine⟩ := spelled
      rw [shape] at reads
      cases reads
      exact .char unquoted inLine
    | unary | grouping => cases starts
  · cases starts

/-- The tree of each of some expressions is the tree of one of them. -/
theorem Concrete.exists_of_mem_trees? {expressions : List Concrete} {values : List Expression}
    (trees : trees? expressions = some values) :
    ∀ value ∈ values, ∃ expression ∈ expressions, expression.tree? = some value := by
  induction expressions generalizing values with
  | nil =>
    cases trees
    nofun
  | cons first others ih =>
    obtain ⟨value, tree, rest, restTrees, rfl⟩ := trees?_cons.mp trees
    rw [List.forall_mem_cons]
    refine ⟨⟨first, List.mem_cons_self, tree⟩, fun value mem => ?_⟩
    obtain ⟨expression, inside, tree⟩ := ih restTrees value mem
    exact ⟨expression, List.mem_cons_of_mem _ inside, tree⟩

/-- What an argument yields is in what the arguments yield. -/
theorem Concrete.mem_intercalate_yields {expressions : List Concrete} {expression : Concrete}
    {sign separator : Sign} (inside : expression ∈ expressions) (mem : sign ∈ expression.yield) :
    sign ∈ [separator].intercalate (yields expressions) := by
  induction expressions with
  | nil => cases inside
  | cons first others ih =>
    rw [yields]
    cases others with
    | nil =>
      obtain rfl := List.mem_singleton.mp inside
      simpa [yields] using mem
    | cons second others =>
      rw [yields, List.intercalate_cons_cons, ← yields]
      rcases List.mem_cons.mp inside with rfl | later
      · exact List.mem_append_left _ (List.mem_append_left _ mem)
      · exact List.mem_append_right _ (ih later)

/-- A properly bound expression of spelled tokens is well formed. -/
theorem Concrete.ProperlyBound.wellFormed {expression : Concrete} {value : Expression}
    (bound : expression.ProperlyBound)
    (spelled : ∀ token, .atom token ∈ expression.yield → token.Spelled)
    (tree : expression.tree? = some value) : value.WellFormed := by
  induction bound generalizing value with
  | atom token =>
    unfold tree? at tree
    split at tree <;> cases tree
    exact wellFormed_of_operandStart (spelled token List.mem_cons_self) ‹_›
  | group inner ih => exact ih (fun token mem => spelled token (by simp [yield, mem])) tree
  | unary isUnary operand held ih =>
    obtain ⟨inner, innerTree, rfl⟩ := tree?_unary.mp tree
    exact .unary (mem_kinds_of_prefixRule? isUnary)
      (ih (fun token mem => spelled token (by simp [yield, mem])) innerTree)
  | binary isInfix left right held released leftIh rightIh =>
    obtain ⟨first, firstTree, second, secondTree, rfl⟩ := tree?_binary.mp tree
    exact .binary isInfix
      (leftIh (fun token mem => spelled token (by simp [yield, mem])) firstTree)
      (rightIh (fun token mem => spelled token (by simp [yield, mem])) secondTree)
  | call callee arguments released calleeIh argumentsIh =>
    obtain ⟨inner, innerTree, values, trees, rfl⟩ := tree?_call.mp tree
    refine .call (calleeIh (fun token mem => spelled token (by simp [yield, mem])) innerTree) ?_
    intro argument isArgument
    obtain ⟨expression, inside, argumentTree⟩ := exists_of_mem_trees? trees argument isArgument
    refine argumentsIh expression inside (fun token mem => spelled token ?_) argumentTree
    simp [yield, mem_intercalate_yields inside mem]
  | subscript base index released baseIh indexIh =>
    obtain ⟨inner, innerTree, position, positionTree, rfl⟩ := tree?_subscript.mp tree
    exact .subscript
      (baseIh (fun token mem => spelled token (by simp [yield, mem])) innerTree)
      (indexIh (fun token mem => spelled token (by simp [yield, mem])) positionTree)

/-! ## Each form builds well-formed trees from such tokens -/

/-- Items that are made of spelled tokens have values with the property `P`. -/
def Builds {α : Type} (Item : List Token → α → Prop) (P : α → Prop) : Prop :=
  ∀ ⦃segment : List Token⦄ ⦃value : α⦄, Item segment value →
    (∀ token ∈ segment, token.Spelled) → P value

section

variable {α : Type} {Item : List Token → α → Prop} {P : α → Prop}

theorem Builds.many (builds : Builds Item P) : Builds (Many Item) (∀ value ∈ ·, P value) := by
  intro segment values items spelled
  induction items with
  | nil => nofun
  | cons item others ih =>
    rw [List.forall_mem_append] at spelled
    exact List.forall_mem_cons.mpr ⟨builds item spelled.1, ih spelled.2⟩

theorem Builds.afterComma (builds : Builds Item P) : Builds (AfterComma Item) P := by
  rintro segment value ⟨comma, item, rfl, isComma, form⟩ spelled
  exact builds form (List.forall_mem_cons.mp spelled).2

theorem Builds.listed (builds : Builds Item P) : Builds (Listed Item) (∀ value ∈ ·, P value) := by
  rintro segment values (⟨rfl, rfl⟩ | ⟨item, others⟩) spelled
  · nofun
  · rw [List.forall_mem_append] at spelled
    exact List.forall_mem_cons.mpr ⟨builds item spelled.1,
      builds.afterComma.many others spelled.2⟩

end

section

/-- A token that is a name is spelled as one. -/
theorem Token.Spelled.isNameText {token : Token} (spelled : token.Spelled)
    (isName : token.kind = .identifier) : IsNameText token.text := by
  simpa [Token.Spelled, isName] using spelled

theorem builds_expression (depth : Nat) : Builds (IsExpression depth) Expression.WellFormed := by
  intro segment value form spelled
  obtain ⟨expression, denotes⟩ := isExpression_iff.mp form
  refine denotes.bound.wellFormed (fun token mem => ?_) denotes.tree
  rw [← denotes.signs] at mem
  obtain ⟨other, inside, isAtom⟩ := List.mem_map.mp mem
  obtain rfl := (Token.sign_eq_atom.mp isAtom).1
  exact spelled other inside

theorem builds_initializer (depth : Nat) :
    Builds (IsInitializer depth) Expression.WellFormedInitially := by
  intro segment value form spelled
  rw [IsInitializer] at form
  rcases form with expression | ⟨within, opening, inside, close, elements, rfl, -, -, listed, rfl⟩
  · exact .expression (builds_expression depth expression spelled)
  · simp only [List.forall_mem_cons, List.forall_mem_append] at spelled
    exact .array ((builds_initializer (depth + 1)).listed listed spelled.2.1)
termination_by maxDepth - depth

theorem builds_name : Builds IsName IsNameText := by
  rintro _ _ ⟨isName⟩ spelled
  exact (spelled _ List.mem_cons_self).isNameText isName

theorem builds_type : Builds IsType TypeName.WellFormed := by
  rintro _ _ ⟨isName, -⟩ spelled
  exact (spelled _ List.mem_cons_self).isNameText isName

theorem builds_typedName : Builds IsTypedName TypedName.WellFormed := by
  rintro _ _ ⟨isName, -, type⟩ spelled
  simp only [List.forall_mem_cons] at spelled
  exact ⟨spelled.1.isNameText isName, builds_type type spelled.2.2⟩

theorem builds_field : Builds IsField TypedName.WellFormed := by
  rintro _ _ ⟨typed, -⟩ spelled
  exact builds_typedName typed (List.forall_mem_append.mp spelled).1

theorem builds_struct : Builds IsStruct Statement.WellFormed := by
  rintro _ _ ⟨-, isName, -, fields, -⟩ spelled
  simp only [List.forall_mem_cons, List.forall_mem_append] at spelled
  exact ⟨spelled.2.1.isNameText isName, builds_field.many fields spelled.2.2.2.1⟩

theorem builds_enum : Builds IsEnum Statement.WellFormed := by
  rintro _ _ ⟨-, isName, -, constants, -⟩ spelled
  simp only [List.forall_mem_cons, List.forall_mem_append] at spelled
  exact ⟨spelled.2.1.isNameText isName, builds_name.listed constants spelled.2.2.2.1⟩

variable {depth : Nat} {Inner : List Token → Statement → Prop}

theorem builds_block (inner : Builds Inner Statement.WellFormed) :
    Builds (IsBlock Inner) Statement.AllWellFormed := by
  rintro _ _ ⟨-, body, -⟩ spelled
  simp only [List.forall_mem_cons, List.forall_mem_append] at spelled
  exact Statement.allWellFormed_iff.mpr (inner.many body spelled.2.1)

theorem builds_clause (inner : Builds Inner Statement.WellFormed) {word : TokenKind} :
    Builds (IsClause depth Inner word)
      fun (condition, body) => condition.WellFormed ∧ Statement.AllWellFormed body := by
  rintro _ _ ⟨-, condition, body⟩ spelled
  simp only [List.forall_mem_cons, List.forall_mem_append] at spelled
  exact ⟨builds_expression depth condition spelled.2.1, builds_block inner body spelled.2.2⟩

theorem builds_lastAlternative (inner : Builds Inner Statement.WellFormed) :
    Builds (IsLastAlternative Inner) Alternative.WellFormed := by
  rintro _ _ (_ | ⟨-, body⟩) spelled
  · exact trivial
  · exact builds_block inner body (List.forall_mem_cons.mp spelled).2

theorem Alternative.wellFormed_elseIfs {clauses : List (Expression × List Statement)}
    {last : Alternative}
    (each : ∀ clause ∈ clauses, clause.1.WellFormed ∧ Statement.AllWellFormed clause.2)
    (final : last.WellFormed) : (Alternative.elseIfs clauses last).WellFormed := by
  induction clauses with
  | nil => exact final
  | cons clause clauses ih =>
    rw [List.forall_mem_cons] at each
    exact ⟨each.1.1, each.1.2, ih each.2⟩

theorem builds_conditional (inner : Builds Inner Statement.WellFormed) :
    Builds (IsConditional depth Inner) Statement.WellFormed := by
  rintro _ _ ⟨clause, clauses, final⟩ spelled
  simp only [List.forall_mem_append] at spelled
  obtain ⟨condition, body⟩ := builds_clause inner clause spelled.1
  exact ⟨condition, body, Alternative.wellFormed_elseIfs
    ((builds_clause inner).many clauses spelled.2.1)
    (builds_lastAlternative inner final spelled.2.2)⟩

theorem builds_functionBody (inner : Builds Inner Statement.WellFormed) :
    Builds (IsFunctionBody depth Inner) Statement.AllWellFormed := by
  rintro _ _ (body | ⟨-, result, -⟩) spelled
  · exact builds_block inner body spelled
  · simp only [List.forall_mem_cons, List.forall_mem_append] at spelled
    exact ⟨builds_expression depth result spelled.2.1, trivial⟩

theorem builds_function (inner : Builds Inner Statement.WellFormed) :
    Builds (IsFunction depth Inner) Statement.WellFormed := by
  rintro _ _ ⟨-, isName, -, parameters, -, -, type, body⟩ spelled
  simp only [List.forall_mem_cons, List.forall_mem_append] at spelled
  obtain ⟨-, name, -, parametersSpelled, -, -, typeSpelled, bodySpelled⟩ := spelled
  exact ⟨name.isNameText isName, builds_typedName.listed parameters parametersSpelled,
    builds_type type typeSpelled, builds_functionBody inner body bodySpelled⟩

theorem builds_declaration : Builds (IsDeclaration depth) Statement.WellFormed := by
  rintro _ _ ⟨-, isName, -, type, -, initial, -⟩ spelled
  simp only [List.forall_mem_cons, List.forall_mem_append] at spelled
  obtain ⟨-, name, -, typeSpelled, -, initialSpelled, -⟩ := spelled
  exact ⟨name.isNameText isName, builds_type type typeSpelled,
    builds_initializer depth initial initialSpelled⟩

theorem builds_forLoop (inner : Builds Inner Statement.WellFormed) :
    Builds (IsForLoop depth Inner) Statement.WellFormed := by
  rintro _ _ ⟨-, initial, -, condition, -, modifier, body⟩ spelled
  simp only [List.forall_mem_cons, List.forall_mem_append] at spelled
  obtain ⟨-, initialSpelled, -, conditionSpelled, -, modifierSpelled, bodySpelled⟩ := spelled
  exact ⟨builds_expression depth initial initialSpelled,
    builds_expression depth condition conditionSpelled,
    builds_expression depth modifier modifierSpelled, builds_block inner body bodySpelled⟩

theorem builds_expressionUpToSemicolon :
    Builds (IsExpressionUpToSemicolon depth) Expression.WellFormed := by
  rintro _ _ ⟨expression, -⟩ spelled
  exact builds_expression depth expression (List.forall_mem_append.mp spelled).1

theorem builds_statementForm (inner : Builds Inner Statement.WellFormed) :
    Builds (IsStatementForm depth Inner) Statement.WellFormed := by
  intro segment value form spelled
  cases form with
  | function form => exact builds_function inner form spelled
  | structType form => exact builds_struct form spelled
  | enumType form => exact builds_enum form spelled
  | conditional form => exact builds_conditional inner form spelled
  | whileLoop clause => exact builds_clause inner clause spelled
  | forLoop form => exact builds_forLoop inner form spelled
  | declaration form => exact builds_declaration form spelled
  | returned _ form | print _ form =>
    exact builds_expressionUpToSemicolon form (List.forall_mem_cons.mp spelled).2
  | expression form => exact builds_expressionUpToSemicolon form spelled

theorem builds_statement (depth : Nat) : Builds (IsStatement depth) Statement.WellFormed := by
  intro segment value form spelled
  rw [IsStatement] at form
  obtain ⟨within, form⟩ := form
  exact builds_statementForm (builds_statement (depth + 1)) form spelled
termination_by maxDepth - depth

theorem builds_topLevel : Builds IsTopLevel Statement.WellFormedOutside := by
  intro segment value form spelled
  cases form with
  | function form =>
    have formed := builds_function (builds_statement 0) form spelled
    obtain ⟨-⟩ := form
    exact formed
  | structType form =>
    have formed := builds_struct form spelled
    obtain ⟨-⟩ := form
    exact formed
  | enumType form =>
    have formed := builds_enum form spelled
    obtain ⟨-⟩ := form
    exact formed
  | inNamespace _ isName | usingNamespace _ isName =>
    exact (spelled _ (by simp)).isNameText isName

end

/-- Every statement that is kept from a buffer of spelled tokens is well formed, whatever is
reported about the others. -/
theorem Program.wellFormed_of_spelled {tokens : List Token}
    (spelled : ∀ token ∈ tokens, token.Spelled) : (parseTokens tokens).program.WellFormed := by
  intro statement mem
  obtain ⟨segment, inside, form⟩ := exists_isTopLevel_of_mem mem
  exact builds_topLevel form fun token isToken => spelled token (inside.subset isToken)

/-- The tree of every source text is well formed, with or without reports. -/
theorem parseSource_wellFormed (source : String) : (parseSource source).program.WellFormed :=
  Program.wellFormed_of_spelled spelled_of_mem_tokenize

end BraceLang
