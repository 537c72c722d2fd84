import BraceLang.Proofs.MaximalMunch
import BraceLang.Proofs.TokenLikeness

/-!
The tree of a buffer depends on the kinds of its tokens and on the text of names and literals only.
Each rule of the grammar comes out alike over buffers of alike tokens, and so does the driver with
its recovery from problems: the trees are the same, and problems are reported at the same indices.
For source texts this means that blanks, comments and the two ways to write an operator of logic
make no difference.
-/
namespace BraceLang

open Rule

namespace Parse

variable {inner : Rule Statement} {element : Rule Expression}
  {expressionAt : BindingPower → Rule Expression}

/-- Of a type only the number of its bracket pairs is kept, not their text. -/
theorem indifferent_typeAfterName (name : String) : Indifferent (typeAfterName name) :=
  (Alike.manyWhile (alike_take.bind fun _ => alike_require rfl) _).bind fun pairs =>
    .pure (congrArg (TypeName.mk name) pairs.length_eq)

theorem indifferent_typeName {expectation : Expectation} (isName : expectation.kind = .identifier) :
    Indifferent (typeName expectation) :=
  Indifferent.bind (alike_require_name isName isName) indifferent_typeAfterName

theorem indifferent_typeAfterColon : Indifferent typeAfterColon :=
  alike_require_then _ (indifferent_typeName rfl)

/-- Alike tokens start the same operand, or both start none. -/
theorem operandStart_alike {first second : Token} (alike : first.Alike second) :
    Option.Rel (· = ·) (operandStart first).toOption (operandStart second).toOption := by
  obtain ⟨_, text, position⟩ := first
  obtain ⟨kind, text', position'⟩ := second
  obtain ⟨rfl, sameText⟩ := alike
  by_cases written : kind.isWritten = true
  · obtain rfl := sameText written
    have same : operandStart ⟨kind, text', position'⟩ = operandStart ⟨kind, text', position⟩ :=
      rfl
    rw [same]
    cases operandStart ⟨kind, text', position⟩ with
    | error => exact .none
    | ok start => exact .some rfl
  · cases kind <;> first | exact absurd rfl written | exact .none | exact .some rfl

theorem indifferent_operand (indifferent : ∀ least, Indifferent (expressionAt least)) :
    Indifferent (operand expressionAt) := by
  refine Indifferent.bind (alike_takeAs operandStart_alike) fun start => ?_
  cases start with
  | complete value => exact indifferent_pure value
  | unary operator => exact (indifferent _).bind fun _ => indifferent_pure _
  | grouping =>
    exact (indifferent _).bind fun _ => alike_require_then _ (indifferent_pure _)

theorem indifferent_arguments (indifferent : ∀ least, Indifferent (expressionAt least)) :
    Indifferent (arguments expressionAt) :=
  ((indifferent _).itemsUpTo _).bind fun _ => alike_require_then _ (indifferent_pure _)

theorem indifferent_continuation (indifferent : ∀ least, Indifferent (expressionAt least))
    (left : Expression) (rule : InfixRule) :
    Indifferent (continuation expressionAt left rule) := by
  refine alike_take.bind fun {token token'} alike => ?_
  rw [alike.kind]
  cases rule with
  | leftAssociative => exact (indifferent _).bind fun _ => indifferent_pure _
  | rightAssociative => exact (indifferent _).bind fun _ => indifferent_pure _
  | call => exact (indifferent_arguments indifferent).bind fun _ => indifferent_pure _
  | subscript =>
    exact (indifferent _).bind fun _ => alike_require_then _ (indifferent_pure _)

theorem indifferent_operators (indifferent : ∀ least, Indifferent (expressionAt least))
    (least : BindingPower) : Indifferent (operators expressionAt least) :=
  (indifferent_operand indifferent).bind fun _ =>
    .iterate (fun {left _} rule same => same ▸ indifferent_continuation indifferent left rule) rfl

theorem indifferent_expressionWithin (levels : Nat) (least : BindingPower) :
    Indifferent (expressionWithin levels least) := by
  induction levels generalizing least with
  | zero => exact alike_giveUp _ _
  | succ levels ih => exact Alike.nested (indifferent_operators ih least)

theorem indifferent_expression : Indifferent expression :=
  indifferent_expressionWithin maxDepth .lowest

theorem indifferent_arrayAfterBracket (indifferent : Indifferent element) :
    Indifferent (arrayAfterBracket element) :=
  (indifferent.itemsUpTo _).bind fun _ => alike_require_then _ (indifferent_pure _)

theorem indifferent_initializerBy (indifferent : Indifferent element) :
    Indifferent (initializerBy element) :=
  indifferent_currentKind.bind fun _ =>
    alike_ite (alike_take.bind fun _ => indifferent) indifferent_expression

theorem indifferent_initializerWithin (levels : Nat) :
    Indifferent (initializerWithin levels) := by
  induction levels with
  | zero => exact indifferent_initializerBy (alike_giveUp _ _)
  | succ levels ih =>
    exact indifferent_initializerBy (Alike.nested (indifferent_arrayAfterBracket ih))

theorem indifferent_initializer : Indifferent initializer :=
  indifferent_initializerWithin maxDepth

theorem indifferent_block (indifferent : Indifferent inner) : Indifferent (block inner) :=
  alike_require_then _ <| (indifferent.manyWhile _).bind fun _ =>
    alike_require_then _ (indifferent_pure _)

theorem indifferent_expressionUpToSemicolon : Indifferent expressionUpToSemicolon :=
  indifferent_expression.bind fun _ => alike_require_then _ (indifferent_pure _)

/-- The word of a declaration is named in the problem with the name after it, and says whether it
declares a constant; for the latter its kind is looked at. -/
theorem indifferent_declarationStatement : Indifferent declarationStatement := by
  refine alike_take.bind fun {word word'} alike => ?_
  rw [alike.kind]
  refine (alike_require_name rfl rfl).bind fun same => ?_
  rw [same]
  exact indifferent_typeAfterColon.bind fun _ => alike_require_then _ <|
    indifferent_initializer.bind fun _ => alike_require_then _ (indifferent_pure _)

theorem indifferent_clause (indifferent : Indifferent inner) : Indifferent (clause inner) :=
  alike_take.bind fun _ => indifferent_expression.bind fun _ =>
    (indifferent_block indifferent).bind fun _ => indifferent_pure _

theorem indifferent_lastAlternative (indifferent : Indifferent inner) :
    Indifferent (lastAlternative inner) :=
  indifferent_currentKind.bind fun _ =>
    alike_ite
      (alike_take.bind fun _ => (indifferent_block indifferent).bind fun _ => indifferent_pure _)
      (indifferent_pure _)

theorem indifferent_alternative (indifferent : Indifferent inner) :
    Indifferent (alternative inner) :=
  ((indifferent_clause indifferent).manyWhile _).bind fun _ =>
    (indifferent_lastAlternative indifferent).bind fun _ => indifferent_pure _

theorem indifferent_forStatement (indifferent : Indifferent inner) :
    Indifferent (forStatement inner) :=
  alike_take.bind fun _ => indifferent_expression.bind fun _ => alike_require_then _ <|
    indifferent_expression.bind fun _ => alike_require_then _ <|
      indifferent_expression.bind fun _ => (indifferent_block indifferent).bind fun _ =>
        indifferent_pure _

theorem indifferent_typedName {expectation : Expectation}
    (isName : expectation.kind = .identifier) : Indifferent (typedName expectation) :=
  Indifferent.bind (alike_require_name isName isName) fun _ =>
    indifferent_typeAfterColon.bind fun _ => indifferent_pure _

theorem indifferent_field : Indifferent field :=
  (indifferent_typedName rfl).bind fun _ => alike_require_then _ (indifferent_pure _)

/-- A word that starts a statement and the name after it. -/
theorem indifferent_afterName {next : String → Rule Statement} (word : String)
    (indifferent : ∀ name, Indifferent (next name)) :
    Indifferent (take >>= fun _ => require (.nameAfter word) >>= next) :=
  alike_take.bind fun _ => Indifferent.bind (alike_require_name rfl rfl) indifferent

theorem indifferent_structStatement : Indifferent structStatement :=
  indifferent_afterName "struct" fun _ => alike_require_then _ <|
    (indifferent_field.manyWhile _).bind fun _ => alike_require_then _ (indifferent_pure _)

theorem indifferent_namesSeparated {α : Type} {item : Rule α} (indifferent : Indifferent item) :
    Indifferent (namesSeparated item) :=
  indifferent_currentKind.bind fun _ =>
    alike_ite indifferent.separatedByCommas (indifferent_pure _)

theorem indifferent_enumStatement : Indifferent enumStatement :=
  indifferent_afterName "enum" fun _ => alike_require_then _ <|
    (indifferent_namesSeparated (alike_require_name rfl rfl)).bind fun _ =>
      alike_require_then _ (indifferent_pure _)

theorem indifferent_functionBody (indifferent : Indifferent inner) :
    Indifferent (functionBody inner) := by
  refine indifferent_currentKind.bind fun kind => ?_
  split
  · exact indifferent_block indifferent
  · exact alike_take.bind fun _ => indifferent_expression.bind fun _ =>
      alike_require_then _ (indifferent_pure _)
  · exact alike_giveUp _ _

theorem indifferent_functionStatement (indifferent : Indifferent inner) :
    Indifferent (functionStatement inner) :=
  indifferent_afterName "fn" fun _ => alike_require_then _ <|
    (indifferent_namesSeparated (indifferent_typedName rfl)).bind fun _ =>
      alike_require_then _ <| alike_require_then _ <| (indifferent_typeName rfl).bind fun _ =>
        (indifferent_functionBody indifferent).bind fun _ => indifferent_pure _

theorem indifferent_namespaceStatement : Indifferent namespaceStatement :=
  indifferent_afterName "namespace" fun _ => alike_require_then _ (indifferent_pure _)

theorem indifferent_usingStatement : Indifferent usingStatement :=
  indifferent_afterName "using" fun _ => alike_require_then _ (indifferent_pure _)

theorem indifferent_statementBy (indifferent : Indifferent inner) :
    Indifferent (statementBy inner) := by
  refine indifferent_currentKind.bind fun kind => ?_
  split
  · exact indifferent_functionStatement indifferent
  · exact indifferent_structStatement
  · exact indifferent_enumStatement
  · exact (indifferent_clause indifferent).bind fun _ =>
      (indifferent_alternative indifferent).bind fun _ => indifferent_pure _
  · exact indifferent_declarationStatement
  · exact indifferent_declarationStatement
  · exact indifferent_forStatement indifferent
  · exact (indifferent_clause indifferent).bind fun _ => indifferent_pure _
  · exact alike_take.bind fun _ => indifferent_expressionUpToSemicolon.bind fun _ =>
      indifferent_pure _
  · exact alike_take.bind fun _ => indifferent_expressionUpToSemicolon.bind fun _ =>
      indifferent_pure _
  · exact indifferent_expressionUpToSemicolon.bind fun _ => indifferent_pure _

theorem indifferent_statementWithin (levels : Nat) : Indifferent (statementWithin levels) := by
  induction levels with
  | zero => exact alike_giveUp _ _
  | succ levels ih => exact Alike.nested (indifferent_statementBy ih)

theorem indifferent_topLevelStatement : Indifferent topLevelStatement := by
  have inner : Indifferent statement := indifferent_statementWithin maxDepth
  refine indifferent_currentKind.bind fun kind => ?_
  split
  · exact indifferent_functionStatement inner
  · exact indifferent_structStatement
  · exact indifferent_enumStatement
  · exact indifferent_namespaceStatement
  · exact indifferent_usingStatement
  · exact alike_giveUp _ _

/-! ## The driver comes out alike, recovery included -/

variable {state other : ParseState}

theorem attempt_alike (states : state.Alike other) :
    (attempt other).1 = (attempt state).1 ∧ (attempt state).2.Alike (attempt other).2 := by
  have results := indifferent_topLevelStatement states
  unfold attempt
  generalize topLevelStatement state = result, topLevelStatement other = result' at results
  cases results with
  | given same after => exact ⟨congrArg some same.symm, after⟩
  | none after => exact ⟨rfl, after.synchronize⟩

theorem statementsFrom_alike (states : state.Alike other) :
    (statementsFrom other).1 = (statementsFrom state).1 ∧
      (statementsFrom state).2.Alike (statementsFrom other).2 := by
  fun_induction statementsFrom state generalizing other with
  | case1 state atEnd =>
    rw [← states.current.kind] at atEnd
    rw [statementsFrom, if_pos atEnd]
    exact ⟨rfl, states⟩
  | case2 state inside found after attempted progress statements last rest ih =>
    obtain ⟨same, afters⟩ := attempt_alike states
    rw [attempted] at same afters
    rw [← states.current.kind] at inside
    rw [← afters.remaining, ← states.remaining] at progress
    obtain ⟨sameOthers, lasts⟩ := ih afters
    rw [rest] at sameOthers lasts
    rw [statementsFrom.eq_def other, if_neg inside]
    simp only [progress, ↓reduceIte]
    exact ⟨congrArg₂ (·.toList ++ ·) same sameOthers, lasts⟩
  | case3 state inside found after attempted stuck =>
    obtain ⟨same, afters⟩ := attempt_alike states
    rw [attempted] at same afters
    rw [← states.current.kind] at inside
    rw [← afters.remaining, ← states.remaining] at stuck
    rw [statementsFrom.eq_def other, if_neg inside]
    simp only [stuck, ↓reduceIte]
    exact ⟨congrArg Option.toList same, afters⟩

end Parse

/-- What is the same in two results of parsing: the trees, and the places of the problems. -/
structure ParseResult.Alike (result other : ParseResult) : Prop where
  program : other.program = result.program
  places : other.reports.map Report.index = result.reports.map Report.index

theorem parseTokens_alike {tokens others : List Token}
    (alike : List.Forall₂ Token.Alike tokens others) :
    (parseTokens tokens).Alike (parseTokens others) := by
  obtain ⟨same, last⟩ := Parse.statementsFrom_alike (ParseState.alike_ofTokens alike)
  exact ⟨congrArg Program.mk same, last.reports⟩

/-! ## Blanks, comments and the spelling of operators make no difference -/

/-- A piece, with the operators of logic in signs and not in words. -/
def Piece.inSigns : Piece → Piece
  | ⟨.word, ['a', 'n', 'd']⟩ => ⟨.symbol .and, ['&', '&']⟩
  | ⟨.word, ['o', 'r']⟩ => ⟨.symbol .or, ['|', '|']⟩
  | ⟨.word, ['n', 'o', 't']⟩ => ⟨.symbol .not, ['!']⟩
  | piece => piece

/-- What a source text says: its pieces without the blanks and the comments, and with the operators
of logic in signs. -/
def gist (source : String) : List Piece :=
  ((pieces source.toList).filter Piece.isSaid).map Piece.inSigns

/-- A piece in signs makes the same token at another place, but for the text of an operator. -/
theorem Piece.token?_inSigns {piece : Piece} (said : piece.isSaid = true)
    (position position' : Position) :
    ∃ token token', piece.token? position = some token ∧
      piece.inSigns.token? position' = some token' ∧ token.Alike token' := by
  unfold Piece.inSigns
  split
  · exact ⟨_, _, rfl, rfl, rfl, nofun⟩
  · exact ⟨_, _, rfl, rfl, rfl, nofun⟩
  · exact ⟨_, _, rfl, rfl, rfl, nofun⟩
  · obtain ⟨form, text⟩ := piece
    cases form <;> first | exact ⟨_, _, rfl, rfl, rfl, fun _ => rfl⟩ | cases said

/-- The tokens of some pieces are alike those of what they say. -/
theorem tokensOfPieces_gist (found : List Piece) (position position' : Position) :
    List.Forall₂ Token.Alike (tokensOfPieces position found)
      (tokensOfPieces position' ((found.filter Piece.isSaid).map Piece.inSigns)) := by
  induction found generalizing position position' with
  | nil => exact .cons ⟨rfl, nofun⟩ .nil
  | cons piece found ih =>
    cases said : piece.isSaid with
    | false =>
      rw [tokensOfPieces, Piece.token?_eq_none said, List.filter_cons_of_neg (by simp [said])]
      exact ih _ _
    | true =>
      obtain ⟨token, token', makes, makes', alike⟩ := Piece.token?_inSigns said position position'
      rw [List.filter_cons_of_pos said, List.map_cons, tokensOfPieces, tokensOfPieces, makes,
        makes']
      exact .cons alike (ih _ _)

theorem forall₂_alike_trans {first second third : List Token}
    (alike : List.Forall₂ Token.Alike first second)
    (alike' : List.Forall₂ Token.Alike second third) : List.Forall₂ Token.Alike first third := by
  induction alike generalizing third with
  | nil => exact alike'
  | cons token _ ih =>
    obtain ⟨_, _, token', others, rfl⟩ := List.forall₂_cons_left_iff.mp alike'
    exact .cons (token.trans token') (ih others)

/-- Texts that say the same have alike tokens. -/
theorem tokenize_alike {source other : String} (same : gist source = gist other) :
    List.Forall₂ Token.Alike (tokenize source) (tokenize other) := by
  have first : List.Forall₂ Token.Alike (tokenize source) (tokensOfPieces .start (gist source)) :=
    tokensOfPieces_gist _ _ _
  have second : List.Forall₂ Token.Alike (tokenize other) (tokensOfPieces .start (gist other)) :=
    tokensOfPieces_gist _ _ _
  rw [same] at first
  exact forall₂_alike_trans first (second.imp fun _ _ => Token.Alike.symm).flip

/-- The tree and the places of the problems depend on the kinds of the tokens, and on the text of
names and literals only. Of a source text, neither blanks nor comments nor the choice between words
and signs for the operators of logic make a difference. -/
theorem parse_alike :
    (∀ {tokens others : List Token}, List.Forall₂ Token.Alike tokens others →
      (parseTokens tokens).Alike (parseTokens others)) ∧
      ∀ {source other : String}, gist source = gist other →
        (parseSource source).Alike (parseSource other) :=
  ⟨parseTokens_alike, fun same => parseTokens_alike (tokenize_alike same)⟩

/-- A name that is missing, in two buffers with the word before it written differently; and one
function with its operator written in both ways. -/
theorem parse_alike_signs_for_words :
    (parseTokens [⟨.kwUsing, "using", .start⟩, ⟨.semicolon, ";", .start⟩]).Alike
        (parseTokens [⟨.kwUsing, "", ⟨3, 4⟩⟩, ⟨.semicolon, ".", ⟨1, 1⟩⟩]) ∧
      (parseSource "fn f() -> a => b and c;").Alike
        (parseSource "fn f()->a => // c\n b&&c ;") := by
  refine ⟨parse_alike.1 (.cons ⟨rfl, nofun⟩ (.cons ⟨rfl, nofun⟩ .nil)), parse_alike.2 ?_⟩
  decide +kernel

end BraceLang
