import BraceLang.Proofs.ExpressionSexpr

/-!
What the symbolic expression of a program says about it. Statements are lists that start with a word
of their own, but for those that are an expression and shown as that; no operator has such a word
for a symbol, and no expression starts with one. So two programs that parsing can give have one text
only if they are equal (`toSexpr_distinguishes`).
-/
namespace BraceLang

open Sexpr (form)

/-! ## Statements of one form are equal -/

theorem TypedName.legible_toSexpr {typed : TypedName} (formed : typed.WellFormed) :
    typed.toSexpr.Legible :=
  .list (List.forall_mem_cons.mpr ⟨.atom (Sexpr.isAtom_name formed.1),
    List.forall_mem_singleton.mpr (.atom (TypeName.isAtom_spelling formed.2))⟩)

theorem TypedName.eq_of_toSexpr_eq {first second : TypedName} (formed : first.WellFormed)
    (formed' : second.WellFormed) (same : first.toSexpr = second.toSexpr) : first = second := by
  obtain ⟨name, type⟩ := first
  obtain ⟨name', type'⟩ := second
  have parts : name = name' ∧ type.spelling = type'.spelling := by simpa [toSexpr] using same
  have types : type = type' := TypeName.spelling_injective formed.2 formed'.2 parts.2
  rw [parts.1, types]

theorem Sexpr.legible_word {word : String} {items : List Sexpr}
    (plain : Sexpr.isPlain word.toList = true) (each : ∀ item ∈ items, item.Legible) :
    (form word items).Legible :=
  legible_form (isAtom_of_isPlain plain) each

mutual

theorem Statement.legible_toSexpr : ∀ statement : Statement, statement.WellFormed →
    statement.toSexpr.Legible
  | .expression value, formed => Expression.WellFormed.legible formed
  | .print value, formed | .returned value, formed =>
    Sexpr.legible_word rfl (List.forall_mem_singleton.mpr (Expression.WellFormed.legible formed))
  | .block _, formed | .inNamespace _, formed | .usingNamespace _, formed => formed.elim
  | .conditional condition body alternative, formed => by
    refine Sexpr.legible_word rfl ?_
    simp only [List.forall_mem_cons]
    exact ⟨formed.1.legible, Sexpr.legible_word rfl (Statement.legible_allToSexpr body formed.2.1),
      alternative.legible_toSexprs formed.2.2⟩
  | .whileLoop condition body, formed => by
    refine Sexpr.legible_word rfl ?_
    simp only [List.forall_mem_cons]
    exact ⟨formed.1.legible, Sexpr.legible_word rfl (Statement.legible_allToSexpr body formed.2),
      nofun⟩
  | .forLoop initializer condition modifier body, formed => by
    refine Sexpr.legible_word rfl ?_
    simp only [List.forall_mem_cons]
    exact ⟨formed.1.legible, formed.2.1.legible, formed.2.2.1.legible,
      Sexpr.legible_word rfl (Statement.legible_allToSexpr body formed.2.2.2), nofun⟩
  | .structType name fields, formed => by
    have ofName : (Sexpr.atom name).Legible := .atom (Sexpr.isAtom_name formed.1)
    refine Sexpr.legible_word rfl (List.forall_mem_cons.mpr ⟨ofName, ?_⟩)
    exact List.forall_mem_map.mpr fun field inside =>
      TypedName.legible_toSexpr (formed.2 field inside)
  | .enumType name constants, formed => by
    have ofName : (Sexpr.atom name).Legible := .atom (Sexpr.isAtom_name formed.1)
    refine Sexpr.legible_word rfl (List.forall_mem_cons.mpr ⟨ofName, ?_⟩)
    exact List.forall_mem_map.mpr fun constant inside =>
      .atom (Sexpr.isAtom_name (formed.2 constant inside))
  | .function name parameters returnType body, formed => by
    refine Sexpr.legible_word rfl ?_
    simp only [List.forall_mem_cons]
    have ofParameters : ∀ item ∈ parameters.map TypedName.toSexpr, item.Legible :=
      List.forall_mem_map.mpr fun parameter inside =>
        TypedName.legible_toSexpr (formed.2.1 parameter inside)
    exact ⟨.atom (Sexpr.isAtom_name formed.1), .list ofParameters,
      .atom (TypeName.isAtom_spelling formed.2.2.1),
      Sexpr.legible_word rfl (Statement.legible_allToSexpr body formed.2.2.2), nofun⟩
  | .declaration constant name type value, formed => by
    have items : ∀ item ∈ [.atom name, .atom type.spelling, value.toSexpr], item.Legible := by
      simp only [List.forall_mem_cons]
      exact ⟨.atom (Sexpr.isAtom_name formed.1), .atom (TypeName.isAtom_spelling formed.2.1),
        formed.2.2.legible, nofun⟩
    cases constant with
    | true => exact Sexpr.legible_word rfl items
    | false => exact Sexpr.legible_word rfl items

theorem Alternative.legible_toSexprs : ∀ alternative : Alternative, alternative.WellFormed →
    ∀ item ∈ alternative.toSexprs, item.Legible
  | .absent, _ => nofun
  | .elseIf condition body alternative, formed => by
    refine List.forall_mem_singleton.mpr (Sexpr.legible_word rfl ?_)
    simp only [List.forall_mem_cons]
    exact ⟨formed.1.legible, Sexpr.legible_word rfl (Statement.legible_allToSexpr body formed.2.1),
      alternative.legible_toSexprs formed.2.2⟩
  | .otherwise body, formed =>
    List.forall_mem_singleton.mpr
      (Sexpr.legible_word rfl (Statement.legible_allToSexpr body formed))

theorem Statement.legible_allToSexpr : ∀ statements : List Statement,
    Statement.AllWellFormed statements → ∀ item ∈ Statement.allToSexpr statements, item.Legible
  | [], _ => nofun
  | statement :: statements, formed =>
    List.forall_mem_cons.mpr ⟨statement.legible_toSexpr formed.1,
      Statement.legible_allToSexpr statements formed.2⟩

end

/-- The word that the list for a statement starts with. An expression has none of its own. -/
def Statement.word? : Statement → Option String
  | .expression _ => none
  | .print _ => some "print"
  | .returned _ => some "return"
  | .block _ => some "block"
  | .conditional .. => some "if"
  | .whileLoop .. => some "while"
  | .forLoop .. => some "for"
  | .structType .. => some "struct"
  | .enumType .. => some "enum"
  | .function .. => some "fn"
  | .inNamespace _ => some "namespace"
  | .usingNamespace _ => some "using"
  | .declaration constant .. => some (if constant then "const" else "let")

/-- A statement other than an expression is shown as a list that starts with its word. -/
theorem Statement.toSexpr_of_word? {statement : Statement} {word : String}
    (isWord : statement.word? = some word) :
    word ∈ Sexpr.statementWords ∧ ∃ items, statement.toSexpr = form word items := by
  cases statement with
  | expression => cases isWord
  | declaration constant =>
    obtain rfl := Option.some.inj isWord
    cases constant <;> exact ⟨by decide, _, rfl⟩
  | _ =>
    obtain rfl := Option.some.inj isWord
    exact ⟨by decide, _, rfl⟩

theorem Statement.exists_of_word?_eq_none {statement : Statement} (formed : statement.WellFormed)
    (noWord : statement.word? = none) :
    ∃ value : Expression, value.WellFormed ∧ statement.toSexpr = value.toSexpr := by
  cases statement with
  | expression value => exact ⟨value, formed, rfl⟩
  | _ => cases noWord

/-- Well-formed statements of one symbolic expression have the same word. -/
theorem Statement.word?_eq {first second : Statement} (formed : first.WellFormed)
    (formed' : second.WellFormed) (same : first.toSexpr = second.toSexpr) :
    first.word? = second.word? := by
  cases isWord : first.word? with
  | none =>
    obtain ⟨value, ofValue, shape⟩ := exists_of_word?_eq_none formed isWord
    cases isWord' : second.word? with
    | none => rfl
    | some word' =>
      obtain ⟨listed, items, shape'⟩ := toSexpr_of_word? isWord'
      rw [shape, shape'] at same
      exact absurd same (ofValue.toSexpr_ne_form listed)
  | some word =>
    obtain ⟨listed, items, shape⟩ := toSexpr_of_word? isWord
    cases isWord' : second.word? with
    | none =>
      obtain ⟨value, ofValue, shape'⟩ := exists_of_word?_eq_none formed' isWord'
      rw [shape, shape'] at same
      exact absurd same.symm (ofValue.toSexpr_ne_form listed)
    | some word' =>
      obtain ⟨-, items', shape'⟩ := toSexpr_of_word? isWord'
      rw [shape, shape', Sexpr.form_inj] at same
      exact congrArg some same.1

mutual

/-- Well-formed statements of one symbolic expression are equal. -/
theorem Statement.eq_of_toSexpr_eq : ∀ first second : Statement, first.WellFormed →
    second.WellFormed → first.toSexpr = second.toSexpr → first = second
  | .expression value, second, formed, formed', same => by
    have words := Statement.word?_eq formed formed' same
    cases second with
    | expression value' =>
      exact congrArg Statement.expression
        (Expression.WellFormed.eq_of_toSexpr_eq formed formed' same)
    | _ => cases words
  | .print value, second, formed, formed', same => by
    -- with the word of the second statement, all forms but one are ruled out
    have words := Statement.word?_eq formed formed' same
    cases second with
    | print value' =>
      have parts : value.toSexpr = value'.toSexpr := by simpa [Statement.toSexpr, form] using same
      rw [Expression.WellFormed.eq_of_toSexpr_eq formed formed' parts]
    | declaration constant => cases constant <;> simp [Statement.word?] at words
    | _ => simp [Statement.word?] at words
  | .returned value, second, formed, formed', same => by
    have words := Statement.word?_eq formed formed' same
    cases second with
    | returned value' =>
      have parts : value.toSexpr = value'.toSexpr := by simpa [Statement.toSexpr, form] using same
      rw [Expression.WellFormed.eq_of_toSexpr_eq formed formed' parts]
    | declaration constant => cases constant <;> simp [Statement.word?] at words
    | _ => simp [Statement.word?] at words
  | .block _, _, formed, _, _ | .inNamespace _, _, formed, _, _
  | .usingNamespace _, _, formed, _, _ => formed.elim
  | .conditional condition body alternative, second, formed, formed', same => by
    have words := Statement.word?_eq formed formed' same
    cases second with
    | conditional condition' body' alternative' =>
      have parts : condition.toSexpr = condition'.toSexpr ∧
          Statement.allToSexpr body = Statement.allToSexpr body' ∧
          alternative.toSexprs = alternative'.toSexprs := by
        simpa [Statement.toSexpr, form] using same
      rw [formed.1.eq_of_toSexpr_eq formed'.1 parts.1,
        Statement.eq_of_allToSexpr_eq body body' formed.2.1 formed'.2.1 parts.2.1,
        Alternative.eq_of_toSexprs_eq alternative alternative' formed.2.2 formed'.2.2 parts.2.2]
    | declaration constant => cases constant <;> simp [Statement.word?] at words
    | _ => simp [Statement.word?] at words
  | .whileLoop condition body, second, formed, formed', same => by
    have words := Statement.word?_eq formed formed' same
    cases second with
    | whileLoop condition' body' =>
      have parts : condition.toSexpr = condition'.toSexpr ∧
          Statement.allToSexpr body = Statement.allToSexpr body' := by
        simpa [Statement.toSexpr, form] using same
      rw [formed.1.eq_of_toSexpr_eq formed'.1 parts.1,
        Statement.eq_of_allToSexpr_eq body body' formed.2 formed'.2 parts.2]
    | declaration constant => cases constant <;> simp [Statement.word?] at words
    | _ => simp [Statement.word?] at words
  | .forLoop initializer condition modifier body, second, formed, formed', same => by
    have words := Statement.word?_eq formed formed' same
    cases second with
    | forLoop initializer' condition' modifier' body' =>
      have parts : initializer.toSexpr = initializer'.toSexpr ∧
          condition.toSexpr = condition'.toSexpr ∧ modifier.toSexpr = modifier'.toSexpr ∧
          Statement.allToSexpr body = Statement.allToSexpr body' := by
        simpa [Statement.toSexpr, form] using same
      obtain ⟨ofInitializer, ofCondition, ofModifier, ofBody⟩ := formed
      obtain ⟨ofInitializer', ofCondition', ofModifier', ofBody'⟩ := formed'
      rw [ofInitializer.eq_of_toSexpr_eq ofInitializer' parts.1,
        ofCondition.eq_of_toSexpr_eq ofCondition' parts.2.1,
        ofModifier.eq_of_toSexpr_eq ofModifier' parts.2.2.1,
        Statement.eq_of_allToSexpr_eq body body' ofBody ofBody' parts.2.2.2]
    | declaration constant => cases constant <;> simp [Statement.word?] at words
    | _ => simp [Statement.word?] at words
  | .structType name fields, second, formed, formed', same => by
    have words := Statement.word?_eq formed formed' same
    cases second with
    | structType name' fields' =>
      have parts : name = name' ∧
          fields.map TypedName.toSexpr = fields'.map TypedName.toSexpr := by
        simpa [Statement.toSexpr, form] using same
      have ofFields : fields = fields' :=
        eq_of_map_eq (fun field inside => TypedName.eq_of_toSexpr_eq (formed.2 field inside))
          formed'.2 parts.2
      rw [parts.1, ofFields]
    | declaration constant => cases constant <;> simp [Statement.word?] at words
    | _ => simp [Statement.word?] at words
  | .enumType name constants, second, formed, formed', same => by
    have words := Statement.word?_eq formed formed' same
    cases second with
    | enumType name' constants' =>
      have parts : name = name' ∧ constants.map Sexpr.atom = constants'.map Sexpr.atom := by
        simpa [Statement.toSexpr, form] using same
      rw [parts.1, List.map_injective_iff.mpr (fun _ _ => Sexpr.atom.inj) parts.2]
    | declaration constant => cases constant <;> simp [Statement.word?] at words
    | _ => simp [Statement.word?] at words
  | .function name parameters returnType body, second, formed, formed', same => by
    have words := Statement.word?_eq formed formed' same
    cases second with
    | function name' parameters' returnType' body' =>
      have parts : name = name' ∧
          parameters.map TypedName.toSexpr = parameters'.map TypedName.toSexpr ∧
          returnType.spelling = returnType'.spelling ∧
          Statement.allToSexpr body = Statement.allToSexpr body' := by
        simpa [Statement.toSexpr, form] using same
      have ofParameters : parameters = parameters' :=
        eq_of_map_eq (fun parameter inside =>
          TypedName.eq_of_toSexpr_eq (formed.2.1 parameter inside)) formed'.2.1 parts.2.1
      rw [parts.1, ofParameters,
        TypeName.spelling_injective formed.2.2.1 formed'.2.2.1 parts.2.2.1,
        Statement.eq_of_allToSexpr_eq body body' formed.2.2.2 formed'.2.2.2 parts.2.2.2]
    | declaration constant => cases constant <;> simp [Statement.word?] at words
    | _ => simp [Statement.word?] at words
  | .declaration constant name type value, second, formed, formed', same => by
    have words := Statement.word?_eq formed formed' same
    cases second with
    | declaration constant' name' type' value' =>
      have ofConstant : constant = constant' := by
        cases constant <;> cases constant' <;> first | rfl | simp [Statement.word?] at words
      have parts : name = name' ∧ type.spelling = type'.spelling ∧
          value.toSexpr = value'.toSexpr := by
        simpa [Statement.toSexpr, form, ofConstant] using same
      rw [ofConstant, parts.1, TypeName.spelling_injective formed.2.1 formed'.2.1 parts.2.1,
        formed.2.2.eq_of_toSexpr_eq formed'.2.2 parts.2.2]
    | _ => cases constant <;> simp [Statement.word?] at words

theorem Alternative.eq_of_toSexprs_eq : ∀ first second : Alternative, first.WellFormed →
    second.WellFormed → first.toSexprs = second.toSexprs → first = second
  | .absent, second, _, _, same => by
    cases second with
    | absent => rfl
    | elseIf | otherwise => cases same
  | .elseIf condition body alternative, second, formed, formed', same => by
    cases second with
    | elseIf condition' body' alternative' =>
      have parts : condition.toSexpr = condition'.toSexpr ∧
          Statement.allToSexpr body = Statement.allToSexpr body' ∧
          alternative.toSexprs = alternative'.toSexprs := by
        simpa [Alternative.toSexprs, form] using same
      rw [formed.1.eq_of_toSexpr_eq formed'.1 parts.1,
        Statement.eq_of_allToSexpr_eq body body' formed.2.1 formed'.2.1 parts.2.1,
        Alternative.eq_of_toSexprs_eq alternative alternative' formed.2.2 formed'.2.2 parts.2.2]
    | absent => cases same
    | otherwise => simp [Alternative.toSexprs, form] at same
  | .otherwise body, second, formed, formed', same => by
    cases second with
    | otherwise body' =>
      have parts : Statement.allToSexpr body = Statement.allToSexpr body' := by
        simpa [Alternative.toSexprs, form] using same
      rw [Statement.eq_of_allToSexpr_eq body body' formed formed' parts]
    | absent => cases same
    | elseIf => simp [Alternative.toSexprs, form] at same

theorem Statement.eq_of_allToSexpr_eq : ∀ firsts seconds : List Statement,
    Statement.AllWellFormed firsts → Statement.AllWellFormed seconds →
    Statement.allToSexpr firsts = Statement.allToSexpr seconds → firsts = seconds
  | [], [], _, _, _ => rfl
  | [], _ :: _, _, _, same => by cases same
  | _ :: _, [], _, _, same => by cases same
  | first :: firsts, second :: seconds, formed, formed', same => by
    obtain ⟨head, tail⟩ := List.cons.inj same
    rw [Statement.eq_of_toSexpr_eq first second formed.1 formed'.1 head,
      Statement.eq_of_allToSexpr_eq firsts seconds formed.2 formed'.2 tail]

end

/-! ## Programs of one text are equal -/

theorem Statement.WellFormedOutside.legible {statement : Statement}
    (formed : statement.WellFormedOutside) : statement.toSexpr.Legible := by
  cases statement with
  | function | structType | enumType => exact Statement.legible_toSexpr _ formed
  | inNamespace | usingNamespace =>
    exact Sexpr.legible_word rfl (List.forall_mem_singleton.mpr (.atom (Sexpr.isAtom_name formed)))
  | _ => exact formed.elim

theorem Statement.WellFormedOutside.eq_of_toSexpr_eq {first second : Statement}
    (formed : first.WellFormedOutside) (formed' : second.WellFormedOutside)
    (same : first.toSexpr = second.toSexpr) : first = second := by
  cases first with
  | inNamespace =>
    cases second with
    | inNamespace => simpa [Statement.toSexpr, form] using same
    | usingNamespace | function | structType | enumType =>
      exact absurd (Sexpr.form_inj.mp same).1 (by decide)
    | _ => exact formed'.elim
  | usingNamespace =>
    cases second with
    | usingNamespace => simpa [Statement.toSexpr, form] using same
    | inNamespace | function | structType | enumType =>
      exact absurd (Sexpr.form_inj.mp same).1 (by decide)
    | _ => exact formed'.elim
  | function | structType | enumType =>
    cases second with
    | inNamespace | usingNamespace => exact absurd (Sexpr.form_inj.mp same).1 (by decide)
    | function | structType | enumType =>
      exact Statement.eq_of_toSexpr_eq _ _ formed formed' same
    | _ => exact formed'.elim
  | _ => exact formed.elim

theorem Statement.allToSexpr_eq_map (statements : List Statement) :
    Statement.allToSexpr statements = statements.map Statement.toSexpr := by
  induction statements with
  | nil => rfl
  | cons statement statements ih => rw [allToSexpr, ih, List.map_cons]

theorem Program.WellFormed.legible {program : Program} (formed : program.WellFormed) :
    program.toSexpr.Legible := by
  rw [toSexpr, Statement.allToSexpr_eq_map]
  exact Sexpr.legible_word rfl
    (List.forall_mem_map.mpr fun statement inside => (formed statement inside).legible)

/-- Well-formed programs of one text are equal. -/
theorem Program.WellFormed.eq_of_render_eq {first second : Program} (formed : first.WellFormed)
    (formed' : second.WellFormed) (same : first.toSexpr.render = second.toSexpr.render) :
    first = second := by
  have shown := formed.legible.eq_of_render_eq formed'.legible same
  have statements := (Sexpr.form_inj.mp shown).2
  rw [Statement.allToSexpr_eq_map, Statement.allToSexpr_eq_map] at statements
  have each : first.statements = second.statements :=
    eq_of_map_eq (fun statement inside => (formed statement inside).eq_of_toSexpr_eq) formed'
      statements
  exact congrArg Program.mk each

/-- The programs that two source texts are parsed to are equal if they have one symbolic expression,
whatever was reported about the texts. -/
theorem toSexpr_distinguishes {first second : String}
    (same : (parseSource first).program.toSexpr.render =
      (parseSource second).program.toSexpr.render) :
    (parseSource first).program = (parseSource second).program :=
  (Program.wellFormed_of_spelled spelled_of_mem_tokenize).eq_of_render_eq
    (Program.wellFormed_of_spelled spelled_of_mem_tokenize) same

/-- A function written in two ways, with what cannot be read behind it. -/
theorem toSexpr_distinguishes_parentheses :
    let first := "fn f(index: int[]) -> call => -index[0] + 2.50;"
    let second := "fn f(index : int [ ]) -> call => ((-(index[0])) + 2.5); let"
    (parseSource first).program.toSexpr.render = (parseSource second).program.toSexpr.render ∧
      (parseSource first).program = (parseSource second).program := by
  intro first second
  have same : (parseSource first).program.toSexpr.render =
      (parseSource second).program.toSexpr.render := by decide +kernel
  exact ⟨same, toSexpr_distinguishes same⟩

end BraceLang
