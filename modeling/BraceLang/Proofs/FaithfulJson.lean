import BraceLang.Proofs.JsonRoundTrip
import BraceLang.Tree.Json
import Mathlib

/-!
What the JSON form of a tree says about it. The text of every tree is one JSON value, in which each
node is an object that starts with its type, and that value is all that a reader needs: two trees of
one text are equal (`toJson_faithful`). Left out are trees that JSON has no form for: a number that
is not finite is shown as null, and so is an object literal that stands for no word at all.
-/
namespace BraceLang

namespace Json

/-- Holds of the values that trees are shown as: all numbers are numbers of JSON, and every object
starts with the type of a node. -/
inductive IsTree : Json → Prop where
  | null : IsTree .null
  | bool (value : Bool) : IsTree (.bool value)
  | number (isNumber : IsNumber text.toList) : IsTree (.number text)
  | string (value : String) : IsTree (.string value)
  | array (each : ∀ item ∈ items, IsTree item) : IsTree (.array items)
  | node (type : String) (each : ∀ member ∈ members, IsTree member.2) : IsTree (node type members)

theorem IsTree.legal {value : Json} (isTree : value.IsTree) : value.Legal := by
  induction isTree with
  | null => exact .null
  | bool value => exact .bool value
  | number isNumber => exact .number isNumber
  | string value => exact .string value
  | array _ ih => exact .array ih
  | node type _ ih => exact .object (List.forall_mem_cons.mpr ⟨.string type, ih⟩)

/-- Nodes are equal if their types and members are. -/
@[simp] theorem node_inj {type type' : String} {members members' : List (String × Json)} :
    node type members = node type' members' ↔ type = type' ∧ members = members' := by
  simp [node]

/-! ## Numbers and words are shown as trees and told apart -/

theorem isNumber_toDigits (value : Nat) :
    ∃ numeral : Numeral, numeral.WellFormed ∧ Nat.toDigits 10 value = numeral.text := by
  refine ⟨⟨Nat.toDigits 10 value, [], none⟩, ⟨Nat.toDigits_ne_nil, isDigit_toDigits, ?_, nofun,
    nofun, nofun⟩, (List.append_nil _).symm⟩
  intro zero
  rcases Nat.eq_zero_or_pos value with rfl | positive
  · rfl
  · exact absurd zero (head?_toDigits positive)

theorem isTree_natural (value : Nat) : (number (toString value)).IsTree := by
  obtain ⟨numeral, formed, text⟩ := isNumber_toDigits value
  refine .number ⟨numeral, formed, .inl ?_⟩
  rw [← text]
  exact Nat.toList_repr

theorem isTree_integer (value : Int) : (number (toString value)).IsTree := by
  obtain ⟨numeral, formed, text⟩ := isNumber_toDigits value.natAbs
  refine .number ⟨numeral, formed, ?_⟩
  rw [← text, ← Nat.toList_repr, show toString value = value.repr from rfl, Int.repr_eq_if]
  split
  · have magnitude : value.toNat = value.natAbs := by omega
    exact .inl (congrArg (String.toList ∘ Nat.repr) magnitude)
  · have magnitude : (-value).toNat = value.natAbs := by omega
    rw [magnitude, String.toList_append]
    exact .inr rfl

theorem isTree_ofBinary64 (value : Binary64) : (ofBinary64 value).IsTree := by
  cases value with
  | nan | infinity => exact .null
  | finite negative significand exponent canonical =>
    refine .number ⟨_, numberLayout.wellFormed_finiteNumeral canonical, ?_⟩
    rw [String.toList_ofList, DecimalLayout.finite_eq_text]
    cases negative with
    | true => exact .inr rfl
    | false => exact .inl rfl

theorem isTree_strings (texts : List String) : ∀ item ∈ texts.map Json.string, item.IsTree :=
  List.forall_mem_map.mpr fun text _ => .string text

/-- Finite numbers of one JSON form are equal. -/
theorem ofBinary64_injective {first second : Binary64} (finite : first.isFinite = true)
    (finite' : second.isFinite = true) (same : ofBinary64 first = ofBinary64 second) :
    first = second := by
  cases first with
  | nan | infinity => cases finite
  | finite negative significand exponent canonical =>
    cases second with
    | nan | infinity => cases finite'
    | finite negative' significand' exponent' canonical' =>
      exact numberLayout.finite_injective canonical canonical'
        (String.ofList_inj.mp (Json.number.inj same))

end Json

theorem objectWord_injective {first second : TokenKind}
    (isWord : first = .kwThis ∨ first = .kwNull) (isWord' : second = .kwThis ∨ second = .kwNull)
    (same : objectWord first = objectWord second) : first = second := by
  rcases isWord with rfl | rfl <;> rcases isWord' with rfl | rfl
  · rfl
  · exact absurd same (by decide)
  · exact absurd same (by decide)
  · rfl

open Json (IsTree node blockNode)

/-! ## Trees are shown as nodes -/

theorem TypeName.isTree_toJson (type : TypeName) : type.toJson.IsTree := by
  refine .node _ (List.forall_mem_cons.mpr ⟨.string _, List.forall_mem_singleton.mpr ?_⟩)
  exact Json.isTree_natural _

theorem TypedName.isTree_toJson (label : String) (typed : TypedName) :
    (typed.toJson label).IsTree :=
  .node _ (List.forall_mem_cons.mpr ⟨.string _,
    List.forall_mem_singleton.mpr typed.type.isTree_toJson⟩)

theorem isTree_node {type : String} {members : List (String × Json)} :
    (node type members).IsTree ↔ ∀ member ∈ members, member.2.IsTree := by
  refine ⟨fun isTree => ?_, .node type⟩
  cases isTree with
  | node _ each => exact each

mutual

theorem Expression.isTree_toJson : ∀ expression : Expression, expression.toJson.IsTree
  | .identifier _ | .string _ | .char _ | .object _ => by
    simp only [toJson, isTree_node, List.forall_mem_cons]
    exact ⟨.string _, nofun⟩
  | .bool _ => by
    simp only [toJson, isTree_node, List.forall_mem_cons]
    exact ⟨.bool _, nofun⟩
  | .float value => by
    simp only [toJson, isTree_node, List.forall_mem_cons]
    exact ⟨Json.isTree_ofBinary64 value, nofun⟩
  | .int value => by
    simp only [toJson, isTree_node, List.forall_mem_cons]
    exact ⟨Json.isTree_integer value, nofun⟩
  | .array elements => by
    simp only [toJson, isTree_node, List.forall_mem_cons]
    exact ⟨.array (Expression.isTree_allToJson elements), nofun⟩
  | .typeName type => type.isTree_toJson
  | .unary operator operand => by
    simp only [toJson, isTree_node, List.forall_mem_cons]
    exact ⟨.string _, operand.isTree_toJson, nofun⟩
  | .binary left operator right => by
    simp only [toJson, isTree_node, List.forall_mem_cons]
    exact ⟨left.isTree_toJson, .string _, right.isTree_toJson, nofun⟩
  | .call callee arguments => by
    simp only [toJson, isTree_node, List.forall_mem_cons]
    exact ⟨callee.isTree_toJson, .array (Expression.isTree_allToJson arguments), nofun⟩
  | .subscript base index => by
    simp only [toJson, isTree_node, List.forall_mem_cons]
    exact ⟨base.isTree_toJson, index.isTree_toJson, nofun⟩

theorem Expression.isTree_allToJson : ∀ expressions : List Expression,
    ∀ item ∈ Expression.allToJson expressions, item.IsTree
  | [] => nofun
  | expression :: expressions =>
    List.forall_mem_cons.mpr
      ⟨expression.isTree_toJson, Expression.isTree_allToJson expressions⟩

end

theorem isTree_blockNode {items : List Json} (each : ∀ item ∈ items, item.IsTree) :
    (blockNode items).IsTree :=
  .node _ (List.forall_mem_singleton.mpr (.array each))

theorem isTree_typedNames (label : String) (typed : List TypedName) :
    (Json.array (typed.map (TypedName.toJson label))).IsTree :=
  .array (List.forall_mem_map.mpr fun each _ => each.isTree_toJson label)

mutual

theorem Statement.isTree_toJson : ∀ statement : Statement, statement.toJson.IsTree
  | .expression value | .print value | .returned value => by
    simp only [Statement.toJson, isTree_node, List.forall_mem_cons]
    exact ⟨value.isTree_toJson, nofun⟩
  | .block body => isTree_blockNode (Statement.isTree_allToJson body)
  | .conditional condition body alternative => by
    simp only [Statement.toJson, isTree_node, List.forall_mem_cons]
    exact ⟨condition.isTree_toJson, isTree_blockNode (Statement.isTree_allToJson body),
      alternative.isTree_toMembers⟩
  | .whileLoop condition body => by
    simp only [Statement.toJson, isTree_node, List.forall_mem_cons]
    exact ⟨condition.isTree_toJson, isTree_blockNode (Statement.isTree_allToJson body), nofun⟩
  | .forLoop initializer condition modifier body => by
    simp only [Statement.toJson, isTree_node, List.forall_mem_cons]
    exact ⟨initializer.isTree_toJson, condition.isTree_toJson, modifier.isTree_toJson,
      isTree_blockNode (Statement.isTree_allToJson body), nofun⟩
  | .structType _ fields => by
    simp only [Statement.toJson, isTree_node, List.forall_mem_cons]
    exact ⟨.string _, isTree_typedNames _ fields, nofun⟩
  | .enumType _ constants => by
    simp only [Statement.toJson, isTree_node, List.forall_mem_cons]
    exact ⟨.string _, .array (Json.isTree_strings constants), nofun⟩
  | .function _ parameters returnType body => by
    simp only [Statement.toJson, isTree_node, List.forall_mem_cons]
    exact ⟨.string _, isTree_typedNames _ parameters, returnType.isTree_toJson,
      isTree_blockNode (Statement.isTree_allToJson body), nofun⟩
  | .inNamespace _ | .usingNamespace _ => by
    simp only [Statement.toJson, isTree_node, List.forall_mem_cons]
    exact ⟨.string _, nofun⟩
  | .declaration _ _ type value => by
    simp only [Statement.toJson, isTree_node, List.forall_mem_cons]
    exact ⟨.bool _, .string _, type.isTree_toJson, value.isTree_toJson, nofun⟩

theorem Alternative.isTree_toMembers : ∀ alternative : Alternative,
    ∀ member ∈ alternative.toMembers, member.2.IsTree
  | .absent => nofun
  | .elseIf condition body alternative => by
    simp only [Alternative.toMembers, List.forall_mem_singleton, isTree_node, List.forall_mem_cons]
    exact ⟨condition.isTree_toJson, isTree_blockNode (Statement.isTree_allToJson body),
      alternative.isTree_toMembers⟩
  | .otherwise body =>
    List.forall_mem_singleton.mpr (isTree_blockNode (Statement.isTree_allToJson body))

theorem Statement.isTree_allToJson : ∀ statements : List Statement,
    ∀ item ∈ Statement.allToJson statements, item.IsTree
  | [] => nofun
  | statement :: statements =>
    List.forall_mem_cons.mpr ⟨statement.isTree_toJson, Statement.isTree_allToJson statements⟩

end

theorem Program.isTree_toJson (program : Program) : program.toJson.IsTree :=
  .node _ (List.forall_mem_singleton.mpr (Statement.block _).isTree_toJson)

/-! ## Trees of one JSON form are equal -/

mutual

/-- Holds of the expressions that JSON has a form of their own for: object literals stand for one of
their two words, and numbers are finite. -/
def Expression.Showable : Expression → Prop
  | .object word => word = .kwThis ∨ word = .kwNull
  | .float value => value.isFinite = true
  | .array elements => Expression.AllShowable elements
  | .unary _ operand => operand.Showable
  | .binary left _ right => left.Showable ∧ right.Showable
  | .call callee arguments => callee.Showable ∧ Expression.AllShowable arguments
  | .subscript base index => base.Showable ∧ index.Showable
  | .identifier _ | .bool _ | .string _ | .int _ | .char _ | .typeName _ => True

/-- Holds of lists of such expressions. -/
def Expression.AllShowable : List Expression → Prop
  | [] => True
  | expression :: expressions => expression.Showable ∧ Expression.AllShowable expressions

end

mutual

/-- Holds of the statements whose expressions all have a JSON form of their own. -/
def Statement.Showable : Statement → Prop
  | .expression value | .print value | .returned value => value.Showable
  | .block body => Statement.AllShowable body
  | .conditional condition body alternative =>
    condition.Showable ∧ Statement.AllShowable body ∧ alternative.Showable
  | .whileLoop condition body => condition.Showable ∧ Statement.AllShowable body
  | .forLoop initializer condition modifier body =>
    initializer.Showable ∧ condition.Showable ∧ modifier.Showable ∧ Statement.AllShowable body
  | .function _ _ _ body => Statement.AllShowable body
  | .declaration _ _ _ value => value.Showable
  | .structType _ _ | .enumType _ _ | .inNamespace _ | .usingNamespace _ => True

/-- Holds of such alternatives. -/
def Alternative.Showable : Alternative → Prop
  | .absent => True
  | .elseIf condition body alternative =>
    condition.Showable ∧ Statement.AllShowable body ∧ alternative.Showable
  | .otherwise body => Statement.AllShowable body

/-- Holds of lists of such statements. -/
def Statement.AllShowable : List Statement → Prop
  | [] => True
  | statement :: statements => statement.Showable ∧ Statement.AllShowable statements

end

/-- Holds of the programs whose statements all have a JSON form of their own. -/
def Program.Showable (program : Program) : Prop :=
  Statement.AllShowable program.statements

theorem TypeName.toJson_injective {first second : TypeName} (same : first.toJson = second.toJson) :
    first = second := by
  obtain ⟨name, dimensions⟩ := first
  obtain ⟨name', dimensions'⟩ := second
  have parts : name = name' ∧ toString dimensions = toString dimensions' := by
    simpa [toJson] using same
  rw [parts.1, Nat.repr_inj.mp parts.2]

theorem TypedName.toJson_injective {label : String} {first second : TypedName}
    (same : first.toJson label = second.toJson label) : first = second := by
  obtain ⟨name, type⟩ := first
  obtain ⟨name', type'⟩ := second
  have parts : name = name' ∧ type.toJson = type'.toJson := by simpa [toJson] using same
  rw [parts.1, TypeName.toJson_injective parts.2]

mutual

theorem Expression.toJson_injective : ∀ first second : Expression, first.Showable →
    second.Showable → first.toJson = second.toJson → first = second
  | .identifier _, second, _, _, same => by
    cases second with
    | identifier _ => simpa [toJson] using same
    -- here and below: a node of another kind has another type
    | _ => simp [toJson, TypeName.toJson] at same
  | .bool _, second, _, _, same => by
    cases second with
    | bool _ => simpa [toJson] using same
    | _ => simp [toJson, TypeName.toJson] at same
  | .object word, second, shown, shown', same => by
    cases second with
    | object word' =>
      have words : objectWord word = objectWord word' := by simpa [toJson] using same
      rw [objectWord_injective shown shown' words]
    | _ => simp [toJson, TypeName.toJson] at same
  | .string _, second, _, _, same => by
    cases second with
    | string _ => simpa [toJson] using same
    | _ => simp [toJson, TypeName.toJson] at same
  | .float value, second, shown, shown', same => by
    cases second with
    | float value' =>
      have values : Json.ofBinary64 value = Json.ofBinary64 value' := by
        simpa [toJson] using same
      rw [Json.ofBinary64_injective shown shown' values]
    | _ => simp [toJson, TypeName.toJson] at same
  | .int value, second, _, _, same => by
    cases second with
    | int value' =>
      have texts : toString value = toString value' := by simpa [toJson] using same
      rw [Int.repr_injective texts]
    | _ => simp [toJson, TypeName.toJson] at same
  | .char value, second, _, _, same => by
    cases second with
    | char value' =>
      have texts : String.singleton value = String.singleton value' := by
        simpa [toJson] using same
      rw [String.singleton_inj.mp texts]
    | _ => simp [toJson, TypeName.toJson] at same
  | .array elements, second, shown, shown', same => by
    cases second with
    | array elements' =>
      have parts : Expression.allToJson elements = Expression.allToJson elements' := by
        simpa [toJson] using same
      rw [Expression.allToJson_injective elements elements' shown shown' parts]
    | _ => simp [toJson, TypeName.toJson] at same
  | .typeName _, second, _, _, same => by
    cases second with
    | typeName _ => rw [TypeName.toJson_injective same]
    | _ => simp [toJson, TypeName.toJson] at same
  | .unary operator operand, second, shown, shown', same => by
    cases second with
    | unary operator' operand' =>
      have parts : operator.name = operator'.name ∧ operand.toJson = operand'.toJson := by
        simpa [toJson] using same
      rw [TokenKind.name_injective parts.1,
        Expression.toJson_injective operand operand' shown shown' parts.2]
    | _ => simp [toJson, TypeName.toJson] at same
  | .binary left operator right, second, shown, shown', same => by
    cases second with
    | binary left' operator' right' =>
      have parts : left.toJson = left'.toJson ∧ operator.name = operator'.name ∧
          right.toJson = right'.toJson := by
        simpa [toJson] using same
      rw [Expression.toJson_injective left left' shown.1 shown'.1 parts.1,
        TokenKind.name_injective parts.2.1,
        Expression.toJson_injective right right' shown.2 shown'.2 parts.2.2]
    | _ => simp [toJson, TypeName.toJson] at same
  | .call callee arguments, second, shown, shown', same => by
    cases second with
    | call callee' arguments' =>
      have parts : callee.toJson = callee'.toJson ∧
          Expression.allToJson arguments = Expression.allToJson arguments' := by
        simpa [toJson] using same
      rw [Expression.toJson_injective callee callee' shown.1 shown'.1 parts.1,
        Expression.allToJson_injective arguments arguments' shown.2 shown'.2 parts.2]
    | _ => simp [toJson, TypeName.toJson] at same
  | .subscript base index, second, shown, shown', same => by
    cases second with
    | subscript base' index' =>
      have parts : base.toJson = base'.toJson ∧ index.toJson = index'.toJson := by
        simpa [toJson] using same
      rw [Expression.toJson_injective base base' shown.1 shown'.1 parts.1,
        Expression.toJson_injective index index' shown.2 shown'.2 parts.2]
    | _ => simp [toJson, TypeName.toJson] at same

theorem Expression.allToJson_injective : ∀ firsts seconds : List Expression,
    Expression.AllShowable firsts → Expression.AllShowable seconds →
    Expression.allToJson firsts = Expression.allToJson seconds → firsts = seconds
  | [], [], _, _, _ => rfl
  | [], _ :: _, _, _, same => by cases same
  | _ :: _, [], _, _, same => by cases same
  | first :: firsts, second :: seconds, shown, shown', same => by
    obtain ⟨head, tail⟩ := List.cons.inj same
    rw [Expression.toJson_injective first second shown.1 shown'.1 head,
      Expression.allToJson_injective firsts seconds shown.2 shown'.2 tail]

end

theorem typedNames_injective {label : String} {first second : List TypedName}
    (same : first.map (TypedName.toJson label) = second.map (TypedName.toJson label)) :
    first = second :=
  List.map_injective_iff.mpr (fun _ _ => TypedName.toJson_injective) same

@[simp] theorem Json.blockNode_inj {first second : List Json} :
    blockNode first = blockNode second ↔ first = second := by
  simp [blockNode]

mutual

theorem Statement.toJson_injective : ∀ first second : Statement, first.Showable →
    second.Showable → first.toJson = second.toJson → first = second
  | .expression value, second, shown, shown', same => by
    cases second with
    | expression value' =>
      have parts : value.toJson = value'.toJson := by simpa [Statement.toJson] using same
      rw [Expression.toJson_injective value value' shown shown' parts]
    | _ => simp [Statement.toJson, blockNode] at same
  | .print value, second, shown, shown', same => by
    cases second with
    | print value' =>
      have parts : value.toJson = value'.toJson := by simpa [Statement.toJson] using same
      rw [Expression.toJson_injective value value' shown shown' parts]
    | _ => simp [Statement.toJson, blockNode] at same
  | .returned value, second, shown, shown', same => by
    cases second with
    | returned value' =>
      have parts : value.toJson = value'.toJson := by simpa [Statement.toJson] using same
      rw [Expression.toJson_injective value value' shown shown' parts]
    | _ => simp [Statement.toJson, blockNode] at same
  | .block body, second, shown, shown', same => by
    cases second with
    | block body' =>
      have parts : Statement.allToJson body = Statement.allToJson body' := by
        simpa [Statement.toJson] using same
      rw [Statement.allToJson_injective body body' shown shown' parts]
    | _ => simp [Statement.toJson, blockNode] at same
  | .conditional condition body alternative, second, shown, shown', same => by
    cases second with
    | conditional condition' body' alternative' =>
      have parts : condition.toJson = condition'.toJson ∧
          Statement.allToJson body = Statement.allToJson body' ∧
          alternative.toMembers = alternative'.toMembers := by
        simpa [Statement.toJson] using same
      rw [Expression.toJson_injective condition condition' shown.1 shown'.1 parts.1,
        Statement.allToJson_injective body body' shown.2.1 shown'.2.1 parts.2.1,
        Alternative.toMembers_injective alternative alternative' shown.2.2 shown'.2.2 parts.2.2]
    | _ => simp [Statement.toJson, blockNode] at same
  | .whileLoop condition body, second, shown, shown', same => by
    cases second with
    | whileLoop condition' body' =>
      have parts : condition.toJson = condition'.toJson ∧
          Statement.allToJson body = Statement.allToJson body' := by
        simpa [Statement.toJson] using same
      rw [Expression.toJson_injective condition condition' shown.1 shown'.1 parts.1,
        Statement.allToJson_injective body body' shown.2 shown'.2 parts.2]
    | _ => simp [Statement.toJson, blockNode] at same
  | .forLoop initializer condition modifier body, second, shown, shown', same => by
    cases second with
    | forLoop initializer' condition' modifier' body' =>
      have parts : initializer.toJson = initializer'.toJson ∧
          condition.toJson = condition'.toJson ∧ modifier.toJson = modifier'.toJson ∧
          Statement.allToJson body = Statement.allToJson body' := by
        simpa [Statement.toJson] using same
      obtain ⟨ofInitializer, ofCondition, ofModifier, ofBody⟩ := shown
      obtain ⟨ofInitializer', ofCondition', ofModifier', ofBody'⟩ := shown'
      rw [Expression.toJson_injective _ _ ofInitializer ofInitializer' parts.1,
        Expression.toJson_injective _ _ ofCondition ofCondition' parts.2.1,
        Expression.toJson_injective _ _ ofModifier ofModifier' parts.2.2.1,
        Statement.allToJson_injective body body' ofBody ofBody' parts.2.2.2]
    | _ => simp [Statement.toJson, blockNode] at same
  | .structType name fields, second, _, _, same => by
    cases second with
    | structType name' fields' =>
      have parts : name = name' ∧
          fields.map (TypedName.toJson "Field") = fields'.map (TypedName.toJson "Field") := by
        simpa [Statement.toJson] using same
      rw [parts.1, typedNames_injective parts.2]
    | _ => simp [Statement.toJson, blockNode] at same
  | .enumType name constants, second, _, _, same => by
    cases second with
    | enumType name' constants' =>
      have parts : name = name' ∧ constants.map Json.string = constants'.map Json.string := by
        simpa [Statement.toJson] using same
      rw [parts.1, List.map_injective_iff.mpr (fun _ _ => Json.string.inj) parts.2]
    | _ => simp [Statement.toJson, blockNode] at same
  | .function name parameters returnType body, second, shown, shown', same => by
    cases second with
    | function name' parameters' returnType' body' =>
      have parts : name = name' ∧
          parameters.map (TypedName.toJson "Parameter") =
            parameters'.map (TypedName.toJson "Parameter") ∧
          returnType.toJson = returnType'.toJson ∧
          Statement.allToJson body = Statement.allToJson body' := by
        simpa [Statement.toJson] using same
      rw [parts.1, typedNames_injective parts.2.1, TypeName.toJson_injective parts.2.2.1,
        Statement.allToJson_injective body body' shown shown' parts.2.2.2]
    | _ => simp [Statement.toJson, blockNode] at same
  | .inNamespace _, second, _, _, same => by
    cases second with
    | inNamespace _ => simpa [Statement.toJson] using same
    | _ => simp [Statement.toJson, blockNode] at same
  | .usingNamespace _, second, _, _, same => by
    cases second with
    | usingNamespace _ => simpa [Statement.toJson] using same
    | _ => simp [Statement.toJson, blockNode] at same
  | .declaration constant name type value, second, shown, shown', same => by
    cases second with
    | declaration constant' name' type' value' =>
      have parts : constant = constant' ∧ name = name' ∧ type.toJson = type'.toJson ∧
          value.toJson = value'.toJson := by
        simpa [Statement.toJson] using same
      rw [parts.1, parts.2.1, TypeName.toJson_injective parts.2.2.1,
        Expression.toJson_injective value value' shown shown' parts.2.2.2]
    | _ => simp [Statement.toJson, blockNode] at same

theorem Alternative.toMembers_injective : ∀ first second : Alternative, first.Showable →
    second.Showable → first.toMembers = second.toMembers → first = second
  | .absent, second, _, _, same => by
    cases second with
    | absent => rfl
    | elseIf | otherwise => simp [Alternative.toMembers] at same
  | .elseIf condition body alternative, second, shown, shown', same => by
    cases second with
    | elseIf condition' body' alternative' =>
      have parts : condition.toJson = condition'.toJson ∧
          Statement.allToJson body = Statement.allToJson body' ∧
          alternative.toMembers = alternative'.toMembers := by
        simpa [Alternative.toMembers] using same
      rw [Expression.toJson_injective condition condition' shown.1 shown'.1 parts.1,
        Statement.allToJson_injective body body' shown.2.1 shown'.2.1 parts.2.1,
        Alternative.toMembers_injective alternative alternative' shown.2.2 shown'.2.2 parts.2.2]
    | absent | otherwise => simp [Alternative.toMembers, blockNode] at same
  | .otherwise body, second, shown, shown', same => by
    cases second with
    | otherwise body' =>
      have parts : Statement.allToJson body = Statement.allToJson body' := by
        simpa [Alternative.toMembers] using same
      rw [Statement.allToJson_injective body body' shown shown' parts]
    | absent | elseIf => simp [Alternative.toMembers, blockNode] at same

theorem Statement.allToJson_injective : ∀ firsts seconds : List Statement,
    Statement.AllShowable firsts → Statement.AllShowable seconds →
    Statement.allToJson firsts = Statement.allToJson seconds → firsts = seconds
  | [], [], _, _, _ => rfl
  | [], _ :: _, _, _, same => by cases same
  | _ :: _, [], _, _, same => by cases same
  | first :: firsts, second :: seconds, shown, shown', same => by
    obtain ⟨head, tail⟩ := List.cons.inj same
    rw [Statement.toJson_injective first second shown.1 shown'.1 head,
      Statement.allToJson_injective firsts seconds shown.2 shown'.2 tail]

end

theorem Program.toJson_injective {first second : Program} (shown : first.Showable)
    (shown' : second.Showable) (same : first.toJson = second.toJson) : first = second := by
  have parts : Statement.allToJson first.statements = Statement.allToJson second.statements := by
    simpa [toJson, Statement.blockToJson, Statement.toJson] using same
  exact congrArg Program.mk (Statement.allToJson_injective _ _ shown shown' parts)

/-! ## The text of a tree says all about it -/

/-- Holds of a JSON form of trees that says all about them. Of every tree, the text is one JSON
value and nothing else, without control characters; the value that it stands for is the form of the
tree, which is a node made of nodes. And two trees that can be shown have one text only if they are
equal. -/
structure Json.IsFaithful {Tree : Type} (toJson : Tree → Json) (Showable : Tree → Prop) : Prop where
  reads : ∀ tree, Json.read? (toJson tree).render = some (toJson tree)
  plain : ∀ tree, ∀ c ∈ (toJson tree).render.toList, 0x20 ≤ c.toNat
  typed : ∀ tree, (toJson tree).IsTree ∧ ∃ type members, toJson tree = node type members
  unique : ∀ first second, Showable first → Showable second →
    (toJson first).render = (toJson second).render → first = second

/-- A form that shows trees as nodes, and different trees differently, is faithful. -/
theorem Json.isFaithful_of_injective {Tree : Type} {toJson : Tree → Json} {Showable : Tree → Prop}
    (isTree : ∀ tree, (toJson tree).IsTree)
    (isNode : ∀ tree, ∃ type members, toJson tree = node type members)
    (injective : ∀ first second, Showable first → Showable second →
      toJson first = toJson second → first = second) : Json.IsFaithful toJson Showable where
  reads tree := read?_render (isTree tree).legal
  plain tree := (isTree tree).legal.isPlain
  typed tree := ⟨isTree tree, isNode tree⟩
  unique first second shown shown' same :=
    injective first second shown shown'
      ((isTree first).legal.eq_of_render_eq (isTree second).legal same)

/-- The keys of an object. -/
def Json.keys : Json → List String
  | .object members => members.map Prod.fst
  | _ => []

/-- The JSON forms of programs, expressions and statements are faithful, and a conditional has a
member for its alternative only if there is one; a further condition is shown as a conditional. -/
theorem toJson_faithful :
    Json.IsFaithful Program.toJson Program.Showable ∧
    Json.IsFaithful Expression.toJson Expression.Showable ∧
    Json.IsFaithful Statement.toJson Statement.Showable ∧
    ∀ condition body alternative,
      ("alternative" ∈ (Statement.conditional condition body alternative).toJson.keys ↔
        alternative ≠ .absent) ∧
      (Alternative.elseIf condition body alternative).toMembers =
        [("alternative", (Statement.conditional condition body alternative).toJson)] := by
  refine ⟨?programs, ?expressions, ?statements, ?alternatives⟩
  case programs =>
    exact Json.isFaithful_of_injective Program.isTree_toJson (fun _ => ⟨_, _, rfl⟩)
      fun _ _ => Program.toJson_injective
  case expressions =>
    refine Json.isFaithful_of_injective Expression.isTree_toJson (fun expression => ?_)
      Expression.toJson_injective
    cases expression <;> exact ⟨_, _, rfl⟩
  case statements =>
    refine Json.isFaithful_of_injective Statement.isTree_toJson (fun statement => ?_)
      Statement.toJson_injective
    cases statement <;> exact ⟨_, _, rfl⟩
  case alternatives =>
    intro condition body alternative
    refine ⟨?_, rfl⟩
    cases alternative <;>
      simp [Statement.toJson, Alternative.toMembers, node, Json.keys]

/-- One text stands for one list of an object literal, a number and a string. -/
theorem toJson_faithful_array :
    let first := Expression.array [.object .kwThis, .float (.zero true), .string "\u0001é"]
    let second := Expression.array
      [.object .kwThis, .float (.zero true), .string (.ofList ['\u0001', 'é'])]
    first.Showable ∧ second.Showable ∧ first.toJson.render = second.toJson.render ∧
      first = second :=
  ⟨⟨.inl rfl, rfl, trivial, trivial⟩, ⟨.inl rfl, rfl, trivial, trivial⟩, rfl,
    toJson_faithful.2.1.unique _ _ ⟨.inl rfl, rfl, trivial, trivial⟩
      ⟨.inl rfl, rfl, trivial, trivial⟩ rfl⟩

end BraceLang
