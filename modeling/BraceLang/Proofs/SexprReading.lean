import BraceLang.Proofs.ConcreteExpression
import BraceLang.Proofs.QuotedText
import BraceLang.Sexpr

/-!
Symbolic expressions can be told apart by their texts. Blanks and closing brackets end an atom,
unless they are quoted or close a pair of brackets that belongs to a type; lists and vectors end at
their own bracket. So the text of a symbolic expression, whatever follows it, says where it ends and
what it is (`Legible.toldApart`).
-/
namespace BraceLang.Sexpr

/-- Holds of the characters that can stand anywhere in an atom. -/
def isBare (c : Char) : Bool :=
  c != ' ' && c != '(' && c != ')' && c != '[' && c != ']'

/-- Runs of bare characters and of pairs of brackets. -/
inductive IsRun : List Char → Prop where
  | nil : IsRun []
  | char (bare : isBare c = true) (others : IsRun rest) : IsRun (c :: rest)
  | pair (others : IsRun rest) : IsRun ('[' :: ']' :: rest)

/-- The texts of atoms: runs that do not look like quoted text or a bracket at first, and quoted
text. -/
inductive IsAtom : List Char → Prop where
  | bare (first : isBare c = true) (unquoted : c ≠ '"' ∧ c ≠ '\'') (others : IsRun rest) :
      IsAtom (c :: rest)
  | quoted (isMark : mark = '"' ∨ mark = '\'') (text : List Char) : IsAtom (Text.quote mark text)

/-- Holds of the characters that end what stands before them. -/
def isEnd (c : Char) : Bool :=
  c == ' ' || c == ')' || c == ']'

/-- A text before which an atom ends. -/
def Ends (rest : List Char) : Prop :=
  ∀ c, rest.head? = some c → isEnd c = true

theorem ends_cons {c : Char} (isEnd : isEnd c = true) (rest : List Char) : Ends (c :: rest) := by
  rintro _ ⟨⟩
  exact isEnd

theorem isEnd_eq_false {c : Char} (bare : isBare c = true) : isEnd c = false := by
  simp only [isBare, Bool.and_eq_true, bne_iff_ne] at bare
  simp [isEnd, bare]

theorem IsRun.append {text rest : List Char} (run : IsRun text) (others : IsRun rest) :
    IsRun (text ++ rest) := by
  induction run with
  | nil => exact others
  | char bare _ ih => exact .char bare ih
  | pair _ ih => exact .pair ih

theorem isRun_of_bare {text : List Char} (bare : ∀ c ∈ text, isBare c = true) : IsRun text := by
  induction text with
  | nil => exact .nil
  | cons c text ih =>
    rw [List.forall_mem_cons] at bare
    exact .char bare.1 (ih bare.2)

/-- A run ends where the text says so. -/
theorem IsRun.append_inj {text text' rest rest' : List Char} (run : IsRun text)
    (run' : IsRun text') (ends : Ends rest) (ends' : Ends rest')
    (same : text ++ rest = text' ++ rest') : text = text' ∧ rest = rest' := by
  induction run generalizing text' with
  | nil =>
    cases run' with
    | nil => exact ⟨rfl, same⟩
    | @char c' _ bare _ =>
      have isEnd := ends c' (by rw [← List.nil_append rest, same]; rfl)
      rw [isEnd_eq_false bare] at isEnd
      cases isEnd
    | pair =>
      have isEnd := ends '[' (by rw [← List.nil_append rest, same]; rfl)
      cases isEnd
  | @char c _ bare _ ih =>
    cases run' with
    | nil =>
      have isEnd := ends' c (by rw [← List.nil_append rest', ← same]; rfl)
      rw [isEnd_eq_false bare] at isEnd
      cases isEnd
    | char _ others' =>
      obtain ⟨rfl, tails⟩ := List.cons.inj same
      obtain ⟨rfl, rests⟩ := ih others' tails
      exact ⟨rfl, rests⟩
    | pair =>
      obtain ⟨rfl, -⟩ := List.cons.inj same
      cases bare
  | pair _ ih =>
    cases run' with
    | nil =>
      have isEnd := ends' '[' (by rw [← List.nil_append rest', ← same]; rfl)
      cases isEnd
    | char bare =>
      obtain ⟨rfl, -⟩ := List.cons.inj same
      cases bare
    | pair others' =>
      obtain ⟨rfl, rests⟩ := ih others' (List.cons.inj (List.cons.inj same).2).2
      exact ⟨rfl, rests⟩

/-- An atom ends where the text says so. -/
theorem IsAtom.append_inj {text text' rest rest' : List Char} (atom : IsAtom text)
    (atom' : IsAtom text') (ends : Ends rest) (ends' : Ends rest')
    (same : text ++ rest = text' ++ rest') : text = text' ∧ rest = rest' := by
  cases atom with
  | bare first unquoted others =>
    cases atom' with
    | bare first' _ others' =>
      exact (IsRun.char first others).append_inj (.char first' others') ends ends' same
    | quoted isMark' =>
      obtain ⟨rfl, -⟩ := List.cons.inj same
      rcases isMark' with rfl | rfl
      · exact absurd rfl unquoted.1
      · exact absurd rfl unquoted.2
  | quoted isMark =>
    cases atom' with
    | bare _ unquoted' =>
      obtain ⟨rfl, -⟩ := List.cons.inj same
      rcases isMark with rfl | rfl
      · exact absurd rfl unquoted'.1
      · exact absurd rfl unquoted'.2
    | quoted =>
      obtain ⟨rfl, -⟩ := List.cons.inj same
      obtain ⟨rfl, rests⟩ := Text.quote_append_inj isMark same
      exact ⟨rfl, rests⟩

/-- Symbolic expressions whose atoms can be told from what stands around them. -/
inductive Legible : Sexpr → Prop where
  | atom (isAtom : IsAtom text.toList) : Legible (.atom text)
  | list (each : ∀ item ∈ items, Legible item) : Legible (.list items)
  | vector (each : ∀ item ∈ items, Legible item) : Legible (.vector items)

/-- The texts of items, each after the one before it and a blank. -/
def following (items : List Sexpr) : List Char :=
  items.flatMap fun item => ' ' :: item.render.toList

/-- The texts of items, with blanks between them. -/
def joined : List Sexpr → List Char
  | [] => []
  | item :: items => item.render.toList ++ following items

theorem toList_renderAll (items : List Sexpr) :
    (String.intercalate " " (renderAll items)).toList = joined items := by
  have texts : ∀ items, (renderAll items).map String.toList = items.map (·.render.toList) := by
    intro items
    induction items with
    | nil => rfl
    | cons item items ih => rw [renderAll, List.map_cons, List.map_cons, ih]
  rw [String.toList_intercalate, texts]
  cases items with
  | nil => rfl
  | cons item items => exact (intercalate_cons ..).trans (congrArg _ (List.flatMap_map ..))

theorem toList_render_list (items : List Sexpr) (rest : List Char) :
    (render (.list items)).toList ++ rest = '(' :: (joined items ++ ')' :: rest) := by
  rw [render, String.toList_append, String.toList_append, toList_renderAll, List.append_assoc,
    List.append_assoc]
  rfl

theorem toList_render_vector (items : List Sexpr) (rest : List Char) :
    (render (.vector items)).toList ++ rest = '[' :: (joined items ++ ']' :: rest) := by
  rw [render, String.toList_append, String.toList_append, toList_renderAll, List.append_assoc,
    List.append_assoc]
  rfl

theorem IsAtom.starts {text : List Char} (atom : IsAtom text) :
    ∃ c more, text = c :: more ∧ isBare c = true := by
  cases atom with
  | bare first => exact ⟨_, _, rfl, first⟩
  | quoted isMark => exact ⟨_, _, rfl, by rcases isMark with rfl | rfl <;> rfl⟩

/-- No atom starts with a bracket or a blank. -/
theorem IsAtom.append_ne {text rest rest' : List Char} {c : Char} (atom : IsAtom text)
    (notBare : isBare c = false) : text ++ rest ≠ c :: rest' := by
  obtain ⟨c', more, rfl, bare⟩ := atom.starts
  intro same
  obtain ⟨rfl, -⟩ := List.cons.inj same
  rw [bare] at notBare
  cases notBare

/-- No symbolic expression starts with an end. -/
theorem Legible.starts {sexpr : Sexpr} (legible : sexpr.Legible) (rest : List Char) :
    ∃ c more, sexpr.render.toList ++ rest = c :: more ∧ isEnd c = false := by
  cases legible with
  | atom isAtom =>
    obtain ⟨c, more, shape, bare⟩ := isAtom.starts
    rw [render, shape]
    exact ⟨c, _, rfl, isEnd_eq_false bare⟩
  | list =>
    rw [toList_render_list]
    exact ⟨_, _, rfl, rfl⟩
  | vector =>
    rw [toList_render_vector]
    exact ⟨_, _, rfl, rfl⟩

/-- Holds of the symbolic expressions that end where the text says so. -/
def ToldApart (first : Sexpr) : Prop :=
  ∀ {second rest rest'}, second.Legible → Ends rest → Ends rest' →
    first.render.toList ++ rest = second.render.toList ++ rest' → first = second ∧ rest = rest'

section

variable {close : Char} {firsts seconds : List Sexpr} {rest rest' : List Char}

theorem ends_following {items : List Sexpr} (closes : isEnd close = true) :
    Ends (following items ++ close :: rest) := by
  cases items with
  | nil => exact ends_cons closes rest
  | cons item items => exact ends_cons rfl _

/-- Items after others are told apart if each is. -/
theorem following_append_inj (closes : close = ')' ∨ close = ']')
    (each : ∀ item ∈ firsts, item.ToldApart) (legible : ∀ item ∈ seconds, item.Legible)
    (same : following firsts ++ close :: rest = following seconds ++ close :: rest') :
    firsts = seconds ∧ rest = rest' := by
  have isEnd : isEnd close = true := by rcases closes with rfl | rfl <;> rfl
  have notBlank : close ≠ ' ' := by rcases closes with rfl | rfl <;> decide
  induction firsts generalizing seconds with
  | nil =>
    cases seconds with
    | nil => exact ⟨rfl, (List.cons.inj same).2⟩
    | cons => exact absurd (List.cons.inj same).1 notBlank
  | cons first firsts ih =>
    cases seconds with
    | nil => exact absurd (List.cons.inj same).1.symm notBlank
    | cons second seconds =>
      obtain ⟨toldApart, others⟩ := List.forall_mem_cons.mp each
      obtain ⟨isLegible, others'⟩ := List.forall_mem_cons.mp legible
      simp only [following, List.flatMap_cons, List.cons_append, List.append_assoc] at same
      obtain ⟨rfl, further⟩ := toldApart isLegible (ends_following isEnd) (ends_following isEnd)
        (List.cons.inj same).2
      obtain ⟨rfl, rests⟩ := ih others others' further
      exact ⟨rfl, rests⟩

theorem joined_starts {item : Sexpr} (legible : item.Legible) (items : List Sexpr) :
    ∃ c more, joined (item :: items) ++ close :: rest = c :: more ∧ isEnd c = false := by
  rw [joined, List.append_assoc]
  exact legible.starts _

/-- Items between brackets are told apart if each is. -/
theorem joined_append_inj (closes : close = ')' ∨ close = ']')
    (each : ∀ item ∈ firsts, item.ToldApart) (legible : ∀ item ∈ firsts, item.Legible)
    (legible' : ∀ item ∈ seconds, item.Legible)
    (same : joined firsts ++ close :: rest = joined seconds ++ close :: rest') :
    firsts = seconds ∧ rest = rest' := by
  have isEnd : isEnd close = true := by rcases closes with rfl | rfl <;> rfl
  cases firsts with
  | nil =>
    cases seconds with
    | nil => exact ⟨rfl, (List.cons.inj same).2⟩
    | cons second seconds =>
      obtain ⟨c, more, shape, notEnd⟩ := joined_starts (List.forall_mem_cons.mp legible').1 seconds
      rw [shape] at same
      obtain ⟨rfl, -⟩ := List.cons.inj same
      rw [isEnd] at notEnd
      cases notEnd
  | cons first firsts =>
    cases seconds with
    | nil =>
      obtain ⟨c, more, shape, notEnd⟩ := joined_starts (List.forall_mem_cons.mp legible).1 firsts
      rw [shape] at same
      obtain ⟨rfl, -⟩ := List.cons.inj same
      rw [isEnd] at notEnd
      cases notEnd
    | cons second seconds =>
      -- with a blank before them, items are items after others
      exact following_append_inj closes each legible' (congrArg (' ' :: ·) same)

end

/-- A symbolic expression ends where the text says so. -/
theorem Legible.toldApart {sexpr : Sexpr} (legible : sexpr.Legible) : sexpr.ToldApart := by
  induction legible with
  | atom isAtom =>
    intro second rest rest' legible' ends ends' same
    cases legible' with
    | atom isAtom' =>
      obtain ⟨texts, rests⟩ := isAtom.append_inj isAtom' ends ends' same
      exact ⟨congrArg Sexpr.atom (String.toList_inj.mp texts), rests⟩
    | list =>
      rw [toList_render_list] at same
      exact absurd same (isAtom.append_ne rfl)
    | vector =>
      rw [toList_render_vector] at same
      exact absurd same (isAtom.append_ne rfl)
  | list each ih =>
    intro second rest rest' legible' ends ends' same
    rw [toList_render_list] at same
    cases legible' with
    | atom isAtom' => exact absurd same.symm (isAtom'.append_ne rfl)
    | list each' =>
      rw [toList_render_list] at same
      obtain ⟨rfl, rests⟩ := joined_append_inj (.inl rfl) ih each each' (List.cons.inj same).2
      exact ⟨rfl, rests⟩
    | vector =>
      rw [toList_render_vector] at same
      exact absurd (List.cons.inj same).1 (by decide)
  | vector each ih =>
    intro second rest rest' legible' ends ends' same
    rw [toList_render_vector] at same
    cases legible' with
    | atom isAtom' => exact absurd same.symm (isAtom'.append_ne rfl)
    | list =>
      rw [toList_render_list] at same
      exact absurd (List.cons.inj same).1 (by decide)
    | vector each' =>
      rw [toList_render_vector] at same
      obtain ⟨rfl, rests⟩ := joined_append_inj (.inr rfl) ih each each' (List.cons.inj same).2
      exact ⟨rfl, rests⟩

/-- Symbolic expressions of one text are equal. -/
theorem Legible.eq_of_render_eq {first second : Sexpr} (legible : first.Legible)
    (legible' : second.Legible) (same : first.render = second.render) : first = second := by
  have ends : Ends [] := nofun
  exact (legible.toldApart legible' ends ends (congrArg (·.toList ++ []) same)).1

end BraceLang.Sexpr
