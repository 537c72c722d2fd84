import BraceLang.Proofs.JsonReading

/-!
Values are read again from their texts. What the reader makes of the text of a value is the value
itself, with nothing left (`read?_render`), so that no two values have one text; and no control
character stands in it.
-/
namespace BraceLang.Json

/-! ## Values are read again from their texts -/

/-- Holds of the values whose numbers are numbers of JSON. -/
inductive Legal : Json → Prop where
  | null : Legal .null
  | bool (value : Bool) : Legal (.bool value)
  | number (isNumber : IsNumber text.toList) : Legal (.number text)
  | string (value : String) : Legal (.string value)
  | array (each : ∀ item ∈ items, Legal item) : Legal (.array items)
  | object (each : ∀ member ∈ members, Legal member.2) : Legal (.object members)

theorem toList_quote (text : String) :
    (quote text).toList = '"' :: (text.toList.flatMap escape ++ ['"']) := by
  rw [quote, String.toList_ofList]
  rfl

/-- The text of a member of an object. -/
def memberText (member : String × Json) : List Char :=
  (quote member.1).toList ++ ':' :: ' ' :: member.2.render.toList

theorem renderAll_eq_map (items : List Json) : renderAll items = items.map render := by
  induction items with
  | nil => rfl
  | cons item items ih => rw [renderAll, ih, List.map_cons]

theorem toList_renderMembers (members : List (String × Json)) :
    (renderMembers members).map String.toList = members.map memberText := by
  induction members with
  | nil => rfl
  | cons member members ih =>
    obtain ⟨key, value⟩ := member
    rw [renderMembers, List.map_cons, ih, List.map_cons, memberText, String.toList_append,
      String.toList_append, List.append_assoc]
    rfl

theorem toList_render_array (items : List Json) :
    (render (.array items)).toList =
      '[' :: ([',', ' '].intercalate (items.map (·.render.toList)) ++ [']']) := by
  rw [render, renderAll_eq_map, String.toList_append, String.toList_append,
    String.toList_intercalate, List.map_map]
  rfl

theorem toList_render_object (members : List (String × Json)) :
    (render (.object members)).toList =
      '{' :: ([',', ' '].intercalate (members.map memberText) ++ ['}']) := by
  rw [render, String.toList_append, String.toList_append, String.toList_intercalate,
    toList_renderMembers]
  rfl

/-- The text of a value starts neither with a blank nor with the end of an array. -/
theorem Legal.starts {value : Json} (legal : value.Legal) :
    ∃ c more, value.render.toList = c :: more ∧ isBlank c = false ∧ c ≠ ']' := by
  cases legal with
  | null => exact ⟨_, _, rfl, rfl, by decide⟩
  | bool value => cases value <;> exact ⟨_, _, rfl, rfl, by decide⟩
  | number isNumber =>
    obtain ⟨c, more, shape, first⟩ := isNumber.starts
    refine ⟨c, more, shape, ?_, ?_⟩
    · refine Bool.eq_false_iff.mpr fun blank => ?_
      simp only [isBlank, Bool.or_eq_true, beq_iff_eq] at blank
      rcases blank with ((rfl | rfl) | rfl) | rfl <;> rcases first with first | first <;>
        cases first
    · rintro rfl
      rcases first with first | first <;> cases first
  | string value =>
    rw [render, toList_quote]
    exact ⟨_, _, rfl, rfl, by decide⟩
  | array =>
    rw [toList_render_array]
    exact ⟨_, _, rfl, rfl, by decide⟩
  | object =>
    rw [toList_render_object]
    exact ⟨_, _, rfl, rfl, by decide⟩

theorem readValue?_blank (bound : Nat) (text : List Char) :
    readValue? bound (' ' :: text) = readValue? bound text := by
  cases bound with
  | zero => rfl
  | succ bound => rfl

theorem readMember?_blank (value : List Char → Option (Json × List Char)) (text : List Char) :
    readMember? value (' ' :: text) = readMember? value text :=
  rfl

theorem readValue?_number {c : Char} {more : List Char} (first : c.isDigit = true ∨ c = '-')
    (notBlank : isBlank c = false) (bound : Nat) :
    readValue? (bound + 1) (c :: more) = readNumber? (c :: more) := by
  rw [readValue?, skipBlanks_cons notBlank]
  split
  all_goals first
    | rfl
    | rename_i shape
      cases shape
      rcases first with first | first <;> cases first

theorem Legal.length_pos {value : Json} (legal : value.Legal) :
    0 < value.render.toList.length := by
  obtain ⟨c, more, shape, -⟩ := legal.starts
  rw [shape]
  exact Nat.succ_pos _

/-- What is read after the first character of a string, an array, an object or a member. -/
theorem readValue?_quotation (bound : Nat) (text : List Char) :
    readValue? (bound + 1) ('"' :: text) = (readString? text).bind fun (value, rest) =>
      some (.string (.ofList value), rest) :=
  rfl

theorem readValue?_bracket (bound : Nat) (text : List Char) :
    readValue? (bound + 1) ('[' :: text) =
      (readList? ']' (readValue? bound) bound text).bind fun (items, rest) =>
        some (.array items, rest) :=
  rfl

theorem readValue?_brace (bound : Nat) (text : List Char) :
    readValue? (bound + 1) ('\x7b' :: text) =
      (readList? '\x7d' (readMember? (readValue? bound)) bound text).bind fun (members, rest) =>
        some (.object members, rest) :=
  rfl

theorem readMember?_quotation {value : List Char → Option (Json × List Char)}
    {text key rest : List Char} (reads : readString? text = some (key, ':' :: rest)) :
    readMember? value ('"' :: text) =
      (value rest).bind fun (member, rest) => some ((String.ofList key, member), rest) := by
  change (readString? text).bind _ = _
  rw [reads]
  rfl

/-- A member is read from its text if its value is read from its own. -/
theorem readMember?_memberText {value : List Char → Option (Json × List Char)}
    {member : String × Json} {rest : List Char} (skips : ∀ text, value (' ' :: text) = value text)
    (reads : value (member.2.render.toList ++ rest) = some (member.2, rest)) :
    readMember? value (memberText member ++ rest) = some (member, rest) := by
  have text : memberText member ++ rest =
      '"' :: (member.1.toList.flatMap escape ++
        '"' :: ':' :: ' ' :: (member.2.render.toList ++ rest)) := by
    simp only [memberText, toList_quote, List.cons_append, List.append_assoc, List.nil_append]
  have key := readString?_quote member.1.toList (':' :: ' ' :: (member.2.render.toList ++ rest))
  rw [text, readMember?_quotation key, skips, reads, Option.bind_some, String.ofList_toList]

/-- A value is read from its text. -/
theorem Legal.read {value : Json} (legal : value.Legal) {bound : Nat} {rest : List Char}
    (within : value.render.toList.length ≤ bound + 1) (ends : EndsNumber rest) :
    readValue? (bound + 1) (value.render.toList ++ rest) = some (value, rest) := by
  induction legal generalizing bound rest with
  | null => rfl
  | bool value => cases value <;> rfl
  | @number text isNumber =>
    have read := readNumber?_append isNumber ends
    obtain ⟨c, more, shape, notBlank, -⟩ := (Legal.number isNumber).starts
    obtain ⟨c', more', shape', first⟩ := isNumber.starts
    rw [render] at shape ⊢
    obtain ⟨rfl, rfl⟩ := List.cons.inj (shape.symm.trans shape')
    rw [shape, List.cons_append] at read ⊢
    rw [readValue?_number first notBlank, read, ← shape, String.ofList_toList]
  | string value =>
    rw [render, toList_quote, List.cons_append, List.append_assoc, List.singleton_append,
      readValue?_quotation, readString?_quote]
    exact congrArg (fun text => some (Json.string text, rest)) String.ofList_toList
  | @array items each ih =>
    rw [toList_render_array] at within ⊢
    rw [List.length_cons, List.length_append, List.length_singleton] at within
    have count := length_le_length_intercalate (List.cons_ne_nil ',' [' '])
      (items.map (·.render.toList))
    rw [List.length_map] at count
    -- the brackets are two characters, so that a bound of one less is enough for each item
    have reads : ReadsEach (readValue? bound) (·.render.toList) items := by
      intro item inside rest ends
      have short : item.render.toList.length ≤
          ([',', ' '].intercalate (items.map (·.render.toList))).length :=
        length_le_intercalate (List.mem_map_of_mem inside)
      have positive := (each item inside).length_pos
      obtain ⟨less, rfl⟩ : ∃ less, bound = less + 1 := Nat.exists_eq_succ_of_ne_zero (by omega)
      exact ih item inside (by omega) ends
    rw [List.cons_append, List.append_assoc, List.singleton_append, readValue?_bracket,
      readList?_join (.inl rfl) (readValue?_blank bound) reads
        (fun item inside => (each item inside).starts) (by omega)]
    rfl
  | @object members each ih =>
    rw [toList_render_object] at within ⊢
    rw [List.length_cons, List.length_append, List.length_singleton] at within
    have count := length_le_length_intercalate (List.cons_ne_nil ',' [' ']) (members.map memberText)
    rw [List.length_map] at count
    have starts : ∀ member ∈ members,
        ∃ c more, memberText member = c :: more ∧ isBlank c = false ∧ c ≠ '\x7d' := by
      intro member _
      rw [memberText, toList_quote]
      exact ⟨'"', _, rfl, rfl, by decide⟩
    have reads : ReadsEach (readMember? (readValue? bound)) memberText members := by
      intro member inside rest ends
      have short : (memberText member).length ≤
          ([',', ' '].intercalate (members.map memberText)).length :=
        length_le_intercalate (List.mem_map_of_mem inside)
      -- the key and the colon make up for the level of nesting
      have shorter : member.2.render.toList.length < (memberText member).length := by
        rw [memberText, List.length_append, List.length_cons, List.length_cons]
        omega
      have positive := (each member inside).length_pos
      obtain ⟨less, rfl⟩ : ∃ less, bound = less + 1 := Nat.exists_eq_succ_of_ne_zero (by omega)
      exact readMember?_memberText (readValue?_blank _) (ih member inside (by omega) ends)
    rw [List.cons_append, List.append_assoc, List.singleton_append, readValue?_brace,
      readList?_join (.inr rfl) (readMember?_blank _) reads starts (by omega)]
    rfl

/-- A value is read from its text and nothing is left. -/
theorem read?_render {value : Json} (legal : value.Legal) : read? value.render = some value := by
  obtain ⟨less, length⟩ := Nat.exists_eq_succ_of_ne_zero (Nat.ne_zero_of_lt legal.length_pos)
  have ends : EndsNumber [] := nofun
  have read := legal.read (Nat.le_of_eq length) ends
  rw [List.append_nil] at read
  rw [read?, ← String.length_toList, length, read]
  rfl

/-- Two values of one text are one. -/
theorem Legal.eq_of_render_eq {first second : Json} (legal : first.Legal) (legal' : second.Legal)
    (same : first.render = second.render) : first = second := by
  have read := read?_render legal
  rw [same, read?_render legal'] at read
  exact (Option.some.inj read).symm

/-! ## No control character stands in a text -/

/-- What holds of the characters of the separator and of each text holds of those of all. -/
theorem forall_mem_intercalate {p : Char → Prop} {separator : List Char} {texts : List (List Char)}
    (between : ∀ c ∈ separator, p c) (each : ∀ text ∈ texts, ∀ c ∈ text, p c) :
    ∀ c ∈ separator.intercalate texts, p c := by
  induction texts with
  | nil => nofun
  | cons first others ih =>
    obtain ⟨ofFirst, ofOthers⟩ := List.forall_mem_cons.mp each
    cases others with
    | nil => rwa [List.intercalate_singleton]
    | cons second others =>
      rw [List.intercalate_cons_cons]
      exact List.forall_mem_append.mpr
        ⟨List.forall_mem_append.mpr ⟨ofFirst, between⟩, ih ofOthers⟩

/-- Holds of the characters that are not control characters. -/
def IsPlain (c : Char) : Prop :=
  0x20 ≤ c.toNat

instance (c : Char) : Decidable (IsPlain c) :=
  Nat.decLe 0x20 c.toNat

theorem isPlain_of_all {text : List Char} (all : text.all (decide <| IsPlain ·) = true) :
    ∀ c ∈ text, IsPlain c := by
  simpa using all

/-- What is written for a character holds no control character, whatever the character is. -/
theorem isPlain_escape (c : Char) : ∀ d ∈ escape c, IsPlain d := by
  have hex : ∀ code : Fin 0x20,
      IsPlain (hexDigit (code / 16)) ∧ IsPlain (hexDigit (code % 16)) := by decide
  unfold escape
  split
  · rename_i marked
    rcases marked with rfl | rfl <;> exact isPlain_of_all rfl
  iterate 5
    split
    · exact isPlain_of_all rfl
  split
  · rename_i control
    simp only [List.forall_mem_cons, List.not_mem_nil, false_imp_iff, implies_true, and_true]
    exact ⟨by decide, by decide, by decide, by decide, hex ⟨c.toNat, control⟩⟩
  · rename_i printable
    exact List.forall_mem_singleton.mpr (Nat.not_lt.mp printable)

theorem isPlain_quote (text : String) : ∀ c ∈ (quote text).toList, IsPlain c := by
  rw [toList_quote]
  refine List.forall_mem_cons.mpr ⟨by decide, List.forall_mem_append.mpr ⟨?_, isPlain_of_all rfl⟩⟩
  intro d mem
  obtain ⟨c, -, written⟩ := List.mem_flatMap.mp mem
  exact isPlain_escape c d written

theorem isPlain_of_isNumberChar {c : Char} (number : isNumberChar c = true) : IsPlain c := by
  simp only [isNumberChar, Bool.or_eq_true, beq_iff_eq] at number
  rcases number with ((((digit | rfl) | rfl) | rfl) | rfl) | rfl
  · have above : '0'.toNat ≤ c.toNat := (Char.isDigit_iff_toNat.mp digit).1
    exact Nat.le_trans (by decide) above
  all_goals decide

/-- No text of a value holds a control character. -/
theorem Legal.isPlain {value : Json} (legal : value.Legal) :
    ∀ c ∈ value.render.toList, IsPlain c := by
  have comma : ∀ c ∈ [',', ' '], IsPlain c := isPlain_of_all rfl
  induction legal with
  | null => exact isPlain_of_all rfl
  | bool value => cases value <;> exact isPlain_of_all rfl
  | number isNumber => exact fun c mem => isPlain_of_isNumberChar (isNumber.isNumberChar c mem)
  | string value => exact isPlain_quote value
  | array each ih =>
    rw [toList_render_array]
    refine List.forall_mem_cons.mpr ⟨by decide, List.forall_mem_append.mpr ⟨?_, isPlain_of_all rfl⟩⟩
    exact forall_mem_intercalate comma (List.forall_mem_map.mpr ih)
  | object each ih =>
    rw [toList_render_object]
    refine List.forall_mem_cons.mpr ⟨by decide, List.forall_mem_append.mpr ⟨?_, isPlain_of_all rfl⟩⟩
    refine forall_mem_intercalate comma (List.forall_mem_map.mpr fun member inside => ?_)
    have value := ih member inside
    exact List.forall_mem_append.mpr ⟨isPlain_quote member.1,
      List.forall_mem_cons.mpr ⟨by decide, List.forall_mem_cons.mpr ⟨by decide, value⟩⟩⟩

end BraceLang.Json
