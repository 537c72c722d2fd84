import BraceLang.Proofs.RuleOutcome

/-!
Rules that read exactly a given segment. A rule accepts a segment before a token of some kind if it
takes the segment, gives its value and leaves everything else alone, whatever else the buffer
holds. Acceptance is put together as rules are: in a sequence, the first rule accepts its segment
before the first token of the next one. Conversely, whatever a rule in a sound state gives a value
for is a segment that it has passed.
-/
namespace BraceLang

variable {α β ρ : Type}

/-- The kind of the first of some tokens, or `next` if there are none. -/
def firstKind (tokens : List Token) (next : TokenKind) : TokenKind :=
  match tokens with
  | [] => next
  | token :: _ => token.kind

@[simp] theorem firstKind_nil (next : TokenKind) : firstKind [] next = next := rfl

@[simp] theorem firstKind_cons (token : Token) (tokens : List Token) (next : TokenKind) :
    firstKind (token :: tokens) next = token.kind := rfl

@[simp] theorem firstKind_append (first second : List Token) (next : TokenKind) :
    firstKind (first ++ second) next = firstKind first (firstKind second next) := by
  cases first <;> rfl

/-- Any number of items, one after another, with a value for each. -/
inductive Many (Item : List Token → α → Prop) : List Token → List α → Prop where
  | nil : Many Item [] []
  | cons (item : Item first value) (others : Many Item rest values) :
      Many Item (first ++ rest) (value :: values)

/-- A comma and an item after it. -/
def AfterComma (Item : List Token → α → Prop) (segment : List Token) (value : α) : Prop :=
  ∃ comma item, segment = comma :: item ∧ comma.kind = .comma ∧ Item item value

/-- One or more items with commas between them. -/
inductive Separated (Item : List Token → α → Prop) : List Token → List α → Prop where
  | intro (item : Item first value) (others : Many (AfterComma Item) rest values) :
      Separated Item (first ++ rest) (value :: values)

/-- Any number of items with commas between them. -/
def Listed (Item : List Token → α → Prop) (segment : List Token) (values : List α) : Prop :=
  (segment = [] ∧ values = []) ∨ Separated Item segment values

theorem Many.snoc {Item : List Token → α → Prop} {segment final : List Token} {values : List α}
    {value : α} (items : Many Item segment values) (last : Item final value) :
    Many Item (segment ++ final) (values ++ [value]) := by
  induction items with
  | nil => simpa using Many.cons last .nil
  | cons item others ih => simpa using Many.cons item ih

namespace ParseState

variable {state middle after : ParseState} {first second segment : List Token}

/-- The state with a segment taken and everything else as it was; only the greatest depth may
have grown. -/
structure Passes (state : ParseState) (segment : List Token) (after : ParseState) : Prop where
  rest : state.rest = segment ++ after.rest
  before : after.before = segment.reverse ++ state.before
  stop : after.stop = state.stop
  depth : after.depth = state.depth
  reports : after.reports = state.reports
  panicking : after.panicking = state.panicking

theorem current_kind (state : ParseState) :
    state.current.kind = firstKind state.rest .endOfInput := by
  cases shape : state.rest with
  | nil => rw [current_of_nil shape, firstKind_nil, Token.endAt]
  | cons token rest => rw [current_of_cons shape, firstKind_cons]

theorem Passes.refl (state : ParseState) : state.Passes [] state :=
  ⟨rfl, rfl, rfl, rfl, rfl, rfl⟩

theorem Passes.trans (passes : state.Passes first middle) (passes' : middle.Passes second after) :
    state.Passes (first ++ second) after where
  rest := by rw [passes.rest, passes'.rest, List.append_assoc]
  before := by rw [passes'.before, passes.before, List.reverse_append, List.append_assoc]
  stop := passes'.stop.trans passes.stop
  depth := passes'.depth.trans passes.depth
  reports := passes'.reports.trans passes.reports
  panicking := passes'.panicking.trans passes.panicking

theorem passes_advance {token : Token} {rest : List Token} (shape : state.rest = token :: rest) :
    state.Passes [token] state.advance := by
  rw [advance_of_cons shape]
  exact ⟨shape, rfl, rfl, rfl, rfl, rfl⟩

theorem Passes.of_deeper (passes : state.deeper.Passes segment after) :
    state.Passes segment after.shallower :=
  ⟨passes.rest, passes.before, passes.stop, congrArg (· - 1) passes.depth, passes.reports,
    passes.panicking⟩

theorem Passes.remaining_eq (passes : state.Passes segment after) :
    state.remaining = segment.length + after.remaining := by
  have lengths := congrArg List.length passes.rest
  rw [List.length_append] at lengths
  rw [remaining, remaining, state.cursor.remaining_eq, after.cursor.remaining_eq]
  exact lengths

/-- The segment between two states is determined by them. -/
theorem Passes.unique (passes : state.Passes first after) (passes' : state.Passes second after) :
    first = second :=
  List.append_cancel_right (passes.rest.symm.trans passes'.rest)

end ParseState

namespace Rule

/-- A rule reads a segment in a state, for a value. -/
def Reads (rule : Rule α) (state : ParseState) (segment : List Token) (value : α) : Prop :=
  ∃ after, rule state = (some value, after) ∧ state.Passes segment after

/-- A rule accepts a segment, for a value, at a depth and before a token of kind `next`: it reads
the segment in every sound state in which it comes next. -/
def Accepts (rule : Rule α) (depth : Nat) (segment : List Token) (value : α)
    (next : TokenKind) : Prop :=
  ∀ (state : ParseState) (rest : List Token), state.panicking = false → state.depth = depth →
    state.rest = segment ++ rest → firstKind rest .endOfInput = next →
    rule.Reads state segment value

section

variable {rule : Rule α} {depth : Nat} {segment first second : List Token} {value : α}
  {next : TokenKind}

theorem accepts_pure (value : α) : Accepts (pure value) depth [] value next :=
  fun state _ _ _ _ _ => ⟨state, rfl, .refl state⟩

theorem Accepts.bind {following : α → Rule β} {result : β}
    (accepts : Accepts rule depth first value (firstKind second next))
    (accepts' : Accepts (following value) depth second result next) :
    Accepts (rule >>= following) depth (first ++ second) result next := by
  intro state rest sound level shape ahead
  rw [List.append_assoc] at shape
  obtain ⟨middle, ran, passes⟩ :=
    accepts state (second ++ rest) sound level shape (by rw [firstKind_append, ahead])
  have middleRest : middle.rest = second ++ rest :=
    List.append_cancel_left (passes.rest.symm.trans shape)
  obtain ⟨after, ran', passes'⟩ := accepts' middle rest (passes.panicking.trans sound)
    (passes.depth.trans level) middleRest ahead
  refine ⟨after, ?_, passes.trans passes'⟩
  rw [bind_apply, ran]
  exact ran'

/-- A sequence whose first rule accepts a single token. -/
theorem Accepts.bind_cons {token : Token} {following : α → Rule β} {result : β}
    (accepts : Accepts rule depth [token] value (firstKind second next))
    (accepts' : Accepts (following value) depth second result next) :
    Accepts (rule >>= following) depth (token :: second) result next :=
  accepts.bind accepts'

/-- A sequence that ends in a value which is made from that of the first rule. -/
theorem Accepts.bind_pure {following : α → Rule β} {result : β}
    (accepts : Accepts rule depth segment value next) (ends : following value = pure result) :
    Accepts (rule >>= following) depth segment result next := by
  have last : Accepts (following value) depth [] result next := ends ▸ accepts_pure result
  simpa using accepts.bind last

/-- Looking at the current token gives the kind of the first token to come. -/
theorem accepts_currentKind_bind {following : TokenKind → Rule β} {result : β}
    (accepts : Accepts (following (firstKind segment next)) depth segment result next) :
    Accepts (currentKind >>= following) depth segment result next := by
  intro state rest sound level shape ahead
  have kind : state.current.kind = firstKind segment next := by
    rw [state.current_kind, shape, firstKind_append, ahead]
  obtain ⟨after, ran, passes⟩ := accepts state rest sound level shape ahead
  refine ⟨after, ?_, passes⟩
  rw [bind_apply, currentKind, kind]
  exact ran

theorem accepts_takeAs {convert : Token → Except Problem α} {token : Token}
    (converts : convert token = .ok value) :
    Accepts (takeAs convert) depth [token] value next := by
  intro state rest _ _ shape _
  refine ⟨state.advance, ?_, ParseState.passes_advance shape⟩
  rw [takeAs, ParseState.current_of_cons shape, converts]

theorem accepts_take (token : Token) : Accepts take depth [token] token next :=
  accepts_takeAs rfl

theorem accepts_require {expectation : Expectation} {token : Token}
    (fits : token.kind = expectation.kind) :
    Accepts (require expectation) depth [token] token.text next := by
  have taken : Accepts (takeKind expectation.kind (.expected expectation)) depth [token] token
      next := by
    intro state rest sound _ shape _
    refine ⟨state.advance, ?_, ParseState.passes_advance shape⟩
    rw [takeKind_of_sound sound, ParseState.current_of_cons shape, if_pos fits]
  exact taken.bind_pure rfl

theorem Accepts.nested (within : depth < maxDepth)
    (accepts : Accepts rule (depth + 1) segment value next) :
    Accepts (nested rule) depth segment value next := by
  intro state rest sound level shape ahead
  obtain ⟨after, ran, passes⟩ :=
    accepts state.deeper rest sound (congrArg (· + 1) level) shape ahead
  refine ⟨after.shallower, ?_, passes.of_deeper⟩
  rw [nested_apply, if_neg (by omega), ran]

variable {recognize : TokenKind → Option ρ} {step : α → ρ → Rule α}

/-- A repetition ends before a token that is not recognized. -/
theorem accepts_iterate_stop (stops : recognize next = none) :
    Accepts (Rule.iterate recognize step value) depth [] value next := by
  intro state rest _ _ shape ahead
  refine ⟨state, ?_, .refl state⟩
  have kind : state.current.kind = next := by
    rw [state.current_kind, shape, List.nil_append, ahead]
  rw [iterate, kind, stops]

/-- A repetition goes on with a round for a token that is recognized. -/
theorem Accepts.iterate_round {found : ρ} {middle result : α} (nonempty : first ≠ [])
    (recognized : recognize (firstKind first next) = some found)
    (round : Accepts (step value found) depth first middle (firstKind second next))
    (others : Accepts (Rule.iterate recognize step middle) depth second result next) :
    Accepts (Rule.iterate recognize step value) depth (first ++ second) result next := by
  intro state rest sound level shape ahead
  rw [List.append_assoc] at shape
  obtain ⟨between, ran, passes⟩ :=
    round state (second ++ rest) sound level shape (by rw [firstKind_append, ahead])
  have betweenRest : between.rest = second ++ rest :=
    List.append_cancel_left (passes.rest.symm.trans shape)
  obtain ⟨after, ran', passes'⟩ := others between rest (passes.panicking.trans sound)
    (passes.depth.trans level) betweenRest ahead
  refine ⟨after, ?_, passes.trans passes'⟩
  have kind : state.current.kind = firstKind first next := by
    rw [state.current_kind, shape]
    cases first with
    | nil => exact absurd rfl nonempty
    | cons token tokens => rfl
  have progress : between.remaining < state.remaining := by
    have positive := List.length_pos_iff.mpr nonempty
    rw [passes.remaining_eq]
    omega
  rw [iterate, kind, recognized]
  simp only [ran, progress, ↓reduceIte]
  exact ran'

/-- A rule that is repeated for as long as tokens continue a list accepts all items of the list,
if every item starts with a token that continues it and the token after the list does not. -/
theorem accepts_manyWhile (Starts : TokenKind → Prop) {Item : List Token → α → Prop}
    {continues : TokenKind → Bool} {values : List α} (items : Many Item segment values)
    (starts : ∀ {item value}, Item item value →
      ∃ token tail, item = token :: tail ∧ Starts token.kind)
    (continued : ∀ {kind}, Starts kind → continues kind = true)
    (accepts : ∀ {item value ahead}, Item item value → Starts ahead ∨ ahead = next →
      Accepts rule depth item value ahead)
    (stops : continues next = false) :
    Accepts (manyWhile continues rule) depth segment values next := by
  have collects : ∀ earlier : List α,
      Accepts (Rule.iterate (fun kind => if continues kind then some () else none)
        (fun values _ => do pure (values ++ [← rule])) earlier) depth segment (earlier ++ values)
        next := by
    induction items with
    | nil =>
      intro earlier
      rw [List.append_nil]
      exact accepts_iterate_stop (by simp [stops])
    | @cons item value rest values read others ih =>
      intro earlier
      obtain ⟨token, tail, rfl, started⟩ := starts read
      have ahead : Starts (firstKind rest next) ∨ firstKind rest next = next := by
        cases others with
        | nil => exact .inr rfl
        | cons read' others' =>
          obtain ⟨token', tail', rfl, started'⟩ := starts read'
          exact .inl started'
      have round : Accepts (do pure (earlier ++ [← rule])) depth (token :: tail)
          (earlier ++ [value]) (firstKind rest next) :=
        (accepts read ahead).bind_pure rfl
      have recognized : (if continues token.kind then some () else none) = some () :=
        if_pos (continued started)
      refine .iterate_round (List.cons_ne_nil _ _) recognized round ?_
      simpa using ih (earlier ++ [value])
  exact collects []

theorem accepts_separatedByCommas {Item : List Token → α → Prop} {values : List α}
    (items : Separated Item segment values)
    (accepts : ∀ {item value ahead}, Item item value → ahead = .comma ∨ ahead = next →
      Accepts rule depth item value ahead)
    (stops : next ≠ .comma) :
    Accepts (separatedByCommas rule) depth segment values next := by
  obtain ⟨item, others⟩ := items
  rename_i first value rest values
  have afterFirst : firstKind rest next = .comma ∨ firstKind rest next = next := by
    cases others with
    | nil => exact .inr rfl
    | cons item' =>
      obtain ⟨comma, tail, rfl, isComma, -⟩ := item'
      exact .inl isComma
  refine (accepts item afterFirst).bind (Accepts.bind_pure ?_ rfl)
  refine accepts_manyWhile (· = .comma) others ?_ (by simp) ?_ (by simpa using stops)
  · rintro item value ⟨comma, tail, rfl, isComma, -⟩
    exact ⟨comma, tail, rfl, isComma⟩
  · rintro item value ahead ⟨comma, tail, rfl, -, item⟩ isAhead
    exact (accepts_take comma).bind_cons (accepts item isAhead)

/-- A list that is closed by a token of its own may also be empty. -/
theorem accepts_itemsUpTo {Item : List Token → α → Prop} {values : List α}
    (items : Listed Item segment values)
    (starts : ∀ {item value}, Item item value →
      ∃ token tail, item = token :: tail ∧ token.kind ≠ next)
    (accepts : ∀ {item value ahead}, Item item value → ahead = .comma ∨ ahead = next →
      Accepts rule depth item value ahead)
    (stops : next ≠ .comma) :
    Accepts (itemsUpTo next rule) depth segment values next := by
  refine accepts_currentKind_bind ?_
  rcases items with ⟨rfl, rfl⟩ | items
  · rw [firstKind_nil, if_pos rfl]
    exact accepts_pure []
  · have started : firstKind segment next ≠ next := by
      obtain ⟨item, others⟩ := items
      obtain ⟨token, tail, rfl, different⟩ := starts item
      exact different
    rw [if_neg started]
    exact accepts_separatedByCommas items accepts stops

end

section

variable {rule : Rule α} {state after : ParseState} {value : α}

theorem of_bind_value {following : α → Rule β} {result : β}
    (ran : (rule >>= following) state = (some result, after)) :
    ∃ value middle, rule state = (some value, middle) ∧
      following value middle = (some result, after) := by
  rw [bind_apply] at ran
  split at ran
  · exact ⟨_, _, ‹_›, ran⟩
  · cases ran

theorem of_currentKind_bind {following : TokenKind → Rule β} {result : Option β}
    (ran : (currentKind >>= following) state = (result, after)) :
    following state.current.kind state = (result, after) :=
  ran

theorem of_takeAs_value {convert : Token → Except Problem α}
    (ran : takeAs convert state = (some value, after)) (inside : state.current.kind ≠ .endOfInput) :
    ∃ token, state.Passes [token] after ∧ token = state.current ∧ convert token = .ok value := by
  cases shape : state.rest with
  | nil =>
    rw [ParseState.current_kind, shape] at inside
    exact absurd rfl inside
  | cons token rest =>
    have current := ParseState.current_of_cons shape
    rw [takeAs, current] at ran
    split at ran
    · rename_i converts
      cases ran
      exact ⟨token, ParseState.passes_advance shape, current.symm, converts⟩
    · cases ran

theorem of_take_value {taken : Token} (ran : take state = (some taken, after))
    (inside : state.current.kind ≠ .endOfInput) :
    state.Passes [taken] after ∧ taken = state.current := by
  obtain ⟨token, passes, isCurrent, converts⟩ := of_takeAs_value ran inside
  cases converts
  exact ⟨passes, isCurrent⟩

theorem of_require_value {expectation : Expectation} {text : String}
    (sound : state.panicking = false) (ran : require expectation state = (some text, after)) :
    ∃ token, state.Passes [token] after ∧ token.kind = expectation.kind ∧ token.text = text := by
  obtain ⟨token, middle, taken, ends⟩ := of_bind_value ran
  cases ends
  rw [takeKind_of_sound sound] at taken
  by_cases fits : state.current.kind = expectation.kind
  · rw [if_pos fits] at taken
    cases taken
    have inside : state.current.kind ≠ .endOfInput := fits ▸ expectation.kind_ne_endOfInput
    have taken : take state = (some state.current, state.advance) := rfl
    exact ⟨_, (of_take_value taken inside).1, fits, rfl⟩
  · rw [if_neg fits] at taken
    cases taken

theorem of_nested_value (ran : nested rule state = (some value, after)) :
    state.depth < maxDepth ∧
      ∃ inside, rule state.deeper = (some value, inside) ∧ after = inside.shallower := by
  rw [nested_apply] at ran
  by_cases tooDeep : maxDepth ≤ state.depth
  · rw [if_pos tooDeep] at ran
    cases ran
  · rw [if_neg tooDeep] at ran
    obtain ⟨first, second⟩ := Prod.mk.inj ran
    exact ⟨Nat.lt_of_not_le tooDeep, _, Prod.ext first rfl, second.symm⟩

/-- What holds before a repetition and is kept by each of its rounds holds after it. If every
round takes a token, the repetition has ended at a token that is not recognized. -/
theorem of_iterate_value {recognize : TokenKind → Option ρ} {step : α → ρ → Rule α}
    {motive : α → ParseState → Prop} {result : α}
    (ran : Rule.iterate recognize step value state = (some result, after))
    (start : motive value state)
    (round : ∀ {value found state next after}, motive value state →
      recognize state.current.kind = some found → step value found state = (some next, after) →
        motive next after) :
    motive result after ∧
      ((∀ {value found state next after}, motive value state →
          recognize state.current.kind = some found → step value found state = (some next, after) →
            after.remaining < state.remaining) →
        recognize after.current.kind = none) := by
  fun_induction Rule.iterate recognize step value state with
  | case1 value state stops =>
    cases ran
    exact ⟨start, fun _ => stops⟩
  | case2 => cases ran
  | case3 value state found recognized next middle stepped progress ih =>
    exact ih ran (round start recognized stepped)
  | case4 value state found recognized next middle stepped stuck =>
    cases ran
    exact ⟨round start recognized stepped, fun progress =>
      absurd (progress start recognized stepped) stuck⟩

/-- A rule that is repeated has passed as many items as it gives values. -/
theorem of_manyWhile_value (Item : List Token → α → Prop) {continues : TokenKind → Bool}
    {values : List α} (sound : state.panicking = false)
    (ran : manyWhile continues rule state = (some values, after))
    (item : ∀ {middle value next}, middle.panicking = false → middle.depth = state.depth →
      continues middle.current.kind = true → rule middle = (some value, next) →
        ∃ segment, middle.Passes segment next ∧ Item segment value) :
    ∃ segment, state.Passes segment after ∧ Many Item segment values := by
  let motive (values : List α) (middle : ParseState) : Prop :=
    ∃ segment, state.Passes segment middle ∧ Many Item segment values
  have start : motive [] state := ⟨[], .refl state, .nil⟩
  refine (of_iterate_value (motive := motive) ran start ?_).1
  rintro values found middle collected next ⟨segment, passes, items⟩ recognized stepped
  obtain ⟨value, last, itemRan, ends⟩ := of_bind_value stepped
  cases ends
  have continued : continues middle.current.kind = true := by
    cases kept : continues middle.current.kind with
    | true => rfl
    | false => simp [kept] at recognized
  obtain ⟨final, passes', read⟩ :=
    item (passes.panicking.trans sound) passes.depth continued itemRan
  exact ⟨segment ++ final, passes.trans passes', items.snoc read⟩

theorem of_separatedByCommas_value (Item : List Token → α → Prop) {values : List α}
    (sound : state.panicking = false)
    (ran : separatedByCommas rule state = (some values, after))
    (item : ∀ {middle value next}, middle.panicking = false → middle.depth = state.depth →
      rule middle = (some value, next) →
        ∃ segment, middle.Passes segment next ∧ Item segment value) :
    ∃ segment, state.Passes segment after ∧ Separated Item segment values := by
  obtain ⟨first, middle, firstRan, ran⟩ := of_bind_value ran
  obtain ⟨others, last, othersRan, ends⟩ := of_bind_value ran
  cases ends
  obtain ⟨segment, passes, read⟩ := item sound rfl firstRan
  obtain ⟨segments, passes', items⟩ :=
    of_manyWhile_value (AfterComma Item) (passes.panicking.trans sound) othersRan
      (by
        intro middle' value next sound' level continued roundRan
        obtain ⟨comma, taken, took, itemRan⟩ := of_bind_value roundRan
        have isComma : middle'.current.kind = .comma := by simpa using continued
        obtain ⟨commaPasses, rfl⟩ := of_take_value took (by simp [isComma])
        obtain ⟨segment', passes', read'⟩ := item (commaPasses.panicking.trans sound')
          (commaPasses.depth.trans (level.trans passes.depth)) itemRan
        exact ⟨_, commaPasses.trans passes', _, segment', rfl, isComma, read'⟩)
  exact ⟨segment ++ segments, passes.trans passes', .intro read items⟩

theorem of_itemsUpTo_value (Item : List Token → α → Prop) {closing : TokenKind}
    {values : List α} (sound : state.panicking = false)
    (ran : itemsUpTo closing rule state = (some values, after))
    (item : ∀ {middle value next}, middle.panicking = false → middle.depth = state.depth →
      rule middle = (some value, next) →
        ∃ segment, middle.Passes segment next ∧ Item segment value) :
    ∃ segment, state.Passes segment after ∧ Listed Item segment values := by
  have ran := of_currentKind_bind ran
  by_cases closes : state.current.kind = closing
  · rw [if_pos closes] at ran
    cases ran
    exact ⟨[], .refl state, .inl ⟨rfl, rfl⟩⟩
  · rw [if_neg closes] at ran
    obtain ⟨segment, passes, items⟩ := of_separatedByCommas_value Item sound ran item
    exact ⟨segment, passes, .inr items⟩

end

end Rule

end BraceLang
