import BraceLang.Proofs.ReportOrder

/-!
Recovery at the words that statements at the top level start with. A rule that reports such a word
leaves it, and recovery stops there, so that the driver's next attempt starts with the word. There
is one exception: where an operand has to start, the word is taken before it is reported. Then no
attempt starts with it, and the statement that it starts is lost (`reported_word_starts_attempt`).
-/
namespace BraceLang

open Parse

namespace ParseState

variable {state : ParseState} {buffer : List Token}

/-- The tokens from the cursor on are those of the buffer from its index on. -/
theorem Within.drop_index (within : state.Within buffer) : buffer.drop state.index = state.rest := by
  have behind : state.before.reverse.length = state.index := by
    rw [List.length_reverse]
    exact state.cursor.index_eq.symm
  rw [← within.whole, ← behind, List.drop_left]

end ParseState

namespace Parse

variable {state after last : ParseState} {attempts earlier later : List Attempt} {made : Attempt}
  {report : Report} {tokens : List Token}

/-- A run is a run up to any of its attempts, this attempt, and a run after it. -/
theorem Rounds.split (rounds : Rounds state (earlier ++ made :: later) last) :
    Rounds state earlier made.before ∧ made.before.current.kind ≠ .endOfInput ∧
      attempt made.before = (made.found, made.after) ∧ Rounds made.after later last := by
  induction earlier generalizing state with
  | nil =>
    cases rounds with
    | step inside attempted others => exact ⟨.refl _, inside, attempted, others⟩
  | cons first earlier ih =>
    cases rounds with
    | step inside attempted others =>
      obtain ⟨before, rest⟩ := ih others
      exact ⟨.step inside attempted before, rest⟩

theorem Rounds.ready_last (rounds : Rounds state attempts last) (ready : Ready state) :
    Ready last := by
  induction rounds with
  | refl => exact ready
  | step inside attempted _ ih => exact ih (ready.next inside attempted)

/-- Before the end of input there is a next attempt. -/
theorem Rounds.exists_next (rounds : Rounds state attempts last)
    (atEnd : last.current.kind = .endOfInput) (inside : state.current.kind ≠ .endOfInput) :
    ∃ next others, attempts = next :: others ∧ next.before = state := by
  cases rounds with
  | refl => exact absurd atEnd inside
  | step => exact ⟨_, _, rfl, rfl⟩

/-- No attempt starts before the ones before it have ended. -/
theorem Rounds.increasing (rounds : Rounds state attempts last) (ready : Ready state) :
    attempts.Pairwise (·.after.index ≤ ·.before.index) := by
  induction rounds with
  | refl => exact .nil
  | step inside attempted others ih =>
    have ready' := ready.next inside attempted
    refine List.pairwise_cons.mpr ⟨fun made mem => ?_, ih ready'⟩
    exact (others.made ready' made mem).leadsTo.index_le

/-- A statement at the current token is kept. -/
theorem found_of_isTopLevel {segment rest : List Token} {value : Statement}
    (sound : made.before.panicking = false) (level : made.before.depth = 0)
    (attempted : attempt made.before = (made.found, made.after))
    (shape : made.before.rest = segment ++ rest) (form : IsTopLevel segment value) :
    made.found = some value := by
  obtain ⟨after, ran, -⟩ :=
    accepts_topLevelStatement form made.before rest sound level shape rfl
  rw [attempt, ran] at attempted
  exact (Prod.mk.inj attempted).1.symm

/-- An attempt does not report the word that it starts with. -/
theorem Failed.index_lt (failed : Failed state report after)
    (isWord : startsTopLevel report.token.kind = true) : state.index < report.index := by
  obtain ⟨taken, reached, -, passes, index, token, word⟩ := failed.place
  rw [index, passes.index_eq]
  cases taken with
  | cons first others => exact Nat.lt_add_of_pos_right (Nat.succ_pos _)
  | nil =>
    have same : state.current.kind = reached.current.kind := by
      rw [ParseState.current_kind, ParseState.current_kind, passes.rest, List.nil_append]
    exact absurd rfl (word (by rwa [same, ← token]))

/-- A word that has been taken for an operand starts no attempt. -/
theorem Rounds.index_ne_of_notAnOperand
    (rounds : Rounds state (earlier ++ made :: later) last) (ready : Ready state)
    (failed : Failed made.before report made.after)
    (isWord : startsTopLevel report.token.kind = true) (unfit : report.problem = .notAnOperand) :
    ∀ other ∈ earlier ++ made :: later, other.before.index ≠ report.index := by
  have increasing := rounds.increasing ready
  rw [List.pairwise_append, List.pairwise_cons] at increasing
  obtain ⟨-, ⟨after, -⟩, before⟩ := increasing
  have further := failed.index_lt isWord
  have taken : report.index < made.after.index := by
    rcases failed.keyword isWord with ⟨-, taken⟩ | ⟨fit, -⟩
    · exact taken
    · exact absurd unfit fit
  intro other mem
  rcases List.mem_append.mp mem with isEarlier | mem
  · have progress := (rounds.made ready other mem).progress
    have order := before other isEarlier made List.mem_cons_self
    omega
  · rcases List.mem_cons.mp mem with rfl | isLater
    · omega
    · have order := after other isLater
      omega

/-- A word that has been reported but not taken starts the next attempt, which keeps the statement
that starts with the word, if there is one. -/
theorem Rounds.next_of_word
    (rounds : Rounds (.ofTokens tokens) (earlier ++ made :: later) last)
    (atEnd : last.current.kind = .endOfInput) (failed : Failed made.before report made.after)
    (isWord : startsTopLevel report.token.kind = true) (other : report.problem ≠ .notAnOperand) :
    ∃ next others, later = next :: others ∧ next.before.index = report.index ∧
      next.before.current = report.token ∧
      ∀ segment rest value, tokens.drop report.index = segment ++ rest →
        IsTopLevel segment value → next.found = some value := by
  have ready := ready_ofTokens tokens
  have within := ParseState.within_ofTokens tokens
  obtain ⟨before, inside, attempted, others⟩ := rounds.split
  have within' := within.of_leadsTo (before.leadsTo ready)
  have ready' := (before.ready_last ready).next inside attempted
  have withinAfter := within'.of_leadsTo failed.leadsTo
  rcases failed.keyword isWord with ⟨unfit, -⟩ | ⟨-, index, sound⟩
  · exact absurd unfit other
  have current : made.after.current = report.token := by
    rw [withinAfter.current_eq, index, (failed.token_eq within').2]
  have notEnd : made.after.current.kind ≠ .endOfInput :=
    current ▸ ne_endOfInput_of_startsTopLevel isWord
  obtain ⟨next, rest, rfl, here⟩ := others.exists_next atEnd notEnd
  obtain ⟨-, -, attempted', -⟩ := @Rounds.split _ _ [] rest next others
  refine ⟨next, rest, rfl, here ▸ index, here ▸ current, fun segment rest value shape form => ?_⟩
  rw [← index, withinAfter.drop_index, ← here] at shape
  exact found_of_isTopLevel (here ▸ sound) (here ▸ ready'.depth) attempted' shape form

end Parse

/-- The driver's next attempt after a report at a word that starts a statement at the top level
starts with this very word, and the statement that starts there is kept, if there is one; unless the
word has been taken and reported as no operand, and then no attempt starts with it. -/
theorem reported_word_starts_attempt (source : String) :
    ∃ attempts last, Rounds (.ofTokens (tokenize source)) attempts last ∧
      last.current.kind = .endOfInput ∧
      parseSource source = ⟨⟨attempts.filterMap Attempt.found⟩, last.reports⟩ ∧
      ∀ report ∈ (parseSource source).reports, startsTopLevel report.token.kind = true →
        ∃ earlier failed later, attempts = earlier ++ failed :: later ∧ failed.found = none ∧
          failed.after.reports = failed.before.reports ++ [report] ∧
          (report.problem = .notAnOperand →
            ∀ made ∈ attempts, made.before.index ≠ report.index) ∧
          (report.problem ≠ .notAnOperand →
            ∃ next others, later = next :: others ∧ next.before.index = report.index ∧
              next.before.current = report.token ∧
              ∀ segment rest value, (tokenize source).drop report.index = segment ++ rest →
                IsTopLevel segment value →
                next.found = some value ∧ value ∈ (parseSource source).program.statements) := by
  obtain ⟨attempts, last, rounds, atEnd, parsed⟩ := exists_rounds_of_tokens (tokenize source)
  have ready := ready_ofTokens (tokenize source)
  refine ⟨attempts, last, rounds, atEnd, parsed, fun report isReport isWord => ?_⟩
  rw [parseSource, parsed] at isReport ⊢
  rcases rounds.mem_reports ready isReport with none | ⟨made, isMade, failed⟩
  · cases none
  have notFound : made.found = none := by
    rcases (rounds.made ready made isMade).gives with ⟨value, -, same⟩ | ⟨-, notFound, -⟩
    · simp [failed.reported] at same
    · exact notFound
  obtain ⟨earlier, later, rfl⟩ := List.append_of_mem isMade
  refine ⟨earlier, made, later, rfl, notFound, failed.reported, ?_, fun other => ?_⟩
  · exact rounds.index_ne_of_notAnOperand ready failed isWord
  · obtain ⟨next, others, rfl, index, current, keeps⟩ :=
      rounds.next_of_word atEnd failed isWord other
    refine ⟨next, others, rfl, index, current, fun segment rest value shape form => ?_⟩
    have found := keeps segment rest value shape form
    exact ⟨found, List.mem_filterMap.mpr ⟨next, by simp, found⟩⟩

/-- A word that starts a statement, in the place of the result of a function: it is taken and
reported, and its statement is not kept. -/
theorem using_lost_after_arrow :
    ∃ report ∈ (parseSource "fn a() -> int => using io;").reports,
      startsTopLevel report.token.kind = true ∧
      ∃ segment rest value,
        (tokenize "fn a() -> int => using io;").drop report.index = segment ++ rest ∧
        IsTopLevel segment value ∧
        value ∉ (parseSource "fn a() -> int => using io;").program.statements := by
  have reports : (parseSource "fn a() -> int => using io;").reports =
      [⟨7, ⟨.kwUsing, "using", ⟨1, 18⟩⟩, .notAnOperand⟩] := by decide +kernel
  have nothing : (parseSource "fn a() -> int => using io;").program.statements.length = 0 := by
    decide +kernel
  have shape : (tokenize "fn a() -> int => using io;").drop 7 =
      [⟨.kwUsing, "using", ⟨1, 18⟩⟩, ⟨.identifier, "io", ⟨1, 24⟩⟩, ⟨.semicolon, ";", ⟨1, 26⟩⟩] ++
        [.endAt ⟨1, 27⟩] := by decide +kernel
  rw [List.length_eq_zero_iff] at nothing
  rw [reports, nothing]
  exact ⟨_, List.mem_cons_self, rfl, _, _, _, shape, .usingNamespace rfl rfl rfl,
    List.not_mem_nil⟩

end BraceLang
