import BraceLang.Proofs.ReportOrder

/-!
The statements that are kept from a buffer with problems. Each of them has been read from a segment
of the buffer, the segments stand one after another, and a segment alone is read as its statement
without a problem: nothing of the state that earlier problems leave behind has gone into it. No
report is about a token inside of a segment, past its first one (`Rounds.parted`).
-/
namespace BraceLang

/-- A stretch of a token buffer, from one index up to another one. -/
structure Span where
  start : Nat
  stop : Nat
  nonempty : start < stop

namespace Span

/-- The tokens of a buffer that a stretch covers. -/
def of (span : Span) (buffer : List Token) : List Token :=
  (buffer.take span.stop).drop span.start

/-- Holds of the indices outside of a stretch, and of the first one in it. -/
def Spares (span : Span) (index : Nat) : Prop :=
  index ≤ span.start ∨ span.stop ≤ index

end Span

/-- A segment that is passed is what the stretch between the two cursors covers. -/
theorem ParseState.Passes.of_span {state after : ParseState} {segment buffer : List Token}
    (passes : state.Passes segment after) (within : state.Within buffer)
    (nonempty : state.index < after.index) :
    (⟨state.index, after.index, nonempty⟩ : Span).of buffer = segment := by
  have behind : state.before.reverse.length = state.index := by
    rw [List.length_reverse]
    exact state.cursor.index_eq.symm
  have upTo : (state.before.reverse ++ segment).length = after.index := by
    rw [List.length_append, behind, passes.index_eq]
  rw [Span.of, ← within.whole, passes.rest, ← List.append_assoc]
  dsimp only
  rw [← upTo, List.take_left, ← behind, List.drop_left]

namespace Parse

variable {state after last : ParseState} {attempts : List Attempt} {report : Report}
  {buffer tokens : List Token} {final : Token} {spans : List Span}

/-- How a run of the driver divides a buffer that the end of input closes. -/
structure Parted (tokens : List Token) (state : ParseState) (attempts : List Attempt)
    (last : ParseState) (spans : List Span) : Prop where
  increasing : spans.Pairwise (·.stop ≤ ·.start)
  from_state : ∀ span ∈ spans, state.index ≤ span.start
  inside : ∀ span ∈ spans, span.stop ≤ tokens.length
  forms : List.Forall₂ (fun span value => IsTopLevel (span.of tokens) value) spans
    (attempts.filterMap Attempt.found)
  /-- What is reported on the way is reported outside of the segments or at the first token of
  one. -/
  apart : ∀ report ∈ last.reports, report ∈ state.reports ∨
    (state.index ≤ report.index ∧ ∀ span ∈ spans, span.Spares report.index)

theorem Parted.of_kept {value : Statement} (parted : Parted tokens after attempts last spans)
    (within : state.Within (tokens ++ [final])) (ends : final.kind = .endOfInput)
    (inside : state.current.kind ≠ .endOfInput) (kept : Kept state value after) :
    Parted tokens state (⟨state, some value, after⟩ :: attempts) last
      (⟨state.index, after.index, kept.progress⟩ :: spans) := by
  have further := kept.progress
  obtain ⟨segment, free, form, passes⟩ := kept.passes
  have upTo := within.index_le_of_endFree ends inside free passes
  constructor
  · exact List.pairwise_cons.mpr ⟨parted.from_state, parted.increasing⟩
  · refine List.forall_mem_cons.mpr ⟨Nat.le_refl _, fun span mem => ?_⟩
    exact Nat.le_trans (Nat.le_of_lt further) (parted.from_state span mem)
  · exact List.forall_mem_cons.mpr ⟨upTo, parted.inside⟩
  · have covered := passes.of_span within further
    rw [Span.of, List.take_append_of_le_length upTo] at covered
    rw [List.filterMap_cons]
    refine .cons ?_ parted.forms
    rwa [Span.of, covered]
  · intro report mem
    rcases parted.apart report mem with earlier | ⟨later, spared⟩
    · exact .inl (passes.reports ▸ earlier)
    · refine .inr ⟨Nat.le_trans (Nat.le_of_lt further) later, ?_⟩
      exact List.forall_mem_cons.mpr ⟨.inr later, spared⟩

theorem Parted.of_failed (parted : Parted tokens after attempts last spans)
    (failed : Failed state report after) :
    Parted tokens state (⟨state, none, after⟩ :: attempts) last spans := by
  have further := failed.progress
  have atMost := failed.index_le
  have atLeast : state.index ≤ report.index := by
    obtain ⟨taken, reached, -, passes, index, -, -⟩ := failed.place
    rw [index, passes.index_eq]
    exact Nat.le_add_right ..
  have fromState : ∀ span ∈ spans, state.index ≤ span.start := fun span mem =>
    Nat.le_trans (Nat.le_of_lt further) (parted.from_state span mem)
  refine ⟨parted.increasing, fromState, parted.inside, parted.forms, fun other mem => ?_⟩
  -- what the attempt reports stands between its two cursors, and all segments are past the second
  rcases parted.apart other mem with earlier | ⟨later, spared⟩
  · rw [failed.reported, List.mem_append, List.mem_singleton] at earlier
    rcases earlier with earlier | rfl
    · exact .inl earlier
    · exact .inr ⟨atLeast, fun span mem => .inl (Nat.le_trans atMost (parted.from_state span mem))⟩
  · exact .inr ⟨by omega, spared⟩

theorem Rounds.parted (rounds : Rounds state attempts last) (ready : Ready state)
    (within : state.Within (tokens ++ [final])) (ends : final.kind = .endOfInput) :
    ∃ spans, Parted tokens state attempts last spans := by
  revert within
  refine rounds.ready_induction ready ?_ ?_ ?_
  · exact fun _ _ => ⟨[], .nil, nofun, nofun, .nil, fun _ => .inl⟩
  · intro state value after attempts last _ inside kept _ ih within
    obtain ⟨spans, parted⟩ := ih (within.of_leadsTo kept.leadsTo)
    exact ⟨_, parted.of_kept within ends inside kept⟩
  · intro state report after attempts last _ _ failed _ ih within
    obtain ⟨spans, parted⟩ := ih (within.of_leadsTo failed.leadsTo)
    exact ⟨spans, parted.of_failed failed⟩

end Parse

/-- A statement at the top level is read alone. -/
theorem parseTokens_of_isTopLevel {segment : List Token} {statement : Statement} {final : Token}
    (form : IsTopLevel segment statement) (ends : final.kind = .endOfInput) :
    parseTokens (segment ++ [final]) = ⟨⟨[statement]⟩, []⟩ := by
  have whole : IsProgram segment ⟨[statement]⟩ := by simpa [IsProgram] using Many.cons form .nil
  exact parseTokens_of_isProgram whole ends

/-- The statements that are kept from a buffer, whatever problems it has, are read from segments of
it that stand one after another. Each segment is read alone as its statement, without a problem; and
each report is about a token outside of all segments, or about the first one of a segment. -/
theorem kept_statements_parse_alone {tokens : List Token} {final : Token}
    (ends : final.kind = .endOfInput) :
    ∃ spans : List Span,
      spans.Pairwise (fun first second => first.stop ≤ second.start) ∧
      (∀ span ∈ spans, span.stop ≤ tokens.length) ∧
      List.Forall₂ (fun span statement => ∀ closing : Token, closing.kind = .endOfInput →
          parseTokens (span.of tokens ++ [closing]) = ⟨⟨[statement]⟩, []⟩)
        spans (parseTokens (tokens ++ [final])).program.statements ∧
      ∀ report ∈ (parseTokens (tokens ++ [final])).reports,
        (tokens ++ [final])[report.index]? = some report.token ∧
        ((∀ span ∈ spans, report.index < span.start ∨ span.stop ≤ report.index) ∨
          ∃ span ∈ spans, report.index = span.start) := by
  obtain ⟨attempts, last, rounds, -, parsed⟩ := exists_rounds_of_tokens (tokens ++ [final])
  have ready := Parse.ready_ofTokens (tokens ++ [final])
  obtain ⟨spans, parted⟩ := rounds.parted ready (ParseState.within_ofTokens _) ends
  rw [parsed]
  refine ⟨spans, parted.increasing, parted.inside, ?_, fun report mem => ⟨?_, ?_⟩⟩
  · exact parted.forms.imp fun span statement form closing closes =>
      parseTokens_of_isTopLevel form closes
  · rw [(rounds.reports_placed report mem).2, tokenAt,
      List.getElem?_eq_getElem (rounds.reports_index_lt ends report mem), Option.getD_some]
  · rcases parted.apart report mem with none | ⟨-, spared⟩
    · cases none
    by_cases isFirst : ∃ span ∈ spans, report.index = span.start
    · exact .inr isFirst
    · refine .inl fun span isSpan => ?_
      rcases spared span isSpan with upTo | past
      · exact .inl (Nat.lt_of_le_of_ne upTo fun same => isFirst ⟨span, isSpan, same⟩)
      · exact .inr past

/-- A word that starts a statement where a name is missing: it is reported, and its statement is
kept. -/
theorem kept_using_after_namespace :
    let token (kind : TokenKind) (text : String) : Token := ⟨kind, text, .start⟩
    let tokens : List Token := [token .kwNamespace "namespace", token .kwUsing "using",
      token .identifier "a", token .semicolon ";"]
    ∃ span : Span, span.stop ≤ 4 ∧
      (∀ closing : Token, closing.kind = .endOfInput →
        parseTokens (span.of tokens ++ [closing]) = ⟨⟨[.usingNamespace "a"]⟩, []⟩) ∧
      (1 < span.start ∨ span.stop ≤ 1 ∨ 1 = span.start) := by
  intro token tokens
  have rounds : Parse.Rounds (.ofTokens (tokens ++ [.endAt .start])) _ _ :=
    .step (by decide) rfl (.step (by decide) rfl (.refl _))
  have parsed := parseTokens_of_rounds rounds rfl
  have statements : (parseTokens (tokens ++ [.endAt .start])).program.statements =
      [.usingNamespace "a"] := congrArg (·.program.statements) parsed
  have indices : (parseTokens (tokens ++ [.endAt .start])).reports.map Report.index = [1] :=
    congrArg (·.reports.map Report.index) parsed
  obtain ⟨spans, -, inside, alone, apart⟩ :=
    @kept_statements_parse_alone tokens (.endAt .start) rfl
  rw [statements] at alone
  cases alone with
  | @cons span _ spans _ reads others =>
    cases others
    obtain ⟨report, isReport, index⟩ := List.mem_map.mp (indices ▸ List.mem_singleton.mpr rfl)
    have placed := (apart report isReport).2
    simp only [List.mem_singleton, forall_eq, exists_eq_left] at inside placed
    rw [index] at placed
    exact ⟨span, inside, reads, or_assoc.mp placed⟩

end BraceLang
