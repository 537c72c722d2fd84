import BraceLang.Proofs.DriverRun
import BraceLang.Proofs.MaximalMunch

/-!
Reports in source order. In a state from which the driver goes on, all reported tokens are behind
the cursor, except that the last one may be the word at the cursor, which starts the next statement
and which that statement does not report (`InOrder`). So each failed attempt reports a token further
on, and since tokens stand one after another in their source text, so do the diagnostics.
-/
namespace BraceLang

namespace Parse

variable {state after last : ParseState} {attempts : List Attempt} {report : Report}
  {buffer tokens : List Token}

/-- The reported token is the one at the index of the report. -/
theorem Failed.token_eq (failed : Failed state report after) (within : state.Within buffer) :
    report.index ≤ buffer.length ∧ report.token = tokenAt buffer report.index := by
  obtain ⟨taken, reached, -, passes, index, token, -⟩ := failed.place
  have within' := within.of_passes passes
  have whole := within'.index_add_length
  rw [index, token]
  exact ⟨by omega, within'.current_eq⟩

/-- In a buffer that the end of input closes, nothing past it is reported. -/
theorem Failed.index_le_of_ends (failed : Failed state report after) {final : Token}
    (within : state.Within (tokens ++ [final])) (ends : final.kind = .endOfInput)
    (inside : state.current.kind ≠ .endOfInput) : report.index ≤ tokens.length := by
  obtain ⟨taken, reached, free, passes, index, -, -⟩ := failed.place
  rw [index]
  exact within.index_le_of_endFree ends inside free passes

/-- Reports are about tokens further and further on, and while none is open, about tokens behind the
cursor; only a word at the cursor that starts the next statement may have been reported. -/
structure InOrder (state : ParseState) : Prop where
  increasing : state.reports.Pairwise (·.index < ·.index)
  behind : state.panicking = false → ∀ report ∈ state.reports,
    report.index < state.index ∨
      (report.index = state.index ∧ startsTopLevel state.current.kind = true)

theorem InOrder.of_kept {value : Statement} (inOrder : InOrder state)
    (sound : state.panicking = false) (kept : Kept state value after) : InOrder after := by
  have further := kept.progress
  obtain ⟨segment, -, -, passes⟩ := kept.passes
  refine ⟨passes.reports ▸ inOrder.increasing, fun _ report mem => .inl ?_⟩
  rcases inOrder.behind sound report (passes.reports ▸ mem) with behind | ⟨here, -⟩ <;> omega

theorem InOrder.of_failed (inOrder : InOrder state) (sound : state.panicking = false)
    (failed : Failed state report after) : InOrder after := by
  have earlier : ∀ other ∈ state.reports, other.index < report.index := by
    intro other mem
    obtain ⟨taken, reached, -, passes, index, -, word⟩ := failed.place
    rw [index, passes.index_eq]
    rcases inOrder.behind sound other mem with behind | ⟨here, starts⟩
    · omega
    · -- the word at the cursor has been reported, and the attempt that starts with it takes it
      have := List.length_pos_iff.mpr (word starts)
      omega
  have upTo := failed.index_le
  constructor
  · rw [failed.reported, List.pairwise_append]
    exact ⟨inOrder.increasing, List.pairwise_singleton .., by simpa using earlier⟩
  · intro calm other mem
    rw [failed.reported, List.mem_append, List.mem_singleton] at mem
    rcases mem with mem | rfl
    · have := earlier other mem
      exact .inl (by omega)
    · rcases failed.recovered calm with behind | starts
      · exact .inl behind
      · by_cases here : other.index = after.index
        · exact .inr ⟨here, starts⟩
        · exact .inl (by omega)

theorem Rounds.inOrder (rounds : Rounds state attempts last) (ready : Ready state)
    (inOrder : InOrder state) : InOrder last := by
  revert inOrder
  refine rounds.ready_induction ready ?_ ?_ ?_
  · exact fun _ => id
  · exact fun sound _ kept _ ih inOrder => ih (inOrder.of_kept sound kept)
  · exact fun sound _ failed _ ih inOrder => ih (inOrder.of_failed sound failed)

/-- Each attempt gives one statement or one report. -/
theorem Rounds.length_add_length (rounds : Rounds state attempts last) (ready : Ready state) :
    (attempts.filterMap Attempt.found).length + last.reports.length =
      state.reports.length + attempts.length := by
  refine rounds.ready_induction ready ?_ ?_ ?_
  · intro state _
    simp
  · intro state value after attempts last _ _ kept _ ih
    obtain ⟨segment, -, -, passes⟩ := kept.passes
    rw [passes.reports] at ih
    simp only [List.filterMap_cons, List.length_cons]
    omega
  · intro state report after attempts last _ _ failed _ ih
    rw [failed.reported, List.length_append, List.length_singleton] at ih
    simp only [List.filterMap_cons, List.length_cons]
    omega

/-- A report of a run is about the token at its index. -/
theorem Rounds.reports_placed (rounds : Rounds (.ofTokens tokens) attempts last) :
    ∀ report ∈ last.reports,
      report.index ≤ tokens.length ∧ report.token = tokenAt tokens report.index := by
  have ready := ready_ofTokens tokens
  intro report mem
  rcases rounds.mem_reports ready mem with none | ⟨made, isMade, failed⟩
  · cases none
  · have within := ParseState.within_ofTokens tokens
    exact failed.token_eq (within.of_leadsTo (rounds.made ready made isMade).leadsTo)

/-- In a buffer that the end of input closes, each report is about a token of the buffer. -/
theorem Rounds.reports_index_lt {final : Token}
    (rounds : Rounds (.ofTokens (tokens ++ [final])) attempts last)
    (ends : final.kind = .endOfInput) :
    ∀ report ∈ last.reports, report.index < (tokens ++ [final]).length := by
  have ready := ready_ofTokens (tokens ++ [final])
  intro report mem
  rcases rounds.mem_reports ready mem with none | ⟨made, isMade, failed⟩
  · cases none
  · have within := ParseState.within_ofTokens (tokens ++ [final])
    have facts := rounds.made ready made isMade
    have upTo := failed.index_le_of_ends (within.of_leadsTo facts.leadsTo) ends facts.inside
    rw [List.length_append]
    exact Nat.lt_succ_of_le upTo

/-- What an attempt gives. -/
theorem MadeFrom.gives {made : Attempt} (isMade : MadeFrom state made) :
    (∃ value, made.found = some value ∧ made.after.reports = made.before.reports) ∨
      ∃ report, made.found = none ∧ made.after.reports = made.before.reports ++ [report] := by
  rcases isMade.outcome with ⟨value, found, kept⟩ | ⟨found, report, failed⟩
  · obtain ⟨segment, -, -, passes⟩ := kept.passes
    exact .inl ⟨value, found, passes.reports⟩
  · exact .inr ⟨report, found, failed.reported⟩

end Parse

/-- One place comes before another one in reading order. -/
def Position.Before (first second : Position) : Prop :=
  first.row < second.row ∨ (first.row = second.row ∧ first.col < second.col)

namespace Position

theorem Before.trans {first second third : Position} (before : first.Before second)
    (before' : second.Before third) : first.Before third := by
  unfold Before at *
  omega

end Position

theorem Piece.token?_position {piece : Piece} {position : Position} {token : Token}
    (covers : piece.token? position = some token) : token.position = position := by
  unfold Piece.token? at covers
  split at covers <;> cases covers <;> rfl

end BraceLang
