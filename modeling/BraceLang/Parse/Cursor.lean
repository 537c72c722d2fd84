import BraceLang.Token.Basic

/-!
A place in a token buffer. The buffer is split at the cursor, so that no cursor is outside of its
buffer; the numbers of tokens on either side are kept beside the tokens and always agree with
them.
-/
namespace BraceLang

/-- A place in a token buffer. -/
structure Cursor where
  /-- The tokens before the cursor, the nearest first. -/
  before : List Token
  /-- The tokens from the cursor on. -/
  rest : List Token
  /-- The index of the cursor in the buffer. -/
  index : Nat
  /-- The number of tokens from the cursor to the end of the buffer. -/
  remaining : Nat
  index_eq : index = before.length
  remaining_eq : remaining = rest.length
  deriving DecidableEq, Repr

namespace Cursor

/-- The cursor between the tokens before it, the nearest first, and those from it on. -/
def between (before rest : List Token) : Cursor :=
  ⟨before, rest, before.length, rest.length, rfl, rfl⟩

/-- The cursor at the start of a buffer. -/
def ofTokens (tokens : List Token) : Cursor :=
  between [] tokens

/-- The cursor one token further. At the end of the buffer it stays where it is. -/
def advance (cursor : Cursor) : Cursor :=
  match shape : cursor.rest with
  | [] => cursor
  | token :: rest =>
    { before := token :: cursor.before
      rest
      index := cursor.index + 1
      remaining := cursor.remaining - 1
      index_eq := by rw [cursor.index_eq, List.length_cons]
      remaining_eq := by rw [cursor.remaining_eq, shape, List.length_cons, Nat.add_sub_cancel] }

/-- The cursor after the run of tokens in `p` that it stands before. -/
def skipWhile (p : Token → Bool) (cursor : Cursor) : Cursor :=
  let skipped := cursor.rest.takeWhile p
  { before := skipped.reverse ++ cursor.before
    rest := cursor.rest.dropWhile p
    index := cursor.index + skipped.length
    remaining := cursor.remaining - skipped.length
    index_eq := by simp [cursor.index_eq, skipped, Nat.add_comm]
    remaining_eq := by
      have whole := congrArg List.length (cursor.rest.takeWhile_append_dropWhile (p := p))
      rw [List.length_append, ← cursor.remaining_eq] at whole
      exact (Nat.eq_sub_of_add_eq' whole).symm }

/-- A cursor is determined by the tokens on either side of it. -/
theorem eq_of_tokens {first second : Cursor} (before : first.before = second.before)
    (rest : first.rest = second.rest) : first = second := by
  cases first
  cases second
  simp_all

theorem advance_nil {cursor : Cursor} (shape : cursor.rest = []) : cursor.advance = cursor := by
  unfold advance
  split
  · rfl
  · simp_all

theorem advance_cons {cursor : Cursor} {token : Token} {rest : List Token}
    (shape : cursor.rest = token :: rest) :
    cursor.advance = between (token :: cursor.before) rest := by
  unfold advance
  split
  · simp_all
  · rename_i other tail found
    obtain ⟨rfl, rfl⟩ := List.cons.inj (shape.symm.trans found)
    exact eq_of_tokens rfl rfl

end Cursor

end BraceLang
