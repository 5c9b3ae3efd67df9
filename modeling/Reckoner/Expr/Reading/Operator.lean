/-
# Steps of the cursor inside a reading

What a part of a reading does is decided by the first upcoming item, in whatever state that holds
a cursor.  A token that is looked at stays in front (`peek_of_token`), a lexical error is the error
of the part that needs the token in its place (`bind_peek_of_error`), and a token is taken as an
operator just when its class is the one that is asked for and there is still room for an operator
(`nextOperator_of_some`, `nextOperator_of_full`).
-/

import Reckoner.Expr.Reading
import Reckoner.Token.Cursor.Upcoming

namespace Reckoner
namespace Grammar

open HoldsCursor (cursor moveTo operators count)

/-- If a token is an operator of a class, it is a symbol. -/
theorem eq_symbol_of_select {select : Symbol → Option Operator} {kind : Token.Kind}
    {operator : Operator} (h : kind.symbol?.bind select = some operator) :
    ∃ s, kind = .symbol s ∧ select s = some operator := by
  cases kind with
  | symbol s => exact ⟨s, rfl, h⟩
  | number _ => cases h
  | endOfLine => cases h

section Steps

variable {σ α : Type} [HoldsCursor σ] (state : σ) {token : Token} {error : LexicalError}
  {later : List Item}

/-- A step of the cursor that succeeds moves the cursor of the state and nothing else. -/
theorem liftM_of_ok {action : Cursor.Action α} {a : α} {moved : Cursor}
    (h : action (cursor state) = .ok a moved) :
    (liftM action : EStateM ParseError σ α) state = .ok a (moveTo state moved) := by
  change onCursor action state = _
  rw [onCursor, h]

/-- A step of the cursor that fails moves it all the same. -/
theorem liftM_of_error {action : Cursor.Action α} {error : ParseError} {moved : Cursor}
    (h : action (cursor state) = .error error moved) :
    (liftM action : EStateM ParseError σ α) state = .error error (moveTo state moved) := by
  change onCursor action state = _
  rw [onCursor, h]

/-- **Looking at a token** leaves it in front. -/
theorem peek_of_token (h : (cursor state).upcoming = .ok token :: later) :
    ∃ moved, (liftM Cursor.peek : EStateM ParseError σ Token) state =
        .ok token (moveTo state moved) ∧
      moved.upcoming = .ok token :: later := by
  obtain ⟨moved, hpeek, -, hup⟩ := Cursor.peek_of_token h
  exact ⟨moved, liftM_of_ok state hpeek, hup⟩

/-- A part that looks at the next token first fails at a lexical error. -/
theorem bind_peek_of_error {next : Token → EStateM ParseError σ α}
    (h : (cursor state).upcoming = .error error :: later) :
    ((liftM Cursor.peek : EStateM ParseError σ Token) >>= next) state =
      .error (.lexical error) (moveTo state (cursor state).skipRest) :=
  bind_eq_error_iff.2 (.inl (liftM_of_error state (Cursor.peek_of_error h)))

/-! ## Operators -/

variable {select : Symbol → Option Operator} {operator : Operator}

/-- A token that is no operator of the class stays in front. -/
theorem nextOperator_of_none (h : (cursor state).upcoming = .ok token :: later)
    (hs : token.kind.symbol?.bind select = none) :
    ∃ moved, nextOperator select state = .ok none (moveTo state moved) ∧
      moved.upcoming = .ok token :: later := by
  obtain ⟨moved, hnext, hup⟩ := @Cursor.nextIf_of_not_accept
    (fun kind => (kind.symbol?.bind select).isSome) _ _ _ h (by simp [hs])
  exact ⟨moved, bind_eq_ok_iff.2 ⟨none, _, liftM_of_ok state hnext, rfl⟩, hup⟩

/-- A lexical error in the place of an operator is the error of the reading. -/
theorem nextOperator_of_error (h : (cursor state).upcoming = .error error :: later) :
    nextOperator select state =
      .error (.lexical error) (moveTo state (cursor state).skipRest) :=
  bind_eq_error_iff.2 (.inl (liftM_of_error state (Cursor.bind_peek_of_error h)))

/-- **An operator is taken and counted** before it is refused, if it is. -/
theorem exists_nextOperator (h : (cursor state).upcoming = .ok token :: later)
    (hs : token.kind.symbol?.bind select = some operator) :
    ∃ moved : Cursor, moved.upcoming = later ∧
      nextOperator select state =
        (if maxOperators < operators state + 1 then refuse .tooManyOperators token
          else pure (some operator) : EStateM ParseError σ (Option Operator))
        (count (moveTo state moved) token) := by
  obtain ⟨moved, hnext, hup⟩ := @Cursor.nextIf_of_accept
    (fun kind => (kind.symbol?.bind select).isSome) _ _ _ h (by simp [hs])
  obtain ⟨s, hkind, -⟩ := eq_symbol_of_select hs
  refine ⟨moved, hup (by simp [hkind]), ?_⟩
  have hcount : operators (count (moveTo state moved) token) = operators state + 1 := by
    rw [HoldsCursor.operators_count, HoldsCursor.operators_moveTo]
  rw [← hs, ← hcount]
  exact bind_of_ok (liftM_of_ok state hnext)

/-- An operator that there is room for is given. -/
theorem nextOperator_of_some (h : (cursor state).upcoming = .ok token :: later)
    (hs : token.kind.symbol?.bind select = some operator)
    (hlt : operators state < maxOperators) :
    ∃ moved : Cursor, moved.upcoming = later ∧
      nextOperator select state = .ok (some operator) (count (moveTo state moved) token) := by
  obtain ⟨moved, hup, hnext⟩ := exists_nextOperator state h hs
  rw [if_neg (by omega)] at hnext
  exact ⟨moved, hup, hnext⟩

/-- **An operator beyond the limit** is refused where it stands, and has been taken. -/
theorem nextOperator_of_full (h : (cursor state).upcoming = .ok token :: later)
    (hs : token.kind.symbol?.bind select = some operator)
    (hfull : ¬ operators state < maxOperators) :
    ∃ moved : Cursor, moved.upcoming = later ∧
      nextOperator select state =
        .error (.grammar ⟨.tooManyOperators, token.span⟩) (count (moveTo state moved) token) := by
  obtain ⟨moved, hup, hnext⟩ := exists_nextOperator state h hs
  rw [if_pos (by omega)] at hnext
  exact ⟨moved, hup, hnext⟩

end Steps

end Grammar
end Reckoner
