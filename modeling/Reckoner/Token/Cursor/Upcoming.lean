/-
# What is in front of a cursor

`upcoming` is everything that a cursor is going to find: the token that has been
looked at, if any, and the items of the rest.  It is the only thing about a
cursor on which its steps depend: `peek` gives the first upcoming item and
leaves the upcoming items as they are (`peek_of_token`), `advance` gives the
first and goes on to those behind it (`advance_of_token`), and an error in front
is what both of them fail with (`peek_of_error`, `advance_of_error`).  Each other
step is one or both of these.

An end of line in front is a case of its own: it is the last item, and a cursor
that has taken it has an end of line in front again, which is why the lemmas on
taking say what comes behind only of other tokens.
-/

import Reckoner.Action
import Reckoner.Token.Cursor

namespace Reckoner
namespace Cursor

/-- The items that a cursor has not taken. -/
def upcoming (cursor : Cursor) : List Item :=
  match cursor.peeked with
  | none => itemsFrom cursor.offset cursor.rest
  | some token =>
    if token.kind = .endOfLine then [.ok token]
    else .ok token :: itemsFrom cursor.offset cursor.rest

/-- In front of a new cursor is its whole line. -/
@[simp] theorem upcoming_ofLine (line : Line) : (ofLine line).upcoming = items line.text := rfl

/-- Where no token is held back, what comes is what the rest is read as. -/
theorem upcoming_of_peeked_none {cursor : Cursor} (h : cursor.peeked = none) :
    cursor.upcoming = itemsFrom cursor.offset cursor.rest := by
  rw [upcoming, h]

/-- A token that is held back comes first; behind an end of line nothing comes. -/
theorem upcoming_of_peeked_some {cursor : Cursor} {token : Token}
    (h : cursor.peeked = some token) :
    cursor.upcoming =
      if token.kind = .endOfLine then [.ok token]
      else .ok token :: itemsFrom cursor.offset cursor.rest := by
  rw [upcoming, h]

/-- Something is always in front: at the end it is the end of the line. -/
theorem upcoming_ne_nil (cursor : Cursor) : cursor.upcoming ≠ [] := by
  cases h : cursor.peeked with
  | none => rw [upcoming_of_peeked_none h]; exact itemsFrom_ne_nil _ _
  | some token => rw [upcoming_of_peeked_some h]; split <;> simp

/-- Reading a token moves on to the items behind it.  Nothing comes behind an end
of line. -/
theorem fetch_of_token {cursor : Cursor} {token : Token} {later : List Item}
    (h : itemsFrom cursor.offset cursor.rest = .ok token :: later) :
    ∃ after, fetch cursor = .ok token after ∧ after.peeked = cursor.peeked ∧
      (token.kind = .endOfLine → later = []) ∧
      (token.kind ≠ .endOfLine → itemsFrom after.offset after.rest = later) := by
  rw [itemsFrom_eq] at h
  unfold fetch
  cases hscan : scan cursor.offset cursor.rest with
  | error error =>
    rw [hscan] at h
    simp at h
  | ok result =>
    obtain ⟨found, rest⟩ := result
    rw [hscan] at h
    by_cases hend : found.kind = .endOfLine
    · obtain ⟨rfl, rfl⟩ : found = token ∧ [] = later := by simpa [hend] using h
      exact ⟨cursor.skipRest, by simp [hend], rfl, fun _ => rfl, fun hne => absurd hend hne⟩
    · obtain ⟨rfl, rfl⟩ : found = token ∧ _ = later := by simpa [hend] using h
      exact ⟨{ cursor with rest, offset := found.span.stop }, by simp [hend], rfl,
        fun heq => absurd heq hend, fun _ => rfl⟩

/-- Reading fails at an error. -/
theorem fetch_of_error {cursor : Cursor} {error : LexicalError} {later : List Item}
    (h : itemsFrom cursor.offset cursor.rest = .error error :: later) :
    fetch cursor = .error (.lexical error) cursor.skipRest := by
  rw [itemsFrom_eq] at h
  unfold fetch
  cases hscan : scan cursor.offset cursor.rest with
  | error found =>
    rw [hscan] at h
    obtain ⟨rfl, -⟩ : found = error ∧ _ := by simpa using h
    rfl
  | ok result =>
    rw [hscan] at h
    dsimp only at h
    split at h <;> simp at h

/-- **Looking at the next token** gives the first upcoming item and changes none
of them. -/
theorem peek_of_token {cursor : Cursor} {token : Token} {later : List Item}
    (h : cursor.upcoming = .ok token :: later) :
    ∃ after, peek cursor = .ok token after ∧ after.peeked = some token ∧
      after.upcoming = .ok token :: later := by
  unfold peek
  cases hp : cursor.peeked with
  | none =>
    rw [upcoming_of_peeked_none hp] at h
    obtain ⟨after, hfetch, -, hend, hlater⟩ := fetch_of_token h
    refine ⟨{ after with peeked := some token }, by simp [hfetch], rfl, ?_⟩
    rw [upcoming_of_peeked_some rfl]
    split
    · next heq => rw [hend heq]
    · next hne => rw [← hlater hne]
  | some found =>
    have hup := upcoming_of_peeked_some hp
    rw [h] at hup
    have : found = token := by
      split at hup <;> simp_all
    subst this
    exact ⟨cursor, rfl, hp, h⟩

/-- What has been looked at is no error. -/
theorem peeked_of_error {cursor : Cursor} {error : LexicalError} {later : List Item}
    (h : cursor.upcoming = .error error :: later) : cursor.peeked = none := by
  cases hp : cursor.peeked with
  | none => rfl
  | some found =>
    rw [upcoming_of_peeked_some hp] at h
    split at h <;> cases h

/-- Looking at the next token fails at an error. -/
theorem peek_of_error {cursor : Cursor} {error : LexicalError} {later : List Item}
    (h : cursor.upcoming = .error error :: later) :
    peek cursor = .error (.lexical error) cursor.skipRest := by
  have hp := peeked_of_error h
  rw [upcoming_of_peeked_none hp] at h
  simp [peek, hp, fetch_of_error h]

/-- **Taking the next token** gives the first upcoming item and goes on to those
behind it. -/
theorem advance_of_token {cursor : Cursor} {token : Token} {later : List Item}
    (h : cursor.upcoming = .ok token :: later) :
    ∃ after, advance cursor = .ok token after ∧ after.peeked = none ∧
      (token.kind ≠ .endOfLine → after.upcoming = later) := by
  unfold advance
  cases hp : cursor.peeked with
  | none =>
    rw [upcoming_of_peeked_none hp] at h
    obtain ⟨after, hfetch, hpeeked, -, hlater⟩ := fetch_of_token h
    have hpeeked := hpeeked.trans hp
    exact ⟨after, hfetch, hpeeked, fun hne => (upcoming_of_peeked_none hpeeked).trans (hlater hne)⟩
  | some found =>
    have hup := upcoming_of_peeked_some hp
    rw [h] at hup
    split at hup
    · next hend =>
      obtain ⟨rfl, -⟩ : token = found ∧ _ := by simpa using hup
      exact ⟨{ cursor with peeked := none }, rfl, rfl, fun hne => absurd hend hne⟩
    · obtain ⟨rfl, rfl⟩ : token = found ∧ _ := by simpa using hup
      exact ⟨{ cursor with peeked := none }, rfl, rfl, fun _ => upcoming_of_peeked_none rfl⟩

/-- Taking the next token fails at an error. -/
theorem advance_of_error {cursor : Cursor} {error : LexicalError} {later : List Item}
    (h : cursor.upcoming = .error error :: later) :
    advance cursor = .error (.lexical error) cursor.skipRest := by
  have hp := peeked_of_error h
  rw [upcoming_of_peeked_none hp] at h
  simp [advance, hp, fetch_of_error h]

/-- An accepted token is taken. -/
theorem nextIf_of_accept {accept : Token.Kind → Bool} {cursor : Cursor} {token : Token}
    {later : List Item} (h : cursor.upcoming = .ok token :: later) (ha : accept token.kind) :
    ∃ after, nextIf accept cursor = .ok (some token) after ∧
      (token.kind ≠ .endOfLine → after.upcoming = later) := by
  obtain ⟨peeked, hpeek, hp, hup⟩ := peek_of_token h
  refine ⟨{ peeked with peeked := none }, ?_, fun hne => ?_⟩
  · refine bind_eq_ok_iff.2 ⟨token, peeked, hpeek, ?_⟩
    rw [if_pos ha]
    rfl
  · rw [upcoming_of_peeked_some hp, if_neg hne] at hup
    exact (upcoming_of_peeked_none rfl).trans (List.cons.inj hup).2

/-- A token that is not accepted stays in front. -/
theorem nextIf_of_not_accept {accept : Token.Kind → Bool} {cursor : Cursor} {token : Token}
    {later : List Item} (h : cursor.upcoming = .ok token :: later) (ha : ¬ accept token.kind) :
    ∃ after, nextIf accept cursor = .ok none after ∧ after.upcoming = .ok token :: later := by
  obtain ⟨peeked, hpeek, -, hup⟩ := peek_of_token h
  refine ⟨peeked, bind_eq_ok_iff.2 ⟨token, peeked, hpeek, ?_⟩, hup⟩
  rw [if_neg ha]
  rfl

/-- A required symbol is taken if it is in front. -/
theorem expect_of_eq {symbol : Symbol} {cursor : Cursor} {token : Token} {later : List Item}
    (h : cursor.upcoming = .ok token :: later) (hs : token.kind = .symbol symbol) :
    ∃ after, expect symbol cursor = .ok token after ∧ after.upcoming = later := by
  obtain ⟨peeked, hpeek, -, hup⟩ := peek_of_token h
  obtain ⟨after, hadvance, -, hlater⟩ := advance_of_token hup
  refine ⟨after, bind_eq_ok_iff.2 ⟨token, peeked, hpeek, ?_⟩, hlater (by simp [hs])⟩
  rw [if_pos hs, hadvance]

/-- Any other token in front of a required symbol is an error and stays there. -/
theorem expect_of_ne {symbol : Symbol} {cursor : Cursor} {token : Token} {later : List Item}
    (h : cursor.upcoming = .ok token :: later) (hs : token.kind ≠ .symbol symbol) :
    ∃ after, expect symbol cursor = .error (.grammar ⟨.symbolWanted symbol, token.span⟩) after ∧
      after.upcoming = .ok token :: later := by
  obtain ⟨peeked, hpeek, -, hup⟩ := peek_of_token h
  refine ⟨peeked, bind_eq_error_iff.2 (.inr ⟨token, peeked, hpeek, ?_⟩), hup⟩
  rw [if_neg hs]
  rfl

/-- A step that looks at the next token first fails where that fails. -/
theorem bind_peek_of_error {α : Type} {next : Token → Action α} {cursor : Cursor}
    {error : LexicalError} {later : List Item} (h : cursor.upcoming = .error error :: later) :
    (peek >>= next) cursor = .error (.lexical error) cursor.skipRest :=
  bind_eq_error_iff.2 (.inl (peek_of_error h))

end Cursor
end Reckoner
