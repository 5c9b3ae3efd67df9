/-
# Where a cursor stands

A cursor counts its offset, cuts off what it has read, and remembers a token that has been
looked at and whether the line is finished.  These go together after every step, also after
one that fails (`keeps_inPlace`): the rest is what comes behind the offset, a cursor that is
finished has nothing left, and a token that has been looked at stands in front of the
offset.

Every step looks at a token or takes one, so that a property of cursors which these two keep is
kept by all steps (`Step.keeps`).
-/

import Reckoner.Action
import Reckoner.Proofs.Lexing.Reading

namespace Reckoner
namespace Cursor

/-- Whether a token is one that has been read from in front of a cursor: nothing is left
behind an end of line, and behind no other token is the line finished. -/
structure HasRead (line : Line) (cursor : Cursor) (token : Token) : Prop where
  /-- Its literal stands at its offset. -/
  standsAt : StandsAt line.text token.offset token.literal
  /-- The cursor is behind it. -/
  stop_le : token.span.stop ≤ cursor.offset
  /-- It is the end of the line if there is nothing more to read. -/
  finished_iff : cursor.finished = true ↔ token.kind = .endOfLine

/-- What is remembered makes no difference to what has been read. -/
theorem HasRead.withPeeked {line : Line} {cursor : Cursor} {token : Token}
    (h : HasRead line cursor token) (peeked : Option Token) :
    HasRead line { cursor with peeked } token :=
  ⟨h.standsAt, h.stop_le, h.finished_iff⟩

/-- Whether the parts of a cursor over a line fit together. -/
structure InPlace (line : Line) (cursor : Cursor) : Prop where
  /-- The cursor is on this line. -/
  line_eq : cursor.line = line
  /-- The rest is what is behind the offset. -/
  split : ∃ front, line.text = front ++ cursor.rest ∧ byteLength front = cursor.offset
  /-- A finished cursor has no rest. -/
  rest_eq : cursor.finished = true → cursor.rest = []
  /-- A token that is held back has been read. -/
  hasRead : ∀ token, cursor.peeked = some token → HasRead line cursor token

/-- The start of a line is in place. -/
theorem inPlace_ofLine (line : Line) : InPlace line (ofLine line) where
  line_eq := rfl
  split := ⟨[], rfl, rfl⟩
  rest_eq h := by cases h
  hasRead token h := by cases h

variable {line : Line} {cursor after : Cursor} {token : Token}

/-- What is read and what is left make up the line. -/
theorem InPlace.offset_add (h : InPlace line cursor) :
    cursor.offset + byteLength cursor.rest = byteLength line.text := by
  obtain ⟨front, htext, hfront⟩ := h.split
  rw [htext, byteLength_append, hfront]

/-- Leaving out the rest leads to the end of the text, which is in place. -/
theorem InPlace.skipRest (h : InPlace line cursor) (hp : cursor.peeked = none) :
    InPlace line cursor.skipRest where
  line_eq := h.line_eq
  split := ⟨line.text, (List.append_nil _).symm, h.offset_add.symm⟩
  rest_eq _ := rfl
  hasRead token heq := by
    rw [Cursor.skipRest, hp] at heq
    cases heq

/-- A cursor can move on in its text. -/
theorem InPlace.moveOn (h : InPlace line cursor) (hp : cursor.peeked = none)
    (hf : cursor.finished = false) {front rest : List Char} (htext : line.text = front ++ rest) :
    InPlace line { cursor with rest, offset := byteLength front } where
  line_eq := h.line_eq
  split := ⟨front, htext, rfl⟩
  rest_eq heq := by
    rw [hf] at heq
    cases heq
  hasRead token heq := by
    rw [hp] at heq
    cases heq

/-- A token that has been read can be remembered. -/
theorem InPlace.remember (h : InPlace line cursor) (hread : HasRead line cursor token) :
    InPlace line { cursor with peeked := some token } where
  line_eq := h.line_eq
  split := h.split
  rest_eq := h.rest_eq
  hasRead token' heq := by
    cases heq
    exact hread.withPeeked _

/-- A token that has been looked at can be taken. -/
theorem InPlace.take (h : InPlace line cursor) : InPlace line { cursor with peeked := none } where
  line_eq := h.line_eq
  split := h.split
  rest_eq := h.rest_eq
  hasRead token heq := by cases heq

/-- What is scanned from the rest stands in the text behind a gap. -/
theorem InPlace.exists_scans (h : InPlace line cursor) :
    ∃ before literal rest, line.text = before ++ literal ++ rest ∧
      Scans (byteLength before) literal rest (scan cursor.offset cursor.rest) := by
  obtain ⟨front, htext, hfront⟩ := h.split
  obtain ⟨gap, literal, rest, hrest, -, hscans⟩ := scan_spec cursor.offset cursor.rest
  refine ⟨front ++ gap, literal, rest, ?_, ?_⟩
  · rw [htext, hrest]
    simp only [List.append_assoc]
  · rwa [byteLength_append, hfront]

/-- A finished cursor can only read an end of line. -/
theorem InPlace.finished_eq_false (h : InPlace line cursor) {rest : List Char}
    (hscan : scan cursor.offset cursor.rest = .ok (token, rest)) (hkind : token.kind ≠ .endOfLine) :
    cursor.finished = false := by
  cases hf : cursor.finished with
  | false => rfl
  | true =>
    rw [h.rest_eq hf, scan] at hscan
    cases hscan
    exact absurd rfl hkind

/-- **Reading a token** keeps a cursor in place, with this token in front of it. -/
theorem InPlace.fetch (h : InPlace line cursor) (hp : cursor.peeked = none) :
    InPlace line (stateAfter (fetch cursor)) ∧ (stateAfter (fetch cursor)).peeked = none ∧
      ∀ token after, Cursor.fetch cursor = .ok token after → HasRead line after token := by
  obtain ⟨before, literal, rest, htext, hscans⟩ := h.exists_scans
  unfold Cursor.fetch
  generalize hscan : scan cursor.offset cursor.rest = result at hscans ⊢
  cases hscans with
  | error => exact ⟨h.skipRest hp, hp, fun token after heq => by cases heq⟩
  | @ok token hitem =>
    obtain ⟨hoffset, hliteral⟩ := hitem.eq_of_ok
    have hstands : StandsAt line.text token.offset token.literal :=
      ⟨before, rest, by rw [htext, hliteral], hoffset.symm⟩
    have hstop : token.span.stop = byteLength (before ++ literal) := by
      rw [byteLength_append, ← hoffset, ← hliteral]
      rfl
    by_cases hkind : token.kind = .endOfLine
    · simp only [if_pos hkind]
      refine ⟨h.skipRest hp, hp, fun token' after heq => ?_⟩
      cases heq
      refine ⟨hstands, ?_, iff_of_true rfl hkind⟩
      rw [hstop, show cursor.skipRest.offset = byteLength line.text from h.offset_add, htext,
        byteLength_append (before ++ literal)]
      exact Nat.le_add_right _ _
    · -- A finished cursor has nothing left, so it could not have come to this token.
      have hunfinished := h.finished_eq_false hscan hkind
      have hmoved := h.moveOn hp hunfinished htext
      rw [← hstop] at hmoved
      simp only [if_neg hkind]
      refine ⟨hmoved, hp, fun token' after heq => ?_⟩
      cases heq
      exact ⟨hstands, Nat.le_refl _, iff_of_false (by simp [hunfinished]) hkind⟩

/-! ## Steps -/

/-- Looking at a token keeps a cursor in place. -/
theorem keeps_inPlace_peek : Keeps (InPlace line) peek := by
  intro cursor h
  unfold peek
  cases hp : cursor.peeked with
  | some token => exact h
  | none =>
    obtain ⟨hafter, -, hread⟩ := h.fetch hp
    dsimp only
    cases hfetch : fetch cursor with
    | error error after =>
      rw [hfetch] at hafter
      exact hafter
    | ok token after =>
      rw [hfetch] at hafter
      exact hafter.remember (hread token after hfetch)

/-- So does taking it. -/
theorem keeps_inPlace_advance : Keeps (InPlace line) advance := by
  intro cursor h
  unfold advance
  cases hp : cursor.peeked with
  | some token => exact h.take
  | none => exact (h.fetch hp).1

/-- A token that is taken has been read, be it just now or when it was looked at. -/
theorem InPlace.hasRead_of_advance (h : InPlace line cursor)
    (hrun : Cursor.advance cursor = .ok token after) : HasRead line after token := by
  unfold Cursor.advance at hrun
  cases hp : cursor.peeked with
  | some peeked =>
    rw [hp] at hrun
    cases hrun
    exact (h.hasRead token hp).withPeeked none
  | none =>
    rw [hp] at hrun
    exact (h.fetch hp).2.2 token after hrun

section Keeps

variable {property : Cursor → Prop}

/-- `next` keeps what `advance` keeps. -/
theorem keeps_next (hadvance : Keeps property advance) : Keeps property next := by
  intro cursor h
  have hafter := hadvance cursor h
  unfold next
  split
  · exact h
  · cases hrun : advance cursor with
    | ok token after => rwa [hrun] at hafter
    | error error after => rwa [hrun] at hafter

/-- What looking and dropping a token keep is kept where a token is taken if it is accepted. -/
theorem keeps_nextIf (hpeek : Keeps property peek)
    (htake : ∀ cursor, property cursor → property { cursor with peeked := none })
    (accept : Token.Kind → Bool) : Keeps property (nextIf accept) := by
  refine hpeek.bind fun token => ?_
  split
  -- An accepted token is taken by forgetting it, without going on.
  · exact Keeps.bind htake fun _ => keeps_pure _
  · exact keeps_pure _

/-- What looking and taking keep is kept where a symbol is expected. -/
theorem keeps_expect (hpeek : Keeps property peek) (hadvance : Keeps property advance)
    (symbol : Symbol) : Keeps property (expect symbol) := by
  refine hpeek.bind fun token => ?_
  split
  · exact hadvance
  · exact keeps_throw _

/-- **Every step keeps a property** that looking at a token and taking one keep, whether it has
been looked at or not. -/
theorem Step.keeps (hpeek : Keeps property Cursor.peek) (hadvance : Keeps property Cursor.advance)
    (htake : ∀ cursor, property cursor → property { cursor with peeked := none })
    (step : Step) : Keeps property step.run := by
  cases step with
  | peek => exact hpeek.map some
  | advance => exact hadvance.map some
  | next => exact keeps_next hadvance
  | nextIf accept => exact keeps_nextIf hpeek htake accept
  | expect symbol => exact (keeps_expect hpeek hadvance symbol).map some

end Keeps

/-- **Every step keeps a cursor in place,** whether it fails or not. -/
theorem keeps_inPlace (step : Step) : Keeps (InPlace line) step.run :=
  step.keeps keeps_inPlace_peek keeps_inPlace_advance fun _ h => h.take

end Cursor
end Reckoner
