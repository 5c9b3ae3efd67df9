/-
# Looking ahead

A cursor can be moved by five kinds of steps, in any order, and remembers a token that has
been looked at.  It gives what a plain list of the items of its line would give
(`GoesThrough`): what is taken from it are the items in their order, none twice and none
left out, and each step is about the first item that has not been taken (`answerTo`).
That goes on until a step takes the end of the line or meets a lexical error; behind that
there is nothing but an end of line at the end of the text (`goesThrough_items`).

A cursor is followed through two states.  In front of the step that ends the reading it has
items left (`Reading`), behind it it has none (`AtEnd`); each step is shown to lead from one
of these to the right one, and runs are done by induction on the steps.

For a step in front of a token there is one lemma for each kind of step and each way that it
can go (`Reading.peek`, `Reading.advance`, `Reading.nextIf_of_accept`, …); together they say
that the step is about this token and takes it or leaves it (`Reading.step_of_token`).
-/

import Reckoner.Proofs.Lexing.Place
import Reckoner.Token.Cursor.Upcoming

namespace Reckoner
namespace Cursor

/-- What a step says: it gives a token, finds that there is none to give, or fails. -/
abbrev Answer := Except ParseError (Option Token)

namespace Step

/-- What a step says in front of an item.  A lexical error is what every step says; a token is given
by the three steps that ask nothing of it, and by the other two if it is the right one. -/
def answerTo : Step → Item → Answer
  | _, .error error => .error (.lexical error)
  | .peek, .ok token | .advance, .ok token | .next, .ok token => .ok (some token)
  | .nextIf accept, .ok token => .ok (if accept token.kind then some token else none)
  | .expect symbol, .ok token =>
    if token.kind = .symbol symbol then .ok (some token)
    else .error (.grammar ⟨.symbolWanted symbol, token.span⟩)

/-- What a step says to a cursor. -/
def answer (step : Step) (cursor : Cursor) : Answer :=
  match step.run cursor with
  | .ok found _ => .ok found
  | .error error _ => .error error

/-- The token that a step has taken if it said this.  Looking at a token takes none; each
other step that gives a token takes it. -/
def taken? : Step → Answer → Option Token
  | .peek, _ => none
  | _, .ok found => found
  | _, .error _ => none

/-- Whether reading ends with a step that said this: it has taken the end of the line, or has
met a lexical error. -/
def Ends (step : Step) (answer : Answer) : Prop :=
  (∃ token, step.taken? answer = some token ∧ token.kind = .endOfLine) ∨
    ∃ error, answer = .error (.lexical error)

end Step

/-- What some steps say, one after the other. -/
def answers (cursor : Cursor) : List Step → List (Step × Answer)
  | [] => []
  | step :: steps => (step, step.answer cursor) :: answers (stateAfter (step.run cursor)) steps

/-- Where some steps lead. -/
def behind (cursor : Cursor) (steps : List Step) : Cursor :=
  steps.foldl (fun cursor step => stateAfter (step.run cursor)) cursor

/-- The tokens that some steps take. -/
def takenBy (cursor : Cursor) (steps : List Step) : List Token :=
  (cursor.answers steps).filterMap fun entry => entry.1.taken? entry.2

/-- Whether reading ends with one of some steps. -/
def EndsWithin (cursor : Cursor) (steps : List Step) : Prop :=
  ∃ entry ∈ cursor.answers steps, entry.1.Ends entry.2

/-- **How steps go through the items of a line,** from its start. -/
structure GoesThrough (line : Line) (found : List Item) : Prop where
  /-- Until reading ends, what has been taken are the first items, and the next step is about
  the item behind them. -/
  inFront : ∀ (steps : List Step) (step : Step), ¬ (ofLine line).EndsWithin steps →
    ∃ item later, found = ((ofLine line).takenBy steps).map .ok ++ item :: later ∧
      step.answer ((ofLine line).behind steps) = step.answerTo item
  /-- With the step that ends the reading, too, the first items have been taken. -/
  inOrder : ∀ (steps : List Step) (step : Step), ¬ (ofLine line).EndsWithin steps →
    ((ofLine line).takenBy (steps ++ [step])).map .ok <+: found
  /-- From then on there is an end of line at the end of the text. -/
  behindEnd : ∀ (steps : List Step) (step : Step), (ofLine line).EndsWithin steps →
    step = .peek ∨ step = .advance →
    step.answer ((ofLine line).behind steps) =
      .ok (some ⟨.endOfLine, [], byteLength line.text⟩)

section Runs

variable (cursor : Cursor) (step : Step) (steps : List Step)

/-- One step more gives one answer more, from where the others have led. -/
theorem answers_append_singleton :
    cursor.answers (steps ++ [step]) =
      cursor.answers steps ++ [(step, step.answer (cursor.behind steps))] := by
  induction steps generalizing cursor with
  | nil => rfl
  | cons first steps ih => rw [List.cons_append, answers, ih]; rfl

/-- The tokens that are taken are those of the first step and of the steps behind it. -/
theorem takenBy_cons :
    cursor.takenBy (step :: steps) =
      (step.taken? (step.answer cursor)).toList ++
        (stateAfter (step.run cursor)).takenBy steps := by
  rw [takenBy, answers, List.filterMap_cons]
  cases step.taken? (step.answer cursor) <;> rfl

/-- One step more takes the token that its answer says, if any. -/
theorem takenBy_append_singleton :
    cursor.takenBy (steps ++ [step]) =
      cursor.takenBy steps ++ (step.taken? (step.answer (cursor.behind steps))).toList := by
  rw [takenBy, answers_append_singleton, List.filterMap_append, List.filterMap_cons]
  cases step.taken? (step.answer (cursor.behind steps)) <;> rfl

/-- An end is found at the first step or at one of those behind it. -/
theorem endsWithin_cons :
    cursor.EndsWithin (step :: steps) ↔
      step.Ends (step.answer cursor) ∨ (stateAfter (step.run cursor)).EndsWithin steps := by
  rw [EndsWithin, answers]
  simp only [List.mem_cons, or_and_right, exists_or, exists_eq_left]
  rfl

end Runs

/-- **What every step keeps** is kept all the way. -/
theorem behind_of_keeps {property : Cursor → Prop} {cursor : Cursor}
    (hkeeps : ∀ step : Step, Keeps property step.run) (h : property cursor) (steps : List Step) :
    property (cursor.behind steps) := by
  induction steps generalizing cursor with
  | nil => exact h
  | cons step steps ih => exact ih (hkeeps step cursor h)

/-! ## The two states of a cursor -/

/-- Whether reading goes on in front of some items. -/
structure Reading (line : Line) (cursor : Cursor) (left : List Item) : Prop where
  /-- The parts of the cursor fit together. -/
  inPlace : InPlace line cursor
  /-- The items are in front. -/
  upcoming_eq : cursor.upcoming = left
  /-- Unless a token is held back there is something to read. -/
  unfinished : cursor.peeked = none → cursor.finished = false

/-- Whether reading has ended. -/
structure AtEnd (line : Line) (cursor : Cursor) : Prop where
  /-- The parts of the cursor fit together. -/
  inPlace : InPlace line cursor
  /-- There is nothing more to read. -/
  finished : cursor.finished = true
  /-- What is held back, if anything, is an end of line at the end of the text. -/
  peeked : ∀ token, cursor.peeked = some token → token = ⟨.endOfLine, [], byteLength line.text⟩

variable {line : Line} {cursor after : Cursor} {token : Token} {item : Item} {later : List Item}

/-- The cursor at the start of a line has all its items in front. -/
theorem reading_ofLine (line : Line) : Reading line (ofLine line) (items line.text) :=
  ⟨inPlace_ofLine line, upcoming_ofLine line, fun _ => rfl⟩

/-! ## Behind the end -/

/-- At the end of a line an empty end of line is in front, and nothing else. -/
theorem AtEnd.upcoming_eq (h : AtEnd line cursor) :
    cursor.upcoming = [.ok ⟨.endOfLine, [], byteLength line.text⟩] := by
  cases hp : cursor.peeked with
  | none =>
    have hrest := h.inPlace.rest_eq h.finished
    have hoffset := h.inPlace.offset_add
    rw [hrest, byteLength_nil, Nat.add_zero] at hoffset
    rw [upcoming_of_peeked_none hp, hrest, hoffset, itemsFrom_eq, scan]
    rfl
  | some token =>
    rw [upcoming_of_peeked_some hp, h.peeked token hp]
    rfl

/-- Looking at the next token does not lead away from the end of a line. -/
theorem keeps_atEnd_peek : Keeps (AtEnd line) peek := by
  intro cursor h
  obtain ⟨after, hpeek, hp, -⟩ := peek_of_token h.upcoming_eq
  have hin := keeps_inPlace_peek cursor h.inPlace
  rw [hpeek] at hin ⊢
  refine ⟨hin, (hin.hasRead _ hp).finished_iff.2 rfl, fun token heq => ?_⟩
  exact Option.some.inj (heq.symm.trans hp)

/-- Taking a token does not lead away from the end of a line. -/
theorem keeps_atEnd_advance : Keeps (AtEnd line) advance := by
  intro cursor h
  obtain ⟨after, hadvance, hp, -⟩ := advance_of_token h.upcoming_eq
  have hin := keeps_inPlace_advance cursor h.inPlace
  have hread := h.inPlace.hasRead_of_advance hadvance
  rw [hadvance] at hin ⊢
  exact ⟨hin, hread.finished_iff.2 rfl, fun token heq => by rw [stateAfter, hp] at heq; cases heq⟩

/-- **Behind the end there is only the end,** whatever is tried. -/
theorem keeps_atEnd (step : Step) : Keeps (AtEnd line) step.run :=
  step.keeps keeps_atEnd_peek keeps_atEnd_advance fun _ h =>
    ⟨h.inPlace.take, h.finished, fun token heq => by cases heq⟩

/-- **No steps lead away from the end of a line.** -/
theorem AtEnd.behind (h : AtEnd line cursor) (steps : List Step) :
    AtEnd line (cursor.behind steps) :=
  behind_of_keeps keeps_atEnd h steps

/-- There the next token is an end of line at the end of the text. -/
theorem AtEnd.answer_eq (h : AtEnd line cursor) {step : Step}
    (hstep : step = .peek ∨ step = .advance) :
    step.answer cursor = .ok (some ⟨.endOfLine, [], byteLength line.text⟩) := by
  rcases hstep with rfl | rfl
  · obtain ⟨after, hpeek, -⟩ := peek_of_token h.upcoming_eq
    rw [Step.answer, Step.run, map_of_ok some hpeek]
  · obtain ⟨after, hadvance, -⟩ := advance_of_token h.upcoming_eq
    rw [Step.answer, Step.run, map_of_ok some hadvance]

/-! ## In front of the end -/

/-- Where a cursor is when a token has been taken from in front of some items. -/
structure HasTaken (line : Line) (token : Token) (later : List Item) (after : Cursor) : Prop where
  /-- With the end of the line reading ends. -/
  atEnd : token.kind = .endOfLine → AtEnd line after
  /-- Behind any other token it goes on with the items behind. -/
  reading : token.kind ≠ .endOfLine → Reading line after later

/-- A look at the next token holds it back and leaves it in front. -/
theorem Reading.peek (h : Reading line cursor (.ok token :: later)) :
    ∃ after, Cursor.peek cursor = .ok token after ∧ after.peeked = some token ∧
      Reading line after (.ok token :: later) := by
  obtain ⟨after, hpeek, hp, hup⟩ := peek_of_token h.upcoming_eq
  have hin := keeps_inPlace_peek cursor h.inPlace
  rw [hpeek] at hin
  exact ⟨after, hpeek, hp, hin, hup, fun hnone => by rw [hp] at hnone; cases hnone⟩

/-- The next token is taken, whether it was held back or not. -/
theorem Reading.advance (h : Reading line cursor (.ok token :: later)) :
    ∃ after, Cursor.advance cursor = .ok token after ∧ HasTaken line token later after := by
  obtain ⟨after, hadvance, hp, hup⟩ := advance_of_token h.upcoming_eq
  have hin := keeps_inPlace_advance cursor h.inPlace
  have hread := h.inPlace.hasRead_of_advance hadvance
  rw [hadvance] at hin
  refine ⟨after, hadvance, fun hkind => ⟨hin, hread.finished_iff.2 hkind, fun token heq => ?_⟩,
    fun hkind => ⟨hin, hup hkind, fun _ => ?_⟩⟩
  · rw [hp] at heq
    cases heq
  · exact Bool.eq_false_iff.2 fun hf => hkind (hread.finished_iff.1 hf)

/-- A token that has been looked at is taken without reading on. -/
theorem Reading.take (h : Reading line cursor (.ok token :: later))
    (hp : cursor.peeked = some token) :
    HasTaken line token later { cursor with peeked := none } := by
  obtain ⟨after, hadvance, htaken⟩ := h.advance
  rw [Cursor.advance, hp] at hadvance
  cases hadvance
  exact htaken

/-- While reading goes on there is a next token to give. -/
theorem Reading.next (h : Reading line cursor (.ok token :: later)) :
    ∃ after, Cursor.next cursor = .ok (some token) after ∧ HasTaken line token later after := by
  obtain ⟨after, hadvance, htaken⟩ := h.advance
  -- A finished line whose end has only been looked at still has that end to give.
  have hnot : ¬ (cursor.peeked.isNone && cursor.finished) = true := by
    rw [Bool.and_eq_true, Option.isNone_iff_eq_none]
    rintro ⟨hp, hf⟩
    rw [h.unfinished hp] at hf
    cases hf
  exact ⟨after, by rw [Cursor.next, if_neg hnot, hadvance], htaken⟩

/-- A token of a kind that is accepted is taken. -/
theorem Reading.nextIf_of_accept (h : Reading line cursor (.ok token :: later))
    {accept : Token.Kind → Bool} (ha : accept token.kind) :
    ∃ after, nextIf accept cursor = .ok (some token) after ∧ HasTaken line token later after := by
  obtain ⟨peeked, hpeek, hp, hpeeked⟩ := h.peek
  refine ⟨{ peeked with peeked := none }, ?_, hpeeked.take hp⟩
  rw [nextIf, bind_of_ok hpeek, if_pos ha]
  rfl

/-- A token of any other kind is looked at and stays in front. -/
theorem Reading.nextIf_of_not_accept (h : Reading line cursor (.ok token :: later))
    {accept : Token.Kind → Bool} (ha : ¬ accept token.kind) :
    ∃ after, nextIf accept cursor = .ok none after ∧ Reading line after (.ok token :: later) := by
  obtain ⟨peeked, hpeek, -, hpeeked⟩ := h.peek
  refine ⟨peeked, ?_, hpeeked⟩
  rw [nextIf, bind_of_ok hpeek, if_neg ha]
  rfl

/-- The symbol that is expected is taken. -/
theorem Reading.expect_of_eq (h : Reading line cursor (.ok token :: later)) {symbol : Symbol}
    (hs : token.kind = .symbol symbol) :
    ∃ after, expect symbol cursor = .ok token after ∧ HasTaken line token later after := by
  obtain ⟨peeked, hpeek, -, hpeeked⟩ := h.peek
  obtain ⟨after, hadvance, htaken⟩ := hpeeked.advance
  refine ⟨after, ?_, htaken⟩
  rw [expect, bind_of_ok hpeek, if_pos hs, hadvance]

/-- Any other token is judged and stays in front. -/
theorem Reading.expect_of_ne (h : Reading line cursor (.ok token :: later)) {symbol : Symbol}
    (hs : token.kind ≠ .symbol symbol) :
    ∃ after, expect symbol cursor = .error (.grammar ⟨.symbolWanted symbol, token.span⟩) after ∧
      Reading line after (.ok token :: later) := by
  obtain ⟨peeked, hpeek, -, hpeeked⟩ := h.peek
  refine ⟨peeked, ?_, hpeeked⟩
  rw [expect, bind_of_ok hpeek, if_neg hs]
  rfl

/-- **In front of a token** a step says what it has to, and takes the token or leaves it. -/
theorem Reading.step_of_token (h : Reading line cursor (.ok token :: later)) (step : Step) :
    step.answer cursor = step.answerTo (.ok token) ∧
      ((step.taken? (step.answerTo (.ok token)) = none ∧
          Reading line (stateAfter (step.run cursor)) (.ok token :: later)) ∨
        step.taken? (step.answerTo (.ok token)) = some token ∧
          HasTaken line token later (stateAfter (step.run cursor))) := by
  cases step with
  | peek =>
    obtain ⟨after, hpeek, -, hafter⟩ := h.peek
    rw [Step.answer, Step.run, map_of_ok some hpeek]
    exact ⟨rfl, .inl ⟨rfl, hafter⟩⟩
  | advance =>
    obtain ⟨after, hadvance, hafter⟩ := h.advance
    rw [Step.answer, Step.run, map_of_ok some hadvance]
    exact ⟨rfl, .inr ⟨rfl, hafter⟩⟩
  | next =>
    obtain ⟨after, hnext, hafter⟩ := h.next
    rw [Step.answer, Step.run, hnext]
    exact ⟨rfl, .inr ⟨rfl, hafter⟩⟩
  | nextIf accept =>
    by_cases ha : accept token.kind
    · obtain ⟨after, hnext, hafter⟩ := h.nextIf_of_accept ha
      rw [Step.answer, Step.run, hnext, Step.answerTo, if_pos ha]
      exact ⟨rfl, .inr ⟨rfl, hafter⟩⟩
    · obtain ⟨after, hnext, hafter⟩ := h.nextIf_of_not_accept ha
      rw [Step.answer, Step.run, hnext, Step.answerTo, if_neg ha]
      exact ⟨rfl, .inl ⟨rfl, hafter⟩⟩
  | expect symbol =>
    by_cases hs : token.kind = .symbol symbol
    · obtain ⟨after, hexpect, hafter⟩ := h.expect_of_eq hs
      rw [Step.answer, Step.run, map_of_ok some hexpect, Step.answerTo, if_pos hs]
      exact ⟨rfl, .inr ⟨rfl, hafter⟩⟩
    · obtain ⟨after, hexpect, hafter⟩ := h.expect_of_ne hs
      rw [Step.answer, Step.run, map_of_error some hexpect, Step.answerTo, if_neg hs]
      exact ⟨rfl, .inl ⟨rfl, hafter⟩⟩

/-- **In front of a lexical error** every step fails with it, and reading ends. -/
theorem Reading.step_of_error {error : LexicalError}
    (h : Reading line cursor (.error error :: later)) (step : Step) :
    step.run cursor = .error (.lexical error) cursor.skipRest ∧ AtEnd line cursor.skipRest := by
  have hp := peeked_of_error h.upcoming_eq
  have hadvance := advance_of_error h.upcoming_eq
  refine ⟨?_, h.inPlace.skipRest hp, rfl, fun token heq => ?_⟩
  · cases step with
    | peek => exact map_of_error some (peek_of_error h.upcoming_eq)
    | advance => exact map_of_error some hadvance
    | next => rw [Step.run, Cursor.next, hp, h.unfinished hp, hadvance]; rfl
    | nextIf accept => exact bind_peek_of_error h.upcoming_eq
    | expect symbol => exact map_of_error some (bind_peek_of_error h.upcoming_eq)
  · rw [Cursor.skipRest, hp] at heq
    cases heq

/-! ## Runs -/

/-- What is said of a token is no lexical error. -/
theorem Step.answerTo_ne_lexical (step : Step) (token : Token) (error : LexicalError) :
    step.answerTo (.ok token) ≠ .error (.lexical error) := by
  intro h
  cases step with
  | peek => cases h
  | advance => cases h
  | next => cases h
  | nextIf accept => cases h
  | expect symbol =>
    rw [answerTo] at h
    split at h <;> cases h

/-- What a step takes is what it is about. -/
theorem Step.taken?_answerTo (step : Step) (item : Item) :
    (step.taken? (step.answerTo item)).toList.map .ok <+: [item] := by
  cases item with
  | error error => cases step <;> exact List.nil_prefix
  | ok token =>
    cases step with
    | peek => exact List.nil_prefix
    | advance => exact List.prefix_rfl
    | next => exact List.prefix_rfl
    | nextIf accept =>
      rw [answerTo]
      split
      · exact List.prefix_rfl
      · exact List.nil_prefix
    | expect symbol =>
      rw [answerTo]
      split
      · exact List.prefix_rfl
      · exact List.nil_prefix

/-- A step is about the first item that is left. -/
theorem Reading.answer_eq (h : Reading line cursor (item :: later)) (step : Step) :
    step.answer cursor = step.answerTo item := by
  cases item with
  | ok token => exact (h.step_of_token step).1
  | error error => rw [Step.answer, (h.step_of_error step).1, Step.answerTo]

/-- **A step ends the reading,** or what it takes and what it leaves are what was left. -/
theorem Reading.step {left : List Item} (h : Reading line cursor left) (step : Step) :
    (step.Ends (step.answer cursor) ∧ AtEnd line (stateAfter (step.run cursor))) ∨
      ¬ step.Ends (step.answer cursor) ∧
        ∃ rest, left = (step.taken? (step.answer cursor)).toList.map .ok ++ rest ∧
          Reading line (stateAfter (step.run cursor)) rest := by
  obtain ⟨item, later, rfl⟩ :=
    List.exists_cons_of_ne_nil (h.upcoming_eq ▸ upcoming_ne_nil cursor)
  rw [h.answer_eq step]
  cases item with
  | error error =>
    obtain ⟨hrun, hend⟩ := h.step_of_error step
    rw [hrun]
    exact .inl ⟨.inr ⟨error, rfl⟩, hend⟩
  | ok token =>
    have hnot : ¬ ∃ error, step.answerTo (.ok token) = .error (.lexical error) :=
      fun ⟨error, herror⟩ => step.answerTo_ne_lexical token error herror
    rcases (h.step_of_token step).2 with ⟨htaken, hafter⟩ | ⟨htaken, hafter⟩
    · right
      rw [Step.Ends, htaken]
      refine ⟨?_, _, rfl, hafter⟩
      rintro (⟨other, hother, -⟩ | herror)
      · cases hother
      · exact hnot herror
    · rw [Step.Ends, htaken]
      by_cases hkind : token.kind = .endOfLine
      · exact .inl ⟨.inl ⟨token, rfl, hkind⟩, hafter.atEnd hkind⟩
      · right
        refine ⟨?_, _, rfl, hafter.reading hkind⟩
        rintro (⟨other, hother, hkind'⟩ | herror)
        · cases hother
          exact hkind hkind'
        · exact hnot herror

/-- **Steps end the reading,** or what they take and what they leave are what was left.  The
induction is on the steps; once one of them has ended the reading, the others do not lead away from
the end. -/
theorem Reading.run {left : List Item} (h : Reading line cursor left) (steps : List Step) :
    (cursor.EndsWithin steps ∧ AtEnd line (cursor.behind steps)) ∨
      ¬ cursor.EndsWithin steps ∧
        ∃ rest, left = (cursor.takenBy steps).map .ok ++ rest ∧
          Reading line (cursor.behind steps) rest := by
  -- Once a step has ended the reading, `AtEnd.behind` takes the rest of them.
  induction steps generalizing cursor left with
  | nil => exact .inr ⟨fun ⟨_, hmem, _⟩ => List.not_mem_nil hmem, left, rfl, h⟩
  | cons step steps ih =>
    rw [endsWithin_cons, takenBy_cons]
    rcases h.step step with ⟨hends, hend⟩ | ⟨hends, rest, rfl, hrest⟩
    · exact .inl ⟨.inl hends, hend.behind steps⟩
    · rcases ih hrest with ⟨hends', hend⟩ | ⟨hends', rest', rfl, hrest'⟩
      · exact .inl ⟨.inr hends', hend⟩
      · refine .inr ⟨fun h => h.elim hends hends', rest', ?_, hrest'⟩
        rw [List.map_append, List.append_assoc]

/-- **The steps of a cursor go through the items of its line.**  As long as reading goes on there is
a first item that is left, and the next step is about it. -/
theorem goesThrough_items (line : Line) : GoesThrough line (items line.text) := by
  have hstart := reading_ofLine line
  have hinFront : ∀ (steps : List Step) (step : Step), ¬ (ofLine line).EndsWithin steps →
      ∃ item later, items line.text = ((ofLine line).takenBy steps).map .ok ++ item :: later ∧
        step.answer ((ofLine line).behind steps) = step.answerTo item := by
    intro steps step hends
    rcases hstart.run steps with ⟨hends', -⟩ | ⟨-, rest, hrest, hreading⟩
    · exact absurd hends' hends
    · obtain ⟨item, later, rfl⟩ :=
        List.exists_cons_of_ne_nil (hreading.upcoming_eq ▸ upcoming_ne_nil _)
      exact ⟨item, later, hrest, hreading.answer_eq step⟩
  refine ⟨hinFront, fun steps step hends => ?_, fun steps step hends hstep => ?_⟩
  · obtain ⟨item, later, hitems, hanswer⟩ := hinFront steps step hends
    rw [takenBy_append_singleton, hanswer, hitems, List.map_append]
    exact List.prefix_append_right_inj _ |>.2
      ((step.taken?_answerTo item).trans (List.prefix_append [item] later))
  · rcases hstart.run steps with ⟨-, hend⟩ | ⟨hends', -⟩
    · exact hend.answer_eq hstep
    · exact absurd hends hends'

/-- **A cursor that looks ahead is a cursor over the items of its line.**  Whatever the steps,
they go through the items that it gives if tokens are taken from it until there are none. -/
theorem exists_goesThrough (line : Line) :
    ∃ (tokens : List Token) (last : Item),
      (∀ found, Yields (ofLine line) found ↔ found = tokens.map .ok ++ [last]) ∧
      Item.IsLast last ∧ (∀ token ∈ tokens, token.kind ≠ .endOfLine) ∧
      GoesThrough line (tokens.map .ok ++ [last]) := by
  obtain ⟨tokens, last, hitems, hreads⟩ := exists_readsOn line.text [] line.text rfl
  have hyields : ∀ found, Yields (ofLine line) found ↔ found = tokens.map .ok ++ [last] := by
    intro found
    rw [yields_iff, items]
    exact hitems ▸ Iff.rfl
  have hthrough := goesThrough_items line
  rw [items, show 0 = byteLength [] from rfl, hitems] at hthrough
  exact ⟨tokens, last, hyields, hreads.isLast.1, hreads.isLast.2, hthrough⟩

/-- Looking twice, a wrong expectation and a wrong guess take nothing, and the end can be taken
again and again. -/
example : (ofLine ⟨none, ['4', ' ', '*', '\n']⟩).takenBy
    [.peek, .peek, .advance, .expect .plus, .nextIf (· == .endOfLine), .next, .advance, .advance] =
    [⟨.number 4, ['4'], 0⟩, ⟨.symbol .asterisk, ['*'], 2⟩, ⟨.endOfLine, ['\n'], 3⟩,
      ⟨.endOfLine, [], 4⟩] := by
  decide +kernel

end Cursor
end Reckoner
