/-
# Behind the end of a line

Behind the end of its line a cursor has nothing more to give, and `next` says so.  It goes on
saying so as long as nothing is looked at (`RunsOut.stays`), and then it gives the end of the
line once at most (`RunsOut.count_le`).  But a step that only looks finds an end of line there
as often as it is made, and what has been looked at is in front again: directly behind such a
step `next` gives an end of line once more (`RunsOut.next_eq`), also behind a lexical error
(`endsGiven_again`).

Whether a token is in front that has been looked at is known from the last step alone
(`isSome_peeked`): it is there if that step has left one.

How often an end is given is counted along the steps.  Behind the end each is paid for by the
token that is held back, which some step has left there (`AtEnd.endsGiven_le`), and in front of
the end one more comes from the step that takes the end of the line (`Reading.endsGiven_le`).
-/

import Reckoner.Proofs.Lexing.Lookahead

namespace Reckoner
namespace Cursor
namespace Step

/-- Whether a step that said this has looked at a token and left it in front. -/
def leaves : Step → Answer → Bool
  | .peek, .ok _ => true
  | .nextIf _, .ok none => true
  | .expect _, .error (.grammar _) => true
  | _, _ => false

/-- Whether a step that said this is a `next` that has given an end of line. -/
def givesEnd : Step → Answer → Bool
  | .next, .ok (some token) => decide (token.kind = .endOfLine)
  | _, _ => false

/-- Whether a step that said this has used up the line: it has met a lexical error, or it is a
`next` that has found nothing to give. -/
def UsesUp (step : Step) (answer : Answer) : Prop :=
  (step = .next ∧ answer = .ok none) ∨ ∃ error, answer = .error (.lexical error)

/-- The step that ends the reading leaves nothing. -/
theorem leaves_of_ends {step : Step} {answer : Answer} (h : step.Ends answer) :
    step.leaves answer = false := by
  rcases h with ⟨token, htaken, -⟩ | ⟨error, rfl⟩
  · cases step with
    | peek => cases htaken
    | advance => rfl
    | next => rfl
    | nextIf accept =>
      obtain rfl : answer = .ok (some token) := by
        cases answer with
        | ok found => exact congrArg _ htaken
        | error error => cases htaken
      rfl
    | expect symbol =>
      cases answer with
      | ok found => rfl
      | error error => cases htaken
  · cases step <;> rfl

/-- A `next` that gives an end of line ends the reading, or has come behind its end. -/
theorem ends_of_givesEnd {step : Step} {answer : Answer} (h : step.givesEnd answer = true) :
    step.Ends answer := by
  unfold givesEnd at h
  split at h
  · next token => exact .inl ⟨token, rfl, of_decide_eq_true h⟩
  · cases h

end Step

/-- Whether the last of some steps has left a token in front. -/
def leavesLast (cursor : Cursor) (steps : List Step) : Bool :=
  ((cursor.answers steps).getLast?.map fun entry => entry.1.leaves entry.2).getD false

/-- How often `next` gives an end of line in some steps. -/
def endsGiven (cursor : Cursor) (steps : List Step) : Nat :=
  (cursor.answers steps).countP fun entry => entry.1.givesEnd entry.2

/-- How many of some steps leave a token in front. -/
def looks (cursor : Cursor) (steps : List Step) : Nat :=
  (cursor.answers steps).countP fun entry => entry.1.leaves entry.2

/-- **How a line runs out,** whatever steps are made. -/
structure RunsOut (line : Line) : Prop where
  /-- Behind the end `next` gives an end of line if the step before has left one in front, and
  else nothing. -/
  next_eq : ∀ steps, (ofLine line).EndsWithin steps →
    Step.next.answer ((ofLine line).behind steps) =
      .ok (if (ofLine line).leavesLast steps then some ⟨.endOfLine, [], byteLength line.text⟩
        else none)
  /-- Once a line has been used up, `next` gives nothing as long as nothing is left in front. -/
  stays : ∀ front last more, Step.UsesUp last (last.answer ((ofLine line).behind front)) →
    ((ofLine line).behind (front ++ [last])).looks more = 0 →
    Step.next.answer ((ofLine line).behind (front ++ [last] ++ more)) = .ok none
  /-- `next` gives an end of line once at most, and once more at most for each step that leaves a
  token in front, where the steps in front of the end need not be counted. -/
  count_le : ∀ front more, ¬ (ofLine line).EndsWithin front →
    (ofLine line).endsGiven (front ++ more) ≤ 1 + ((ofLine line).behind front).looks more

/-! ## What is left in front -/

section Peeked

variable (cursor : Cursor)

/-- Looking at a token leaves it in front; where that fails nothing is left. -/
theorem peek_cases :
    (∃ token after, peek cursor = .ok token after ∧ after.peeked = some token) ∨
      ∃ error after, peek cursor = .error (.lexical error) after ∧ after.peeked = none := by
  obtain ⟨item, later, hup⟩ := List.exists_cons_of_ne_nil (upcoming_ne_nil cursor)
  cases item with
  | ok token =>
    obtain ⟨after, hpeek, hp, -⟩ := peek_of_token hup
    exact .inl ⟨token, after, hpeek, hp⟩
  | error error =>
    have hp : cursor.peeked = none := peeked_of_error hup
    exact .inr ⟨error, cursor.skipRest, peek_of_error hup, hp⟩

/-- Taking a token leaves nothing in front. -/
theorem peeked_of_advance : (stateAfter (advance cursor)).peeked = none := by
  obtain ⟨item, later, hup⟩ := List.exists_cons_of_ne_nil (upcoming_ne_nil cursor)
  cases item with
  | ok token =>
    obtain ⟨after, hadvance, hp, -⟩ := advance_of_token hup
    rw [hadvance]
    exact hp
  | error error =>
    have hp : cursor.peeked = none := peeked_of_error hup
    rw [advance_of_error hup]
    exact hp

/-- Behind `next` no token is held back. -/
theorem peeked_of_next : (stateAfter (next cursor)).peeked = none := by
  have hafter := peeked_of_advance cursor
  unfold next
  split
  · next h => exact Option.isNone_iff_eq_none.1 (Bool.and_eq_true_iff.1 h).1
  · cases hrun : advance cursor with
    | ok token after => rwa [hrun] at hafter
    | error error after => rwa [hrun] at hafter

/-- **What is in front behind a step is what the step has left.**  Each kind of step ends with a
token held back, or without one, and its answer tells which. -/
theorem isSome_peeked (step : Step) :
    (stateAfter (step.run cursor)).peeked.isSome = step.leaves (step.answer cursor) := by
  unfold Step.answer
  cases step with
  | peek =>
    rcases peek_cases cursor with ⟨token, after, hpeek, hp⟩ | ⟨error, after, hpeek, hp⟩
    · rw [Step.run, map_of_ok some hpeek]
      exact congrArg Option.isSome hp
    · rw [Step.run, map_of_error some hpeek]
      exact congrArg Option.isSome hp
  | advance =>
    have hp := peeked_of_advance cursor
    cases hrun : Cursor.advance cursor with
    | ok token after =>
      rw [hrun] at hp
      rw [Step.run, map_of_ok some hrun]
      exact congrArg Option.isSome hp
    | error error after =>
      rw [hrun] at hp
      rw [Step.run, map_of_error some hrun]
      exact congrArg Option.isSome hp
  | next =>
    have hp := peeked_of_next cursor
    rw [Step.run]
    cases hrun : Cursor.next cursor with
    | ok token after =>
      rw [hrun] at hp
      exact congrArg Option.isSome hp
    | error error after =>
      rw [hrun] at hp
      exact congrArg Option.isSome hp
  | nextIf accept =>
    -- An accepted token is dropped, and any other one stays where the look has put it.
    rw [Step.run, Cursor.nextIf]
    rcases peek_cases cursor with ⟨token, after, hpeek, hp⟩ | ⟨error, after, hpeek, hp⟩
    · rw [bind_of_ok hpeek]
      by_cases ha : accept token.kind
      · rw [if_pos ha]
        rfl
      · rw [if_neg ha]
        exact congrArg Option.isSome hp
    · rw [bind_of_error hpeek]
      exact congrArg Option.isSome hp
  | expect symbol =>
    -- The right symbol is taken; in front of another one the look is what is left.
    rw [Step.run, Cursor.expect]
    rcases peek_cases cursor with ⟨token, after, hpeek, hp⟩ | ⟨error, after, hpeek, hp⟩
    · by_cases hs : token.kind = .symbol symbol
      · have htaken : Cursor.advance after = .ok token { after with peeked := none } := by
          rw [Cursor.advance, hp]
        rw [map_of_ok some ((bind_of_ok hpeek).trans ((congrFun (if_pos hs) after).trans htaken))]
        rfl
      · rw [map_of_error some ((bind_of_ok hpeek).trans (congrFun (if_neg hs) after))]
        exact congrArg Option.isSome hp
    · rw [map_of_error some (bind_of_error hpeek)]
      exact congrArg Option.isSome hp

end Peeked

/-! ## Behind the end -/

section Runs

variable (cursor : Cursor) (first second : List Step)

/-- **Steps are made one after the other:** the second ones from where the first have led. -/
theorem behind_append : cursor.behind (first ++ second) = (cursor.behind first).behind second :=
  List.foldl_append

/-- The answers to the second steps are those of the cursor behind the first. -/
theorem answers_append :
    cursor.answers (first ++ second) =
      cursor.answers first ++ (cursor.behind first).answers second := by
  induction first generalizing cursor with
  | nil => rfl
  | cons step first ih =>
    rw [List.cons_append, answers, ih]
    rfl

/-- What is counted in a list is the first element, if it counts, and what is counted behind it. -/
theorem countP_cons_toNat {α : Type} (accepts : α → Bool) (a : α) (list : List α) :
    (a :: list).countP accepts = (accepts a).toNat + list.countP accepts := by
  rw [List.countP_cons, Nat.add_comm]
  cases accepts a <;> rfl

/-- The ends that are given are the one that the first step gives, if it does, and those given
behind it. -/
theorem endsGiven_cons (step : Step) :
    cursor.endsGiven (step :: second) = (step.givesEnd (step.answer cursor)).toNat +
      (stateAfter (step.run cursor)).endsGiven second :=
  countP_cons_toNat _ _ _

/-- The looks that leave an end in front are that of the first step, if it is one, and those behind
it. -/
theorem looks_cons (step : Step) :
    cursor.looks (step :: second) = (step.leaves (step.answer cursor)).toNat +
      (stateAfter (step.run cursor)).looks second :=
  countP_cons_toNat _ _ _

/-- What is in front behind some steps is what the last of them has left. -/
theorem isSome_peeked_behind (hp : cursor.peeked = none) (steps : List Step) :
    (cursor.behind steps).peeked.isSome = cursor.leavesLast steps := by
  rcases steps.eq_nil_or_concat with rfl | ⟨steps, step, rfl⟩
  · exact congrArg Option.isSome hp
  · rw [List.concat_eq_append, leavesLast, answers_append_singleton, List.getLast?_concat,
      behind_append]
    exact isSome_peeked (cursor.behind steps) step

/-- Steps that leave nothing in front leave nothing in front. -/
theorem peeked_behind_of_looks (hp : cursor.peeked = none) {steps : List Step}
    (hlooks : cursor.looks steps = 0) : (cursor.behind steps).peeked = none := by
  rw [← Option.isNone_iff_eq_none, ← Option.isSome_eq_false_iff, isSome_peeked_behind cursor hp,
    leavesLast]
  cases hlast : (cursor.answers steps).getLast? with
  | none => rfl
  | some entry =>
    exact Bool.eq_false_iff.2 (List.countP_eq_zero.1 hlooks entry (List.mem_of_getLast? hlast))

end Runs

variable {line : Line} {cursor : Cursor}

/-- Behind the end `next` gives what has been left in front, and this is an end of line. -/
theorem AtEnd.next_eq (h : AtEnd line cursor) :
    Step.next.answer cursor =
      .ok (if cursor.peeked.isSome then some ⟨.endOfLine, [], byteLength line.text⟩
        else none) := by
  unfold Step.answer
  rw [Step.run, Cursor.next]
  cases hp : cursor.peeked with
  | none => simp [h.finished]
  | some token =>
    obtain rfl := h.peeked token hp
    simp [Cursor.advance, hp]

/-- There no end is given but one that is in front already. -/
theorem AtEnd.toNat_givesEnd_le (h : AtEnd line cursor) (step : Step) :
    (step.givesEnd (step.answer cursor)).toNat ≤ cursor.peeked.isSome.toNat := by
  cases step with
  | next =>
    rw [h.next_eq]
    cases cursor.peeked.isSome with
    | true => exact Bool.toNat_le _
    | false => exact Nat.le_refl 0
  | _ => exact Nat.zero_le _

/-- **Behind the end `next` gives an end of line for each step that leaves one in front,** and
one more if one is in front already. -/
theorem AtEnd.endsGiven_le (h : AtEnd line cursor) (steps : List Step) :
    cursor.endsGiven steps ≤ cursor.peeked.isSome.toNat + cursor.looks steps := by
  induction steps generalizing cursor with
  | nil => exact Nat.zero_le _
  | cons step steps ih =>
    have hrest := ih (keeps_atEnd step cursor h)
    rw [isSome_peeked] at hrest
    have hgiven := h.toNat_givesEnd_le step
    rw [endsGiven_cons, looks_cons]
    omega

/-- **In front of the end one end more is given,** since the step that takes it leaves nothing in
front. -/
theorem Reading.endsGiven_le {left : List Item} (h : Reading line cursor left)
    (steps : List Step) : cursor.endsGiven steps ≤ 1 + cursor.looks steps := by
  induction steps generalizing cursor left with
  | nil => exact Nat.zero_le _
  | cons step steps ih =>
    rw [endsGiven_cons, looks_cons]
    rcases h.step step with ⟨hends, hend⟩ | ⟨hends, rest, -, hrest⟩
    · have hafter := hend.endsGiven_le steps
      rw [isSome_peeked] at hafter
      have hgiven := (step.givesEnd (step.answer cursor)).toNat_le
      have hleaves := Step.leaves_of_ends hends
      rw [hleaves] at hafter ⊢
      simp only [Bool.toNat_false] at hafter ⊢
      omega
    · have hgiven : step.givesEnd (step.answer cursor) = false :=
        Bool.eq_false_iff.2 fun hgiven => hends (Step.ends_of_givesEnd hgiven)
      have hafter := ih hrest
      rw [hgiven, Bool.toNat_false]
      omega

/-- Steps that do not end the reading give no end. -/
theorem endsGiven_eq_zero {steps : List Step} (h : ¬ cursor.EndsWithin steps) :
    cursor.endsGiven steps = 0 :=
  List.countP_eq_zero.2 fun entry hentry hgiven =>
    h ⟨entry, hentry, Step.ends_of_givesEnd hgiven⟩

/-- **A line that is used up has ended.** -/
theorem atEnd_of_usesUp {steps : List Step} {step : Step}
    (h : step.UsesUp (step.answer ((ofLine line).behind steps))) :
    AtEnd line ((ofLine line).behind (steps ++ [step])) := by
  rw [behind_append]
  rcases (reading_ofLine line).run steps with ⟨-, hend⟩ | ⟨-, rest, -, hreading⟩
  · exact hend.behind [step]
  · rcases hreading.step step with ⟨-, hend⟩ | ⟨hends, -⟩
    · exact hend
    · exfalso
      rcases h with ⟨rfl, hnone⟩ | hlexical
      · obtain ⟨item, later, rfl⟩ :=
          List.exists_cons_of_ne_nil (hreading.upcoming_eq ▸ upcoming_ne_nil _)
        rw [hreading.answer_eq] at hnone
        cases item <;> cases hnone
      · exact hends (.inr hlexical)

/-- Where a line is used up nothing is left in front. -/
theorem Step.leaves_of_usesUp {step : Step} {answer : Answer} (h : step.UsesUp answer) :
    step.leaves answer = false := by
  rcases h with ⟨rfl, rfl⟩ | hlexical
  · rfl
  · exact leaves_of_ends (.inr hlexical)

/-- **How every line runs out.**  Behind the end everything is known from what is held back, and
this is known from the step before; up to there the steps go through the items. -/
theorem runsOut (line : Line) : RunsOut line := by
  have hstart : (ofLine line).peeked = none := rfl
  constructor
  · intro steps hends
    rcases (reading_ofLine line).run steps with ⟨-, hend⟩ | ⟨hnot, -⟩
    · rw [hend.next_eq, isSome_peeked_behind _ hstart]
    · exact absurd hends hnot
  · intro front last more hused hlooks
    have hend := atEnd_of_usesUp hused
    have hfront : ((ofLine line).behind (front ++ [last])).peeked = none := by
      rw [behind_append, ← Option.isNone_iff_eq_none, ← Option.isSome_eq_false_iff]
      exact (isSome_peeked _ last).trans (Step.leaves_of_usesUp hused)
    rw [behind_append, (hend.behind more).next_eq, peeked_behind_of_looks _ hfront hlooks]
    rfl
  · intro front more hends
    rw [endsGiven, answers_append, List.countP_append, ← endsGiven, ← endsGiven,
      endsGiven_eq_zero hends, Nat.zero_add]
    rcases (reading_ofLine line).run front with ⟨hends', -⟩ | ⟨-, rest, -, hreading⟩
    · exact absurd hends' hends
    · exact hreading.endsGiven_le more

/-- **Looking brings the end back.**  Of an empty line `next` gives the end twice if it is looked
at in between, and it gives an end where it has had nothing to give and behind a lexical error,
too. -/
theorem endsGiven_again :
    (ofLine ⟨none, []⟩).endsGiven [.next, .peek, .next] = 2 ∧
    (Step.UsesUp .next (Step.next.answer ((ofLine ⟨none, []⟩).behind [.next])) ∧
      Step.next.answer ((ofLine ⟨none, []⟩).behind [.next, .next, .peek]) =
        .ok (some ⟨.endOfLine, [], 0⟩)) ∧
    Step.UsesUp .next (Step.next.answer (ofLine ⟨none, ['@']⟩)) ∧
      Step.next.answer ((ofLine ⟨none, ['@']⟩).behind [.next, .peek]) =
        .ok (some ⟨.endOfLine, [], 1⟩) :=
  ⟨rfl, ⟨.inl ⟨rfl, rfl⟩, rfl⟩, .inr ⟨.invalidCharacter '@' 0, rfl⟩, rfl⟩

end Cursor
end Reckoner
