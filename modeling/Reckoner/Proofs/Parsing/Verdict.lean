/-
# The verdict on a line

The verdict of the automaton is read here as a statement on sentences.  It accepts the
tokens in front of an end of line just when they are a sentence (`judge_eq_ok_iff`), and
an error is about the first item that it does not go on with (`exists_refuses_of_judge`).

Both go along the items: as long as there is a step the verdict is that on what is left
(`judge_append_of_run`), and where there is none it is known at once (`Refuses`).
-/

import Reckoner.Proofs.Sentence.Viable

namespace Reckoner
namespace Automaton

open Grammar

/-- The automaton does not go on behind an end of line. -/
theorem Steps.ne_endOfLine {state after : State} {kind : Token.Kind} (h : Steps state kind after) :
    kind ≠ .endOfLine := by
  cases h <;> exact fun heq => by cases heq

/-- A token that the automaton goes on with leaves the verdict to what comes behind. -/
theorem judge_of_steps {state after : State} {token : Token} (h : Steps state token.kind after)
    (later : List Item) : judge state (.ok token :: later) = judge after later := by
  rw [judge, if_neg h.ne_endOfLine, step_eq_ok_iff.2 h]

/-- **Behind a run the verdict is that on what is left.** -/
theorem judge_append_of_run {tokens : List Token} {state middle : State}
    (h : run state (tokens.map Token.kind) = .ok middle) (later : List Item) :
    judge state (tokens.map .ok ++ later) = judge middle later := by
  induction tokens generalizing state with
  | nil =>
    cases h
    rfl
  | cons token tokens ih =>
    obtain ⟨after, hstep, hrun⟩ := run_cons_eq_ok_iff.1 h
    exact (judge_of_steps hstep _).trans (ih hrun)

/-- Where the verdict is that all is well, the automaton has gone through all tokens in front of the
end. -/
theorem exists_run_of_judge {tokens : List Token} {state : State} {later : List Item}
    (htokens : ∀ token ∈ tokens, token.kind ≠ .endOfLine)
    (h : judge state (tokens.map .ok ++ later) = .ok ()) :
    ∃ middle, run state (tokens.map Token.kind) = .ok middle ∧ judge middle later = .ok () := by
  induction tokens generalizing state with
  | nil => exact ⟨state, rfl, h⟩
  | cons token tokens ih =>
    obtain ⟨htoken, htokens⟩ := List.forall_mem_cons.1 htokens
    cases hstep : step state token.kind with
    | error violation =>
      rw [List.map_cons, List.cons_append, judge, if_neg htoken, hstep] at h
      cases h
    | ok after =>
      have hsteps := step_eq_ok_iff.1 hstep
      obtain ⟨middle, hrun, hjudge⟩ := ih htokens ((judge_of_steps hsteps _).symm.trans h)
      exact ⟨middle, run_cons_eq_ok_iff.2 ⟨after, hsteps, hrun⟩, hjudge⟩

/-- Why the automaton does not go on with an item. -/
inductive Refuses (state : State) : Item → ParseError → Prop
  /-- It is no token. -/
  | lexical (error : LexicalError) : Refuses state (.error error) (.lexical error)
  /-- The line must not end here. -/
  | finish {token : Token} {violation : Violation} (hkind : token.kind = .endOfLine)
      (h : Automaton.finish state = some violation) :
      Refuses state (.ok token) (.grammar ⟨violation, token.span⟩)
  /-- There is no step at this token. -/
  | step {token : Token} {violation : Violation} (hkind : token.kind ≠ .endOfLine)
      (h : Automaton.step state token.kind = .error violation) :
      Refuses state (.ok token) (.grammar ⟨violation, token.span⟩)

/-- **A verdict that is an error** is about the first item that the automaton does not
go on with.  All items in front of it are tokens, and a run goes through them. -/
theorem exists_refuses_of_judge {state : State} {found : List Item} {error : ParseError}
    (h : judge state found = .error error) :
    ∃ (tokens : List Token) (item : Item) (later : List Item) (middle : State),
      found = tokens.map .ok ++ item :: later ∧
      run state (tokens.map Token.kind) = .ok middle ∧ Refuses middle item error := by
  induction found generalizing state with
  | nil => cases h
  | cons item later ih =>
    cases item with
    | error lexical =>
      cases h
      exact ⟨[], _, later, state, rfl, rfl, .lexical lexical⟩
    | ok token =>
      by_cases hkind : token.kind = .endOfLine
      · rw [judge, if_pos hkind] at h
        cases hfinish : Automaton.finish state with
        | none =>
          rw [hfinish] at h
          cases h
        | some violation =>
          rw [hfinish] at h
          cases h
          exact ⟨[], _, later, state, rfl, rfl, .finish hkind hfinish⟩
      · cases hstep : Automaton.step state token.kind with
        | error violation =>
          rw [judge, if_neg hkind, hstep] at h
          cases h
          exact ⟨[], _, later, state, rfl, rfl, .step hkind hstep⟩
        | ok after =>
          have hsteps := step_eq_ok_iff.1 hstep
          rw [judge_of_steps hsteps] at h
          obtain ⟨tokens, item, beyond, middle, rfl, hrun, hrefuses⟩ := ih h
          exact ⟨token :: tokens, item, beyond, middle, rfl,
            run_cons_eq_ok_iff.2 ⟨after, hsteps, hrun⟩, hrefuses⟩

/-- The automaton accepts the end of a line behind an operand, outside of all
parentheses. -/
theorem finish_eq_none_iff {state : State} :
    finish state = none ↔ ∃ operators, state = ⟨false, 0, operators⟩ := by
  obtain ⟨wanted, opened, operators⟩ := state
  cases wanted <;> cases opened <;> simp [finish]

/-- **The automaton accepts just the sentences.**  Its run through the tokens has to end behind an
operand with no parenthesis open, and there is such a run just for the sentences. -/
theorem judge_eq_ok_iff {tokens : List Token} {last : Token} (hlast : last.kind = .endOfLine)
    (htokens : ∀ token ∈ tokens, token.kind ≠ .endOfLine) :
    judge initial (tokens.map .ok ++ [.ok last]) = .ok () ↔
      ∃ expr, IsSentence (tokens.map Token.kind) expr := by
  rw [exists_isSentence_iff]
  constructor
  · intro h
    obtain ⟨middle, hrun, hjudge⟩ := exists_run_of_judge htokens h
    rw [judge, if_pos hlast] at hjudge
    cases hfinish : finish middle with
    | some violation =>
      rw [hfinish] at hjudge
      cases hjudge
    | none =>
      obtain ⟨operators, rfl⟩ := finish_eq_none_iff.1 hfinish
      exact ⟨operators, hrun⟩
  · rintro ⟨operators, hrun⟩
    rw [judge_append_of_run hrun, judge, if_pos hlast]
    rfl

end Automaton

end Reckoner
