/-
# Two counters and one bit

The rules of the grammar descend into an expression; the automaton has a bit and two counters
and goes over the tokens once.  On a line the two agree, and not only on whether the line is
accepted (`followsAutomaton`): a diagnostic about a token is about the token that the
automaton stops at, and its advice is what the automaton says there.

What the automaton says is written down here in words (`Rejects`), with the limits as
numbers: where it stops it can be for one of seven reasons, two of them with the same advice.
That a counter at its limit is exactly at it, and not above, is what a run keeps (`Reached`).

The words and the automaton are put together once in each direction (`rejects_of_refuses`,
`Rejects.exists_refuses`), step by step and for the end of a line.  What is left is that the
verdict is an error just where a run gets to an item that the automaton refuses
(`judge_eq_error_iff`).
-/

import Reckoner.Diagnostic
import Reckoner.Proofs.Parsing.Line

namespace Reckoner
namespace Automaton

open Grammar

/-- Where the automaton stops at a token, and the advice it gives there. -/
inductive Rejects : State → Token.Kind → String → Prop
  /-- Where an operand is wanted, anything that does not begin one. -/
  | operandWanted {opened operators : Nat} {kind : Token.Kind}
      (hnumber : ∀ value, kind ≠ .number value) (hopening : kind ≠ .symbol .leftParenthesis) :
      Rejects ⟨true, opened, operators⟩ kind "expected a number or `(`"
  /-- Where an operand is wanted, the parenthesis beyond the limit. -/
  | nestedTooDeeply {operators : Nat} :
      Rejects ⟨true, 256, operators⟩ (.symbol .leftParenthesis)
        "expression nested too deeply (limit is 256)"
  /-- Behind an operand, the operator beyond the limit. -/
  | tooManyOperators {opened : Nat} {s : Symbol} {operator : Operator}
      (hs : operator? s = some operator) :
      Rejects ⟨false, opened, 1024⟩ (.symbol s) "too many operators on one line (limit is 1024)"
  /-- Behind an operand, a closing parenthesis with none open. -/
  | notOpened {operators : Nat} :
      Rejects ⟨false, 0, operators⟩ (.symbol .rightParenthesis) "this `)` has no matching `(`"
  /-- Behind an operand, a number. -/
  | number {opened operators : Nat} (value : Int64) :
      Rejects ⟨false, opened, operators⟩ (.number value)
        "expected an operator or the end of the expression"
  /-- Behind an operand, an opening parenthesis. -/
  | opening {opened operators : Nat} :
      Rejects ⟨false, opened, operators⟩ (.symbol .leftParenthesis)
        "expected an operator or the end of the expression"
  /-- Behind an operand, the end of the line with a parenthesis open. -/
  | notClosed {opened operators : Nat} :
      Rejects ⟨false, opened + 1, operators⟩ .endOfLine "use `)` here instead"

/-! ## Refused steps -/

section Steps

variable {opened operators : Nat} {kind : Token.Kind} {violation : Violation}

/-- Where an operand is wanted, a token that can begin none is refused for that reason. -/
theorem stepWanted_of_ne (hnumber : ∀ value, kind ≠ .number value)
    (hopening : kind ≠ .symbol .leftParenthesis) :
    stepWanted opened operators kind = .error .operandWanted := by
  rcases kind with value | s | _
  · exact absurd rfl (hnumber value)
  · cases s <;> first | exact absurd rfl hopening | rfl
  · rfl

/-- Behind an operand an operator of either class is counted, up to the limit. -/
theorem stepComplete_of_operator {s : Symbol} {operator : Operator}
    (hs : operator? s = some operator) :
    stepComplete opened operators (.symbol s) =
      if operators < maxOperators then .ok ⟨true, opened, operators + 1⟩
      else .error .tooManyOperators := by
  cases s <;> cases hs <;> rfl

/-- A symbol is an operator or a parenthesis. -/
theorem parenthesis_or_operator (s : Symbol) :
    s = .leftParenthesis ∨ s = .rightParenthesis ∨ ∃ operator, operator? s = some operator := by
  cases s
  case leftParenthesis => exact .inl rfl
  case rightParenthesis => exact .inr (.inl rfl)
  all_goals exact .inr (.inr ⟨_, rfl⟩)

/-- What is refused where an operand is wanted is rejected, in the words of the same rule.  A
parenthesis is refused at the limit or above it, and above it no run gets. -/
theorem rejects_of_stepWanted (hopened : opened ≤ maxNesting)
    (h : stepWanted opened operators kind = .error violation) :
    Rejects ⟨true, opened, operators⟩ kind violation.help := by
  by_cases hnumber : ∃ value, kind = .number value
  · obtain ⟨value, rfl⟩ := hnumber
    cases h
  by_cases hopening : kind = .symbol .leftParenthesis
  · subst hopening
    rw [stepWanted] at h
    split at h
    · cases h
    · next hge =>
      cases h
      obtain rfl : opened = 256 := Nat.le_antisymm hopened (Nat.not_lt.1 hge)
      exact .nestedTooDeeply
  · have hnumber : ∀ value, kind ≠ .number value := fun value heq => hnumber ⟨value, heq⟩
    rw [stepWanted_of_ne hnumber hopening] at h
    cases h
    exact .operandWanted hnumber hopening

/-- What is refused behind an operand is rejected, in the words of the same rule: the two
parentheses, numbers and operators are refused for four reasons. -/
theorem rejects_of_stepComplete (hoperators : operators ≤ maxOperators) (hkind : kind ≠ .endOfLine)
    (h : stepComplete opened operators kind = .error violation) :
    Rejects ⟨false, opened, operators⟩ kind violation.help := by
  rcases kind with value | s | _
  · cases h
    exact .number value
  · rcases parenthesis_or_operator s with rfl | rfl | ⟨operator, hs⟩
    · cases h
      exact .opening
    · rw [stepComplete] at h
      split at h
      · cases h
      · next hpos =>
        cases h
        obtain rfl : opened = 0 := Nat.eq_zero_of_not_pos hpos
        exact .notOpened
    · rw [stepComplete_of_operator hs] at h
      split at h
      · cases h
      · next hge =>
        cases h
        obtain rfl : operators = 1024 := Nat.le_antisymm hoperators (Nat.not_lt.1 hge)
        exact .tooManyOperators hs
  · exact absurd rfl hkind

end Steps

/-- The end of a line is rejected where it is refused, in the words of the same rule. -/
theorem rejects_of_finish {state : State} {violation : Violation}
    (h : finish state = some violation) : Rejects state .endOfLine violation.help := by
  obtain ⟨wanted, opened, operators⟩ := state
  cases wanted with
  | true =>
    cases h
    exact .operandWanted (fun value heq => by cases heq) (by simp)
  | false =>
    cases opened with
    | zero => cases h
    | succ opened =>
      cases h
      exact .notClosed

/-- **Where the automaton does not go on it gives its advice,** and the error is about the place of
the token. -/
theorem rejects_of_refuses {state : State} {token : Token} {error : GrammarError}
    (hopened : state.opened ≤ maxNesting) (hoperators : state.operators ≤ maxOperators)
    (h : Refuses state (.ok token) (.grammar error)) :
    error.span = token.span ∧ Rejects state token.kind error.violation.help := by
  cases h with
  | finish hkind hfinish => exact ⟨rfl, hkind ▸ rejects_of_finish hfinish⟩
  | step hkind hstep =>
    refine ⟨rfl, ?_⟩
    obtain ⟨wanted, opened, operators⟩ := state
    cases wanted with
    | true => exact rejects_of_stepWanted hopened hstep
    | false => exact rejects_of_stepComplete hoperators hkind hstep

/-- **Where the automaton gives advice it does not go on,** and it breaks the rule whose help this
advice is. -/
theorem Rejects.exists_refuses {state : State} {token : Token} {help : String}
    (h : Rejects state token.kind help) :
    ∃ violation, Refuses state (.ok token) (.grammar ⟨violation, token.span⟩) ∧
      violation.help = help := by
  generalize hkind : token.kind = kind at h
  cases h with
  | operandWanted hnumber hopening =>
    by_cases hlast : kind = .endOfLine
    · exact ⟨.operandWanted, .finish (hkind.trans hlast) rfl, rfl⟩
    · exact ⟨.operandWanted, .step (hkind ▸ hlast) (hkind ▸ stepWanted_of_ne hnumber hopening), rfl⟩
  | nestedTooDeeply => exact ⟨.nestedTooDeeply, .step (by simp [hkind]) (by rw [hkind]; rfl), rfl⟩
  | tooManyOperators hs =>
    exact ⟨.tooManyOperators, .step (by simp [hkind]) (hkind ▸ stepComplete_of_operator hs), rfl⟩
  | notOpened => exact ⟨.notOpened, .step (by simp [hkind]) (by rw [hkind]; rfl), rfl⟩
  | number value => exact ⟨.operatorWanted, .step (by simp [hkind]) (by rw [hkind]; rfl), rfl⟩
  | opening => exact ⟨.operatorWanted, .step (by simp [hkind]) (by rw [hkind]; rfl), rfl⟩
  | notClosed => exact ⟨.symbolWanted .rightParenthesis, .finish hkind rfl, rfl⟩

/-- **The verdict is an error** just where the automaton gets to an item that it does not go on
with. -/
theorem judge_eq_error_iff {state : State} {found : List Item} {error : ParseError} :
    judge state found = .error error ↔
      ∃ (tokens : List Token) (item : Item) (later : List Item) (middle : State),
        found = tokens.map .ok ++ item :: later ∧
        run state (tokens.map Token.kind) = .ok middle ∧ Refuses middle item error := by
  refine ⟨exists_refuses_of_judge, ?_⟩
  rintro ⟨tokens, item, later, middle, rfl, hrun, hrefuses⟩
  rw [judge_append_of_run hrun]
  cases hrefuses with
  | lexical error => rfl
  | finish hkind hfinish => rw [judge, if_pos hkind, hfinish]
  | step hkind hstep => rw [judge, if_neg hkind, hstep]

end Automaton

open Automaton

variable {line : Line}

/-- Whether the automaton gets to a token of a line and stops there, with this advice. -/
def StopsAt (line : Line) (token : Token) (help : String) : Prop :=
  ∃ (tokens : List Token) (later : List Item) (state : Automaton.State),
    items line.text = tokens.map .ok ++ .ok token :: later ∧
    run initial (tokens.map Token.kind) = .ok state ∧ Rejects state token.kind help

/-- Whether a line fails with a diagnostic that labels the place of a token and gives this
advice. -/
def FailsAt (line : Line) (token : Token) (help : String) : Prop :=
  ∃ error : GrammarError, line.expr? = .error (.grammar error) ∧
    ((ParseError.grammar error).diagnostic line).labels = [⟨token.span, "here"⟩] ∧
    ((ParseError.grammar error).diagnostic line).help = some help

/-- How the reading of a line and the automaton agree. -/
structure FollowsAutomaton (line : Line) : Prop where
  /-- A line is accepted if the automaton gets to the end of the line behind an operand, with
  no parenthesis open. -/
  accepts : (∃ expr, line.expr? = .ok (some expr)) ↔
    ∃ (tokens : List Token) (last : Token) (operators : Nat), last.kind = .endOfLine ∧
      items line.text = tokens.map .ok ++ [.ok last] ∧
      run initial (tokens.map Token.kind) = .ok ⟨false, 0, operators⟩
  /-- Where a token breaks a rule the automaton stops at this token. -/
  rejects : ∀ error : GrammarError, line.expr? = .error (.grammar error) →
    ∃ token help, StopsAt line token help ∧ FailsAt line token help
  /-- Where the automaton stops at a token this token breaks a rule, unless the line is
  blank. -/
  rejected : ¬ IsBlankLine line.text →
    ∀ token help, StopsAt line token help → FailsAt line token help
  /-- A lexical error is one that the automaton gets to. -/
  lexical : ∀ error : LexicalError, line.expr? = .error (.lexical error) ↔
    ∃ (tokens : List Token) (later : List Item) (state : Automaton.State),
      items line.text = tokens.map .ok ++ .error error :: later ∧
      run initial (tokens.map Token.kind) = .ok state

/-- **A line is read as the automaton reads it,** diagnostics included. -/
theorem followsAutomaton (line : Line) : FollowsAutomaton line := by
  constructor
  case accepts =>
    simp only [expr?_eq_some_iff]
    constructor
    · rintro ⟨expr, tokens, last, hlast, hitems, hsentence⟩
      obtain ⟨operators, hrun⟩ := exists_isSentence_iff.1 ⟨expr, hsentence⟩
      exact ⟨tokens, last, operators, hlast, hitems, hrun⟩
    · rintro ⟨tokens, last, operators, hlast, hitems, hrun⟩
      obtain ⟨expr, hsentence⟩ := exists_isSentence_iff.2 ⟨operators, hrun⟩
      exact ⟨expr, tokens, last, hlast, hitems, hsentence⟩
  case rejects =>
    intro error herror
    obtain ⟨-, hjudge⟩ := expr?_eq_error_iff.1 herror
    obtain ⟨tokens, item, later, middle, hitems, hrun, hrefuses⟩ := judge_eq_error_iff.1 hjudge
    obtain ⟨token, rfl⟩ : ∃ token, item = .ok token := by
      cases hrefuses <;> exact ⟨_, rfl⟩
    -- The run has kept the counters within the limits.
    have hreached := reached_initial.run hrun
    obtain ⟨hspan, hrejects⟩ := rejects_of_refuses hreached.opened_le hreached.operators_le hrefuses
    exact ⟨token, error.violation.help, ⟨tokens, later, middle, hitems, hrun, hrejects⟩,
      error, herror, by rw [← hspan]; rfl, rfl⟩
  case rejected =>
    rintro hblank token help ⟨tokens, later, state, hitems, hrun, hrejects⟩
    obtain ⟨violation, hrefuses, rfl⟩ := hrejects.exists_refuses
    have hjudge := judge_eq_error_iff.2 ⟨tokens, _, later, state, hitems, hrun, hrefuses⟩
    exact ⟨⟨violation, token.span⟩, expr?_eq_error_iff.2 ⟨hblank, hjudge⟩, rfl, rfl⟩
  case lexical =>
    intro error
    rw [expr?_eq_error_iff, judge_eq_error_iff]
    constructor
    · rintro ⟨-, tokens, item, later, state, hitems, hrun, hrefuses⟩
      cases hrefuses
      exact ⟨tokens, later, state, hitems, hrun⟩
    · rintro ⟨tokens, later, state, hitems, hrun⟩
      refine ⟨fun hblank => ?_, tokens, _, later, state, hitems, hrun, .lexical error⟩
      obtain ⟨last, hlast, -⟩ := (items_eq_endOfLine_iff line.text).2 hblank
      have hmem : Except.error error ∈ items line.text := by simp [hitems]
      simp [hlast] at hmem

end Reckoner
