/-
# Runs of the automaton

The automaton of `Reckoner.Expr.Automaton` has four kinds of steps (`Steps`), and a run
is a step for each token.  It gets through the tokens of a sentence and ends behind an
operand with no parenthesis open (`run_of_isSentence`): the induction is on the
derivation, and the invariant says how an expression moves the automaton on wherever it
stands (`Advances`).

A run goes through two stretches of tokens one after the other (`run_append_eq_ok_iff`).  So what
is known of the parts of an expression is known of the whole: parentheses take the automaton one
level down and up again (`Advances.group`), and an operator takes it from one operand to the next
(`Advances.join`).
-/

import Reckoner.Expr.Automaton
import Reckoner.Proofs.Sentence.Derivation

namespace Reckoner
namespace Automaton

open Grammar

/-- What the automaton can do at a token, an end of line apart. -/
inductive Steps : State → Token.Kind → State → Prop
  /-- A number is an operand. -/
  | number {opened operators : Nat} (value : Int64) :
      Steps ⟨true, opened, operators⟩ (.number value) ⟨false, opened, operators⟩
  /-- An opening parenthesis begins an operand, within the limit on nesting. -/
  | opening {opened operators : Nat} (h : opened < maxNesting) :
      Steps ⟨true, opened, operators⟩ (.symbol .leftParenthesis) ⟨true, opened + 1, operators⟩
  /-- An operator wants another operand, within the limit on operators. -/
  | operator {opened operators : Nat} {s : Symbol} {operator : Operator}
      (hs : operator? s = some operator) (h : operators < maxOperators) :
      Steps ⟨false, opened, operators⟩ (.symbol s) ⟨true, opened, operators + 1⟩
  /-- A closing parenthesis ends an operand, if one is open. -/
  | closing {opened operators : Nat} :
      Steps ⟨false, opened + 1, operators⟩ (.symbol .rightParenthesis) ⟨false, opened, operators⟩

/-- **The automaton has four kinds of steps.**  Where an operand is wanted a token is a step if it
is a number or opens a parenthesis, and behind one if it is an operator or closes a parenthesis. -/
theorem step_eq_ok_iff {state after : State} {kind : Token.Kind} :
    step state kind = .ok after ↔ Steps state kind after := by
  constructor
  · intro h
    obtain ⟨wanted, opened, operators⟩ := state
    cases wanted with
    | true =>
      change stepWanted opened operators kind = _ at h
      rcases kind with value | s | _
      · cases h
        exact .number value
      · cases s with
        | leftParenthesis =>
          rw [stepWanted] at h
          split at h
          · next hlt => cases h; exact .opening hlt
          · cases h
        | _ => cases h
      · cases h
    | false =>
      change stepComplete opened operators kind = _ at h
      rcases kind with value | s | _
      · cases h
      · cases s with
        | leftParenthesis => cases h
        | rightParenthesis =>
          rw [stepComplete] at h
          split at h
          · next hpos =>
            cases h
            obtain ⟨opened, rfl⟩ := Nat.exists_eq_succ_of_ne_zero (Nat.ne_of_gt hpos)
            exact .closing
          · cases h
        | _ =>
          simp only [stepComplete] at h
          split at h
          · next hlt => cases h; exact .operator rfl hlt
          · cases h
      · cases h
  · intro h
    cases h with
    | number value => rfl
    | opening h => simp [step, stepWanted, h]
    | operator hs h => rename_i s _; cases s <;> cases hs <;> simp [step, stepComplete, h]
    | closing => simp [step, stepComplete]

/-- The automaton takes some tokens one after the other. -/
def run : State → List Token.Kind → Except Violation State
  | state, [] => .ok state
  | state, kind :: kinds =>
    match step state kind with
    | .ok state => run state kinds
    | .error violation => .error violation

/-- A run begins with a step. -/
theorem run_cons_eq_ok_iff {state last : State} {kind : Token.Kind} {kinds : List Token.Kind} :
    run state (kind :: kinds) = .ok last ↔
      ∃ after, Steps state kind after ∧ run after kinds = .ok last := by
  rw [run]
  cases h : step state kind with
  | ok after =>
    constructor
    · exact fun hrun => ⟨after, step_eq_ok_iff.1 h, hrun⟩
    · rintro ⟨after', hs, hrun⟩
      rw [step_eq_ok_iff.2 hs] at h
      cases h
      exact hrun
  | error violation =>
    constructor
    · intro hrun
      cases hrun
    · rintro ⟨after', hs, -⟩
      rw [step_eq_ok_iff.2 hs] at h
      cases h

/-- **Two stretches of tokens are taken** if the first is, and the second from where
the first one ends. -/
theorem run_append_eq_ok_iff {state last : State} {first second : List Token.Kind} :
    run state (first ++ second) = .ok last ↔
      ∃ middle, run state first = .ok middle ∧ run middle second = .ok last := by
  induction first generalizing state with
  | nil => simp [run]
  | cons kind first ih =>
    rw [List.cons_append, run_cons_eq_ok_iff]
    constructor
    · rintro ⟨after, hs, hrun⟩
      obtain ⟨middle, hfirst, hsecond⟩ := ih.1 hrun
      exact ⟨middle, run_cons_eq_ok_iff.2 ⟨after, hs, hfirst⟩, hsecond⟩
    · rintro ⟨middle, hrun, hsecond⟩
      obtain ⟨after, hs, hfirst⟩ := run_cons_eq_ok_iff.1 hrun
      exact ⟨after, hs, ih.2 ⟨middle, hfirst, hsecond⟩⟩

/-- A run on one token is a step. -/
theorem run_singleton_eq_ok_iff {state last : State} {kind : Token.Kind} :
    run state [kind] = .ok last ↔ Steps state kind last := by
  rw [run_cons_eq_ok_iff]
  simp [run]

/-! ## From a sentence to a run -/

/-- Whether some tokens take the automaton from an operand wanted to an operand
complete, at the same depth and with their operators counted, wherever they keep
within the limits. -/
def Advances (kinds : List Token.Kind) : Prop :=
  ∀ levels opened operators, levels + opened = maxNesting → NestsWithin levels kinds →
    operators + operatorCount kinds ≤ maxOperators →
    run ⟨true, opened, operators⟩ kinds = .ok ⟨false, opened, operators + operatorCount kinds⟩

/-- What takes the automaton over an operand does so in parentheses, which open one more and close
it again. -/
theorem Advances.group {kinds : List Token.Kind} (h : Advances kinds) :
    Advances (.symbol .leftParenthesis :: (kinds ++ [.symbol .rightParenthesis])) := by
  intro levels opened operators hlevels hnests hcount
  rw [operatorCount_group] at hcount ⊢
  obtain ⟨levels, rfl, hinner⟩ := hnests.inner
  have hrun := h levels (opened + 1) operators (by omega) hinner hcount
  refine run_cons_eq_ok_iff.2 ⟨_, .opening (by omega), ?_⟩
  exact run_append_eq_ok_iff.2 ⟨_, hrun, run_singleton_eq_ok_iff.2 .closing⟩

/-- Two parts with an operator between them take the automaton over an operand if both do. -/
theorem Advances.join {left right : List Token.Kind} {s : Symbol} {operator : Operator}
    (hbalanced : Balanced left) (hl : Advances left) (hs : operator? s = some operator)
    (hr : Advances right) : Advances (left ++ .symbol s :: right) := by
  intro levels opened operators hlevels hnests hcount
  rw [operatorCount_join hs] at hcount ⊢
  have hright : NestsWithin levels right :=
    NestsWithin.right (balanced_operator hs) (NestsWithin.right hbalanced hnests)
  have hlrun := hl levels opened operators hlevels hnests.left (by omega)
  have hrrun := hr levels opened (operators + operatorCount left + 1) hlevels hright (by omega)
  refine run_append_eq_ok_iff.2 ⟨_, hlrun, run_cons_eq_ok_iff.2 ⟨_, .operator hs (by omega), ?_⟩⟩
  rw [hrrun]
  congr 2
  omega

/-- **An expression advances the automaton.**  That its parentheses are balanced goes along with it
in the induction, because how deep the right part of a join may nest depends on the left part. -/
theorem advances_of_isExpression {kinds : List Token.Kind} {expr : Expr}
    (h : IsExpression kinds expr) : Advances kinds := by
  have hm : Closed fun kinds _ => Balanced kinds ∧ Advances kinds := by
    constructor
    · intro value
      exact ⟨closed_balanced.number value, fun _ _ _ _ _ _ =>
        run_singleton_eq_ok_iff.2 (.number value)⟩
    · rintro kinds expr ⟨hbalanced, h⟩
      exact ⟨@Closed.group _ closed_balanced _ expr hbalanced, h.group⟩
    · rintro left right lhs rhs s operator ⟨hbalanced, hl⟩ hs ⟨hbr, hr⟩
      exact ⟨@Closed.join _ closed_balanced _ _ lhs rhs _ _ hbalanced hs hbr,
        hl.join hbalanced hs hr⟩
  exact (h.of_closed hm).2

/-- A sentence takes the automaton to its end. -/
theorem run_of_isSentence {kinds : List Token.Kind} {expr : Expr} (h : IsSentence kinds expr) :
    run initial kinds = .ok ⟨false, 0, operatorCount kinds⟩ := by
  have hcount := h.operatorCount_le
  have hrun := advances_of_isExpression h.isExpression maxNesting 0 0 rfl h.nestsWithin (by omega)
  rwa [Nat.zero_add] at hrun

end Automaton
end Reckoner
