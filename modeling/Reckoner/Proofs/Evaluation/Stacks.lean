/-
# Working a line off with two stacks

The value of a line is found by building a tree and folding it.  It can be found without
a tree: the tokens of the line, its end included, are worked off from left to right with a
stack of numbers and a stack of pending operators, as in
`Reckoner.Proofs.Sentence.TwoStacks`.  Both ways come to the same number, or fail at a
division with the same dividend (`value?_of_twoStacks`).
-/

import Reckoner.Line.Value
import Reckoner.Proofs.Parsing.Line

namespace Reckoner
namespace TwoStacks

open Grammar (IsExpression)

variable {ε α : Type}

/-- **The end of a line settles everything:** all that is left on the stacks is the value
of the expression. -/
theorem run_endOfLine (algebra : Algebra ε α) {kinds : List Token.Kind} {expr : Expr}
    (h : IsExpression kinds expr) :
    run algebra ⟨[], []⟩ (kinds ++ [.endOfLine]) =
      (fun value => ⟨[value], []⟩) <$> algebra.fold expr := by
  have hstops : Stops 0 [] := fun _ _ heq => by cases heq
  have hlast : ∀ state : State α, run algebra state [.endOfLine] = state.reduce algebra 0 := by
    intro state
    rw [run_cons, step]
    exact bind_pure _
  rw [run_append]
  simp only [hlast]
  exact h.settles [] [] hstops

/-- 64-bit integers as values: an operator is applied to the two on top. -/
def arithmetic : Algebra DivisionByZero Int64 where
  number := id
  apply := Operator.apply

/-- What an expression stands for in 64-bit arithmetic is its value. -/
theorem fold_arithmetic (expr : Expr) : arithmetic.fold expr = expr.value := by
  induction expr with
  | number value => rfl
  | binary operator lhs rhs ihl ihr =>
    rw [Algebra.fold, Expr.value, ihl, ihr]
    rfl

end TwoStacks

open TwoStacks

/-- **Two stacks find the value of a line.**  On the tokens of a line that is read as an
expression they end with the value of the line and with nothing else, or they stop at a
division by zero, which is then the error of the line. -/
theorem value?_of_twoStacks {line : Line} {expr : Expr} (h : line.expr? = .ok (some expr)) :
    ∃ (tokens : List Token) (last : Token), last.kind = .endOfLine ∧
      items line.text = (tokens ++ [last]).map .ok ∧
      ((∃ value, line.value? = .ok (some value) ∧
          run arithmetic ⟨[], []⟩ ((tokens ++ [last]).map Token.kind) = .ok ⟨[value], []⟩) ∨
        ∃ error, line.value? = .error (.divisionByZero error) ∧
          run arithmetic ⟨[], []⟩ ((tokens ++ [last]).map Token.kind) = .error error) := by
  obtain ⟨tokens, last, hlast, hitems, hsentence⟩ := expr?_eq_some_iff.1 h
  have hkinds : (tokens ++ [last]).map Token.kind = tokens.map Token.kind ++ [.endOfLine] := by
    rw [List.map_append, List.map_singleton, hlast]
  have hrun := run_endOfLine arithmetic hsentence.isExpression
  rw [fold_arithmetic, ← hkinds] at hrun
  refine ⟨tokens, last, hlast, by rw [hitems, List.map_append]; rfl, ?_⟩
  rw [Line.value?_of_expr? h, hrun]
  cases expr.value with
  | ok value => exact .inl ⟨value, rfl, rfl⟩
  | error error => exact .inr ⟨error, rfl, rfl⟩

/-- On `7-8/(2-2)` the second operator stays pending until the parenthesis is closed, and
then the stacks stop at `8 / 0`. -/
theorem value?_of_twoStacks_at_division :
    (Line.mk none ['7', '-', '8', '/', '(', '2', '-', '2', ')']).expr? =
      .ok (some (.binary .subtract (.number 7)
        (.binary .divide (.number 8) (.binary .subtract (.number 2) (.number 2))))) ∧
    ∃ (tokens : List Token) (last : Token), last.kind = .endOfLine ∧
      items ['7', '-', '8', '/', '(', '2', '-', '2', ')'] = (tokens ++ [last]).map .ok ∧
      ((∃ value, (Line.mk none ['7', '-', '8', '/', '(', '2', '-', '2', ')']).value? =
            .ok (some value) ∧
          run arithmetic ⟨[], []⟩ ((tokens ++ [last]).map Token.kind) = .ok ⟨[value], []⟩) ∨
        ∃ error, (Line.mk none ['7', '-', '8', '/', '(', '2', '-', '2', ')']).value? =
            .error (.divisionByZero error) ∧
          run arithmetic ⟨[], []⟩ ((tokens ++ [last]).map Token.kind) = .error error) := by
  have h : (Line.mk none ['7', '-', '8', '/', '(', '2', '-', '2', ')']).expr? =
      .ok (some (.binary .subtract (.number 7)
        (.binary .divide (.number 8) (.binary .subtract (.number 2) (.number 2))))) := by
    decide +kernel
  exact ⟨h, value?_of_twoStacks h⟩

end Reckoner
