/-
# The value of a line

A line is read and its expression is worked out.  A line without tokens has no
value.
-/

import Reckoner.Expr.Grammar
import Reckoner.Expr.Value

namespace Reckoner

/-- The value of the expression on a line; a line without tokens has none. -/
def Line.value? (line : Line) : Except LineError (Option Int64) :=
  match line.expr? with
  | .error error => .error (.parse error)
  | .ok none => .ok none
  | .ok (some expr) =>
    match expr.value with
    | .ok value => .ok (some value)
    | .error error => .error (.divisionByZero error)

namespace Line

variable {line : Line}

/-- A line with an expression has the value of the expression. -/
theorem value?_of_expr? {expr : Expr} (h : line.expr? = .ok (some expr)) :
    line.value? = match expr.value with
      | .ok value => .ok (some value)
      | .error error => .error (.divisionByZero error) := by
  simp only [value?, h]

/-- **No value can be worked out** just where no expression can be read. -/
theorem value?_eq_parse_iff {error : ParseError} :
    line.value? = .error (.parse error) ↔ line.expr? = .error error := by
  rcases h : line.expr? with found | _ | expr
  · simp [value?, h]
  · simp [value?, h]
  · rw [value?_of_expr? h]
    cases expr.value <;> simp

end Line

end Reckoner
