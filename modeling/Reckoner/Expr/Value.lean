/-
# The value of an expression

Arithmetic is on 64-bit integers.  Sums, differences and products that do not
fit wrap around modulo `2 ^ 64`, quotients are cut off toward zero, and the one
quotient that does not fit, `-2 ^ 63` by `-1`, wraps around too.  Only a divisor
of zero has no result, and the error names the dividend.

The left operand is worked out before the right one, so of two divisions by zero
the one further left is reported.
-/

import Reckoner.Expr
import Reckoner.Line.Error

namespace Reckoner

/-- The result of an operator on two 64-bit integers. -/
def Operator.apply : Operator → Int64 → Int64 → Except DivisionByZero Int64
  | add, lhs, rhs => .ok (lhs + rhs)
  | subtract, lhs, rhs => .ok (lhs - rhs)
  | multiply, lhs, rhs => .ok (lhs * rhs)
  | divide, lhs, rhs => if rhs = 0 then .error ⟨lhs⟩ else .ok (lhs / rhs)

/-- The value of an expression, or the first division by zero in it. -/
def Expr.value : Expr → Except DivisionByZero Int64
  | number value => .ok value
  | binary operator lhs rhs => do
    let left ← lhs.value
    let right ← rhs.value
    operator.apply left right

/-- **Only a divisor of zero has no result.** -/
theorem Operator.apply_eq_error_iff {operator : Operator} {lhs rhs : Int64}
    {error : DivisionByZero} :
    operator.apply lhs rhs = .error error ↔ operator = .divide ∧ rhs = 0 ∧ error = ⟨lhs⟩ := by
  cases operator with
  | add => simp [apply]
  | subtract => simp [apply]
  | multiply => simp [apply]
  | divide =>
    rw [apply]
    split
    · next hzero => simp [hzero, eq_comm]
    · next hzero => simp [hzero]

section Operands

variable {operator : Operator} {lhs rhs : Expr} {left right : Int64} {error : DivisionByZero}

/-- Two operands with a value are put together by the operator. -/
theorem Expr.value_of_operands (hl : lhs.value = .ok left) (hr : rhs.value = .ok right) :
    (binary operator lhs rhs).value = operator.apply left right := by
  rw [value, hl, hr]
  rfl

/-- A left operand without a value leaves none to the whole. -/
theorem Expr.value_of_left (hl : lhs.value = .error error) :
    (binary operator lhs rhs).value = .error error := by
  rw [value, hl]
  rfl

/-- Nor does a right operand, behind a left one with a value. -/
theorem Expr.value_of_right (hl : lhs.value = .ok left) (hr : rhs.value = .error error) :
    (binary operator lhs rhs).value = .error error := by
  rw [value, hl, hr]
  rfl

end Operands

/-- Quotients are cut off toward zero, and the quotient that does not fit wraps
around. -/
example : Operator.divide.apply (-7) 2 = .ok (-3) ∧
    Operator.divide.apply Int64.minValue (-1) = .ok Int64.minValue :=
  ⟨rfl, rfl⟩

end Reckoner
