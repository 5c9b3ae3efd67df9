/-
# The exact value of an expression

Over all integers a sum, a difference or a product is never too large.  Quotients are cut
off toward zero, and a divisor of zero has no result here either: working out the
expression stops there, and what is left is the dividend.

`Expr.computed` is everything that is worked out on the way.
-/

import Reckoner.Expr

namespace Reckoner

/-- The result of an operator on two integers, or the dividend of a division by zero. -/
def Operator.applyExactly : Operator → Int → Int → Except Int Int
  | add, lhs, rhs => .ok (lhs + rhs)
  | subtract, lhs, rhs => .ok (lhs - rhs)
  | multiply, lhs, rhs => .ok (lhs * rhs)
  | divide, lhs, rhs => if rhs = 0 then .error lhs else .ok (lhs.tdiv rhs)

namespace Expr

/-- The value of an expression over all integers, left operands before right ones, or the
dividend of the first division by zero. -/
def exactValue : Expr → Except Int Int
  | number value => .ok value.toInt
  | binary operator lhs rhs => do
    let left ← lhs.exactValue
    let right ← rhs.exactValue
    operator.applyExactly left right

/-- All integers that are computed until there is an exact value or a division fails: those
of the left operand, those of the right one unless the left one fails, and the exact value
if there is one. -/
def computed : Expr → List Int
  | number value => [value.toInt]
  | binary operator lhs rhs =>
    lhs.computed ++ (if lhs.exactValue.isOk then rhs.computed else []) ++
      (binary operator lhs rhs).exactValue.toOption.toList

/-- Whether there is no division in an expression. -/
def IsDivisionFree : Expr → Prop
  | number _ => True
  | binary operator lhs rhs => operator ≠ .divide ∧ lhs.IsDivisionFree ∧ rhs.IsDivisionFree

section Operands

variable {operator : Operator} {lhs rhs : Expr} {left right dividend n : Int}

/-- Two operands with an exact value are put together by the operator. -/
theorem exactValue_of_operands (hl : lhs.exactValue = .ok left) (hr : rhs.exactValue = .ok right) :
    (binary operator lhs rhs).exactValue = operator.applyExactly left right := by
  rw [exactValue, hl, hr]
  rfl

/-- A left operand without an exact value leaves none to the whole. -/
theorem exactValue_of_left (hl : lhs.exactValue = .error dividend) :
    (binary operator lhs rhs).exactValue = .error dividend := by
  rw [exactValue, hl]
  rfl

/-- Nor does a right operand, behind a left one with an exact value. -/
theorem exactValue_of_right (hl : lhs.exactValue = .ok left)
    (hr : rhs.exactValue = .error dividend) :
    (binary operator lhs rhs).exactValue = .error dividend := by
  rw [exactValue, hl, hr]
  rfl

/-- What is computed for the left operand is computed for the whole. -/
theorem mem_computed_left (h : n ∈ lhs.computed) : n ∈ (binary operator lhs rhs).computed :=
  List.mem_append_left _ (List.mem_append_left _ h)

/-- What is computed for the right operand is computed for the whole only if the left one has a
value: after a division by zero nothing more is computed. -/
theorem mem_computed_right (hl : lhs.exactValue = .ok left) (h : n ∈ rhs.computed) :
    n ∈ (binary operator lhs rhs).computed := by
  refine List.mem_append_left _ (List.mem_append_right _ ?_)
  rw [hl]
  exact h

/-- The value of the whole is computed last. -/
theorem mem_computed_self (h : (binary operator lhs rhs).exactValue = .ok n) :
    n ∈ (binary operator lhs rhs).computed := by
  refine List.mem_append_right _ ?_
  rw [h]
  exact List.mem_singleton_self n

end Operands

/-- Behind a division by zero nothing is computed. -/
example : (binary .add (binary .divide (number 7) (number 0)) (number 2)).exactValue = .error 7 ∧
    (binary .add (binary .divide (number 7) (number 0)) (number 2)).computed = [7, 0] :=
  ⟨rfl, rfl⟩

end Expr
end Reckoner
