/-
# Expressions in postfix order

In postfix order an operator stands behind its two operands, so that a machine
with a stack can work from left to right: a number is pushed, and an operator takes
the two values on top, the right operand first.  The sequence of an expression has
an entry for each of its parts (`Expr.toPostfix_eq_map_parts`).
-/

import Reckoner.Expr

namespace Reckoner

/-- One entry of a postfix sequence. -/
inductive Postfix
  | number (value : Int64)
  | operator (operator : Operator)
  deriving DecidableEq, Repr

namespace Expr

/-- The postfix sequence of an expression. -/
def toPostfix : Expr → List Postfix
  | number value => [.number value]
  | binary operator lhs rhs => lhs.toPostfix ++ rhs.toPostfix ++ [.operator operator]

/-- The parts of an expression in postfix order: each behind its own parts, and the whole
behind all others. -/
def parts : Expr → List Expr
  | number value => [number value]
  | binary operator lhs rhs => lhs.parts ++ rhs.parts ++ [binary operator lhs rhs]

/-- The entry of a postfix sequence that stands for a part. -/
def entry : Expr → Postfix
  | number value => .number value
  | binary operator _ _ => .operator operator

/-- **A postfix sequence has an entry for each part.** -/
theorem toPostfix_eq_map_parts (expr : Expr) : expr.toPostfix = expr.parts.map entry := by
  induction expr with
  | number value => rfl
  | binary operator lhs rhs ihl ihr =>
    rw [toPostfix, parts, List.map_append, List.map_append, ihl, ihr]
    rfl

end Expr
end Reckoner
