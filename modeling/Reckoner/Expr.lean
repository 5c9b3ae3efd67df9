/-
# Expressions

An expression is a 64-bit integer or an operator between two expressions.  Its
text puts the operator first, `(+ 1 (* 2 3))`, which leaves no doubt about the
grouping.
-/

import Reckoner.Text.Decimal

namespace Reckoner

/-- The four operators of integer arithmetic. -/
inductive Operator
  | add
  | subtract
  | multiply
  | divide
  deriving DecidableEq, Repr

/-- The character that an operator is written as. -/
def Operator.toChar : Operator → Char
  | add => '+'
  | subtract => '-'
  | multiply => '*'
  | divide => '/'

/-- An arithmetic expression. -/
inductive Expr
  | number (value : Int64)
  | binary (operator : Operator) (lhs rhs : Expr)
  deriving DecidableEq, Repr

namespace Expr

/-- The text of an expression, operators first. -/
def render : Expr → List Char
  | number value => Decimal.ofInt64 value
  | binary operator lhs rhs =>
    '(' :: operator.toChar :: ' ' :: (lhs.render ++ ' ' :: (rhs.render ++ [')']))

end Expr
end Reckoner
