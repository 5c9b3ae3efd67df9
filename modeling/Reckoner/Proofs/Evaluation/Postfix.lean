/-
# Working off a postfix sequence

The value of an expression can be found without going into the tree, with a stack of
numbers: the postfix sequence of the expression is gone through once, a number is pushed,
and an operator is applied to the two on top.  Whatever is on the stack before, it ends with
the value of the expression on top of that, or it stops at the division by zero that is the
error of the expression (`Postfix.run_toPostfix`).

This also tells which division by zero that is.  There can be many in one expression; the
error is that of the first of them in postfix order (`Expr.findSome?_zeroDivision?`).  Both
together are `Expr.followsPostfix`.
-/

import Reckoner.Expr.Postfix
import Reckoner.Expr.Value

namespace Reckoner
namespace Postfix

/-- Why working off a sequence stops. -/
inductive Fault
  /-- There are no two numbers on the stack. -/
  | operandMissing
  | divisionByZero (error : DivisionByZero)
  deriving DecidableEq, Repr

/-- A value goes on the stack; where there is none, everything stops. -/
def pushResult (stack : List Int64) : Except DivisionByZero Int64 → Except Fault (List Int64)
  | .ok value => .ok (value :: stack)
  | .error error => .error (.divisionByZero error)

/-- One entry acts on a stack of numbers whose top comes first. -/
def step (stack : List Int64) : Postfix → Except Fault (List Int64)
  | number value => .ok (value :: stack)
  | operator op =>
    match stack with
    | rhs :: lhs :: stack => pushResult stack (op.apply lhs rhs)
    | _ => .error .operandMissing

/-- A sequence is worked off, one entry after the other. -/
def run (stack : List Int64) (entries : List Postfix) : Except Fault (List Int64) :=
  entries.foldlM step stack

/-- The machine works through two sequences one after the other. -/
theorem run_append (stack : List Int64) (first second : List Postfix) :
    run stack (first ++ second) = run stack first >>= fun middle => run middle second :=
  List.foldlM_append

/-- The machine works through one entry in one step. -/
theorem run_singleton (stack : List Int64) (entry : Postfix) :
    run stack [entry] = step stack entry := by
  rw [run, List.foldlM_cons]
  exact bind_pure _

/-- Behind a result only a value goes on. -/
theorem pushResult_bind (stack : List Int64) (result : Except DivisionByZero Int64)
    (entries : List Postfix) :
    (pushResult stack result >>= fun middle => run middle entries) =
      match result with
      | .ok value => run (value :: stack) entries
      | .error error => .error (.divisionByZero error) := by
  cases result <;> rfl

/-- **The sequence of an expression comes to the value of the expression,** on top of
whatever was on the stack, or stops at the same division by zero. -/
theorem run_toPostfix (expr : Expr) (stack : List Int64) :
    run stack expr.toPostfix = pushResult stack expr.value := by
  -- The right operand is worked off on top of the left one's value.
  induction expr generalizing stack with
  | number value => rfl
  | binary operator lhs rhs ihl ihr =>
    rw [Expr.toPostfix, List.append_assoc, run_append, ihl, pushResult_bind]
    cases hl : lhs.value with
    | error error => rw [Expr.value_of_left hl, pushResult]
    | ok left =>
      dsimp only
      rw [run_append, ihr, pushResult_bind]
      cases hr : rhs.value with
      | error error => rw [Expr.value_of_right hl hr, pushResult]
      | ok right => rw [Expr.value_of_operands hl hr]; exact run_singleton _ _

end Postfix

namespace Expr

/-- Whether an expression is a division whose operands have values, the right one zero. -/
def IsZeroDivision (expr : Expr) (error : DivisionByZero) : Prop :=
  ∃ lhs rhs, expr = binary .divide lhs rhs ∧ lhs.value = .ok error.dividend ∧ rhs.value = .ok 0

/-- The error of an expression if both operands have values. -/
def zeroDivision? : Expr → Option DivisionByZero
  | number _ => none
  | binary operator lhs rhs =>
    match lhs.value, rhs.value with
    | .ok left, .ok right =>
      match operator.apply left right with
      | .ok _ => none
      | .error error => some error
    | _, _ => none

/-- Where both operands have a value, whether there is a division by zero is decided by the operator
on these values. -/
theorem zeroDivision?_of_operands {operator : Operator} {lhs rhs : Expr} {left right : Int64}
    (hl : lhs.value = .ok left) (hr : rhs.value = .ok right) :
    (binary operator lhs rhs).zeroDivision? =
      match operator.apply left right with
      | .ok _ => none
      | .error error => some error := by
  rw [zeroDivision?, hl, hr]

/-- What a part fails with by itself is known just when it is a division whose operands have been
evaluated and whose divisor is zero. -/
theorem zeroDivision?_eq_some_iff {expr : Expr} {error : DivisionByZero} :
    expr.zeroDivision? = some error ↔ expr.IsZeroDivision error := by
  constructor
  · intro h
    cases expr with
    | number value => cases h
    | binary operator lhs rhs =>
      rw [zeroDivision?] at h
      split at h
      · next left right hl hr =>
        split at h
        · cases h
        · next happly =>
          cases h
          obtain ⟨rfl, rfl, rfl⟩ := Operator.apply_eq_error_iff.1 happly
          exact ⟨lhs, rhs, rfl, hl, hr⟩
      · cases h
  · rintro ⟨lhs, rhs, rfl, hl, hr⟩
    rw [zeroDivision?_of_operands hl hr]
    rfl

/-- **The error of an expression is that of the first division by zero** in postfix order
among its parts. -/
theorem findSome?_zeroDivision? (expr : Expr) :
    expr.parts.findSome? zeroDivision? =
      match expr.value with
      | .ok _ => none
      | .error error => some error := by
  induction expr with
  | number value => rfl
  | binary operator lhs rhs ihl ihr =>
    rw [parts, List.findSome?_append, List.findSome?_append, ihl, ihr, List.findSome?_singleton]
    cases hl : lhs.value with
    | error error => rw [value_of_left hl]; rfl
    | ok left =>
      cases hr : rhs.value with
      | error error => rw [value_of_right hl hr]; rfl
      | ok right => rw [value_of_operands hl hr, zeroDivision?_of_operands hl hr]; rfl

/-- **An expression fails with the first division by zero** among its parts in postfix order.  The
induction is on the expression; the parts of the left operand come first, as its value does. -/
theorem value_eq_error_iff {expr : Expr} {error : DivisionByZero} :
    expr.value = .error error ↔ expr.parts.findSome? zeroDivision? = some error := by
  rw [findSome?_zeroDivision?]
  cases expr.value <;> simp

/-- How an expression is worked off in postfix order. -/
structure FollowsPostfix (expr : Expr) : Prop where
  /-- There is an entry for each part, in the order of the parts. -/
  toPostfix_eq : expr.toPostfix = expr.parts.map entry
  /-- The entries come to the value on top of the stack, or stop at the same error. -/
  run_eq : ∀ stack, Postfix.run stack expr.toPostfix =
    match expr.value with
    | .ok value => .ok (value :: stack)
    | .error error => .error (.divisionByZero error)
  /-- There is an error just where one of the parts is a division by zero. -/
  fails_iff : (∃ error, expr.value = .error error) ↔
    ∃ part ∈ expr.parts, ∃ error, part.IsZeroDivision error
  /-- The error is that of the first such part. -/
  first_iff : ∀ error, expr.value = .error error ↔
    ∃ earlier part later, expr.parts = earlier ++ part :: later ∧ part.IsZeroDivision error ∧
      ∀ other ∈ earlier, ∀ error', ¬ other.IsZeroDivision error'

/-- **Postfix order finds the value and the error of an expression,** however many divisions
by zero there are. -/
theorem followsPostfix (expr : Expr) : FollowsPostfix expr where
  toPostfix_eq := expr.toPostfix_eq_map_parts
  run_eq stack := by
    rw [Postfix.run_toPostfix]
    cases expr.value <;> rfl
  fails_iff := by
    simp only [value_eq_error_iff, ← zeroDivision?_eq_some_iff, ← Option.isSome_iff_exists,
      List.findSome?_isSome_iff]
  first_iff error := by
    rw [value_eq_error_iff, List.findSome?_eq_some_iff]
    simp only [zeroDivision?_eq_some_iff, Option.eq_none_iff_forall_ne_some, ne_eq]

/-- Of two divisions by zero the one on the left comes first in postfix order.  The outermost
division is never carried out. -/
example : (binary .divide
    (binary .add (number 1) (binary .divide (number (-7)) (number 0)))
    (binary .divide (number 5) (binary .subtract (number 2) (number 2)))).value =
      .error ⟨-7⟩ := rfl

end Expr
end Reckoner
