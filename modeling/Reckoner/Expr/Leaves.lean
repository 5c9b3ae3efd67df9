/-
# The leaves of an expression

The numbers of an expression are its leaves, counted from left to right.  A leaf can be
exchanged for an expression (`Expr.withLeaf`).  What the whole comes to depends on nothing of
the new part but what that comes to (`Expr.value_withLeaf`).
-/

import Reckoner.Expr.Value

namespace Reckoner
namespace Expr

/-- The numbers of an expression, from left to right. -/
def leaves : Expr → List Int64
  | number value => [value]
  | binary _ lhs rhs => lhs.leaves ++ rhs.leaves

/-- The expression with one leaf, counted from 0, exchanged for another expression. -/
def withLeaf : Expr → (place : Nat) → (new : Expr) → Expr
  | number _, 0, new => new
  | number value, _ + 1, _ => number value
  | binary operator lhs rhs, place, new =>
    if place < lhs.leaves.length then binary operator (lhs.withLeaf place new) rhs
    else binary operator lhs (rhs.withLeaf (place - lhs.leaves.length) new)

variable {lhs rhs expr first second : Expr} {operator : Operator} {place : Nat}

/-- A leaf of the left operand is exchanged there. -/
theorem withLeaf_left (h : place < lhs.leaves.length) (new : Expr) :
    (binary operator lhs rhs).withLeaf place new =
      binary operator (lhs.withLeaf place new) rhs := by
  rw [withLeaf, if_pos h]

/-- A leaf behind those of the left operand is exchanged in the right one. -/
theorem withLeaf_right (place : Nat) (new : Expr) :
    (binary operator lhs rhs).withLeaf (lhs.leaves.length + place) new =
      binary operator lhs (rhs.withLeaf place new) := by
  rw [withLeaf, if_neg (Nat.not_lt.2 (Nat.le_add_right _ _)), Nat.add_sub_cancel_left]

/-- A leaf exchanged for itself changes nothing. -/
theorem withLeaf_self {value : Int64} (h : expr.leaves[place]? = some value) :
    expr.withLeaf place (.number value) = expr := by
  induction expr generalizing place with
  | number found =>
    cases place with
    | zero => rw [withLeaf, Option.some.inj h]
    | succ place => rfl
  | binary operator lhs rhs ihl ihr =>
    rw [leaves, List.getElem?_append] at h
    by_cases hlt : place < lhs.leaves.length
    · rw [if_pos hlt] at h
      rw [withLeaf_left hlt, ihl h]
    · rw [if_neg hlt] at h
      rw [withLeaf, if_neg hlt, ihr h]

/-- **What comes to the same can be exchanged:** the value, or the first division by zero, of
the whole stays what it is. -/
theorem value_withLeaf (h : first.value = second.value) (expr : Expr) (place : Nat) :
    (expr.withLeaf place first).value = (expr.withLeaf place second).value := by
  induction expr generalizing place with
  | number value =>
    cases place with
    | zero => exact h
    | succ place => rfl
  | binary operator lhs rhs ihl ihr =>
    by_cases hlt : place < lhs.leaves.length
    · rw [withLeaf_left hlt, withLeaf_left hlt, value, value, ihl]
    · rw [withLeaf, withLeaf, if_neg hlt, if_neg hlt, value, value, ihr]

end Expr
end Reckoner
