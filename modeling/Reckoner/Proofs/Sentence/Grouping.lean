/-
# Infix expressions

An expression is written with its operators between their operands and with pairs of
parentheses, none or many, around any of its parts (`Grouped`).  Operands need a pair where
the grammar would group them otherwise (`Grouped.Sufficient`): on the left of an operator if
their own operator binds less tightly, and on the right also if it binds as tightly.  With
these pairs, and with any others, the tokens derive the expression that was written
(`Grouped.derives`).

The induction is on the expression.  What carries it is that an operand can stand in a
narrower place of the grammar the tighter its operator binds, and anywhere if it is in
parentheses.
-/

import Reckoner.Proofs.Sentence.TwoStacks

namespace Reckoner

open Grammar
open TwoStacks (strength)

/-- The symbol that an operator is written as. -/
def Operator.toSymbol : Operator → Symbol
  | add => .plus
  | subtract => .minus
  | multiply => .asterisk
  | divide => .slash

/-- Some things with so many pairs around them. -/
def enclose {α : Type} (opening closing : α) : Nat → List α → List α
  | 0, inner => inner
  | pairs + 1, inner => opening :: (enclose opening closing pairs inner ++ [closing])

/-! ## Places in the grammar -/

namespace Grammar

/-- Whether tokens derive an expression where operators have to bind at least so tightly: as
an expression, as a term, or as a factor. -/
def Derives : Nat → List Token.Kind → Expr → Prop
  | 0 => IsExpression
  | 1 => IsTerm
  | _ + 2 => IsFactor

variable {kinds left right : List Token.Kind} {expr lhs rhs : Expr}

/-- A factor can stand anywhere. -/
theorem IsFactor.derives (h : IsFactor kinds expr) (least : Nat) : Derives least kinds expr :=
  match least with
  | 0 => .term (.factor h)
  | 1 => .factor h
  | _ + 2 => h

/-- What can stand in a narrow place can stand in a wider one. -/
theorem Derives.of_le {lower least : Nat} (hle : lower ≤ least) (h : Derives least kinds expr) :
    Derives lower kinds expr := by
  rcases least with _ | _ | least
  · obtain rfl : lower = 0 := by omega
    exact h
  · have hterm : IsTerm kinds expr := h
    rcases lower with _ | _ | lower
    · exact .term hterm
    · exact hterm
    · omega
  · have hfactor : IsFactor kinds expr := h
    exact hfactor.derives lower

/-- **An operator joins what binds as tightly on its left and more tightly on its right.** -/
theorem Derives.join {operator : Operator} (hl : Derives (strength operator) left lhs)
    (hr : Derives (strength operator + 1) right rhs) :
    Derives (strength operator) (left ++ .symbol operator.toSymbol :: right)
      (.binary operator lhs rhs) := by
  cases operator with
  | add => exact IsExpression.join hl rfl hr
  | subtract => exact IsExpression.join hl rfl hr
  | multiply => exact IsTerm.join hl rfl hr
  | divide => exact IsTerm.join hl rfl hr

/-- Parentheses make a factor. -/
theorem IsExpression.isFactor_enclose (h : IsExpression kinds expr) (pairs : Nat) :
    IsFactor (enclose (.symbol .leftParenthesis) (.symbol .rightParenthesis) (pairs + 1) kinds)
      expr := by
  induction pairs with
  | zero => exact .group h
  | succ pairs ih => exact .group (.term (.factor ih))

end Grammar

/-! ## Expressions in parentheses -/

/-- An expression with so many pairs of parentheses around each of its parts. -/
inductive Grouped
  | number (pairs : Nat) (value : Int64)
  | binary (pairs : Nat) (operator : Operator) (lhs rhs : Grouped)
  deriving DecidableEq, Repr

namespace Grouped

/-- The expression that is in parentheses. -/
def expr : Grouped → Expr
  | number _ value => .number value
  | binary _ operator lhs rhs => .binary operator lhs.expr rhs.expr

/-- How many pairs there are around the whole. -/
def pairs : Grouped → Nat
  | number pairs _ => pairs
  | binary pairs _ _ _ => pairs

/-- The outermost operator. -/
def operator? : Grouped → Option Operator
  | number _ _ => none
  | binary _ operator _ _ => some operator

/-- The tokens, in the order in which they are written. -/
def kinds : Grouped → List Token.Kind
  | number pairs value =>
    enclose (.symbol .leftParenthesis) (.symbol .rightParenthesis) pairs [.number value]
  | binary pairs operator lhs rhs =>
    enclose (.symbol .leftParenthesis) (.symbol .rightParenthesis) pairs
      (lhs.kinds ++ .symbol operator.toSymbol :: rhs.kinds)

/-- Whether there are parentheses where the grouping would be another one without. -/
inductive Sufficient : Grouped → Prop
  | number (pairs : Nat) (value : Int64) : Sufficient (number pairs value)
  | binary {lhs rhs : Grouped} (pairs : Nat) (operator : Operator)
      (hl : lhs.Sufficient) (hr : rhs.Sufficient)
      (hleft : ∀ inner, lhs.operator? = some inner → strength inner < strength operator →
        0 < lhs.pairs)
      (hright : ∀ inner, rhs.operator? = some inner → strength inner ≤ strength operator →
        0 < rhs.pairs) :
      Sufficient (binary pairs operator lhs rhs)

/-- **An expression is derived from its tokens,** in each place that it can stand in. -/
theorem Sufficient.derives {grouped : Grouped} (h : grouped.Sufficient) {least : Nat}
    (hleast : ∀ inner, grouped.operator? = some inner → grouped.pairs = 0 →
      least ≤ strength inner) : Derives least grouped.kinds grouped.expr := by
  induction h generalizing least with
  | number pairs value =>
    cases pairs with
    | zero => exact (IsFactor.number value).derives least
    | succ pairs =>
      have hnumber : IsExpression [.number value] (.number value) := .term (.factor (.number value))
      exact (hnumber.isFactor_enclose pairs).derives least
  | @binary lhs rhs pairs operator _ _ hleft hright ihl ihr =>
    have hlhs : Derives (strength operator) lhs.kinds lhs.expr := by
      refine ihl fun inner hinner hzero => ?_
      have := hleft inner hinner
      omega
    have hrhs : Derives (strength operator + 1) rhs.kinds rhs.expr := by
      refine ihr fun inner hinner hzero => ?_
      have := hright inner hinner
      omega
    have hjoin := hlhs.join hrhs
    cases pairs with
    | zero => exact hjoin.of_le (hleast operator rfl rfl)
    | succ pairs =>
      have hexpression : IsExpression _ _ := hjoin.of_le (Nat.zero_le _)
      exact (hexpression.isFactor_enclose pairs).derives least

/-- **An expression in parentheses is a sentence** if it keeps within the limits. -/
theorem Sufficient.isSentence {grouped : Grouped} (h : grouped.Sufficient)
    (hnests : NestsWithin maxNesting grouped.kinds)
    (hcount : grouped.expr.operators ≤ maxOperators) : IsSentence grouped.kinds grouped.expr := by
  have hderives : Derives 0 grouped.kinds grouped.expr := h.derives fun _ _ _ => Nat.zero_le _
  have hexpression : IsExpression grouped.kinds grouped.expr := hderives
  refine ⟨hexpression, hnests, ?_⟩
  rw [hexpression.operatorCount_eq]
  exact hcount

end Grouped

end Reckoner
