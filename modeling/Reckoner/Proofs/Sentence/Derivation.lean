/-
# Derivations without precedence

Much of what derivations of the grammar keep does not depend on precedence, and then
expressions, terms and factors need no induction each (`Closed`).  An expression has the
operators of its tokens (`IsExpression.operatorCount_eq`), its parentheses are balanced
(`closed_balanced`), and how deep they nest is known from the parts (`NestsWithin.left`
and what comes behind it).
-/

import Reckoner.Expr.Derivation

namespace Reckoner

/-- How many operators an expression has. -/
def Expr.operators : Expr → Nat
  | number _ => 0
  | binary _ lhs rhs => lhs.operators + rhs.operators + 1

namespace Grammar

/-- What joins terms is an operator. -/
theorem operator?_of_additive {s : Symbol} {operator : Operator}
    (h : additive s = some operator) : operator? s = some operator := by
  rw [operator?, h]
  rfl

/-- What joins factors is an operator. -/
theorem operator?_of_multiplicative {s : Symbol} {operator : Operator}
    (h : multiplicative s = some operator) : operator? s = some operator := by
  cases s <;> first | exact h | cases h

/-- An operator is of one class or the other. -/
theorem additive_or_multiplicative {s : Symbol} {operator : Operator}
    (h : operator? s = some operator) :
    additive s = some operator ∨ multiplicative s = some operator := by
  cases s <;> first | exact .inl h | exact .inr h

/-- A property of numbers that parentheses and operators of either class keep. -/
structure Closed (motive : List Token.Kind → Expr → Prop) : Prop where
  number (value : Int64) : motive [.number value] (.number value)
  group {kinds : List Token.Kind} {expr : Expr} (h : motive kinds expr) :
    motive (.symbol .leftParenthesis :: (kinds ++ [.symbol .rightParenthesis])) expr
  join {left right : List Token.Kind} {lhs rhs : Expr} {s : Symbol} {operator : Operator}
    (hl : motive left lhs) (hs : operator? s = some operator) (hr : motive right rhs) :
    motive (left ++ .symbol s :: right) (.binary operator lhs rhs)

mutual

/-- **Induction on an expression, precedence apart.** -/
theorem IsExpression.of_closed {motive : List Token.Kind → Expr → Prop} (hm : Closed motive)
    {kinds : List Token.Kind} {expr : Expr} : IsExpression kinds expr → motive kinds expr
  | .term h => h.of_closed hm
  | .join hl hs hr => hm.join (hl.of_closed hm) (operator?_of_additive hs) (hr.of_closed hm)

/-- **Induction on a term,** precedence apart: a factor, or a chain with one operator more. -/
theorem IsTerm.of_closed {motive : List Token.Kind → Expr → Prop} (hm : Closed motive)
    {kinds : List Token.Kind} {expr : Expr} : IsTerm kinds expr → motive kinds expr
  | .factor h => h.of_closed hm
  | .join hl hs hr => hm.join (hl.of_closed hm) (operator?_of_multiplicative hs) (hr.of_closed hm)

/-- **Induction on a factor,** precedence apart: a number, or an expression in parentheses. -/
theorem IsFactor.of_closed {motive : List Token.Kind → Expr → Prop} (hm : Closed motive)
    {kinds : List Token.Kind} {expr : Expr} : IsFactor kinds expr → motive kinds expr
  | .number value => hm.number value
  | .group h => hm.group (h.of_closed hm)

end

/-! ## Operators -/

/-- Parentheses are no operators. -/
theorem operatorCount_group (kinds : List Token.Kind) :
    operatorCount (.symbol .leftParenthesis :: (kinds ++ [.symbol .rightParenthesis])) =
      operatorCount kinds := by
  simp [operatorCount, isOperator, Token.Kind.symbol?, operator?, additive, multiplicative]

/-- An operator between two parts is one more than they have. -/
theorem operatorCount_join {left right : List Token.Kind} {s : Symbol} {operator : Operator}
    (hs : operator? s = some operator) :
    operatorCount (left ++ .symbol s :: right) =
      operatorCount left + 1 + operatorCount right := by
  simp [operatorCount, isOperator, Token.Kind.symbol?, hs]
  omega

/-- **An expression has as many operators as its tokens.** -/
theorem IsExpression.operatorCount_eq {kinds : List Token.Kind} {expr : Expr}
    (h : IsExpression kinds expr) : operatorCount kinds = expr.operators := by
  have hm : Closed fun kinds expr => operatorCount kinds = expr.operators := by
    constructor
    · intro value
      rfl
    · intro kinds expr h
      rw [operatorCount_group, h]
    · intro left right lhs rhs s operator hl hs hr
      rw [operatorCount_join hs, hl, hr, Expr.operators]
      omega
  exact h.of_closed hm

/-! ## Parentheses -/

/-- Whether as many parentheses are closed as are opened. -/
def Balanced (kinds : List Token.Kind) : Prop :=
  kinds.count (.symbol .leftParenthesis) = kinds.count (.symbol .rightParenthesis)

/-- An operator is no parenthesis. -/
theorem ne_parenthesis_of_operator? {s : Symbol} {operator : Operator}
    (h : operator? s = some operator) : s ≠ .leftParenthesis ∧ s ≠ .rightParenthesis := by
  constructor <;> rintro rfl <;> cases h

/-- An operator is no parenthesis. -/
theorem balanced_operator {s : Symbol} {operator : Operator} (h : operator? s = some operator) :
    Balanced [.symbol s] := by
  obtain ⟨hleft, hright⟩ := ne_parenthesis_of_operator? h
  simp [Balanced, hleft, hright]

/-- Balanced parts make a balanced whole. -/
theorem Balanced.append {first second : List Token.Kind} (hf : Balanced first)
    (hs : Balanced second) : Balanced (first ++ second) := by
  unfold Balanced at *
  rw [List.count_append, List.count_append, hf, hs]

/-- Expressions close the parentheses that they open. -/
theorem closed_balanced : Closed fun kinds _ => Balanced kinds where
  number value := by simp [Balanced]
  group {kinds _} h := by
    have h : kinds.count _ = kinds.count _ := h
    simp [Balanced, h]
  join hl hs hr := hl.append (Balanced.append (balanced_operator hs) hr)

/-- A first part nests no deeper than the whole. -/
theorem NestsWithin.left {limit : Nat} {left right : List Token.Kind}
    (h : NestsWithin limit (left ++ right)) : NestsWithin limit left :=
  fun first hfirst => h first (hfirst.trans (List.prefix_append left right))

/-- A last part nests no deeper than the whole if what is in front of it is balanced. -/
theorem NestsWithin.right {limit : Nat} {left right : List Token.Kind} (hl : Balanced left)
    (h : NestsWithin limit (left ++ right)) : NestsWithin limit right := by
  intro first hfirst
  have := h (left ++ first) ((List.prefix_append_right_inj left).2 hfirst)
  rw [List.count_append, List.count_append, hl] at this
  omega

/-- Inside a pair of parentheses one level less is left. -/
theorem NestsWithin.inner {limit : Nat} {kinds : List Token.Kind}
    (h : NestsWithin limit (.symbol .leftParenthesis :: (kinds ++ [.symbol .rightParenthesis]))) :
    ∃ levels, limit = levels + 1 ∧ NestsWithin levels kinds := by
  have hpos : 0 < limit := by
    have := h [.symbol .leftParenthesis] ⟨_, rfl⟩
    simp at this
    omega
  refine ⟨limit - 1, by omega, fun first hfirst => ?_⟩
  have hin : first <+: kinds ++ [.symbol .rightParenthesis] :=
    hfirst.trans (List.prefix_append _ _)
  have := h (.symbol .leftParenthesis :: first) (List.cons_prefix_cons.2 ⟨rfl, hin⟩)
  simp at this
  omega

/-- One token more nests as deep as allowed if there are not too many parentheses
open behind it. -/
theorem NestsWithin.concat {limit : Nat} {kinds : List Token.Kind} {kind : Token.Kind}
    (h : NestsWithin limit kinds)
    (hlast : (kinds ++ [kind]).count (.symbol .leftParenthesis) ≤
      (kinds ++ [kind]).count (.symbol .rightParenthesis) + limit) :
    NestsWithin limit (kinds ++ [kind]) := by
  intro first hfirst
  rcases List.prefix_concat_iff.1 hfirst with rfl | hfirst
  · exact hlast
  · exact h first hfirst

end Grammar

end Reckoner
