/-
# Sentences of the grammar

A list of token kinds is an expression, a term or a factor by the rules of the
grammar, and each derivation makes one expression of the tree kind.

```text
expression := term   | expression ('+' | '-') term
term       := factor | term ('*' | '/') factor
factor     := number | '(' expression ')'
```

A sentence is an expression within the two limits: at no token are more than 256
parentheses open, and there are at most 1024 operators.  A list of kinds is
viable if it can go on to a sentence.
-/

import Reckoner.Expr.Grammar

namespace Reckoner
namespace Grammar

mutual

/-- Terms joined by `+` and `-`, grouped to the left. -/
inductive IsExpression : List Token.Kind → Expr → Prop
  | term {kinds : List Token.Kind} {expr : Expr} (h : IsTerm kinds expr) : IsExpression kinds expr
  | join {left right : List Token.Kind} {lhs rhs : Expr} {s : Symbol} {operator : Operator}
      (hl : IsExpression left lhs) (hs : additive s = some operator) (hr : IsTerm right rhs) :
      IsExpression (left ++ .symbol s :: right) (.binary operator lhs rhs)

/-- Factors joined by `*` and `/`, grouped to the left. -/
inductive IsTerm : List Token.Kind → Expr → Prop
  | factor {kinds : List Token.Kind} {expr : Expr} (h : IsFactor kinds expr) : IsTerm kinds expr
  | join {left right : List Token.Kind} {lhs rhs : Expr} {s : Symbol} {operator : Operator}
      (hl : IsTerm left lhs) (hs : multiplicative s = some operator) (hr : IsFactor right rhs) :
      IsTerm (left ++ .symbol s :: right) (.binary operator lhs rhs)

/-- A number or an expression in parentheses. -/
inductive IsFactor : List Token.Kind → Expr → Prop
  | number (value : Int64) : IsFactor [.number value] (.number value)
  | group {kinds : List Token.Kind} {expr : Expr} (h : IsExpression kinds expr) :
      IsFactor (.symbol .leftParenthesis :: (kinds ++ [.symbol .rightParenthesis])) expr

end

/-- The operator that a symbol is, of either class. -/
def operator? (s : Symbol) : Option Operator := (additive s).or (multiplicative s)

/-- Whether a token is an operator. -/
def isOperator (kind : Token.Kind) : Bool := (kind.symbol?.bind operator?).isSome

/-- How many operators there are among some tokens. -/
def operatorCount (kinds : List Token.Kind) : Nat := kinds.countP isOperator

/-- Whether at no token more than `limit` parentheses are open. -/
def NestsWithin (limit : Nat) (kinds : List Token.Kind) : Prop :=
  ∀ first, first <+: kinds →
    first.count (.symbol .leftParenthesis) ≤ first.count (.symbol .rightParenthesis) + limit

/-- An expression within the limits on a line. -/
structure IsSentence (kinds : List Token.Kind) (expr : Expr) : Prop where
  isExpression : IsExpression kinds expr
  nestsWithin : NestsWithin maxNesting kinds
  operatorCount_le : operatorCount kinds ≤ maxOperators

/-- Whether some tokens can go on to a sentence. -/
def Viable (kinds : List Token.Kind) : Prop := ∃ more expr, IsSentence (kinds ++ more) expr

/-- Chains group to the left: `8 - 3 - 2` is `(8 - 3) - 2`. -/
example : IsExpression
    [.number 8, .symbol .minus, .number 3, .symbol .minus, .number 2]
    (.binary .subtract (.binary .subtract (.number 8) (.number 3)) (.number 2)) :=
  @IsExpression.join [.number 8, .symbol .minus, .number 3] [.number 2] _ _ .minus _
    (@IsExpression.join [.number 8] [.number 3] _ _ .minus _ (.term (.factor (.number 8))) rfl
      (.factor (.number 3)))
    rfl (.factor (.number 2))

end Grammar
end Reckoner
