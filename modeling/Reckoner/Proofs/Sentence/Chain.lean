/-
# Chains

The grammar is written with one operator at a time, its operands on the left being
chains themselves.  The same expressions are derived by the rules

```text
expression := term   (('+' | '-') term)*
term       := factor (('*' | '/') factor)*
```

if each chain is folded to the left (`isExpression_iff_isChain`, `isTerm_iff_isChain`).
-/

import Reckoner.Expr.Derivation

namespace Reckoner
namespace Grammar

/-- An operator of a chain and the operand behind it. -/
structure Link where
  s : Symbol
  operator : Operator
  kinds : List Token.Kind
  expr : Expr

/-- The tokens of a link. -/
def Link.tokens (link : Link) : List Token.Kind := .symbol link.s :: link.kinds

/-- What a link makes of the expression in front of it. -/
def Link.join (lhs : Expr) (link : Link) : Expr := .binary link.operator lhs link.expr

/-- **The rule `operand (operator operand)*`,** whose trees are folded to the left. -/
def IsChain (select : Symbol → Option Operator) (operand : List Token.Kind → Expr → Prop)
    (kinds : List Token.Kind) (expr : Expr) : Prop :=
  ∃ (first : List Token.Kind) (lhs : Expr) (links : List Link), operand first lhs ∧
    (∀ link ∈ links, select link.s = some link.operator ∧ operand link.kinds link.expr) ∧
    kinds = first ++ links.flatMap Link.tokens ∧ expr = links.foldl Link.join lhs

section Chain

variable {select : Symbol → Option Operator} {operand motive : List Token.Kind → Expr → Prop}
  {kinds right : List Token.Kind} {lhs rhs expr : Expr}

/-- One operand is a chain. -/
theorem IsChain.one (h : operand kinds expr) : IsChain select operand kinds expr :=
  ⟨kinds, expr, [], h, (fun _ hlink => by cases hlink), by simp, rfl⟩

/-- A chain goes on with one operator and one operand more, which are joined to all of it. -/
theorem IsChain.concat {s : Symbol} {operator : Operator} (hl : IsChain select operand kinds lhs)
    (hs : select s = some operator) (hr : operand right rhs) :
    IsChain select operand (kinds ++ .symbol s :: right) (.binary operator lhs rhs) := by
  obtain ⟨first, start, links, hfirst, hlinks, rfl, rfl⟩ := hl
  refine ⟨first, start, links ++ [⟨s, operator, right, rhs⟩], hfirst, ?_, ?_, ?_⟩
  · intro link hlink
    rcases List.mem_append.1 hlink with hlink | hlink
    · exact hlinks link hlink
    · obtain rfl := List.mem_singleton.1 hlink
      exact ⟨hs, hr⟩
  · simp [Link.tokens]
  · simp [Link.join]

/-- Induction on a chain, from its first operand on. -/
theorem IsChain.closed (h : IsChain select operand kinds expr)
    (hone : ∀ {kinds expr}, operand kinds expr → motive kinds expr)
    (hjoin : ∀ {left right lhs rhs s operator}, motive left lhs → select s = some operator →
      operand right rhs → motive (left ++ .symbol s :: right) (.binary operator lhs rhs)) :
    motive kinds expr := by
  obtain ⟨first, lhs, links, hfirst, hlinks, rfl, rfl⟩ := h
  have hlhs := hone hfirst
  clear hfirst
  induction links generalizing first lhs with
  | nil => simpa using hlhs
  | cons link links ih =>
    obtain ⟨hs, hr⟩ := hlinks link (List.mem_cons_self ..)
    have := ih (first ++ link.tokens) (link.join lhs)
      (fun other hother => hlinks other (List.mem_cons_of_mem _ hother)) (hjoin hlhs hs hr)
    simpa using this

end Chain

/-- The links of an expression are found from its last operator back to its first term. -/
theorem IsExpression.isChain {kinds : List Token.Kind} {expr : Expr}
    (h : IsExpression kinds expr) : IsChain additive IsTerm kinds expr := by
  cases h with
  | term h => exact .one h
  | join hl hs hr => exact hl.isChain.concat hs hr

/-- The links of a term are found likewise. -/
theorem IsTerm.isChain {kinds : List Token.Kind} {expr : Expr} (h : IsTerm kinds expr) :
    IsChain multiplicative IsFactor kinds expr := by
  cases h with
  | factor h => exact .one h
  | join hl hs hr => exact hl.isChain.concat hs hr

/-- **An expression is a chain of terms,** folded to the left. -/
theorem isExpression_iff_isChain {kinds : List Token.Kind} {expr : Expr} :
    IsExpression kinds expr ↔ IsChain additive IsTerm kinds expr :=
  ⟨IsExpression.isChain, fun h => h.closed .term .join⟩

/-- **A term is a chain of factors,** folded to the left. -/
theorem isTerm_iff_isChain {kinds : List Token.Kind} {expr : Expr} :
    IsTerm kinds expr ↔ IsChain multiplicative IsFactor kinds expr :=
  ⟨IsTerm.isChain, fun h => h.closed .factor .join⟩

end Grammar

end Reckoner
