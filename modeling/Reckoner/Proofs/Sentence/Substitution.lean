/-
# Exchanging a number for a factor

In a derivation each number can be exchanged for any other factor, and the tree that is
derived changes in one leaf (`IsExpression.exchanges`).  Which leaf that is can be told from the
tokens, since the numbers among them are the leaves (`closed_leaves`).

If an expression in parentheses takes the place of a number, the limits are kept as long as the
operators of both are not too many and the expression does not nest too deeply for the place
(`IsSentence.exchange`): nothing else about what is around it matters.

How deep a place is is known from the tokens in front of it (`opened`), and how deep tokens nest
from all their prefixes (`nesting`); a prefix of the new tokens ends in front of the place, inside
the parentheses or behind them, and each of these keeps the limit for a reason of its own
(`NestsWithin.exchange`).
-/

import Mathlib.Data.List.Infix
import Reckoner.Expr.Leaves
import Reckoner.Proofs.Sentence.Derivation

namespace Reckoner

/-- The value of a number. -/
def Token.Kind.number? : Token.Kind → Option Int64
  | .number value => some value
  | .symbol _ | .endOfLine => none

namespace Grammar

/-- The numbers among some tokens. -/
def numbers (kinds : List Token.Kind) : List Int64 := kinds.filterMap Token.Kind.number?

/-- How many parentheses some tokens leave open. -/
def opened (kinds : List Token.Kind) : Nat :=
  kinds.count (.symbol .leftParenthesis) - kinds.count (.symbol .rightParenthesis)

/-- How many parentheses are open at once in some tokens, at most. -/
def nesting (kinds : List Token.Kind) : Nat := (kinds.inits.map opened).foldr max 0

variable {kinds left right inner new : List Token.Kind} {expr whole part : Expr} {value : Int64}

/-! ## Numbers and leaves -/

/-- The numbers of two sequences are those of the one and of the other. -/
theorem numbers_append (first second : List Token.Kind) :
    numbers (first ++ second) = numbers first ++ numbers second := List.filterMap_append

/-- A number in front is the first one. -/
theorem numbers_cons_number (value : Int64) (kinds : List Token.Kind) :
    numbers (.number value :: kinds) = value :: numbers kinds := rfl

/-- A symbol is no number. -/
theorem numbers_cons_symbol (s : Symbol) (kinds : List Token.Kind) :
    numbers (.symbol s :: kinds) = numbers kinds := rfl

/-- **The numbers among the tokens of an expression are its leaves.** -/
theorem closed_leaves : Closed fun kinds expr => numbers kinds = expr.leaves where
  number value := rfl
  group {kinds _} h := by
    have hgroup : numbers (.symbol .leftParenthesis :: (kinds ++ [.symbol .rightParenthesis])) =
        numbers kinds ++ [] := numbers_append kinds [.symbol .rightParenthesis]
    rw [hgroup, List.append_nil, h]
  join {left right _ _ s _} hl _ hr := by
    have hjoin : numbers (left ++ .symbol s :: right) = numbers left ++ numbers right :=
      numbers_append left (.symbol s :: right)
    rw [hjoin, hl, hr, Expr.leaves]

/-! ## Derivations -/

/-- A number that is not the symbol itself stands in front of the symbol or behind it. -/
theorem exists_of_append_symbol {s : Symbol} {first second : List Token.Kind}
    (h : first ++ .symbol s :: second = left ++ .number value :: right) :
    (∃ rest, first = left ++ .number value :: rest ∧ right = rest ++ .symbol s :: second) ∨
      ∃ rest, second = rest ++ .number value :: right ∧ left = first ++ .symbol s :: rest := by
  rcases List.append_eq_append_iff.1 h with ⟨more, rfl, hmore⟩ | ⟨more, rfl, hmore⟩
  · cases more with
    | nil => cases hmore
    | cons kind rest =>
      obtain ⟨rfl, rfl⟩ := List.cons.inj hmore
      exact .inr ⟨rest, rfl, rfl⟩
  · cases more with
    | nil => cases hmore
    | cons kind rest =>
      obtain ⟨rfl, rfl⟩ := List.cons.inj hmore
      exact .inl ⟨rest, rfl, rfl⟩

/-- Whether in some tokens each number can be exchanged for the tokens of a part, so that what is
derived has the part for its leaf there. -/
def Exchanges (new : List Token.Kind) (part : Expr) (derives : List Token.Kind → Expr → Prop)
    (kinds : List Token.Kind) (whole : Expr) : Prop :=
  ∀ left value right, kinds = left ++ .number value :: right →
    derives (left ++ new ++ right) (whole.withLeaf (numbers left).length part)

section Exchanges

variable {first second all : List Token.Kind → Expr → Prop} {lhs rhs : Expr} {s : Symbol}
  {operator : Operator}

/-- A number can be exchanged for a factor. -/
theorem exchanges_number (hnew : IsFactor new part) (value : Int64) :
    Exchanges new part IsFactor [.number value] (.number value) := by
  intro before found after heq
  rcases List.append_eq_singleton_iff.1 heq.symm with ⟨rfl, htail⟩ | ⟨-, htail⟩
  · obtain ⟨-, rfl⟩ := List.cons.inj htail
    rw [List.nil_append, List.append_nil]
    exact hnew
  · cases htail

/-- If numbers can be exchanged in an expression they can in parentheses, too. -/
theorem Exchanges.group (h : Exchanges new part IsExpression kinds whole) :
    Exchanges new part IsFactor
      (.symbol .leftParenthesis :: (kinds ++ [.symbol .rightParenthesis])) whole := by
  intro before value after heq
  cases before with
  | nil => cases heq
  | cons kind before =>
    obtain ⟨rfl, htail⟩ := List.cons.inj heq
    rcases exists_of_append_symbol htail with ⟨rest, hkinds, rfl⟩ | ⟨rest, hnil, -⟩
    · have hgroup := IsFactor.group (h before value rest hkinds)
      rw [numbers_cons_symbol]
      simpa using hgroup
    · exact absurd hnil.symm (by simp)

/-- **If numbers can be exchanged in two operands they can in both together.**  In the operand on
the right they come behind the leaves of the one on the left. -/
theorem Exchanges.join (hall : ∀ {left right lhs rhs}, first left lhs → second right rhs →
      all (left ++ .symbol s :: right) (.binary operator lhs rhs))
    (hleaves : numbers left = lhs.leaves) (hlhs : first left lhs) (hrhs : second right rhs)
    (hl : Exchanges new part first left lhs) (hr : Exchanges new part second right rhs) :
    Exchanges new part all (left ++ .symbol s :: right) (.binary operator lhs rhs) := by
  intro before value after heq
  rcases exists_of_append_symbol heq with ⟨rest, rfl, rfl⟩ | ⟨rest, rfl, rfl⟩
  · have hlt : (numbers before).length < lhs.leaves.length := by
      rw [← hleaves, numbers_append, List.length_append, numbers_cons_number, List.length_cons]
      omega
    have hjoin := hall (hl before value rest rfl) hrhs
    rw [Expr.withLeaf_left hlt]
    simpa using hjoin
  · have hjoin := hall hlhs (hr rest value after rfl)
    rw [numbers_append, numbers_cons_symbol, List.length_append, hleaves, Expr.withLeaf_right]
    simpa using hjoin

end Exchanges

mutual

/-- **In an expression a number can be exchanged for a factor.** -/
theorem IsExpression.exchanges (hnew : IsFactor new part) {kinds : List Token.Kind}
    {whole : Expr} : IsExpression kinds whole → Exchanges new part IsExpression kinds whole
  | .term h => fun left value right heq => .term (h.exchanges hnew left value right heq)
  | .join hl hs hr => .join (fun hl hr => .join hl hs hr) (hl.of_closed closed_leaves) hl hr
      (hl.exchanges hnew) (hr.exchanges hnew)

/-- Numbers can be exchanged in a term: in the term that it goes on from, or in its last factor. -/
theorem IsTerm.exchanges (hnew : IsFactor new part) {kinds : List Token.Kind} {whole : Expr} :
    IsTerm kinds whole → Exchanges new part IsTerm kinds whole
  | .factor h => fun left value right heq =>
    .factor (IsFactor.exchanges hnew h left value right heq)
  | .join hl hs hr => .join (fun hl hr => .join hl hs hr) (hl.of_closed closed_leaves) hl hr
      (hl.exchanges hnew) (IsFactor.exchanges hnew hr)

/-- Numbers can be exchanged in a factor: the number that it is, or one inside its parentheses. -/
theorem IsFactor.exchanges (hnew : IsFactor new part) {kinds : List Token.Kind} {whole : Expr} :
    IsFactor kinds whole → Exchanges new part IsFactor kinds whole
  | .number value => exchanges_number hnew value
  | .group h => (h.exchanges hnew).group

end

/-! ## Limits -/

/-- The greatest of some depths is within a limit if all of them are. -/
theorem foldr_max_le_iff {limit : Nat} {depths : List Nat} :
    depths.foldr max 0 ≤ limit ↔ ∀ depth ∈ depths, depth ≤ limit := by
  induction depths with
  | nil => simp
  | cons depth depths ih => rw [List.foldr_cons, Nat.max_le, ih, List.forall_mem_cons]

/-- **Some tokens keep within the levels that they nest to,** and within no fewer. -/
theorem nestsWithin_iff {limit : Nat} : NestsWithin limit kinds ↔ nesting kinds ≤ limit := by
  rw [nesting, foldr_max_le_iff, List.forall_mem_map]
  simp only [List.mem_inits, opened, Nat.sub_le_iff_le_add']
  exact Iff.rfl

/-- A prefix ends in the first part or in the second. -/
theorem prefix_append_cases {α : Type} {first left right : List α} (h : first <+: left ++ right) :
    first <+: left ∨ ∃ more, more <+: right ∧ first = left ++ more := by
  obtain ⟨rest, hrest⟩ := h
  rcases List.append_eq_append_iff.1 hrest with ⟨more, rfl, -⟩ | ⟨more, rfl, rfl⟩
  · exact .inl (List.prefix_append _ _)
  · exact .inr ⟨more, List.prefix_append _ _, rfl⟩

/-- **In the place of a number parentheses keep within a limit** if their inner part leaves room
for those that are open there. -/
theorem NestsWithin.exchange {limit levels : Nat} {value : Int64}
    (h : NestsWithin limit (left ++ .number value :: right)) (hbalanced : Balanced inner)
    (hinner : NestsWithin levels inner) (hroom : opened left + 1 + levels ≤ limit) :
    NestsWithin limit
      (left ++ .symbol .leftParenthesis :: (inner ++ .symbol .rightParenthesis :: right)) := by
  have hfree : left.count (.symbol .leftParenthesis) ≤
      left.count (.symbol .rightParenthesis) + opened left := by
    rw [opened]
    omega
  intro first hfirst
  rcases prefix_append_cases hfirst with hleft | ⟨more, hmore, rfl⟩
  · exact h.left first hleft
  rcases List.prefix_cons_iff.1 hmore with rfl | ⟨opening, rfl, hopening⟩
  · simp
    omega
  rcases prefix_append_cases hopening with hpart | ⟨closing, hclosing, rfl⟩
  · have := hinner opening hpart
    simp
    omega
  rw [Balanced] at hbalanced
  rcases List.prefix_cons_iff.1 hclosing with rfl | ⟨behind, rfl, hbehind⟩
  · simp
    omega
  · have hwhole : left ++ .number value :: behind <+: left ++ .number value :: right :=
      (List.prefix_append_right_inj left).2 (List.cons_prefix_cons.2 ⟨rfl, hbehind⟩)
    have := h _ hwhole
    simp at this ⊢
    omega

/-- The operators of two sequences add up. -/
theorem operatorCount_append (first second : List Token.Kind) :
    operatorCount (first ++ second) = operatorCount first + operatorCount second :=
  List.countP_append

/-- A number is no operator. -/
theorem operatorCount_cons_number (value : Int64) (kinds : List Token.Kind) :
    operatorCount (.number value :: kinds) = operatorCount kinds :=
  List.countP_cons_of_neg Bool.false_ne_true

/-- **A sentence in parentheses can take the place of a number** if the limits have room for
both. -/
theorem IsSentence.exchange {value : Int64}
    (h : IsSentence (left ++ .number value :: right) whole) (hpart : IsSentence inner part)
    (hnests : opened left + 1 + nesting inner ≤ maxNesting)
    (hcount : operatorCount (left ++ .number value :: right) + operatorCount inner ≤
      maxOperators) :
    IsSentence
      (left ++ .symbol .leftParenthesis :: (inner ++ .symbol .rightParenthesis :: right))
      (whole.withLeaf (numbers left).length part) := by
  have hgroup : IsFactor
      (.symbol .leftParenthesis :: (inner ++ [.symbol .rightParenthesis])) part :=
    .group hpart.isExpression
  constructor
  · have hexchanged := h.isExpression.exchanges hgroup left value right rfl
    simpa using hexchanged
  · exact h.nestsWithin.exchange (hpart.isExpression.of_closed closed_balanced)
      (nestsWithin_iff.2 (Nat.le_refl _)) hnests
  · have hsplit :
        left ++ .symbol .leftParenthesis :: (inner ++ .symbol .rightParenthesis :: right) = left ++
          (.symbol .leftParenthesis :: (inner ++ [.symbol .rightParenthesis])) ++ right := by
      simp
    rw [hsplit, operatorCount_append, operatorCount_append, operatorCount_group]
    rw [operatorCount_append, operatorCount_cons_number] at hcount
    omega

end Grammar
end Reckoner
