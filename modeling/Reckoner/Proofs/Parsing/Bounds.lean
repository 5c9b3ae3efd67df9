/-
# How far a descent can go

Whatever a line holds, its reading is bounded (`isBounded`).  The limits of the grammar bound the
counters and with them the calls that are under way at once; the bytes of the line bound the
tokens that are taken and with them the steps, as each step leaves less to do than there was
(`Descent.Moves.potential_le`); and the operators of the line bound the tree.
-/

import Reckoner.Proofs.Parsing.Descent
import Reckoner.Proofs.Parsing.Substitution

namespace Reckoner

open Descent Grammar

/-! ## Tokens and bytes -/

/-- **Each token has a byte of its own.** -/
theorem ReadsOn.length_le {text front : List Char} {tokens : List Token} {last : Item}
    (h : ReadsOn text front tokens last) :
    byteLength front + tokens.length ≤ byteLength text := by
  induction h with
  | last htext =>
    rw [htext]
    simp [byteLength_append]
  | @token front gap literal _ _ tokens _ _ _ hitem hkind _ ih =>
    have hpos : byteLength literal ≠ 0 := fun h => hitem.ne_nil hkind (eq_nil_of_byteLength h)
    simp only [byteLength_append, List.length_cons] at ih ⊢
    omega

/-- A line has at most one item for each byte, and its end. -/
theorem length_items_le (text : List Char) : (items text).length ≤ byteLength text + 1 := by
  obtain ⟨tokens, last, hitems, hreads⟩ := exists_readsOn text [] text rfl
  have hitems : items text = tokens.map .ok ++ [last] := hitems
  have hle := hreads.length_le
  rw [byteLength_nil, Nat.zero_add] at hle
  simpa [hitems] using hle

namespace Descent

variable {line : Line}

/-- What has been taken of a line are its first tokens. -/
theorem Counted.taken_isPrefix {state : Descent} (h : Counted line state) :
    state.taken <+: line.tokens := by
  obtain ⟨item, later, hitems⟩ := h.items_eq
  rw [Line.tokens, hitems, List.filterMap_append, filterMap_token? (ne_endOfLine_of_items hitems)]
  exact List.prefix_append _ _

/-- **No more tokens are taken than there are bytes.** -/
theorem Counted.length_taken_le {state : Descent} (h : Counted line state) :
    state.taken.length ≤ byteLength line.text := by
  obtain ⟨item, later, hitems⟩ := h.items_eq
  have hle := length_items_le line.text
  simp only [hitems, List.length_append, List.length_map, List.length_cons] at hle
  omega

/-! ## Steps -/

/-- Each step takes one from what is left to do. -/
theorem potential_after_le (line : Line) (steps : Nat) :
    (after line steps).potential ≤ (ofLine line).potential - steps := by
  induction steps with
  | zero => exact Nat.le_refl _
  | succ steps ih =>
    have hstep := (moves_step (after line steps)).potential_le
    rw [after]
    omega

/-- **What there is to do on a line** is bounded by its bytes: each item is worth five steps, and
the beginning six more. -/
theorem potential_ofLine_le (line : Line) :
    (ofLine line).potential ≤ 5 * byteLength line.text + 11 := by
  have hle := length_items_le line.text
  have heq : (ofLine line).potential = 5 * (items line.text).length + 6 := rfl
  omega

/-- **A descent is done** after a number of steps that the length of the line tells. -/
theorem control_after (line : Line) {steps : Nat} (h : 5 * byteLength line.text + 11 ≤ steps) :
    (after line steps).control = .done line.expr? := by
  have hle := potential_after_le line steps
  have hfirst := potential_ofLine_le line
  obtain ⟨result, hcontrol⟩ := @control_eq_done_of_potential (after line steps) (by omega)
  have hstands := (sound_after line steps).stands
  rw [hcontrol] at hstands
  rw [hcontrol, hstands]

end Descent

/-! ## Trees -/

/-- How many levels a tree has. -/
def Expr.levels : Expr → Nat
  | number _ => 1
  | binary _ lhs rhs => max lhs.levels rhs.levels + 1

/-- An expression has at most one level more than operators, since each level but the last has one.
-/
theorem Expr.levels_le (expr : Expr) : expr.levels ≤ expr.operators + 1 := by
  induction expr with
  | number value => exact Nat.le_refl _
  | binary operator lhs rhs ihl ihr =>
    simp only [levels, operators]
    omega

/-- The leaves of a line are values of its numbers, and a number has no sign. -/
theorem nonneg_of_mem_leaves {line : Line} {expr : Expr} (h : line.expr? = .ok (some expr))
    {value : Int64} (hvalue : value ∈ expr.leaves) : 0 ≤ value.toInt := by
  obtain ⟨last, hreads, hsentence⟩ := exists_readsOn_tokens h
  rw [← hsentence.isExpression.of_closed closed_leaves, numbers, List.mem_filterMap] at hvalue
  obtain ⟨kind, hkind, hnumber⟩ := hvalue
  obtain ⟨token, htoken, rfl⟩ := List.mem_map.1 hkind
  obtain ⟨before, after, -, -, hitem⟩ := hreads.exists_of_mem htoken
  have hkind : token.kind = .number value := by
    cases hk : token.kind <;> rw [hk] at hnumber <;> cases hnumber
    rfl
  rw [(hitem.of_number hkind).1]
  exact Int.natCast_nonneg _

/-- How the reading of a line is bounded, at every step and in what comes of it. -/
structure IsBounded (line : Line) : Prop where
  /-- The counter of open parentheses is that of the groups that are under way, and of the
  parentheses that are open among the tokens that have been taken. -/
  depth : ∀ steps, (after line steps).calls.count .group = (after line steps).depth ∧
    ((after line steps).taken.map Token.kind).count (.symbol .leftParenthesis) =
      ((after line steps).taken.map Token.kind).count (.symbol .rightParenthesis) +
        (after line steps).depth
  depth_le : ∀ steps, (after line steps).depth ≤ 256
  /-- So many sums are called and have not ended. -/
  sums_le : ∀ steps, (after line steps).sums ≤ 257
  /-- The counter of operators is that of the tokens that have been taken. -/
  operators : ∀ steps, (after line steps).operators =
    operatorCount ((after line steps).taken.map Token.kind)
  operators_le : ∀ steps, (after line steps).operators ≤ 1025
  /-- The tokens that have been taken are the first ones of the line. -/
  taken : ∀ steps, (after line steps).taken <+: line.tokens
  length_taken_le : ∀ steps, (after line steps).taken.length ≤ byteLength line.text
  /-- The reading comes to an end, and with what the rules of the grammar give. -/
  done : ∀ steps, 5 * byteLength line.text + 11 ≤ steps →
    (after line steps).control = .done line.expr?
  /-- The tree has a node for each operator of the line, and so it has not more than 1024 of them
  and not more than 1025 levels; its leaves have no sign. -/
  tree : ∀ expr, line.expr? = .ok (some expr) → expr.operators = operatorCount line.kinds ∧
    expr.operators ≤ 1024 ∧ expr.levels ≤ 1025 ∧
    ∀ value ∈ expr.leaves, 0 ≤ value.toInt ∧ value.toInt ≤ 9223372036854775807

/-- **The reading of every line is bounded,** and so is the tree that it gives. -/
theorem isBounded (line : Line) : IsBounded line := by
  have hcounted steps := (sound_after line steps).counted
  constructor
  case depth => exact fun steps => ⟨(hcounted steps).count_group, (hcounted steps).opened⟩
  case depth_le => exact fun steps => (hcounted steps).depth_le
  case sums_le =>
    exact fun steps =>
      Nat.le_trans (hcounted steps).sums_le (Nat.succ_le_succ (hcounted steps).depth_le)
  case operators => exact fun steps => (hcounted steps).operators_eq.symm
  case operators_le => exact fun steps => (hcounted steps).operators_le
  case taken => exact fun steps => (hcounted steps).taken_isPrefix
  case length_taken_le => exact fun steps => (hcounted steps).length_taken_le
  case done => exact fun steps h => control_after line h
  case tree =>
    intro expr h
    obtain ⟨-, -, hsentence⟩ := exists_readsOn_tokens h
    have hcount := hsentence.isExpression.operatorCount_eq
    have hle : expr.operators ≤ 1024 := hcount ▸ hsentence.operatorCount_le
    refine ⟨hcount.symm, hle, Nat.le_trans expr.levels_le (Nat.succ_le_succ hle), ?_⟩
    intro value hvalue
    have hmax : value.toInt < 9223372036854775808 := value.toInt_lt
    exact ⟨nonneg_of_mem_leaves h hvalue, by omega⟩

/-- Behind `((` two parentheses are open, and an expression is wanted in the inner one. -/
example : (after ⟨none, ['(', '(', '7', ')', ')']⟩ 7).depth = 2 ∧
    (after ⟨none, ['(', '(', '7', ')', ')']⟩ 7).sums = 3 := by
  decide +kernel

end Reckoner
