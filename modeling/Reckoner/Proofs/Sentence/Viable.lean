/-
# Sentences and the automaton

The automaton counts and builds nothing, and yet it knows what the grammar knows.  It
gets through some tokens and ends behind an operand with no parenthesis open just when
they are a sentence (`exists_isSentence_iff`), and it gets through them at all just when
they can go on to a sentence (`viable_iff`): every state that it reaches has a
completion (`run_completion`).

From a run to a sentence the induction is on the tokens, and the invariant (`Reached`)
says what the parentheses that are still open wait for (`Wants`, `Completes`).  The tokens
are taken from the left, as the automaton takes them, while the grammar derives an
expression from its last operator; what the two have in common is that an expression goes on
with an operator and a factor (`exists_isExpression_join`).
-/

import Reckoner.Proofs.Sentence.Run

namespace Reckoner
namespace Automaton

open Grammar

/-! ## From a run to a sentence -/

mutual

/-- Tokens behind which an operand is wanted, with so many parentheses open. -/
inductive Wants : Nat → List Token.Kind → Prop
  /-- In front of the line. -/
  | start : Wants 0 []
  /-- Behind an opening parenthesis. -/
  | opening {opened : Nat} {kinds : List Token.Kind} (h : Wants opened kinds) :
      Wants (opened + 1) (kinds ++ [.symbol .leftParenthesis])
  /-- Behind an operator. -/
  | operator {opened : Nat} {kinds : List Token.Kind} {s : Symbol} {operator : Operator}
      (h : Completes opened kinds) (hs : operator? s = some operator) :
      Wants opened (kinds ++ [.symbol s])

/-- Tokens that end with a complete operand: an expression behind what the open
parentheses were wanted by. -/
inductive Completes : Nat → List Token.Kind → Prop
  /-- The expression is all that there is. -/
  | outermost {kinds : List Token.Kind} {expr : Expr} (h : IsExpression kinds expr) :
      Completes 0 kinds
  /-- The expression is behind the last parenthesis that is open. -/
  | inner {opened : Nat} {outer kinds : List Token.Kind} {expr : Expr} (ho : Wants opened outer)
      (h : IsExpression kinds expr) :
      Completes (opened + 1) (outer ++ .symbol .leftParenthesis :: kinds)

end

/-- An expression goes on with an operator of either class and a factor; one that
binds more tightly joins the last term. -/
theorem exists_isExpression_join {left right : List Token.Kind} {lhs rhs : Expr} {s : Symbol}
    {operator : Operator} (hl : IsExpression left lhs) (hs : operator? s = some operator)
    (hr : IsFactor right rhs) : ∃ expr, IsExpression (left ++ .symbol s :: right) expr := by
  rcases additive_or_multiplicative hs with hs | hs
  · exact ⟨_, .join hl hs (.factor hr)⟩
  · cases hl with
    | term ht => exact ⟨_, .term (.join ht hs hr)⟩
    | @join first last _ _ t _ hf ht hlast =>
      have hjoin := IsExpression.join hf ht (.join hlast hs hr)
      rw [← List.cons_append, ← List.append_assoc] at hjoin
      exact ⟨_, hjoin⟩

/-- A factor is an operand wherever one is wanted. -/
theorem Wants.append {opened : Nat} {kinds operand : List Token.Kind} {expr : Expr}
    (h : Wants opened kinds) (ho : IsFactor operand expr) :
    Completes opened (kinds ++ operand) := by
  cases h with
  | start => exact .outermost (.term (.factor ho))
  | opening h =>
    rw [List.append_assoc]
    exact .inner h (.term (.factor ho))
  | @operator _ kinds s _ h hs =>
    rw [List.append_assoc]
    cases h with
    | outermost h =>
      obtain ⟨expr, hjoin⟩ := exists_isExpression_join h hs ho
      exact .outermost hjoin
    | @inner opened outer kinds _ houter h =>
      obtain ⟨expr, hjoin⟩ := exists_isExpression_join h hs ho
      rw [List.append_assoc]
      exact .inner houter hjoin

/-- A closing parenthesis makes an operand of the expression that it closes. -/
theorem Completes.close {opened : Nat} {kinds : List Token.Kind}
    (h : Completes (opened + 1) kinds) :
    Completes opened (kinds ++ [.symbol .rightParenthesis]) := by
  cases h with
  | inner houter h =>
    rw [List.append_assoc]
    exact houter.append (.group h)

/-- What holds of the tokens that have brought the automaton into a state. -/
structure Reached (kinds : List Token.Kind) (state : State) : Prop where
  /-- The bit says what the tokens end with. -/
  shape : if state.wanted then Wants state.opened kinds else Completes state.opened kinds
  /-- The tokens keep within the limit on nesting. -/
  nestsWithin : NestsWithin maxNesting kinds
  /-- The one counter is that of the open parentheses. -/
  opened : kinds.count (.symbol .leftParenthesis) =
    kinds.count (.symbol .rightParenthesis) + state.opened
  /-- It is at its limit at most. -/
  opened_le : state.opened ≤ maxNesting
  /-- The other counter is that of the operators. -/
  operators : operatorCount kinds = state.operators
  /-- It is at its limit at most. -/
  operators_le : state.operators ≤ maxOperators

/-- The automaton in front of a line has been reached by nothing. -/
theorem reached_initial : Reached [] initial where
  shape := .start
  nestsWithin := fun first h => by simp [List.prefix_nil.1 h]
  opened := rfl
  opened_le := Nat.zero_le _
  operators := rfl
  operators_le := Nat.zero_le _

/-- **A step keeps what holds of the tokens so far.**  One case for each of the four kinds of steps.
-/
theorem Reached.step {kinds : List Token.Kind} {state after : State} {kind : Token.Kind}
    (h : Reached kinds state) (hs : Steps state kind after) : Reached (kinds ++ [kind]) after := by
  obtain ⟨hshape, hnests, hopened, hopened_le, hoperators, hoperators_le⟩ := h
  cases hs with
  | number value =>
    dsimp only at *
    refine ⟨hshape.append (.number value), hnests.concat ?_, ?_, hopened_le, ?_, hoperators_le⟩
    · simp
      omega
    · simpa using hopened
    · simpa [operatorCount, isOperator, Token.Kind.symbol?] using hoperators
  | opening hlt =>
    dsimp only at *
    refine ⟨.opening hshape, hnests.concat ?_, ?_, hlt, ?_, hoperators_le⟩
    · simp
      omega
    · simp
      omega
    · simpa [operatorCount, isOperator, Token.Kind.symbol?, operator?, additive,
        multiplicative] using hoperators
  | operator hs hlt =>
    obtain ⟨hleft, hright⟩ := ne_parenthesis_of_operator? hs
    dsimp only at *
    refine ⟨.operator hshape hs, hnests.concat ?_, ?_, hopened_le, ?_, hlt⟩
    · simp [hleft, hright]
      omega
    · simpa [hleft, hright] using hopened
    · simpa [operatorCount, isOperator, Token.Kind.symbol?, hs] using hoperators
  | closing =>
    dsimp only at *
    refine ⟨Completes.close hshape, hnests.concat ?_, ?_, Nat.le_of_succ_le hopened_le, ?_,
      hoperators_le⟩
    · simp
      omega
    · simp
      omega
    · simpa [operatorCount, isOperator, Token.Kind.symbol?, operator?, additive,
        multiplicative] using hoperators

/-- **A run keeps what holds of the tokens so far.** -/
theorem Reached.run {kinds more : List Token.Kind} {state last : State} (h : Reached kinds state)
    (hrun : run state more = .ok last) : Reached (kinds ++ more) last := by
  induction more generalizing kinds state with
  | nil =>
    cases hrun
    rwa [List.append_nil]
  | cons kind more ih =>
    obtain ⟨after, hs, hrun⟩ := run_cons_eq_ok_iff.1 hrun
    have := ih (h.step hs) hrun
    rwa [List.append_assoc] at this

/-- A run from the start that ends behind an operand with no parenthesis open has
read a sentence. -/
theorem exists_isSentence_of_run {kinds : List Token.Kind} {operators : Nat}
    (h : run initial kinds = .ok ⟨false, 0, operators⟩) : ∃ expr, IsSentence kinds expr := by
  obtain ⟨hshape, hnests, -, -, hoperators, hoperators_le⟩ := reached_initial.run h
  cases hshape with
  | outermost hexpr =>
    exact ⟨_, hexpr, hnests, Nat.le_trans (Nat.le_of_eq hoperators) hoperators_le⟩

/-- **The automaton accepts exactly the sentences.** -/
theorem exists_isSentence_iff {kinds : List Token.Kind} :
    (∃ expr, IsSentence kinds expr) ↔
      ∃ operators, run initial kinds = .ok ⟨false, 0, operators⟩ :=
  ⟨fun ⟨_, h⟩ => ⟨_, run_of_isSentence h⟩, fun ⟨_, h⟩ => exists_isSentence_of_run h⟩

/-! ## Viable tokens -/

/-- Tokens with which a sentence can end from a state: an operand if one is wanted,
and a closing parenthesis for each one that is open. -/
def completion (state : State) : List Token.Kind :=
  (if state.wanted then [.number 0] else []) ++
    List.replicate state.opened (.symbol .rightParenthesis)

/-- As many closing parentheses as are open close them all. -/
theorem run_closing (opened operators : Nat) :
    run ⟨false, opened, operators⟩ (List.replicate opened (.symbol .rightParenthesis)) =
      .ok ⟨false, 0, operators⟩ := by
  induction opened with
  | zero => rfl
  | succ opened ih => exact run_cons_eq_ok_iff.2 ⟨_, .closing, ih⟩

/-- **Every state has a completion.** -/
theorem run_completion (state : State) :
    run state (completion state) = .ok ⟨false, 0, state.operators⟩ := by
  obtain ⟨wanted, opened, operators⟩ := state
  cases wanted with
  | true => exact run_cons_eq_ok_iff.2 ⟨_, .number 0, run_closing opened operators⟩
  | false => exact run_closing opened operators

/-- **The automaton gets through exactly the viable tokens.** -/
theorem viable_iff {kinds : List Token.Kind} :
    Viable kinds ↔ ∃ state, run initial kinds = .ok state := by
  constructor
  · rintro ⟨more, expr, h⟩
    obtain ⟨middle, hrun, -⟩ := run_append_eq_ok_iff.1 (run_of_isSentence h)
    exact ⟨middle, hrun⟩
  · rintro ⟨state, hrun⟩
    have hall := run_append_eq_ok_iff.2 ⟨state, hrun, run_completion state⟩
    obtain ⟨expr, h⟩ := exists_isSentence_of_run hall
    exact ⟨completion state, expr, h⟩

end Automaton
end Reckoner
