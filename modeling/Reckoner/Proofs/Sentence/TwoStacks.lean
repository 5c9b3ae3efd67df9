/-
# Reading with two stacks

The tokens of an expression can be worked off from left to right with a stack of
values and a stack of what is pending, which is operators and open parentheses:

| token | what is done |
| --- | --- |
| number | its value is pushed |
| `(` | it is pushed on what is pending |
| operator | what binds at least as tightly is applied, then it is pushed |
| `)` | everything down to the `(` is applied, and the `(` taken away |
| end of line | everything is applied |

What a value is is left open (`Algebra`).  Whatever it is, the stacks come to what
folding the tree of the expression comes to, and to the same error if there is one
(`IsExpression.settles`).  With trees for values they give back the tree itself,
so that no tokens derive two trees (`IsExpression.unique`).

What the stacks hold in front of an expression stays there: an expression is worked
off on top of it.  Whether an operator below would be applied is a matter of how
tightly it binds, and so is what may stand behind the expression before it is all
applied; one bound says both (`Settles`).  It is 0 for an expression, 1 for a term
and 2 for a factor, behind which no operator is left to apply.
-/

import Reckoner.Proofs.Sentence.Derivation

namespace Reckoner
namespace TwoStacks

open Grammar (IsExpression IsTerm IsFactor additive multiplicative operator?)

/-- What numbers stand for, and what operators make of two such things. -/
structure Algebra (ε α : Type) where
  /-- What a number stands for. -/
  number : Int64 → α
  /-- What an operator makes of the left and the right operand, or why it cannot. -/
  apply : Operator → α → α → Except ε α

variable {ε α : Type}

/-- What an expression stands for, worked out from left to right, or the first
error on the way. -/
def Algebra.fold (algebra : Algebra ε α) : Expr → Except ε α
  | .number value => pure (algebra.number value)
  | .binary operator lhs rhs => do
    let left ← algebra.fold lhs
    let right ← algebra.fold rhs
    algebra.apply operator left right

/-- The two stacks, the top of each first. -/
structure State (α : Type) where
  /-- The values of the operands that have been read. -/
  values : List α
  /-- The operators that are not applied yet, and `none` for an open parenthesis. -/
  pending : List (Option Operator)

/-- How tightly an operator binds. -/
def strength : Operator → Nat
  | .add | .subtract => 0
  | .multiply | .divide => 1

/-- Applies the operators on top that bind at least so tightly. -/
def reduce (algebra : Algebra ε α) (least : Nat) (values : List α) :
    List (Option Operator) → Except ε (State α)
  | some operator :: pending =>
    match values with
    | rhs :: lhs :: rest =>
      if least ≤ strength operator then do
        let value ← algebra.apply operator lhs rhs
        reduce algebra least (value :: rest) pending
      else pure ⟨values, some operator :: pending⟩
    | _ => pure ⟨values, some operator :: pending⟩
  | pending => pure ⟨values, pending⟩

/-- Applies the operators on top of two stacks that bind at least so tightly. -/
def State.reduce (algebra : Algebra ε α) (least : Nat) (state : State α) : Except ε (State α) :=
  TwoStacks.reduce algebra least state.values state.pending

/-- The stacks take a token. -/
def step (algebra : Algebra ε α) (state : State α) : Token.Kind → Except ε (State α)
  | .number value => pure { state with values := algebra.number value :: state.values }
  | .symbol .leftParenthesis => pure { state with pending := none :: state.pending }
  | .symbol .rightParenthesis => do
    let reduced ← state.reduce algebra 0
    return { reduced with pending := reduced.pending.drop 1 }
  | .symbol s =>
    match operator? s with
    | some operator => do
      let reduced ← state.reduce algebra (strength operator)
      return { reduced with pending := some operator :: reduced.pending }
    | none => pure state
  | .endOfLine => state.reduce algebra 0

/-- The stacks take some tokens one after the other. -/
def run (algebra : Algebra ε α) (state : State α) (kinds : List Token.Kind) :
    Except ε (State α) :=
  kinds.foldlM (step algebra) state

/-- A run on two sequences is a run on the one, and from there on the other. -/
theorem run_append (algebra : Algebra ε α) (state : State α) (first second : List Token.Kind) :
    run algebra state (first ++ second) =
      run algebra state first >>= fun middle => run algebra middle second :=
  List.foldlM_append

/-- A run begins with a step. -/
theorem run_cons (algebra : Algebra ε α) (state : State α) (kind : Token.Kind)
    (kinds : List Token.Kind) :
    run algebra state (kind :: kinds) =
      step algebra state kind >>= fun after => run algebra after kinds :=
  List.foldlM_cons

/-- A run on nothing changes nothing. -/
theorem run_nil (algebra : Algebra ε α) (state : State α) : run algebra state [] = pure state :=
  rfl

/-- An operator has those applied that bind at least as tightly, and is pushed. -/
theorem step_operator (algebra : Algebra ε α) (state : State α) {s : Symbol} {operator : Operator}
    (hs : operator? s = some operator) :
    step algebra state (.symbol s) = state.reduce algebra (strength operator) >>= fun reduced =>
      pure ⟨reduced.values, some operator :: reduced.pending⟩ := by
  cases s <;> cases hs <;> rfl

/-! ## Reducing -/

/-- Whether nothing on top binds at least so tightly. -/
def Stops (least : Nat) (pending : List (Option Operator)) : Prop :=
  ∀ operator rest, pending = some operator :: rest → strength operator < least

/-- No operator binds so tightly that it would be applied in front of an operand. -/
theorem stops_two (pending : List (Option Operator)) : Stops 2 pending := by
  rintro operator rest rfl
  cases operator <;> decide

/-- What binds less tightly than a bound does so all the more for a greater one. -/
theorem Stops.succ {least : Nat} {pending : List (Option Operator)} (h : Stops least pending) :
    Stops (least + 1) pending :=
  fun operator rest heq => Nat.lt_succ_of_lt (h operator rest heq)

/-- Where nothing on top binds so tightly, both stacks stay as they are. -/
theorem reduce_of_stops (algebra : Algebra ε α) {least : Nat} (values : List α)
    {pending : List (Option Operator)} (h : Stops least pending) :
    reduce algebra least values pending = pure ⟨values, pending⟩ := by
  unfold reduce
  split
  · next operator rest =>
    have hlt := h operator rest rfl
    split
    · rw [if_neg (by omega)]
    · rfl
  · rfl

/-- An operator on top that binds so tightly is applied to the two values on top. -/
theorem reduce_operator (algebra : Algebra ε α) {least : Nat} {operator : Operator}
    (h : least ≤ strength operator) (rhs lhs : α) (values : List α)
    (pending : List (Option Operator)) :
    reduce algebra least (rhs :: lhs :: values) (some operator :: pending) =
      algebra.apply operator lhs rhs >>= fun value =>
        reduce algebra least (value :: values) pending := by
  rw [reduce, if_pos h]

/-- Reducing by less after reducing by more is reducing by less.  The induction is on what is
pending: each operator is applied in the first go, or ends it, and then it is left to the second. -/
theorem reduce_bind_reduce (algebra : Algebra ε α) {lower least : Nat} (h : lower ≤ least)
    (values : List α) (pending : List (Option Operator)) :
    (reduce algebra least values pending >>= State.reduce algebra lower) =
      reduce algebra lower values pending := by
  induction pending generalizing values with
  | nil => rfl
  | cons entry pending ih =>
    rcases entry with _ | operator
    · rfl
    · rcases values with _ | ⟨rhs, _ | ⟨lhs, values⟩⟩
      · rfl
      · rfl
      · by_cases hle : least ≤ strength operator
        · rw [reduce_operator algebra hle, reduce_operator algebra (Nat.le_trans h hle), bind_assoc]
          simp only [ih]
        · rw [reduce, if_neg hle, pure_bind]
          rfl

/-! ## Settling -/

/-- Whether some tokens leave the value of an expression on the stack, once what binds
at least so tightly is applied, and everything below as it was. -/
def Settles (algebra : Algebra ε α) (least : Nat) (kinds : List Token.Kind) (expr : Expr) : Prop :=
  ∀ values pending, Stops least pending →
    (run algebra ⟨values, pending⟩ kinds >>= State.reduce algebra least) =
      (fun value => ⟨value :: values, pending⟩) <$> algebra.fold expr

variable {algebra : Algebra ε α} {least : Nat}

/-- A number is its own value, and nothing is left to apply. -/
theorem settles_number (least : Nat) (value : Int64) :
    Settles algebra least [.number value] (.number value) := by
  intro values pending hstops
  rw [run_cons, step, pure_bind, run_nil, pure_bind]
  exact reduce_of_stops algebra (algebra.number value :: values) hstops

/-- What settles once tighter operators are applied settles once looser ones are. -/
theorem Settles.of_succ {kinds : List Token.Kind} {expr : Expr}
    (h : Settles algebra (least + 1) kinds expr) : Settles algebra least kinds expr := by
  intro values pending hstops
  calc run algebra ⟨values, pending⟩ kinds >>= State.reduce algebra least
      = (run algebra ⟨values, pending⟩ kinds >>= State.reduce algebra (least + 1)) >>=
          State.reduce algebra least := by
        rw [bind_assoc]
        congr 1
        funext state
        exact (reduce_bind_reduce algebra (Nat.le_succ least) state.values state.pending).symm
    _ = (algebra.fold expr >>= fun value =>
          reduce algebra least (value :: values) pending) := by
        rw [h values pending hstops.succ, bind_map_left]
        rfl
    _ = (fun value => ⟨value :: values, pending⟩) <$> algebra.fold expr := by
        rw [map_eq_pure_bind]
        congr 1
        funext value
        exact reduce_of_stops algebra (value :: values) hstops

/-- **An operator settles what is in front of it.**  Its right operand has to bind
more tightly than it does itself. -/
theorem Settles.join {left right : List Token.Kind} {lhs rhs : Expr} {s : Symbol}
    {operator : Operator} (hl : Settles algebra least left lhs) (hs : operator? s = some operator)
    (hstrength : strength operator = least) (hr : Settles algebra (least + 1) right rhs) :
    Settles algebra least (left ++ .symbol s :: right) (.binary operator lhs rhs) := by
  intro values pending hstops
  have hfront : Stops (least + 1) (some operator :: pending) := by
    intro operator' rest heq
    cases heq
    omega
  have hright : ∀ value : α, (run algebra ⟨value :: values, some operator :: pending⟩ right >>=
      State.reduce algebra least) = (algebra.fold rhs >>= fun second =>
        reduce algebra least (second :: value :: values) (some operator :: pending)) := by
    intro value
    have h := hr (value :: values) (some operator :: pending) hfront
    calc run algebra ⟨value :: values, some operator :: pending⟩ right >>=
            State.reduce algebra least
        = (run algebra ⟨value :: values, some operator :: pending⟩ right >>=
            State.reduce algebra (least + 1)) >>= State.reduce algebra least := by
          rw [bind_assoc]
          congr 1
          funext state
          exact (reduce_bind_reduce algebra (Nat.le_succ least) state.values state.pending).symm
      _ = _ := by
          rw [h, bind_map_left]
          rfl
  calc run algebra ⟨values, pending⟩ (left ++ .symbol s :: right) >>= State.reduce algebra least
      = (run algebra ⟨values, pending⟩ left >>= State.reduce algebra least) >>= fun reduced =>
          run algebra ⟨reduced.values, some operator :: reduced.pending⟩ right >>=
            State.reduce algebra least := by
        rw [run_append]
        simp only [run_cons, step_operator algebra _ hs, hstrength, bind_assoc, pure_bind]
    _ = (algebra.fold lhs >>= fun value => algebra.fold rhs >>= fun second =>
          reduce algebra least (second :: value :: values) (some operator :: pending)) := by
        rw [hl values pending hstops, bind_map_left]
        simp only [hright]
    _ = (fun value => ⟨value :: values, pending⟩) <$> algebra.fold (.binary operator lhs rhs) := by
        have hreduce : ∀ value, reduce algebra least (value :: values) pending =
            pure ⟨value :: values, pending⟩ :=
          fun value => reduce_of_stops algebra (value :: values) hstops
        simp only [reduce_operator algebra (Nat.le_of_eq hstrength.symm), hreduce, Algebra.fold,
          map_eq_pure_bind, bind_assoc]

/-- **Parentheses settle what is between them,** all of it. -/
theorem Settles.group {kinds : List Token.Kind} {expr : Expr}
    (h : Settles algebra 0 kinds expr) :
    Settles algebra 2 (.symbol .leftParenthesis :: (kinds ++ [.symbol .rightParenthesis]))
      expr := by
  intro values pending _
  have hopen : Stops 0 (none :: pending) := by
    intro operator rest heq
    cases heq
  have hclose : ∀ state : State α, run algebra state [.symbol .rightParenthesis] =
      state.reduce algebra 0 >>= fun reduced => pure ⟨reduced.values, reduced.pending.drop 1⟩ := by
    intro state
    rw [run_cons]
    exact bind_pure _
  have hreduce : ∀ value, reduce algebra 2 (value :: values) pending =
      pure ⟨value :: values, pending⟩ :=
    fun value => reduce_of_stops algebra (value :: values) (stops_two pending)
  rw [run_cons, step, pure_bind, run_append]
  simp only [hclose]
  rw [← bind_assoc, h values (none :: pending) hopen, bind_map_left]
  simp only [List.drop_one, List.tail_cons, bind_assoc, pure_bind, map_eq_pure_bind]
  congr 1
  funext value
  exact hreduce value

end TwoStacks

namespace Grammar

open TwoStacks

/-- The operators between terms bind less tightly. -/
theorem strength_of_additive {s : Symbol} {operator : Operator} (h : additive s = some operator) :
    strength operator = 0 := by
  cases s <;> cases h <;> rfl

/-- The operators between factors bind more tightly. -/
theorem strength_of_multiplicative {s : Symbol} {operator : Operator}
    (h : multiplicative s = some operator) : strength operator = 1 := by
  cases s <;> cases h <;> rfl

mutual

/-- **The two stacks come to what folding the tree comes to.**  The induction is on the derivation,
and there is one lemma for each of its rules. -/
theorem IsExpression.settles {ε α : Type} {algebra : Algebra ε α} {kinds : List Token.Kind}
    {expr : Expr} : IsExpression kinds expr → Settles algebra 0 kinds expr
  | .term h => h.settles.of_succ
  | .join hl hs hr =>
    hl.settles.join (operator?_of_additive hs) (strength_of_additive hs) hr.settles

/-- A term settles once what binds as tightly as its own operators is applied. -/
theorem IsTerm.settles {ε α : Type} {algebra : Algebra ε α} {kinds : List Token.Kind}
    {expr : Expr} : IsTerm kinds expr → Settles algebra 1 kinds expr
  | .factor h => h.settles.of_succ
  | .join hl hs hr =>
    hl.settles.join (operator?_of_multiplicative hs) (strength_of_multiplicative hs) hr.settles

/-- A factor settles without any operator being applied behind it. -/
theorem IsFactor.settles {ε α : Type} {algebra : Algebra ε α} {kinds : List Token.Kind}
    {expr : Expr} : IsFactor kinds expr → Settles algebra 2 kinds expr
  | .number value => settles_number 2 value
  | .group h => h.settles.group

end

/-- Trees as values: an operator joins two of them. -/
def trees : Algebra Empty Expr where
  number := .number
  apply operator lhs rhs := .ok (.binary operator lhs rhs)

/-- To fold an expression into trees is to leave it as it is. -/
theorem fold_trees (expr : Expr) : trees.fold expr = .ok expr := by
  induction expr with
  | number value => rfl
  | binary operator lhs rhs ihl ihr => rw [Algebra.fold, ihl, ihr]; rfl

/-- **No tokens derive two trees:** with trees for values the stacks come to both of them. -/
theorem IsExpression.unique {kinds : List Token.Kind} {first second : Expr}
    (hf : IsExpression kinds first) (hs : IsExpression kinds second) : first = second := by
  have hstops : Stops 0 [] := fun _ _ heq => by cases heq
  have hfirst := @IsExpression.settles _ _ trees _ _ hf [] [] hstops
  have hsecond := @IsExpression.settles _ _ trees _ _ hs [] [] hstops
  rw [fold_trees] at hfirst hsecond
  have heq := hfirst.symm.trans hsecond
  cases heq
  rfl

end Grammar
end Reckoner
