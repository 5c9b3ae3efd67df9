/-
# The descent into a line, one step at a time

The rules of `Reckoner.Expr.Grammar` call each other, and how deep the calls go and how often a
chain goes on is fixed there before the first token is read.  Here neither is.  The calls that
are under way are a list, innermost first; a counter of open parentheses and a counter of
operators say when to stop, and a chain goes on for as long as there are operators:

| call | what it waits for | then |
| --- | --- | --- |
| chain | an operand | another operand behind an operator, or its end |
| group | the expression in the parentheses | a closing parenthesis |

A `Descent` is all that there is at one moment, and `Descent.step` goes on to the next.  It
keeps the tokens that have been taken, on which no step depends.
-/

import Reckoner.Expr.Grammar

namespace Reckoner
namespace Descent

open Grammar (additive multiplicative)

/-- The rules that join operands: a sum joins products, and a product joins factors. -/
inductive Chain
  | sum
  | product
  deriving DecidableEq, Repr

/-- What a rule is called for. -/
inductive Part
  | chain (chain : Chain)
  | factor
  deriving DecidableEq, Repr

namespace Chain

/-- The operators that join the operands of a chain. -/
def select : Chain → Symbol → Option Operator
  | sum => additive
  | product => multiplicative

/-- What a chain is made of. -/
def operand : Chain → Part
  | sum => .chain .product
  | product => .factor

end Chain

/-- A call that waits for a part to be read. -/
inductive Call
  /-- A chain, with what it has read already and the operator behind that. -/
  | chain (chain : Chain) (before : Option (Expr × Operator))
  /-- A pair of parentheses, of which the opening one has been taken. -/
  | group
  deriving DecidableEq, Repr

/-- What is to be done next. -/
inductive Control
  /-- Nothing has been looked at. -/
  | start
  /-- A part is wanted: its rule is called. -/
  | read (part : Part)
  /-- A part has been read, and the innermost call goes on with it. -/
  | give (expr : Expr)
  /-- The line has been read, or an error has been found. -/
  | done (result : Except ParseError (Option Expr))

end Descent

/-- The reading of a line at one moment. -/
structure Descent where
  control : Descent.Control
  /-- The calls that are under way, innermost first. -/
  calls : List Descent.Call
  cursor : Cursor
  /-- The counter of open parentheses. -/
  depth : Nat
  /-- The counter of operators. -/
  operators : Nat
  /-- The tokens that have been taken. -/
  taken : List Token

namespace Descent

open Grammar (HoldsCursor maxNesting nextOperator refuse)

/-- A move, which changes the state also where it fails. -/
abbrev Move := EStateM ParseError Descent

instance : HoldsCursor Descent where
  cursor := Descent.cursor
  moveTo state cursor := { state with cursor }
  operators := Descent.operators
  count state token :=
    { state with operators := state.operators + 1, taken := state.taken ++ [token] }
  operators_moveTo _ _ := rfl
  operators_count _ _ := rfl

/-- Takes the next token. -/
def take : Move Unit := do
  let token ← Cursor.advance
  modify fun state => { state with taken := state.taken ++ [token] }

/-- The beginning of a line, which may be its end as well. -/
def start : Move Control := do
  if (← Cursor.peek).kind = .endOfLine then return .done (.ok none)
  else return .read (.chain .sum)

/-- A number, or an opening parenthesis and the call for what is behind it. -/
def factor : Move Control := do
  let token ← Cursor.peek
  match token.kind with
  | .number value =>
    take
    return .give (.number value)
  | .symbol .leftParenthesis =>
    if (← get).depth = maxNesting then refuse .nestedTooDeeply token
    else
      take
      modify fun state => { state with depth := state.depth + 1, calls := .group :: state.calls }
      return .read (.chain .sum)
  | _ => refuse .operandWanted token

/-- The end of a chain: a sum goes up to a closing parenthesis or the end of the line. -/
def close : Chain → Move Unit
  | .product => return ()
  | .sum => do
    let token ← Cursor.peek
    if token.kind = .endOfLine ∨ token.kind = .symbol .rightParenthesis then return ()
    else refuse .operatorWanted token

/-- What a chain has read with one more operand. -/
def join : Option (Expr × Operator) → Expr → Expr
  | none, expr => expr
  | some (lhs, operator), rhs => .binary operator lhs rhs

/-- Goes on with a part that has been read, in the innermost call that is under way. -/
def resume (expr : Expr) : List Call → Move Control
  | [] => do
    let token ← Cursor.peek
    if token.kind = .endOfLine then return .done (.ok (some expr))
    else refuse .notOpened token
  | .group :: calls => do
    let token ← Cursor.expect .rightParenthesis
    modify fun state =>
      { state with calls, depth := state.depth - 1, taken := state.taken ++ [token] }
    return .give expr
  | .chain chain before :: calls => do
    match ← nextOperator chain.select with
    | some operator =>
      let before := some (join before expr, operator)
      modify fun state => { state with calls := .chain chain before :: calls }
      return .read chain.operand
    | none =>
      close chain
      modify fun state => { state with calls }
      return .give (join before expr)

/-- Does what is to be done, and says what is next. -/
def move : Control → Move Control
  | .start => start
  | .read (.chain chain) => do
    modify fun state => { state with calls := .chain chain none :: state.calls }
    return .read chain.operand
  | .read .factor => factor
  | .give expr => do resume expr (← get).calls
  | .done result => return .done result

/-- The next moment.  Where a move fails the reading is done. -/
def step (state : Descent) : Descent :=
  match move state.control state with
  | .ok control state => { state with control }
  | .error error state => { state with control := .done (.error error) }

/-- The reading of a line before its first step. -/
def ofLine (line : Line) : Descent :=
  { control := .start
    calls := []
    cursor := .ofLine line
    depth := 0
    operators := 0
    taken := [] }

/-- The reading of a line after so many steps. -/
def after (line : Line) : Nat → Descent
  | 0 => ofLine line
  | steps + 1 => (after line steps).step

/-- Whether a call is that of a sum. -/
def Call.isSum : Call → Bool
  | .chain .sum _ => true
  | .chain .product _ | .group => false

/-- Whether a sum is called for. -/
def Control.isSum : Control → Bool
  | .read (.chain .sum) => true
  | .read (.chain .product) | .read .factor | .start | .give _ | .done _ => false

/-- How many calls of a sum there are, the one that is made next included. -/
def sums (state : Descent) : Nat :=
  state.calls.countP Call.isSum + state.control.isSum.toNat

end Descent
end Reckoner
