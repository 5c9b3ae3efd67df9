/-
# What the readings of a line have in common

A line is read in two ways: by rules that call each other (`Reckoner.Expr.Grammar`) and one step
at a time (`Reckoner.Expr.Descent`).  Their states differ, but both hold a cursor and count the
operators that are taken (`HoldsCursor`).  What the two do with a token alone is said here for any
such state: a step of the cursor as a part of a reading (`onCursor`), the refusal of a token
(`refuse`), and the operators, with the limit on them (`nextOperator`).
-/

import Reckoner.Expr
import Reckoner.Token.Cursor

namespace Reckoner
namespace Grammar

/-- How many parentheses can be open at once. -/
def maxNesting : Nat := 256

/-- How many operators a line can hold. -/
def maxOperators : Nat := 1024

/-- The operators that join terms. -/
def additive : Symbol → Option Operator
  | .plus => some .add
  | .minus => some .subtract
  | _ => none

/-- The operators that join factors. -/
def multiplicative : Symbol → Option Operator
  | .asterisk => some .multiply
  | .slash => some .divide
  | _ => none

/-- A state in which a line is read: it holds a cursor and counts the operators. -/
class HoldsCursor (σ : Type) where
  cursor : σ → Cursor
  /-- The state with its cursor moved. -/
  moveTo : σ → Cursor → σ
  /-- How many operators have been taken. -/
  operators : σ → Nat
  /-- The state behind one more operator, which is this token. -/
  count : σ → Token → σ
  operators_moveTo (state : σ) (moved : Cursor) : operators (moveTo state moved) = operators state
  operators_count (state : σ) (token : Token) : operators (count state token) = operators state + 1

section Parts

variable {σ α : Type}

/-- A step of the cursor as a part of a reading. -/
def onCursor [HoldsCursor σ] (action : Cursor.Action α) : EStateM ParseError σ α := fun state =>
  match action (HoldsCursor.cursor state) with
  | .ok a moved => .ok a (HoldsCursor.moveTo state moved)
  | .error error moved => .error error (HoldsCursor.moveTo state moved)

instance [HoldsCursor σ] : MonadLift Cursor.Action (EStateM ParseError σ) := ⟨onCursor⟩

/-- Refuses a token because of the rule that it breaks. -/
def refuse (violation : Violation) (token : Token) : EStateM ParseError σ α :=
  throw (.grammar ⟨violation, token.span⟩)

/-- Takes the next token if it is an operator of the given class, and counts
it. -/
def nextOperator [HoldsCursor σ] (select : Symbol → Option Operator) :
    EStateM ParseError σ (Option Operator) := do
  let operator? (kind : Token.Kind) := kind.symbol?.bind select
  match ← Cursor.nextIf fun kind => (operator? kind).isSome with
  | none => return none
  | some token =>
    modify fun state => HoldsCursor.count state token
    if maxOperators < HoldsCursor.operators (← get) then refuse .tooManyOperators token
    else return operator? token.kind

end Parts

end Grammar
end Reckoner
