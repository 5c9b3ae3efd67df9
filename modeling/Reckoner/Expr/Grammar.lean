/-
# The grammar of a line

```text
expression := term   (('+' | '-') term)*
term       := factor (('*' | '/') factor)*
factor     := number | '(' expression ')'
```

Chains group to the left, so `8 - 3 - 2` is `(8 - 3) - 2`.  At most 256
parentheses are open at once and a line holds at most 1024 operators.

Each rule looks at one token beyond what it takes, and every decision is made on
that token, so an error is found at the first token that cannot go on with what
is before it.

Rules are nested to a depth that is known beforehand: `expression levels` is the
expression in which `levels` more parentheses may be opened, and it is made from
`expression (levels - 1)`, which stands inside its parentheses.  A chain stops at
the latest when the operators of the line are used up.
-/

import Reckoner.Expr.Reading

namespace Reckoner
namespace Grammar

/-- Where the reading of a line has got to. -/
structure State where
  cursor : Cursor
  /-- How many operators have been taken. -/
  operators : Nat
  deriving DecidableEq, Repr

instance : HoldsCursor State where
  cursor := State.cursor
  moveTo state cursor := { state with cursor }
  operators := State.operators
  count state _ := { state with operators := state.operators + 1 }
  operators_moveTo _ _ := rfl
  operators_count _ _ := rfl

/-- A rule of the grammar, which reads a part of a line. -/
abbrev Rule := EStateM ParseError State

/-- Goes on behind a first operand with operators of the given class and their
operands, at most `links` times. -/
def chain (select : Symbol → Option Operator) (operand : Rule Expr) : Nat → Expr → Rule Expr
  | 0, first => return first
  | links + 1, first => do
    match ← nextOperator select with
    | none => return first
    | some operator =>
      let second ← operand
      chain select operand links (.binary operator first second)

/-- Operands joined by operators of the given class, grouped to the left.  One
link more than there can be operators leaves the last one to `nextOperator`,
which refuses it. -/
def joined (select : Symbol → Option Operator) (operand : Rule Expr) : Rule Expr := do
  let first ← operand
  chain select operand (maxOperators + 1) first

/-- An expression in parentheses, of which the opening one is in front. -/
def group (expression : Rule Expr) : Rule Expr := do
  let _ ← Cursor.advance
  let expr ← expression
  let _ ← Cursor.expect .rightParenthesis
  return expr

/-- A number, or an expression of the rule `inner` in parentheses; there is no
`inner` where no parenthesis may be opened. -/
def factor (inner : Option (Rule Expr)) : Rule Expr := do
  let token ← Cursor.peek
  match token.kind with
  | .number value =>
    let _ ← Cursor.advance
    return .number value
  | .symbol .leftParenthesis =>
    match inner with
    | some expression => group expression
    | none => refuse .nestedTooDeeply token
  | _ => refuse .operandWanted token

/-- Factors joined by `*` and `/`. -/
def term (inner : Option (Rule Expr)) : Rule Expr := joined multiplicative (factor inner)

/-- Terms joined by `+` and `-`, up to a closing parenthesis or the end of the
line. -/
def terms (inner : Option (Rule Expr)) : Rule Expr := do
  let expr ← joined additive (term inner)
  let token ← Cursor.peek
  match token.kind with
  | .endOfLine | .symbol .rightParenthesis => return expr
  | _ => refuse .operatorWanted token

/-- An expression in which so many levels of parentheses may be opened. -/
def expression : (levels : Nat) → Rule Expr
  | 0 => terms none
  | levels + 1 => terms (some (expression levels))

/-- A whole line: nothing at all, or one expression. -/
def line : Rule (Option Expr) := do
  if (← Cursor.peek).kind = .endOfLine then
    return none
  let expr ← expression maxNesting
  let token ← Cursor.peek
  if token.kind = .endOfLine then return some expr
  else refuse .notOpened token

end Grammar

/-- The expression on a line; there is none on a line without tokens. -/
def Line.expr? (line : Line) : Except ParseError (Option Expr) :=
  match Grammar.line ⟨Cursor.ofLine line, 0⟩ with
  | .ok expr _ => .ok expr
  | .error error _ => .error error

end Reckoner
