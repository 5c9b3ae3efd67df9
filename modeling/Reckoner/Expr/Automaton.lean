/-
# Reading a line without a stack

Whether the tokens of a line are a sentence can be told from left to right with
two counters and one bit: how many parentheses are open, how many operators there
were, and whether an operand is wanted next.

| operand wanted | token | then |
| --- | --- | --- |
| yes | number | operand complete |
| yes | `(` | one more open, up to 256 |
| no | operator | operand wanted, one more operator, up to 1024 |
| no | `)` | one less open, unless none is |
| no | end of line | accepted, unless a parenthesis is open |

Every other token is refused, with the rule that it breaks.  The automaton builds
no tree; that it accepts and refuses the lines that the grammar does, and with
the same diagnostics, is the subject of `Reckoner.Expr.Grammar.Simulation`.
-/

import Reckoner.Expr.Grammar

namespace Reckoner
namespace Automaton

open Grammar (maxNesting maxOperators)

/-- What the automaton remembers of the tokens so far. -/
structure State where
  /-- Whether an operand has to come next. -/
  wanted : Bool
  /-- How many parentheses are open. -/
  opened : Nat
  /-- How many operators there have been. -/
  operators : Nat
  deriving DecidableEq, Repr

/-- The automaton in front of a line. -/
def initial : State := ⟨true, 0, 0⟩

/-- A token where an operand is wanted. -/
def stepWanted (opened operators : Nat) : Token.Kind → Except Violation State
  | .number _ => .ok ⟨false, opened, operators⟩
  | .symbol .leftParenthesis =>
    if opened < maxNesting then .ok ⟨true, opened + 1, operators⟩ else .error .nestedTooDeeply
  | .symbol _ | .endOfLine => .error .operandWanted

/-- A token behind an operand, the end of the line apart. -/
def stepComplete (opened operators : Nat) : Token.Kind → Except Violation State
  | .symbol .rightParenthesis =>
    if 0 < opened then .ok ⟨false, opened - 1, operators⟩ else .error .notOpened
  | .number _ | .symbol .leftParenthesis | .endOfLine => .error .operatorWanted
  | .symbol _ =>
    if operators < maxOperators then .ok ⟨true, opened, operators + 1⟩
    else .error .tooManyOperators

/-- A token that is no end of line. -/
def step (state : State) (kind : Token.Kind) : Except Violation State :=
  if state.wanted then stepWanted state.opened state.operators kind
  else stepComplete state.opened state.operators kind

/-- The end of the line: the rule that it breaks, if any. -/
def finish (state : State) : Option Violation :=
  if state.wanted then some .operandWanted
  else if state.opened = 0 then none
  else some (.symbolWanted .rightParenthesis)

/-- The verdict on the items of a line: accepted, or the first error. -/
def judge : State → List Item → Except ParseError Unit
  | _, [] => .ok ()
  | _, .error error :: _ => .error (.lexical error)
  | state, .ok token :: rest =>
    if token.kind = .endOfLine then
      match finish state with
      | none => .ok ()
      | some violation => .error (.grammar ⟨violation, token.span⟩)
    else
      match step state token.kind with
      | .ok state => judge state rest
      | .error violation => .error (.grammar ⟨violation, token.span⟩)

end Automaton
end Reckoner
