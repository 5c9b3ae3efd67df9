/-
# What can be wrong with a line

Three things can go wrong, one after the other: a character or a number that is
no token (`LexicalError`), a token that cannot stand where it stands
(`GrammarError`), and a division by zero (`DivisionByZero`).  An error holds the
cause and the place; `Reckoner.Diagnostic` says in words what it means.
-/

import Reckoner.Token

namespace Reckoner

/-- A place where no token can be read. -/
inductive LexicalError
  /-- A character that no token contains. -/
  | invalidCharacter (character : Char) (offset : Nat)
  /-- A number above the greatest 64-bit integer. -/
  | numberOutOfRange (literal : Span)
  deriving DecidableEq, Repr

/-- Where a lexical error is. -/
def LexicalError.span : LexicalError → Span
  | invalidCharacter character offset => ⟨offset, character.utf8Size⟩
  | numberOutOfRange literal => literal

/-- A rule that a line of tokens can break. -/
inductive Violation
  /-- A number or an opening parenthesis has to stand here. -/
  | operandWanted
  /-- The expression before this token is complete and cannot go on with it. -/
  | operatorWanted
  /-- This symbol has to stand here. -/
  | symbolWanted (symbol : Symbol)
  /-- A closing parenthesis without an opening one. -/
  | notOpened
  /-- One more open parenthesis than allowed. -/
  | nestedTooDeeply
  /-- One more operator than allowed. -/
  | tooManyOperators
  deriving DecidableEq, Repr

/-- A token that breaks a rule where it stands. -/
structure GrammarError where
  /-- The rule. -/
  violation : Violation
  /-- Where the token stands. -/
  span : Span
  deriving DecidableEq, Repr

/-- Why no expression can be read from a line. -/
inductive ParseError
  /-- Something on it is no token. -/
  | lexical (error : LexicalError)
  /-- Its tokens make no sentence. -/
  | grammar (error : GrammarError)
  deriving DecidableEq, Repr

/-- Where the first thing is that is wrong with a line. -/
def ParseError.span : ParseError → Span
  | lexical error => error.span
  | grammar error => error.span

/-- A division whose divisor is zero. -/
structure DivisionByZero where
  /-- What was to be divided. -/
  dividend : Int64
  deriving DecidableEq, Repr

/-- Why a line has no value. -/
inductive LineError
  /-- It has no expression. -/
  | parse (error : ParseError)
  /-- Its expression divides by zero. -/
  | divisionByZero (error : DivisionByZero)
  deriving DecidableEq, Repr

end Reckoner
