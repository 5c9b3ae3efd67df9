/-
# Diagnostics

A diagnostic says in words what is wrong with a line: a message, a piece of
advice, and labels on the places in the text that it is about.
-/

import Reckoner.Expr.Grammar

namespace Reckoner

/-- A remark on a place in a text. -/
structure Label where
  /-- The place, in the text of a line. -/
  span : Span
  /-- What is said about it. -/
  text : String
  deriving DecidableEq, Repr

/-- What is wrong, in words. -/
structure Diagnostic where
  /-- What is wrong. -/
  message : String
  /-- What to do about it. -/
  help : Option String
  /-- Where it is wrong. -/
  labels : List Label
  /-- The line that the labels are on, if there are any. -/
  line : Option Line
  deriving DecidableEq, Repr

/-- What is wrong with a character or a number. -/
def LexicalError.message : LexicalError → String
  | invalidCharacter character _ => s!"invalid character '{character}'"
  | numberOutOfRange _ => "number literal out of range"

/-- What to do about a character or a number. -/
def LexicalError.help : LexicalError → String
  | invalidCharacter character _ => s!"remove or correct the character: `{character}`"
  | numberOutOfRange _ => "numbers must fit in a signed 64-bit integer"

/-- What is at the place of a lexical error. -/
def LexicalError.label : LexicalError → String
  | invalidCharacter _ _ => "this character"
  | numberOutOfRange _ => "this numeric literal"

/-- What would be right in the place of a token that breaks a rule. -/
def Violation.help : Violation → String
  | operandWanted => "expected a number or `(`"
  | operatorWanted => "expected an operator or the end of the expression"
  | symbolWanted symbol =>
    let character := symbol.toChar
    s!"use `{character}` here instead"
  | notOpened => "this `)` has no matching `(`"
  | nestedTooDeeply =>
    let limit := Grammar.maxNesting
    s!"expression nested too deeply (limit is {limit})"
  | tooManyOperators =>
    let limit := Grammar.maxOperators
    s!"too many operators on one line (limit is {limit})"

/-- What is wrong with a line that no expression can be read from. -/
def ParseError.message : ParseError → String
  | lexical error => error.message
  | grammar _ => "invalid token sequence"

/-- What to do about it. -/
def ParseError.help : ParseError → String
  | lexical error => error.help
  | grammar error => error.violation.help

/-- What is at the place of the error. -/
def ParseError.label : ParseError → String
  | lexical error => error.label
  | grammar _ => "here"

/-- The diagnostic of a line that no expression can be read from. -/
def ParseError.diagnostic (line : Line) (error : ParseError) : Diagnostic where
  message := error.message
  help := some error.help
  labels := [⟨error.span, error.label⟩]
  line := some line

/-- The dividend that has no quotient. -/
def DivisionByZero.help (error : DivisionByZero) : String :=
  let dividend := String.ofList (Decimal.ofInt64 error.dividend)
  s!"`{dividend} / 0` has no integer result"

/-- The diagnostic of a division by zero.  It is about a value and has no place
in the text. -/
def DivisionByZero.diagnostic (error : DivisionByZero) : Diagnostic where
  message := "division by zero"
  help := some error.help
  labels := []
  line := none

/-- The diagnostic of a line that has no value. -/
def LineError.diagnostic (line : Line) : LineError → Diagnostic
  | parse error => error.diagnostic line
  | divisionByZero error => error.diagnostic

/-- What is wrong with a line, in a few words. -/
def LineError.message : LineError → String
  | parse error => error.message
  | divisionByZero _ => "division by zero"

/-- The pieces that a message is put together from: a character of the line is a
piece of its own, and so is what stands on either side of it. -/
def LineError.messagePieces : LineError → List (List Char)
  | parse (.lexical (.invalidCharacter character _)) =>
    ["invalid character '".toList, [character], "'".toList]
  | error => [error.message.toList]

/-- **The pieces make up the message.** -/
theorem LineError.flatten_messagePieces (error : LineError) :
    error.messagePieces.flatten = error.message.toList := by
  cases error with
  | parse error =>
    cases error with
    | lexical error =>
      cases error with
      | invalidCharacter character _ =>
        show _ = ("invalid character '" ++ String.singleton character ++ "'").toList
        simp [messagePieces]
      | numberOutOfRange _ => exact List.append_nil _
    | grammar _ => exact List.append_nil _
  | divisionByZero _ => exact List.append_nil _

end Reckoner
