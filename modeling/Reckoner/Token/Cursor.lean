/-
# A cursor over the tokens of a line

A cursor reads the tokens of a line one by one and can look at the next one
before it takes it.  Tokens are read only when they are asked for, so a lexical
error shows up at the first step that needs the token in its place.

After the end of line or a lexical error the cursor is finished: it stands at
the end of the text, where `peek` and `advance` give an end of line with an
empty literal as often as they are asked, and where `next` gives nothing.
-/

import Reckoner.Line
import Reckoner.Token.Scan

namespace Reckoner

/-- A place between two tokens of a line. -/
structure Cursor where
  /-- The line that is read. -/
  line : Line
  /-- What is not read yet. -/
  rest : List Char
  /-- Where the rest starts in the line, in bytes. -/
  offset : Nat
  /-- The token in front of the rest, if it has been looked at but not taken. -/
  peeked : Option Token
  /-- Whether the end of the line or an error in it has been read. -/
  finished : Bool
  deriving DecidableEq, Repr

namespace Cursor

/-- A step of a cursor.  A step that fails can move the cursor all the same. -/
abbrev Action := EStateM ParseError Cursor

/-- The cursor at the start of a line. -/
def ofLine (line : Line) : Cursor :=
  { line, rest := line.text, offset := 0, peeked := none, finished := false }

/-- The cursor with the rest of its text left out. -/
def skipRest (cursor : Cursor) : Cursor :=
  { cursor with
    rest := []
    offset := cursor.offset + byteLength cursor.rest
    finished := true }

/-- Reads a token from the rest. -/
def fetch : Action Token := fun cursor =>
  match scan cursor.offset cursor.rest with
  | .error error => .error (.lexical error) cursor.skipRest
  | .ok (token, rest) =>
    if token.kind = .endOfLine then .ok token cursor.skipRest
    else .ok token { cursor with rest, offset := token.span.stop }

/-- Looks at the next token without taking it. -/
def peek : Action Token := fun cursor =>
  match cursor.peeked with
  | some token => .ok token cursor
  | none =>
    match fetch cursor with
    | .ok token cursor => .ok token { cursor with peeked := some token }
    | .error error cursor => .error error cursor

/-- Takes the next token. -/
def advance : Action Token := fun cursor =>
  match cursor.peeked with
  | some token => .ok token { cursor with peeked := none }
  | none => fetch cursor

/-- Takes the next token unless the line is finished. -/
def next : Action (Option Token) := fun cursor =>
  if cursor.peeked.isNone && cursor.finished then .ok none cursor
  else
    match advance cursor with
    | .ok token cursor => .ok (some token) cursor
    | .error error cursor => .error error cursor

/-- Takes the next token if it is of a kind that is accepted. -/
def nextIf (accept : Token.Kind → Bool) : Action (Option Token) := do
  let token ← peek
  if accept token.kind then
    modify fun cursor => { cursor with peeked := none }
    return some token
  else
    return none

/-- Takes the next token, which has to be the given symbol. -/
def expect (symbol : Symbol) : Action Token := do
  let token ← peek
  if token.kind = .symbol symbol then advance
  else throw (.grammar ⟨.symbolWanted symbol, token.span⟩)

/-- The steps a cursor can make. -/
inductive Step
  | peek
  | advance
  | next
  | nextIf (accept : Token.Kind → Bool)
  | expect (symbol : Symbol)

/-- Makes a step, which gives a token or finds that there is none to give. -/
def Step.run : Step → Action (Option Token)
  | .peek => some <$> Cursor.peek
  | .advance => some <$> Cursor.advance
  | .next => Cursor.next
  | .nextIf accept => Cursor.nextIf accept
  | .expect symbol => some <$> Cursor.expect symbol

end Cursor
end Reckoner
