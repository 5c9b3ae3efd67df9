/-
# Asking for the next line of a source

Each query reads one line and says something about it: its text, its expression
or its value.  A line is consumed whole before anything is said about it, so
whatever is wrong with it, the next query starts at the next line.
-/

import Reckoner.Line.Value
import Reckoner.Stream.Reader

namespace Reckoner

/-- What can be asked about the next line. -/
inductive Query
  /-- What the line is. -/
  | text
  /-- What expression is on it. -/
  | expr
  /-- What value it has. -/
  | value
  deriving DecidableEq, Repr

/-- What is said about a line. -/
inductive Answer
  | text (text : List Char)
  | expr (found : Except ParseError (Option Expr))
  | value (found : Except LineError (Option Int64))

/-- The answer to a query about a given line. -/
def Query.about (line : Line) : Query → Answer
  | text => .text line.text
  | expr => .expr line.expr?
  | value => .value line.value?

namespace ByteReader

/-- The line that some bytes are; it belongs to no file. -/
def lineOfBytes (bytes : List UInt8) : Line := ⟨none, Utf8.decodeLossy bytes⟩

/-- Reads a line and answers a query about it. -/
def ask (reader : ByteReader) (query : Query) : Except String Answer × ByteReader :=
  match reader.readLine with
  | (.ok bytes, reader) => (.ok (query.about (lineOfBytes bytes)), reader)
  | (.error cause, reader) => (.error cause, reader)

end ByteReader
end Reckoner
