/-
# Lines

A line is the text that one expression is read from, with the name of the file
it comes from, if any.  The text may go on behind its first line break; nothing
behind it is looked at.
-/

namespace Reckoner

/-- A line of input and where it comes from. -/
structure Line where
  /-- The file that it comes from, if any. -/
  filename : Option String
  /-- Its characters, with the line break if there is one. -/
  text : List Char
  deriving DecidableEq, Repr

/-- What a line is called in a diagnostic. -/
def Line.name (line : Line) : String := line.filename.getD "<input>"

end Reckoner
