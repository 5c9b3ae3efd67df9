/-
# The command

The command lists the tokens or the trees of a file, or answers the lines of a
file or of the standard input.

* A listing needs a file that is UTF-8 throughout and stops at the first error.
  A character that is no token ends a listing of tokens with code 65 and a note
  of its line; every other error ends a listing with code 1.
* A listing of trees ends at the first line without tokens.
* Answers are given as in `Reckoner.Repl`, without a prompt for the lines of a
  file.  An error in a line is an answer like any other, so the code is 0.
* The prompt for the standard input is the option's, else the environment's, else
  `> `.

What the user is told is kept as it is, diagnostics in all their parts; how it is
laid out on a screen is not decided here.
-/

import Reckoner.Repl
import Reckoner.Text.Pieces

namespace Reckoner

/-- What the command can be asked to do with expressions. -/
inductive Task
  /-- Answer the lines of the standard input one by one. -/
  | converse
  /-- List the tokens of a file. -/
  | listTokens (file : String)
  /-- List the trees of the lines of a file. -/
  | listTrees (file : String)
  /-- Answer the lines of a file. -/
  | answerFile (file : String)
  deriving DecidableEq, Repr

/-- The file that a task reads, if it reads one. -/
def Task.file? : Task → Option String
  | converse => none
  | listTokens file | listTrees file | answerFile file => some file

/-- The options in front of a task. -/
structure Options where
  /-- The prompt for the standard input, if it is given. -/
  prompt : Option String := none
  /-- Whether diagnostics are shown beside the answers. -/
  report : Bool := false
  deriving DecidableEq, Repr

/-- What the command finds around it. -/
structure Surroundings where
  /-- The prompt that the environment sets. -/
  prompt : Option String
  /-- The bytes of the standard input. -/
  input : List UInt8
  /-- The bytes of the file of a name, or why they cannot be had. -/
  file : String → Except String (List UInt8)

/-- A message to the user. -/
inductive Message
  /-- A line of text. -/
  | note (text : String)
  /-- What is wrong with a line of the input. -/
  | report (diagnostic : Diagnostic)
  /-- Why the command has failed: what it was about, and the cause of that. -/
  | failure (chain : List String)
  deriving DecidableEq, Repr

/-- What the command leaves. -/
structure Outcome where
  /-- The exit code. -/
  code : Nat
  /-- The bytes on the standard output. -/
  output : List UInt8
  /-- What the user is told, in this order. -/
  messages : List Message
  deriving DecidableEq, Repr

/-- What succeeds in a sequence before the first error. -/
def successes {ε α : Type} (results : List (Except ε α)) : List α :=
  (results.takeWhile Except.isOk).filterMap Except.toOption

/-- The first error in a sequence. -/
def firstError? {ε α : Type} (results : List (Except ε α)) : Option ε :=
  results.findSome? fun
    | .ok _ => none
    | .error error => some error

/-- The lines of a text, each through its line break. -/
def textLines (text : List Char) : List (List Char) := pieces (· == '\n') text

/-- A listing with one entry on each line. -/
def listing (entries : List (List Char)) : List UInt8 :=
  Utf8.encode (entries.flatMap fun entry => entry ++ ['\n'])

namespace Command

/-- The items of all lines of a text; an error comes with the number of its line
and the line. -/
def itemsByLine (file : String) (text : List Char) :
    List (Except (Nat × Line × LexicalError) Token) :=
  (textLines text).zipIdx.flatMap fun (line, index) =>
    (items line).map (·.mapError fun error => (index + 1, ⟨some file, line⟩, error))

/-- Lists the tokens of a text. -/
def listTokens (file : String) (text : List Char) : Outcome :=
  let found := itemsByLine file text
  let output := listing ((successes found).map Token.render)
  match firstError? found with
  | none => { code := 0, output, messages := [] }
  | some (number, line, error) =>
    let report : Message := .report ((ParseError.lexical error).diagnostic line)
    match error with
    | .invalidCharacter character _ =>
      let note := s!"[line {number}] Error: Unexpected character: {character}"
      { code := 65, output, messages := [.note note, report] }
    | .numberOutOfRange _ => { code := 1, output, messages := [report] }

/-- The trees of a text up to its first line without tokens; an error comes with
its line. -/
def treesByLine (file : String) (text : List Char) : List (Except (Line × ParseError) Expr) :=
  let read (text : List Char) : Except (Line × ParseError) (Option Expr) :=
    let line : Line := ⟨some file, text⟩
    line.expr?.mapError fun error => (line, error)
  let hasTree : Except (Line × ParseError) (Option Expr) → Bool
    | .ok none => false
    | _ => true
  (((textLines text).map read).takeWhile hasTree).filterMap fun
    | .ok expr => expr.map .ok
    | .error error => some (.error error)

/-- Lists the trees of a text. -/
def listTrees (file : String) (text : List Char) : Outcome :=
  let found := treesByLine file text
  let output := listing ((successes found).map Expr.render)
  match firstError? found with
  | none => { code := 0, output, messages := [] }
  | some (line, error) => { code := 1, output, messages := [.report (error.diagnostic line)] }

/-- The loop that answers the lines of some bytes. -/
def repl (filename : String) (prompt : List Char) (report : Bool) (bytes : List UInt8) : Repl where
  reader := .ofBytes 8192 bytes
  writer := .unlimited
  prompt := prompt
  filename := some filename
  report := report

/-- Answers the lines of some bytes. -/
def answer (filename : String) (prompt : List Char) (report : Bool) (bytes : List UInt8) :
    Outcome :=
  let finished (code : Nat) (messages : List Message) (repl : Repl) : Outcome :=
    { code
      output := repl.writer.written.toList
      messages := repl.reports.toList.map .report ++ messages }
  match (repl filename prompt report bytes).run with
  | .ok () repl => finished 0 [] repl
  | .error failure repl => finished 1 [.failure failure.chain] repl

/-- The prompt for the standard input: the option's, else the environment's, else
the loop's own. -/
def promptText (options : Options) (environment : Option String) : List Char :=
  match options.prompt, environment with
  | some prompt, _ => prompt.toList
  | none, some prompt => prompt.toList
  | none, none => Repl.defaultPrompt

/-- Does something with the text of a file that is UTF-8 throughout. -/
def withText (surroundings : Surroundings) (file : String) (act : List Char → Outcome) : Outcome :=
  let failed (cause : String) : Outcome :=
    { code := 1, output := [], messages := [.failure [s!"reading `{file}` failed", cause]] }
  match surroundings.file file with
  | .error cause => failed cause
  | .ok bytes =>
    match Utf8.decode? bytes with
    | none => failed "stream did not contain valid UTF-8"
    | some text => act text

/-- Performs a task. -/
def perform (surroundings : Surroundings) (options : Options) : Task → Outcome
  | .listTokens file => withText surroundings file (listTokens file)
  | .listTrees file => withText surroundings file (listTrees file)
  | .answerFile file =>
    match surroundings.file file with
    | .error cause =>
      { code := 1, output := [], messages := [.failure [s!"opening `{file}` failed", cause]] }
    | .ok bytes => answer file [] options.report bytes
  | .converse =>
    answer "<stdin>" (promptText options surroundings.prompt) options.report surroundings.input

end Command
end Reckoner
