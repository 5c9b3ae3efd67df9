/-
# The command line

The arguments, the environment, files and the standard streams are read and
written here; what is to be done with them is `Reckoner.Command`'s.  A
conversation on the standard input goes line by line, so that each prompt is
seen before its line is typed.

How messages look is settled here and nowhere else: in plain text, a message or a
cause on each line.
-/

import Reckoner.Command.Arguments

open Reckoner

/-- The lines that a message is shown in. -/
def messageLines : Message → List String
  | .note text => [text]
  | .report diagnostic =>
    ("Error: " ++ diagnostic.message) :: diagnostic.help.toList.map ("help: " ++ ·)
  | .failure [] => []
  | .failure (first :: causes) => ("Error: " ++ first) :: causes

/-- Shows a message to the user. -/
def tell (message : Message) : IO Unit := do
  for line in messageLines message do
    IO.eprintln line

/-- Writes an outcome to the standard streams. -/
def deliver (outcome : Outcome) : IO UInt32 := do
  let stdout ← IO.getStdout
  stdout.write (ByteArray.mk outcome.output.toArray)
  stdout.flush
  for message in outcome.messages do
    tell message
  return UInt32.ofNat outcome.code

/-- The bytes of a line of the standard input and those read beyond it. -/
partial def nextLine (stdin : IO.FS.Stream) (held : List UInt8) :
    IO (List UInt8 × List UInt8) := do
  if held.contains lineBreak then
    return cut held
  let bytes ← stdin.read 8192
  if bytes.isEmpty then
    return (held, [])
  nextLine stdin (held ++ bytes.toList)
where
  cut (bytes : List UInt8) : List UInt8 × List UInt8 :=
    let (before, after) := bytes.span (· != lineBreak)
    (before ++ after.take 1, after.drop 1)

/-- Answers the lines of the standard input until one has no tokens. -/
partial def converse (stdin stdout : IO.FS.Stream) (repl : Repl) (held : List UInt8) :
    IO UInt32 := do
  stdout.write (ByteArray.mk (Utf8.encode repl.prompt).toArray)
  stdout.flush
  let (bytes, held) ← nextLine stdin held
  match repl.respond ⟨repl.filename, Utf8.decodeLossy bytes⟩ with
  | .ok goesOn after =>
    stdout.write (ByteArray.mk after.writer.written)
    for diagnostic in after.reports do
      tell (.report diagnostic)
    if goesOn then converse stdin stdout repl held
    else
      stdout.flush
      return 0
  | .error failure _ =>
    tell (.failure failure.chain)
    return 1

def main (arguments : List String) : IO UInt32 := do
  let prompt ← IO.getEnv "LINE_CALC_PROMPT"
  match Request.ofArguments arguments with
  | .ok (.perform options .converse) =>
    let prompt := Command.promptText options prompt
    converse (← IO.getStdin) (← IO.getStdout)
      (Command.repl "<stdin>" prompt options.report []) []
  | .ok (.perform _ task) =>
    let found ← match task.file? with
      | none => pure (.error "no file")
      | some file =>
        try
          let bytes ← IO.FS.readBinFile file
          pure (.ok bytes.toList)
        catch fault =>
          pure (.error (toString fault))
    deliver (Command.execute { prompt, input := [], file := fun _ => found } arguments)
  | _ =>
    deliver (Command.execute { prompt, input := [], file := fun _ => .error "no file" } arguments)
