/-
# The arguments of the command

```text
line_calc [--prompt TEXT] [--report]                    a loop on the standard input
line_calc [--prompt TEXT] [--report] tokenize FILE      the tokens of every line
line_calc [--prompt TEXT] [--report] parse FILE         the trees of every line
line_calc [--prompt TEXT] [--report] run FILE           the values of every line
```

Arguments are read from left to right, and the first one that settles the matter
decides: a request for help or for the version is granted even if nonsense
follows, and an error before it wins.

* An option stands in front of the command and at most once.
* `--prompt` takes the next argument, whatever it is, unless that begins with a
  dash; a dash alone is a text like any other.  `--prompt=TEXT` takes any text.
* Behind `--` nothing is an option.
* A command takes exactly one file, whose name is not empty.

This module belongs to the outer layer, as `Reckoner.Main` does.  It stands in the
place of a library that reads arguments: its conventions and its wording are the
common ones, and nothing is proved of it.  What the command does once the arguments
are read is `Command.perform`, which does not depend on how they were written.
-/

import Reckoner.Command

namespace Reckoner

/-- What the arguments ask for. -/
inductive Request
  | help
  | version
  | perform (options : Options) (task : Task)
  deriving DecidableEq, Repr

/-- Why arguments ask for nothing. -/
inductive UsageError
  /-- No option, command or file can stand here. -/
  | unexpected (argument : String)
  /-- An option that was given before. -/
  | repeated (option : String)
  /-- An option without the value that it needs. -/
  | missingValue (option : String)
  /-- A command without a file. -/
  | missingFile
  deriving DecidableEq, Repr

namespace Request

/-- Whether an argument is an option, known or not. -/
def isOption (argument : String) : Bool :=
  argument.toList.head? == some '-' && argument != "-"

/-- The letter that a group of short options begins with, as in `-V`. -/
def shortOption? (argument : String) : Option Char :=
  match argument.toList with
  | '-' :: c :: _ => if c = '-' then none else some c
  | _ => none

/-- The text behind the equals sign of `--prompt=TEXT`. -/
def attachedPrompt? (argument : String) : Option String :=
  let start := "--prompt=".toList
  if start.isPrefixOf argument.toList then
    some (String.ofList (argument.toList.drop start.length))
  else none

/-- The command that an argument names, which is still without its file. -/
def command? : String → Option (String → Task)
  | "tokenize" => some .listTokens
  | "parse" => some .listTrees
  | "run" => some .answerFile
  | _ => none

/-- A command with its file. -/
def perform? (options : Options) (task : String → Task) (file : String) :
    Except UsageError Request :=
  if file = "" then .error .missingFile else .ok (.perform options (task file))

/-- The arguments behind a command and in front of its file. -/
def ofFileArguments (options : Options) (task : String → Task) :
    List String → Except UsageError Request
  | [] => .error .missingFile
  | ["--"] => .error .missingFile
  | ["--", file] => perform? options task file
  | "--" :: _ :: argument :: _ => .error (.unexpected argument)
  | argument :: rest =>
    if isOption argument then
      if argument = "--help" || shortOption? argument == some 'h' then .ok .help
      else .error (.unexpected argument)
    else
      match perform? options task argument, rest with
      | .error error, _ => .error error
      | .ok request, [] => .ok request
      | .ok request, ["--"] => .ok request
      | .ok _, "--" :: argument :: _ => .error (.unexpected argument)
      | .ok _, argument :: _ =>
        if argument = "--help" || shortOption? argument == some 'h' then .ok .help
        else .error (.unexpected argument)

/-- The arguments behind a request for help. -/
def ofHelpArguments : List String → Except UsageError Request
  | [] => .ok .help
  | [argument] =>
    if (command? argument).isSome || argument = "help" then .ok .help
    else .error (.unexpected argument)
  | _ :: argument :: _ => .error (.unexpected argument)

/-- Gives the prompt, which must not have been given before. -/
def withPrompt (options : Options) (prompt : String) : Except UsageError Options :=
  if options.prompt.isSome then .error (.repeated "--prompt")
  else .ok { options with prompt := some prompt }

/-- The arguments behind those that gave `options`. -/
def ofArgumentsAfter (options : Options) : List String → Except UsageError Request
  | [] => .ok (.perform options .converse)
  | ["--"] => .ok (.perform options .converse)
  | "--" :: argument :: _ => .error (.unexpected argument)
  | ["--prompt"] => .error (.missingValue "--prompt")
  | "--prompt" :: prompt :: rest =>
    if isOption prompt then .error (.missingValue "--prompt")
    else do ofArgumentsAfter (← withPrompt options prompt) rest
  | "--report" :: rest =>
    if options.report then .error (.repeated "--report")
    else ofArgumentsAfter { options with report := true } rest
  | "--version" :: _ => .ok .version
  | "--help" :: _ => .ok .help
  | "help" :: rest => ofHelpArguments rest
  | argument :: rest =>
    match command? argument, attachedPrompt? argument, shortOption? argument with
    | some task, _, _ => ofFileArguments options task rest
    | none, some prompt, _ => do ofArgumentsAfter (← withPrompt options prompt) rest
    | none, none, some 'V' => .ok .version
    | none, none, some 'h' => .ok .help
    | none, none, _ => .error (.unexpected argument)

/-- What the arguments of the command ask for. -/
def ofArguments (arguments : List String) : Except UsageError Request :=
  ofArgumentsAfter {} arguments

end Request

namespace Command

/-- The name and number that the command gives as its version. -/
def version : String := "line_calc 0.1.0"

/-- How the command is used. -/
def usage : String :=
  "Usage: line_calc [--prompt PROMPT] [--report] [tokenize FILE | parse FILE | run FILE]"

/-- What is wrong with the arguments. -/
def complaint : UsageError → String
  | .unexpected argument => s!"error: unexpected argument '{argument}' found"
  | .repeated option => s!"error: the argument '{option}' cannot be used multiple times"
  | .missingValue option => s!"error: a value is required for '{option}' but none was supplied"
  | .missingFile => "error: a file is required but none was supplied"

/-- Does what the arguments ask for; those that ask for nothing end with code 2. -/
def execute (surroundings : Surroundings) (arguments : List String) : Outcome :=
  match Request.ofArguments arguments with
  | .error error =>
    { code := 2, output := [], messages := [.note (complaint error), .note usage] }
  | .ok .version => { code := 0, output := listing [version.toList], messages := [] }
  | .ok .help => { code := 0, output := listing [usage.toList], messages := [] }
  | .ok (.perform options task) => perform surroundings options task

end Command
end Reckoner
