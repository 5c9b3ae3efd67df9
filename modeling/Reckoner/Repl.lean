/-
# The read-evaluate-print loop

Before each line the loop writes a prompt.  A line with a value is answered by
`= ` and the value, a line with an error by `error: ` and the message, and the
loop goes on; it ends at a line without tokens, which the end of the input is
too.  Nothing else ends it but a failure to read or to write.

The loop can be run again from where it stopped: lines are counted on, and
reading goes on behind the last line that was read.  It comes to an end because
each turn after which it goes on has read at least one byte
(`unread_lt_of_turn`).
-/

import Reckoner.Action
import Reckoner.Diagnostic
import Reckoner.Line.Value
import Reckoner.Stream.Reader
import Reckoner.Stream.Writer

namespace Reckoner

/-- What is written before each line unless something else is asked for. -/
def Repl.defaultPrompt : List Char := ['>', ' ']

/-- A read-evaluate-print loop between two lines. -/
structure Repl where
  /-- Where lines are read from. -/
  reader : ByteReader
  /-- Where prompts and answers are written to. -/
  writer : ByteWriter
  /-- What is written before each line. -/
  prompt : List Char := Repl.defaultPrompt
  /-- Where the lines come from. -/
  filename : Option String := none
  /-- Whether to keep the diagnostics of lines with an error. -/
  report : Bool := false
  /-- How many lines have been read, in this run and in those before. -/
  linesRead : Nat := 0
  /-- The diagnostics that have been kept. -/
  reports : Array Diagnostic := #[]

namespace Repl

/-- Why a loop stops before its end. -/
inductive Failure
  /-- The prompt cannot be written, or not be flushed. -/
  | prompt (cause : String)
  /-- The line with this number cannot be read. -/
  | read (number : Nat) (cause : String)
  /-- The answer to a line cannot be written. -/
  | result (cause : String)
  deriving DecidableEq, Repr

/-- What a failure says, the cause last. -/
def Failure.chain : Failure → List String
  | prompt cause => ["writing prompt failed", cause]
  | read number cause => s!"reading line {number} failed" :: ByteReader.faultChain cause
  | result cause => ["writing result failed", cause]

/-- A part of a turn of the loop.  A part that fails can change the loop all the
same. -/
abbrev Action := EStateM Failure Repl

/-- Writes a text piece by piece. -/
def write (failure : String → Failure) (pieces : List (List Char)) : Action Unit := fun repl =>
  match repl.writer.writeEach (pieces.map Utf8.encode) with
  | (.ok (), writer) => .ok () { repl with writer }
  | (.error cause, writer) => .error (failure cause) { repl with writer }

/-- Makes sure that the prompt has arrived. -/
def flush : Action Unit := fun repl =>
  match repl.writer.flush with
  | (.ok (), writer) => .ok () { repl with writer }
  | (.error cause, writer) => .error (.prompt cause) { repl with writer }

/-- Reads a line and counts it. -/
def readLine : Action Line := fun repl =>
  match repl.reader.readLine with
  | (.ok bytes, reader) =>
    .ok ⟨repl.filename, Utf8.decodeLossy bytes⟩
      { repl with reader, linesRead := repl.linesRead + 1 }
  | (.error cause, reader) => .error (.read (repl.linesRead + 1) cause) { repl with reader }

/-- The answer to a line that has tokens, in the pieces that it is written in. -/
def answer : Except LineError Int64 → List (List Char)
  | .ok value => ["= ".toList] ++ Decimal.signAndDigits value.toInt ++ [['\n']]
  | .error error => ["error: ".toList] ++ error.messagePieces ++ [['\n']]

/-- Keeps the diagnostic of a line with an error if that is asked for. -/
def keep (diagnostic : Diagnostic) : Action Unit :=
  modify fun repl =>
    if repl.report then { repl with reports := repl.reports.push diagnostic } else repl

/-- Answers a line, and says whether the loop goes on. -/
def respond (line : Line) : Action Bool :=
  match line.value? with
  | .ok none => return false
  | .ok (some value) => do
    write .result (answer (.ok value))
    return true
  | .error error => do
    keep (error.diagnostic line)
    write .result (answer (.error error))
    return true

/-- One turn: a prompt, a line, its answer.  Says whether the loop goes on. -/
def turn : Action Bool := do
  write .prompt [(← get).prompt]
  flush
  respond (← readLine)

/-- A part of a turn that does not read. -/
def KeepsReader {α : Type} (action : Action α) : Prop :=
  ∀ {repl a after}, action repl = .ok a after → after.reader = repl.reader

/-- Nothing is read while something is written. -/
theorem keepsReader_write (failure : String → Failure) (pieces : List (List Char)) :
    KeepsReader (write failure pieces) := by
  intro repl _ after h
  unfold write at h
  split at h <;> cases h
  rfl

/-- Nothing is read while the prompt is flushed. -/
theorem keepsReader_flush : KeepsReader flush := by
  intro repl _ after h
  unfold flush at h
  split at h <;> cases h
  rfl

/-- Nothing is read while a diagnostic is kept. -/
theorem keepsReader_keep (diagnostic : Diagnostic) : KeepsReader (keep diagnostic) := by
  intro repl _ after h
  cases h
  dsimp only
  split <;> rfl

/-- A line with a value or an error has at least one character. -/
theorem text_ne_nil_of_value? {line : Line} (h : line.value? ≠ .ok none) : line.text ≠ [] := by
  obtain ⟨filename, text⟩ := line
  rintro rfl
  exact h rfl

/-- A loop goes on only behind a line with at least one character. -/
theorem reader_of_respond {line : Line} {repl after : Repl}
    (h : respond line repl = .ok true after) : after.reader = repl.reader ∧ line.text ≠ [] := by
  unfold respond at h
  cases hv : line.value? with
  | ok value =>
    rw [hv] at h
    cases value with
    | none => exact absurd (pure_eq_ok_iff.1 h).1 (by decide)
    | some value =>
      obtain ⟨_, written, hw, h⟩ := bind_eq_ok_iff.1 h
      obtain ⟨-, rfl⟩ := pure_eq_ok_iff.1 h
      exact ⟨keepsReader_write _ _ hw, text_ne_nil_of_value? (by rw [hv]; nofun)⟩
  | error error =>
    rw [hv] at h
    obtain ⟨_, kept, hk, h⟩ := bind_eq_ok_iff.1 h
    obtain ⟨_, written, hw, h⟩ := bind_eq_ok_iff.1 h
    obtain ⟨-, rfl⟩ := pure_eq_ok_iff.1 h
    exact ⟨(keepsReader_write _ _ hw).trans (keepsReader_keep _ hk),
      text_ne_nil_of_value? (by rw [hv]; nofun)⟩

/-- **A turn after which the loop goes on has read something.** -/
theorem unread_lt_of_turn {repl after : Repl} (h : turn repl = .ok true after) :
    after.reader.unread < repl.reader.unread := by
  obtain ⟨_, _, hget, h⟩ := bind_eq_ok_iff.1 h
  cases hget
  obtain ⟨_, written, hw, h⟩ := bind_eq_ok_iff.1 h
  obtain ⟨_, flushed, hf, h⟩ := bind_eq_ok_iff.1 h
  obtain ⟨line, read, hr, h⟩ := bind_eq_ok_iff.1 h
  obtain ⟨hafter, htext⟩ := reader_of_respond h
  rw [hafter, ← keepsReader_write _ _ hw, ← keepsReader_flush hf]
  unfold readLine at hr
  split at hr
  · next bytes reader hline =>
    cases hr
    have := ByteReader.length_add_unread_of_readLine hline
    have : bytes ≠ [] := by
      rintro rfl
      exact htext rfl
    have := List.length_pos_iff.2 this
    dsimp only
    omega
  · cases hr

/-- Runs the loop to its end, or to a failure. -/
def run : Action Unit := fun repl =>
  match h : turn repl with
  | .ok true after =>
    have := unread_lt_of_turn h
    run after
  | .ok false after => .ok () after
  | .error failure after => .error failure after
  termination_by repl => repl.reader.unread

/-- **A run is a turn** and, if the loop goes on, a run from there. -/
theorem run_step (repl : Repl) :
    run repl = match turn repl with
      | .ok true after => run after
      | .ok false after => .ok () after
      | .error failure after => .error failure after := by
  rw [run]
  split <;> next h => conv => rhs; rw [h]

end Repl
end Reckoner
