/-
# What the counters of a session say

Reading and writing can fail anywhere, and a session can be run again after any failure.
Its counters stay in step all the same (`isAccounted`).  Each flush has been followed by a
line that was read, unless it failed or the read behind it failed; a prompt that does not
arrive takes nothing from the input; and as long as no read has failed, what is consumed are
the lines that are counted, so that the next run begins with the next line.

The invariant (`Accounted`) is kept by each turn, whichever way out of it is taken
(`Accounted.turn`), and so by each run.

Nothing is assumed of the source or of the sink: they may take what is offered in any portions,
fail at any place, and go on after that as if nothing had been.
-/

import Reckoner.Proofs.Session.Exits
import Reckoner.Proofs.Session.Transcript

namespace Reckoner

/-! ## Flushes -/

/-- How many of the next flushes of a sink fail, out of so many. -/
def ByteWriter.failedFlushes (writer : ByteWriter) (count : Nat) : Nat :=
  (List.range count).countP fun number => writer.flushFails (writer.flushes + number + 1)

/-- One flush more fails or does not. -/
theorem ByteWriter.failedFlushes_succ (writer : ByteWriter) (count : Nat) :
    writer.failedFlushes (count + 1) = writer.failedFlushes count +
      if writer.flushFails (writer.flushes + count + 1) then 1 else 0 := by
  rw [failedFlushes, List.range_succ, List.countP_append, ← failedFlushes, List.countP_singleton]

/-- How many prompts have arrived: one or none. -/
def arrivals : Except String Unit → Nat
  | .ok () => 1
  | .error _ => 0

/-- A flush is counted, and either something arrives or the flush fails. -/
theorem ByteWriter.flush_keeps {writer flushed : ByteWriter} {result : Except String Unit}
    (h : writer.flush = (result, flushed)) :
    flushed.flushes = writer.flushes + 1 ∧ flushed.flushFails = writer.flushFails ∧
      arrivals result + (if writer.flushFails (writer.flushes + 1) then 1 else 0) = 1 := by
  rw [flush] at h
  obtain ⟨rfl, rfl⟩ := Prod.mk.inj h
  refine ⟨rfl, rfl, ?_⟩
  by_cases hfails : writer.flushFails (writer.flushes + 1) = true
  · rw [if_pos hfails, if_pos hfails]
    rfl
  · rw [if_neg hfails, if_neg hfails]
    rfl

namespace Repl

/-! ## Reads -/

/-- Whether a failure is that of a read. -/
def Failure.isRead : Failure → Bool
  | read _ _ => true
  | prompt _ | result _ => false

/-- How many reads have failed in a turn or a run: one if it ends with such a failure. -/
def readFailures {α : Type} : EStateM.Result Failure Repl α → Nat
  | .ok _ _ => 0
  | .error failure _ => if failure.isRead then 1 else 0

/-- How many reads have failed in so many runs of a session. -/
def failedReads (start : Repl) : Nat → Nat
  | 0 => 0
  | runs + 1 => failedReads start runs + readFailures (afterRuns start runs).run

/-- One run more goes on from where the others have left the session. -/
theorem afterRuns_succ (start : Repl) (runs : Nat) :
    afterRuns start (runs + 1) = stateAfter (afterRuns start runs).run := by
  rw [afterRuns]
  cases (afterRuns start runs).run <;> rfl

/-! ## The invariant -/

/-- What the counters of a session have to do with those at its start, if so many reads have
failed since then. -/
structure Accounted (start : Repl) (failed : Nat) (repl : Repl) : Prop where
  /-- The same flushes fail. -/
  flushFails : repl.writer.flushFails = start.writer.flushFails
  /-- Each flush has been followed by a line that was read, or has failed itself, or the read behind
  it has. -/
  flushes : ∃ count, repl.writer.flushes = start.writer.flushes + count ∧
    start.linesRead + count = repl.linesRead + start.writer.failedFlushes count + failed
  /-- As long as no read has failed the lines that are counted are those that are consumed. -/
  lines : failed = 0 → ∃ count, repl.linesRead = start.linesRead + count ∧
    rawLines repl.reader.contents = (rawLines start.reader.contents).drop count ∧
    repl.reader.position =
      start.reader.position + ((rawLines start.reader.contents).take count).flatten.length

/-- A session accounts for itself at its start. -/
theorem accounted_start (start : Repl) : Accounted start 0 start :=
  ⟨rfl, ⟨0, rfl, rfl⟩, fun _ => ⟨0, rfl, rfl, rfl⟩⟩

section Invariant

variable {start repl : Repl} {failed : Nat}

/-- What only writes leaves every counter as it is. -/
theorem Accounted.of_onlyWrites {after : Repl} (h : Accounted start failed repl)
    (hw : OnlyWrites repl after) : Accounted start failed after := by
  obtain ⟨hreader, hlines, hflushes, hfails⟩ := hw
  constructor
  · rw [hfails, h.flushFails]
  · rw [hflushes, hlines]
    exact h.flushes
  · rw [hreader, hlines]
    exact h.lines

/-- **A prompt is one more flush if it gets so far.**  If it arrives it is made up for by
what comes next, and else its flush has failed. -/
theorem Accounted.prompted {writer : ByteWriter} {result : Except String Unit}
    (h : Accounted start failed repl) (hprompted : prompted repl = (result, writer)) :
    writer.flushFails = start.writer.flushFails ∧
      ∃ count, writer.flushes = start.writer.flushes + count ∧
        start.linesRead + count =
          repl.linesRead + arrivals result + start.writer.failedFlushes count + failed := by
  unfold Repl.prompted at hprompted
  rcases hwrite : repl.writer.write (Utf8.encode repl.prompt) with ⟨refusal | _, written⟩
  · rw [hwrite] at hprompted
    obtain ⟨rfl, rfl⟩ := Prod.mk.inj hprompted
    have hwritten := h.of_onlyWrites (onlyWrites_of_write hwrite)
    exact ⟨hwritten.flushFails, hwritten.flushes⟩
  · rw [hwrite] at hprompted
    have hwritten := h.of_onlyWrites (onlyWrites_of_write hwrite)
    have hsame : written.flushFails = start.writer.flushFails := hwritten.flushFails
    obtain ⟨hcount, hkeeps, hone⟩ := ByteWriter.flush_keeps hprompted
    obtain ⟨count, hflushes, hsum⟩ := hwritten.flushes
    dsimp only at hflushes hsum
    refine ⟨hkeeps.trans hsame, count + 1, by omega, ?_⟩
    rw [ByteWriter.failedFlushes_succ, ← hflushes, ← hsame]
    omega

/-- A line that is read behind a prompt is one more line. -/
theorem Accounted.answered {writer : ByteWriter} {bytes : List UInt8} {reader : ByteReader}
    (h : Accounted start failed repl) (hprompted : Repl.prompted repl = (.ok (), writer))
    (hread : repl.reader.readLine = (.ok bytes, reader)) :
    Accounted start failed
      { repl with writer, reader, linesRead := repl.linesRead + 1 } := by
  obtain ⟨hfails, count, hflushes, hsum⟩ := h.prompted hprompted
  obtain ⟨hfirst, hothers, hposition⟩ := ByteReader.readsLine_of_readLine hread
  refine ⟨hfails, ⟨count, hflushes, hsum⟩, fun hzero => ?_⟩
  obtain ⟨lines, hlines, hrest, hconsumed⟩ := h.lines hzero
  have hline : bytes = rawLine start.reader.contents lines := by
    rw [hfirst, rawLine_of_drop hrest, Nat.add_zero]
  refine ⟨lines + 1, ?_, ?_, ?_⟩
  · show repl.linesRead + 1 = _
    omega
  · rw [hothers, hrest, List.drop_drop]
  · show reader.position = _
    rw [hposition, hconsumed, hline, length_take_succ, Nat.add_assoc]

/-- **A turn keeps the account,** whichever way out of it is taken. -/
theorem Accounted.turn (h : Accounted start failed repl) :
    Accounted start (failed + readFailures (turn repl)) (stateAfter (turn repl)) := by
  have hexits := turn_exits repl
  generalize Repl.turn repl = result at hexits ⊢
  cases hexits with
  | unprompted hprompted =>
    obtain ⟨hfails, hflushes⟩ := h.prompted hprompted
    exact ⟨hfails, hflushes, h.lines⟩
  | unread hprompted hread =>
    obtain ⟨hfails, count, hflushes, hsum⟩ := h.prompted hprompted
    refine ⟨hfails, ⟨count, hflushes, ?_⟩, fun hzero => by cases hzero⟩
    have hone : arrivals (.ok ()) = 1 := rfl
    show start.linesRead + count = repl.linesRead + _ + (failed + 1)
    omega
  | @answered bytes writer reader hprompted hread =>
    have hanswered := h.answered hprompted hread
    have hresponds := responds_respond ⟨repl.filename, Utf8.decodeLossy bytes⟩
      { repl with writer, reader, linesRead := repl.linesRead + 1 }
    generalize respond _ _ = result at hresponds ⊢
    cases hresponds with
    | ok hwrites => exact hanswered.of_onlyWrites hwrites
    | error hwrites => exact hanswered.of_onlyWrites hwrites

/-- **A run keeps the account.**  The induction is on its turns; only the last of them can fail, so
that no read fails in the others. -/
theorem Accounted.run (h : Accounted start failed repl) :
    Accounted start (failed + readFailures (run repl)) (stateAfter (run repl)) := by
  revert h
  refine run_induction (motive := fun repl result => Accounted start failed repl →
    Accounted start (failed + readFailures result) (stateAfter result)) ?_ ?_ ?_ repl
  · intro repl after hturn h
    have hafter := h.turn
    rw [hturn] at hafter
    exact hafter
  · intro repl failure after hturn h
    have hafter := h.turn
    rw [hturn] at hafter
    exact hafter
  · intro repl middle hturn hrest h
    have hmiddle := h.turn
    rw [hturn] at hmiddle
    exact hrest hmiddle

end Invariant

/-- However often a session is run, it keeps its account. -/
theorem accounted_afterRuns (start : Repl) (runs : Nat) :
    Accounted start (failedReads start runs) (afterRuns start runs) := by
  induction runs with
  | zero => exact accounted_start start
  | succ runs ih =>
    rw [failedReads, afterRuns_succ]
    exact ih.run

/-! ## The account of a session -/

/-- A run that fails to read names the line behind those that are counted. -/
theorem eq_of_run_eq_read {repl after : Repl} {number : Nat} {cause : String}
    (h : run repl = .error (.read number cause) after) : number = after.linesRead + 1 := by
  revert h
  refine run_induction (motive := fun _ result =>
    result = .error (.read number cause) after → number = after.linesRead + 1) ?_ ?_ ?_ repl
  · intro repl after _ h
    cases h
  · intro repl failure after hturn h
    cases h
    obtain ⟨_, _, -, -, hnumber, rfl⟩ := turn_eq_read_iff.1 hturn
    exact hnumber
  · intro repl middle _ hrest
    exact hrest

/-- What is true of a session `start` behind so many runs, and of each of its turns. -/
structure IsAccounted (start : Repl) (runs : Nat) : Prop where
  /-- There are as many flushes as lines have been read, flushes have failed and reads have
  failed. -/
  flushes : ∃ count, (afterRuns start runs).writer.flushes = start.writer.flushes + count ∧
    count = (afterRuns start runs).linesRead + start.writer.failedFlushes count +
      failedReads start runs
  /-- A turn that fails to prompt leaves the input as it is. -/
  unprompted : ∀ repl cause after, turn repl = .error (.prompt cause) after ↔
    ∃ writer, prompted repl = (.error cause, writer) ∧ after = { repl with writer }
  /-- A turn that fails to read counts no line. -/
  unread : ∀ repl number cause after, turn repl = .error (.read number cause) after ↔
    ∃ writer reader, prompted repl = (.ok (), writer) ∧
      repl.reader.readLine = (.error cause, reader) ∧ number = repl.linesRead + 1 ∧
      after = { repl with writer, reader }
  /-- A run that fails to read says which line it has not read. -/
  reported : ∀ number cause after, run (afterRuns start runs) = .error (.read number cause) after →
    number = after.linesRead + 1 ∧
      (Failure.read number cause).chain =
        [s!"reading line {after.linesRead + 1} failed", "reading input line failed", cause]
  /-- As long as no read has failed, the lines that are counted have been consumed, and the
  others are left. -/
  continues : failedReads start runs = 0 →
    (afterRuns start runs).reader.position = start.reader.position +
      ((rawLines start.reader.contents).take (afterRuns start runs).linesRead).flatten.length ∧
    rawLines (afterRuns start runs).reader.contents =
      (rawLines start.reader.contents).drop (afterRuns start runs).linesRead

/-- **The counters of a session stay in step,** whatever fails and however often it is
run.  At its start a session has counted nothing, so that the account is one of all lines, flushes
and failures that there have been. -/
theorem isAccounted (reader : ByteReader) (writer : ByteWriter) (prompt : List Char)
    (filename : Option String) (report : Bool) (runs : Nat) :
    IsAccounted { reader, writer, prompt, filename, report } runs := by
  generalize hs : ({ reader, writer, prompt, filename, report } : Repl) = start
  have hzero : start.linesRead = 0 := by rw [← hs]
  have haccount := accounted_afterRuns start runs
  constructor
  · obtain ⟨count, hflushes, hsum⟩ := haccount.flushes
    exact ⟨count, hflushes, by omega⟩
  · intro repl cause after
    exact turn_eq_prompt_iff
  · intro repl number cause after
    exact turn_eq_read_iff
  · intro number cause after hrun
    obtain rfl := eq_of_run_eq_read hrun
    exact ⟨rfl, rfl⟩
  · intro hnone
    obtain ⟨count, hlines, hrest, hposition⟩ := haccount.lines hnone
    obtain rfl : (afterRuns start runs).linesRead = count := by omega
    exact ⟨hposition, hrest⟩

end Repl
end Reckoner
