/-
# The ways out of a turn

A turn of a session ends in one of three ways: its prompt does not arrive, or no line can
be read, or there is a line and it is answered (`turn_exits`).  Each leaves the session in
a state of its own.  An answer changes nothing but what has been written
(`responds_respond`), so what a turn does to the reader, to the count of lines and to the
count of flushes is known from the way out of it.

The way out can be told from the result of the turn: a failure to prompt and a failure to read each
come about in one way (`turn_eq_prompt_iff`, `turn_eq_read_iff`), and a turn that reads a line goes
on with the answer to it (`turn_of_readLine`).  No other lemma on turns opens what a turn does.

What all turns of a run have to do with each other is found by induction on the turns
(`run_induction`), of which there are finitely many because each uses up some of the input.
-/

import Reckoner.Proofs.Session.Answer

namespace Reckoner

/-- Writing does not flush, nor does it change which flushes fail.  The induction is on what is
still to be offered. -/
theorem ByteWriter.write_keeps (writer : ByteWriter) (bytes : List UInt8) :
    (writer.write bytes).2.flushes = writer.flushes ∧
      (writer.write bytes).2.flushFails = writer.flushFails := by
  induction hn : bytes.length using Nat.strongRecOn generalizing writer bytes with
  | ind n ih =>
    subst hn
    rw [ByteWriter.write]
    by_cases hnil : bytes = []
    · rw [dif_pos hnil]
      exact ⟨rfl, rfl⟩
    rw [dif_neg hnil]
    dsimp only
    by_cases htaken : writer.takes writer.offers writer.written.size bytes.length = 0
    · rw [if_pos htaken]
      exact ⟨rfl, rfl⟩
    · rw [if_neg htaken]
      have hpos : 0 < bytes.length := List.length_pos_iff.2 hnil
      have hlt : (bytes.drop (writer.takes writer.offers writer.written.size bytes.length)).length
          < bytes.length := by
        rw [List.length_drop]
        omega
      exact ih _ hlt _ _ rfl

/-- Writing pieces does not flush either. -/
theorem ByteWriter.writeEach_keeps (writer : ByteWriter) (pieces : List (List UInt8)) :
    (writer.writeEach pieces).2.flushes = writer.flushes ∧
      (writer.writeEach pieces).2.flushFails = writer.flushFails := by
  induction pieces generalizing writer with
  | nil => exact ⟨rfl, rfl⟩
  | cons piece pieces ih =>
    obtain ⟨hflushes, hfails⟩ := writer.write_keeps piece
    rw [writeEach]
    rcases hwrite : writer.write piece with ⟨cause | _, written⟩
    · rw [hwrite] at hflushes hfails
      exact ⟨hflushes, hfails⟩
    · rw [hwrite] at hflushes hfails
      obtain ⟨hlater, hlaterFails⟩ := ih written
      exact ⟨hlater.trans hflushes, hlaterFails.trans hfails⟩

namespace Repl

/-- How a session stands that has done nothing but write. -/
structure OnlyWrites (repl after : Repl) : Prop where
  /-- The input is where it was. -/
  reader : after.reader = repl.reader
  /-- As many lines have been read. -/
  linesRead : after.linesRead = repl.linesRead
  /-- The sink has been flushed as often. -/
  flushes : after.writer.flushes = repl.writer.flushes
  /-- The same flushes fail. -/
  flushFails : after.writer.flushFails = repl.writer.flushFails

/-- A session that does nothing has done nothing but write. -/
theorem OnlyWrites.refl (repl : Repl) : OnlyWrites repl repl := ⟨rfl, rfl, rfl, rfl⟩

/-- A session that writes pieces does nothing else. -/
theorem onlyWrites_of_writeEach {repl : Repl} {pieces : List (List UInt8)}
    {result : Except String Unit} {writer : ByteWriter}
    (h : repl.writer.writeEach pieces = (result, writer)) :
    OnlyWrites repl { repl with writer } := by
  obtain ⟨hflushes, hfails⟩ := repl.writer.writeEach_keeps pieces
  rw [h] at hflushes hfails
  exact ⟨rfl, rfl, hflushes, hfails⟩

/-- A session that writes bytes does nothing else. -/
theorem onlyWrites_of_write {repl : Repl} {bytes : List UInt8} {result : Except String Unit}
    {writer : ByteWriter} (h : repl.writer.write bytes = (result, writer)) :
    OnlyWrites repl { repl with writer } :=
  onlyWrites_of_writeEach ((repl.writer.writeEach_singleton bytes).trans h)

/-- What answering a line comes to: the session goes on or not, or it fails to write. -/
inductive Responds (repl : Repl) : EStateM.Result Failure Repl Bool → Prop
  | ok {goesOn : Bool} {after : Repl} (h : OnlyWrites repl after) : Responds repl (.ok goesOn after)
  | error {cause : String} {after : Repl} (h : OnlyWrites repl after) :
      Responds repl (.error (.result cause) after)

/-- **Answering a line does nothing but write.** -/
theorem responds_respond (line : Line) (repl : Repl) : Responds repl (respond line repl) := by
  by_cases hblank : IsBlankLine line.text
  · rw [respond_of_isBlank hblank]
    exact .ok (.refl repl)
  · rw [respond_of_not_isBlank hblank]
    rcases hwrite : repl.writer.writeEach line.pieces with ⟨cause | _, writer⟩
    · obtain ⟨-, -, hflushes, hfails⟩ := onlyWrites_of_writeEach hwrite
      exact .error ⟨rfl, rfl, hflushes, hfails⟩
    · obtain ⟨-, -, hflushes, hfails⟩ := onlyWrites_of_writeEach hwrite
      exact .ok ⟨rfl, rfl, hflushes, hfails⟩

/-- An answer fails in one way only, which is none of the ways in which a prompt or a read fails. -/
theorem eq_result_of_respond {line : Line} {repl after : Repl} {failure : Failure}
    (h : respond line repl = .error failure after) : ∃ cause, failure = .result cause := by
  have hresponds := responds_respond line repl
  rw [h] at hresponds
  cases hresponds with
  | error => exact ⟨_, rfl⟩

/-- What comes of writing the prompt and flushing it. -/
def prompted (repl : Repl) : Except String Unit × ByteWriter :=
  match repl.writer.write (Utf8.encode repl.prompt) with
  | (.ok (), writer) => writer.flush
  | (.error cause, writer) => (.error cause, writer)

/-- **The ways out of a turn,** each with the state in which it leaves the session.  Where no line
can be read, what has been read of one is lost, and the line is not counted. -/
inductive Exits (repl : Repl) : EStateM.Result Failure Repl Bool → Prop
  /-- The prompt is refused or not flushed. -/
  | unprompted {cause : String} {writer : ByteWriter}
      (hprompted : prompted repl = (.error cause, writer)) :
      Exits repl (.error (.prompt cause) { repl with writer })
  /-- No line can be read. -/
  | unread {cause : String} {writer : ByteWriter} {reader : ByteReader}
      (hprompted : prompted repl = (.ok (), writer))
      (hread : repl.reader.readLine = (.error cause, reader)) :
      Exits repl (.error (.read (repl.linesRead + 1) cause) { repl with writer, reader })
  /-- A line is read and answered. -/
  | answered {bytes : List UInt8} {writer : ByteWriter} {reader : ByteReader}
      (hprompted : prompted repl = (.ok (), writer))
      (hread : repl.reader.readLine = (.ok bytes, reader)) :
      Exits repl (respond ⟨repl.filename, Utf8.decodeLossy bytes⟩
        { repl with writer, reader, linesRead := repl.linesRead + 1 })

/-- Prompting is writing and flushing: a prompt is one piece, and both failures are one failure of
the session. -/
theorem write_bind_flush (repl : Repl) :
    (write .prompt [repl.prompt] >>= fun _ => flush) repl = match prompted repl with
      | (.ok (), writer) => .ok () { repl with writer }
      | (.error cause, writer) => .error (.prompt cause) { repl with writer } := by
  have hpiece : repl.writer.writeEach ([repl.prompt].map Utf8.encode) =
      repl.writer.write (Utf8.encode repl.prompt) := repl.writer.writeEach_singleton _
  unfold prompted
  rcases hwrite : repl.writer.write (Utf8.encode repl.prompt) with ⟨cause | _, writer⟩
  · have hprompt : write .prompt [repl.prompt] repl =
        .error (.prompt cause) { repl with writer } := by
      rw [write, hpiece, hwrite]
    rw [bind_of_error hprompt]
  · have hprompt : write .prompt [repl.prompt] repl = .ok () { repl with writer } := by
      rw [write, hpiece, hwrite]
    rw [bind_of_ok hprompt]
    rfl

/-- **A turn has one of the three ways out,** by what comes of its prompt and of its read. -/
theorem turn_exits (repl : Repl) : Exits repl (turn repl) := by
  have hturn : turn repl = ((write .prompt [repl.prompt] >>= fun _ => flush) >>=
      fun _ => readLine >>= respond) repl := by
    rw [bind_assoc]
    rfl
  have hprompt := write_bind_flush repl
  rw [hturn]
  rcases hprompted : prompted repl with ⟨cause | _, writer⟩
  · rw [hprompted] at hprompt
    rw [bind_of_error hprompt]
    exact .unprompted hprompted
  rw [hprompted] at hprompt
  rw [bind_of_ok hprompt]
  rcases hread : repl.reader.readLine with ⟨cause | bytes, reader⟩
  · have hline : readLine { repl with writer } =
        .error (.read (repl.linesRead + 1) cause) { repl with writer, reader } := by
      rw [readLine, hread]
    rw [bind_of_error hline]
    exact .unread hprompted hread
  · have hline : readLine { repl with writer } =
        .ok ⟨repl.filename, Utf8.decodeLossy bytes⟩
          { repl with writer, reader, linesRead := repl.linesRead + 1 } := by
      rw [readLine, hread]
    rw [bind_of_ok hline]
    exact .answered hprompted hread

/-- A turn fails to prompt just when the prompt does not arrive, and has then done nothing
else. -/
theorem turn_eq_prompt_iff {repl after : Repl} {cause : String} :
    turn repl = .error (.prompt cause) after ↔
      ∃ writer, prompted repl = (.error cause, writer) ∧ after = { repl with writer } := by
  have hexits := turn_exits repl
  generalize turn repl = result at hexits ⊢
  cases hexits with
  | unprompted hprompted =>
    rw [hprompted]
    constructor
    · rintro ⟨⟩
      exact ⟨_, rfl, rfl⟩
    · rintro ⟨_, ⟨⟩, rfl⟩
      rfl
  | unread hprompted =>
    rw [hprompted]
    constructor
    · rintro ⟨⟩
    · rintro ⟨_, ⟨⟩, -⟩
  | answered hprompted =>
    rw [hprompted]
    constructor
    · intro hresult
      obtain ⟨_, hcause⟩ := eq_result_of_respond hresult
      cases hcause
    · rintro ⟨_, ⟨⟩, -⟩

/-- A turn fails to read just when the prompt has arrived and the read fails, and the line
is then not counted. -/
theorem turn_eq_read_iff {repl after : Repl} {number : Nat} {cause : String} :
    turn repl = .error (.read number cause) after ↔
      ∃ writer reader, prompted repl = (.ok (), writer) ∧
        repl.reader.readLine = (.error cause, reader) ∧ number = repl.linesRead + 1 ∧
        after = { repl with writer, reader } := by
  have hexits := turn_exits repl
  generalize turn repl = result at hexits ⊢
  cases hexits with
  | unprompted hprompted =>
    rw [hprompted]
    constructor
    · rintro ⟨⟩
    · rintro ⟨_, _, ⟨⟩, -⟩
  | unread hprompted hread =>
    rw [hprompted, hread]
    constructor
    · rintro ⟨⟩
      exact ⟨_, _, rfl, rfl, rfl, rfl⟩
    · rintro ⟨_, _, ⟨⟩, ⟨⟩, rfl, rfl⟩
      rfl
  | answered hprompted hread =>
    rw [hread]
    constructor
    · intro hresult
      obtain ⟨_, hcause⟩ := eq_result_of_respond hresult
      cases hcause
    · rintro ⟨_, _, -, ⟨⟩, -⟩

/-- **A turn that reads a line** goes on with the answer to it. -/
theorem turn_of_readLine {writer : ByteWriter} {bytes : List UInt8} {reader : ByteReader}
    (hprompted : prompted repl = (.ok (), writer))
    (hread : repl.reader.readLine = (.ok bytes, reader)) :
    turn repl = respond ⟨repl.filename, Utf8.decodeLossy bytes⟩
      { repl with writer, reader, linesRead := repl.linesRead + 1 } := by
  have hexits := turn_exits repl
  generalize turn repl = result at hexits ⊢
  cases hexits with
  | unprompted hother =>
    rw [hprompted] at hother
    cases hother
  | unread _ hother =>
    rw [hread] at hother
    cases hother
  | answered hother hothers =>
    rw [hprompted] at hother
    rw [hread] at hothers
    cases hother
    cases hothers
    rfl

/-- **What the turns of a run come to.**  A turn behind which the session goes on takes it
to the rest of the run; any other turn ends the run as it ends itself. -/
theorem run_induction {motive : Repl → EStateM.Result Failure Repl Unit → Prop}
    (stop : ∀ {repl after}, turn repl = .ok false after → motive repl (.ok () after))
    (fail : ∀ {repl failure after}, turn repl = .error failure after →
      motive repl (.error failure after))
    (go : ∀ {repl middle}, turn repl = .ok true middle → motive middle (run middle) →
      motive repl (run middle))
    (repl : Repl) : motive repl (run repl) := by
  induction hn : repl.reader.unread using Nat.strongRecOn generalizing repl with
  | ind n ih =>
    rw [run_step]
    rcases hturn : turn repl with ⟨goesOn, middle⟩ | ⟨failure, after⟩
    · cases goesOn with
      | false => exact stop hturn
      | true =>
        have hlt := unread_lt_of_turn hturn
        exact go hturn (ih _ (hn ▸ hlt) middle rfl)
    · exact fail hturn

end Repl
end Reckoner
