/-
# A source that breaks

A source that brings the first bytes of an input and then fails gives a session all lines that
end in these bytes, and no others.  If one of them is blank the session ends there, as it does
with the whole input.  Otherwise it answers these lines and then fails to read, and so does each
further run (`isBroken`): the bytes of the line that has not ended are lost, and the line is
neither counted nor answered.

A session with such a source and one with the whole input are in step as long as the one is in
front of what the other still brings (`Begins`), and a turn that reads a line keeps them so
(`exists_turn_of_begins`).

A source that lasts for a run makes no difference to it (`Loops.exists_run`).  One that does not
last takes the session through the lines that have ended and leaves it stuck behind them
(`Proceeds.exists_run_of_broken`, `IsStuck`), and a session that is stuck comes out of each
further run as it went in, with one more prompt written (`IsStuck.exists_run`).
-/

import Reckoner.Proofs.Session.Transcript

namespace Reckoner

/-! ## Sources that break -/

namespace ByteReader

/-- Whether a source brings the bytes of an input in front of a place, in whatever fills, and then
fails; a place behind the end of the input is never reached. -/
structure BreaksAt (place : Nat) (fault : String) (bytes : List UInt8) (reader : ByteReader) :
    Prop where
  /-- No fill fails in front of the place. -/
  fills : ∀ fill ∈ reader.fills, ∃ bytes, fill = .ok bytes
  /-- The bytes in front of the place are brought. -/
  contents : reader.contents = bytes.take place
  /-- Behind them the source fails, unless all bytes are in front of the place. -/
  broken : reader.broken = if place ≤ bytes.length then some fault else none

/-- There are sources that break at a place: those that cut the bytes in front of it into fills. -/
theorem breaksAt_ofBytesBrokenAt (place : Nat) (fault : String) (size : Nat)
    (bytes : List UInt8) : (ofBytesBrokenAt place fault size bytes).BreaksAt place fault bytes :=
  ⟨(sound_ofBytes size (bytes.take place)).fills, contents_ofBytes size (bytes.take place), rfl⟩

/-- Whether a source brings first what another one still brings that never fails, and all of it
unless it is broken. -/
structure Begins (whole reader : ByteReader) : Prop where
  /-- The other one never fails. -/
  sound : whole.Sound
  /-- This one does not fail before it has brought its bytes. -/
  fills : ∀ fill ∈ reader.fills, ∃ bytes, fill = .ok bytes
  /-- Both have consumed as much. -/
  position : reader.position = whole.position
  /-- What this one still brings comes first in what the other one brings. -/
  contents : reader.contents <+: whole.contents
  /-- It is all of that unless this one is broken. -/
  whole : reader.broken = none → reader.contents = whole.contents

variable {whole reader : ByteReader}

/-- A source that breaks is in step with any source of all the bytes. -/
theorem BreaksAt.begins {place : Nat} {fault : String} {bytes : List UInt8}
    (h : reader.BreaksAt place fault bytes) (hwhole : whole.Sound) (hbytes : whole.contents = bytes)
    (hposition : reader.position = whole.position) : Begins whole reader where
  sound := hwhole
  fills := h.fills
  position := hposition
  contents := by
    rw [h.contents, hbytes]
    exact List.take_prefix _ _
  whole hnone := by
    have hlt : ¬ place ≤ bytes.length := by
      intro hle
      rw [h.broken, if_pos hle] at hnone
      cases hnone
    rw [h.contents, hbytes, List.take_of_length_le (by omega)]

/-- The next line is the same in both, if it has ended or nothing is broken. -/
theorem Begins.rawLine_eq (h : Begins whole reader)
    (hends : reader.broken = none ∨ lineBreak ∈ reader.contents) :
    rawLine reader.contents 0 = rawLine whole.contents 0 := by
  rcases hends with hnone | hmem
  · rw [h.whole hnone]
  · exact rawLine_of_isPrefix h.contents (List.count_pos_iff.2 hmem)

/-- What a source is behind its next line. -/
structure IsBehindLine (reader other : ByteReader) : Prop where
  /-- The other lines are left. -/
  others : rawLines other.contents = (rawLines reader.contents).drop 1
  /-- Its bytes end at the same place. -/
  total : other.position + other.contents.length = reader.position + reader.contents.length
  /-- It fails there as before. -/
  broken : other.broken = reader.broken

/-- **A line that has ended, or is the last one, is the same in both sources.** -/
theorem Begins.exists_readLine (h : Begins whole reader)
    (hends : reader.broken = none ∨ lineBreak ∈ reader.contents) :
    ∃ line after other, whole.readLine = (.ok line, after) ∧ reader.readLine = (.ok line, other) ∧
      Begins after other ∧ IsBehindLine reader other := by
  obtain ⟨after, hread, hothers, hposition, hsound⟩ := h.sound.exists_readLine
  obtain ⟨line, other, hother, hbroken, hfills⟩ :=
    @exists_readOn reader.broken #[] reader.position reader.fills h.fills hends
  obtain ⟨rfl, hothers', hposition'⟩ := readsLine_of_readLine hother
  have hsame := h.rawLine_eq hends
  have hpart := eq_append_of_drop hothers'
  refine ⟨_, after, other, hsame ▸ hread, hother, ⟨hsound, hfills, ?_, ?_, fun hnone => ?_⟩,
    hothers', ?_, hbroken⟩
  · rw [hposition, hposition', h.position, hsame]
  · have hprefix := h.contents
    rw [eq_append_of_drop hothers, hpart, hsame] at hprefix
    exact (List.prefix_append_right_inj _).1 hprefix
  · have heq := h.whole (hbroken.symm.trans hnone)
    rw [heq] at hothers'
    rw [← flatten_rawLines other.contents, hothers', ← hothers, flatten_rawLines]
  · have hlength := congrArg List.length hpart
    rw [List.length_append] at hlength
    omega

/-- A source that is broken behind a line that has not ended loses the line. -/
theorem readLine_of_not_mem {fault : String}
    (hfills : ∀ fill ∈ reader.fills, ∃ bytes, fill = .ok bytes)
    (hbroken : reader.broken = some fault) (hnone : lineBreak ∉ reader.contents) :
    reader.readLine =
      (.error fault, ⟨[], some fault, reader.position + reader.contents.length⟩) := by
  rw [readLine, hbroken]
  exact readOn_of_not_mem hfills hnone

end ByteReader

namespace Repl

/-! ## Turns -/

section Turns

variable {free repl : Repl} {reader : ByteReader}

open ByteReader (Begins)

/-- **A turn that reads a line keeps both sessions in step.**  Both read the same line, and what
they do with it depends on nothing else of their sources. -/
theorem exists_turn_of_begins {goesOn : Bool} {middle : Repl} (hwriter : free.writer.Reliable)
    (h : Begins free.reader reader) (hends : reader.broken = none ∨ lineBreak ∈ reader.contents)
    (hturn : turn free = .ok goesOn middle) :
    ∃ other, turn { free with reader } = .ok goesOn { middle with reader := other } ∧
      Begins middle.reader other ∧ reader.IsBehindLine other := by
  obtain ⟨writer, hprompted, -⟩ := hwriter.exists_prompted
  obtain ⟨line, after, other, hread, hother, hbegins, hbehind⟩ := h.exists_readLine hends
  rw [turn_of_readLine hprompted hread] at hturn
  have hturn' : turn { free with reader } = respond _ _ := turn_of_readLine hprompted hother
  obtain ⟨hreader, hrespond⟩ := respond_of_reader hturn other
  refine ⟨other, hturn'.trans hrespond, ?_, hbehind⟩
  rw [hreader]
  exact hbegins

/-- How a session stands whose source is broken and has nothing more to bring. -/
structure IsStuck (fault : String) (prompt : List Char) (linesRead position : Nat)
    (written : List UInt8) (repl : Repl) : Prop where
  /-- All bytes have been consumed, and the source fails. -/
  reader : repl.reader = ⟨[], some fault, position⟩
  /-- The sink still takes everything. -/
  reliable : repl.writer.Reliable
  /-- The prompt is that of the session. -/
  prompt : repl.prompt = prompt
  /-- So many lines have been read. -/
  linesRead : repl.linesRead = linesRead
  /-- This is what has been written. -/
  written : repl.writer.written.toList = written

/-- **A turn that cannot read its line** has written the prompt, and counts nothing. -/
theorem exists_turn_of_not_mem {fault : String} (hwriter : repl.writer.Reliable)
    (hfills : ∀ fill ∈ repl.reader.fills, ∃ bytes, fill = .ok bytes)
    (hbroken : repl.reader.broken = some fault) (hnone : lineBreak ∉ repl.reader.contents) :
    ∃ after, turn repl = .error (.read (repl.linesRead + 1) fault) after ∧
      IsStuck fault repl.prompt repl.linesRead
        (repl.reader.position + repl.reader.contents.length)
        (repl.writer.written.toList ++ Utf8.encode repl.prompt) after := by
  obtain ⟨writer, hprompted, hwritten, hreliable⟩ := hwriter.exists_prompted
  have hread := ByteReader.readLine_of_not_mem hfills hbroken hnone
  exact ⟨_, turn_eq_read_iff.2 ⟨writer, _, hprompted, hread, rfl, rfl⟩, rfl, hreliable, rfl, rfl,
    hwritten⟩

end Turns

/-! ## Runs -/

section Runs

variable {start free full repl : Repl} {reader : ByteReader} {fault : String} {prompt : List Char}
  {linesRead position number : Nat} {written : List UInt8} {text : List Char}

open ByteReader (Begins)

/-- A turn that fails ends its run. -/
theorem run_of_turn_eq_error {failure : Failure} {after : Repl}
    (h : turn repl = .error failure after) : run repl = .error failure after := by
  rw [run_step, h]

/-- **A session that is stuck** writes one more prompt and is stuck as before: there are no bytes
left that the failing read could lose. -/
theorem IsStuck.exists_run (h : IsStuck fault prompt linesRead position written repl) :
    ∃ after, run repl = .error (.read (linesRead + 1) fault) after ∧
      IsStuck fault prompt linesRead position (written ++ Utf8.encode prompt) after := by
  obtain ⟨hreader, hreliable, rfl, rfl, rfl⟩ := h
  have hfills : ∀ fill ∈ repl.reader.fills, ∃ bytes, fill = .ok bytes := by
    rw [hreader]
    intro fill hfill
    cases hfill
  obtain ⟨after, hturn, hafter⟩ := exists_turn_of_not_mem hreliable hfills
    (by rw [hreader]) (by rw [hreader]; exact List.not_mem_nil)
  rw [hreader] at hafter
  exact ⟨after, run_of_turn_eq_error hturn, hafter⟩

/-- **A run over lines that are not blank answers all that have ended,** and is stuck behind them.
The induction is on the line breaks that the source still brings. -/
theorem Proceeds.exists_run_of_broken (h : Proceeds number text start free)
    (hbegins : Begins free.reader reader) (hbroken : reader.broken = some fault)
    (hlines : ∀ line, number ≤ line → line < number + reader.contents.count lineBreak →
      ¬ IsBlank (rawLine start.reader.contents line)) :
    ∃ after, run { free with reader } =
        .error (.read (free.linesRead + reader.contents.count lineBreak + 1) fault) after ∧
      IsStuck fault start.prompt (free.linesRead + reader.contents.count lineBreak)
        (reader.position + reader.contents.length)
        (free.writer.written.toList ++ Utf8.encode (transcript start.prompt start.filename
          start.reader.contents number (number + reader.contents.count lineBreak))) after := by
  induction hn : reader.contents.count lineBreak generalizing number text free reader with
  | zero =>
    obtain ⟨after, hturn, hafter⟩ := @exists_turn_of_not_mem { free with reader } fault
      h.sound.writer hbegins.fills hbroken (List.count_eq_zero.1 hn)
    simp only [Nat.add_zero, transcript_self]
    rw [← h.prompt]
    exact ⟨after, run_of_turn_eq_error hturn, hafter⟩
  | succ n ih =>
    have hmem : lineBreak ∈ reader.contents := List.count_pos_iff.1 (by omega)
    obtain ⟨middle, hturn, hmiddle⟩ := h.exists_turn
    rw [decide_eq_false (hlines number (Nat.le_refl _) (by omega))] at hturn
    obtain ⟨other, hturn', hother, hbehind⟩ :=
      exists_turn_of_begins h.sound.writer hbegins (.inr hmem) hturn
    have hcount := count_of_drop hbehind.others hmem
    obtain ⟨after, hrun, hafter⟩ := ih (h.trans hmiddle) hother (hbehind.broken.trans hbroken)
      (fun line hle hlt => hlines line (by omega) (by omega)) (by omega)
    have hcounted : middle.linesRead + n = free.linesRead + (n + 1) := by
      rw [hmiddle.linesRead]
      omega
    have hlast : number + 1 + n = number + (n + 1) := by omega
    rw [hbehind.total, hcounted, hlast, hmiddle.written, List.append_assoc, ← Utf8.encode_append,
      ← transcript_of_lt (by omega)] at hafter
    rw [hcounted] at hrun
    refine ⟨after, ?_, hafter⟩
    rw [run_step, hturn']
    exact hrun

/-- Whether a run needs no more than a source brings: it is not broken, or a blank line has ended
in what it brings. -/
def Lasts (reader : ByteReader) : Prop :=
  reader.broken = none ∨
    ∃ line < reader.contents.count lineBreak, IsBlank (rawLine reader.contents line)

/-- While a source lasts, its next line has ended or nothing is broken. -/
theorem Lasts.ends (h : Lasts reader) : reader.broken = none ∨ lineBreak ∈ reader.contents :=
  h.imp_right fun ⟨_, hlt, _⟩ => List.count_pos_iff.1 (by omega)

/-- A source that lasts does so behind a line that is not blank. -/
theorem Lasts.behind {other : ByteReader} (h : Lasts reader) (hbehind : reader.IsBehindLine other)
    (hline : ¬ IsBlank (rawLine reader.contents 0)) : Lasts other := by
  rcases h with hnone | ⟨line, hlt, hblank⟩
  · exact .inl (hbehind.broken.trans hnone)
  · have hcount := count_of_drop hbehind.others (List.count_pos_iff.1 (by omega))
    cases line with
    | zero => exact absurd hblank hline
    | succ line =>
      refine .inr ⟨line, by omega, ?_⟩
      rwa [rawLine_of_drop hbehind.others, Nat.add_comm 1]

/-- **A run that needs no more than a source brings** is the same as with the whole input.  The
induction is on the turns of the run; behind each that goes on, the source still lasts. -/
theorem Loops.exists_run {turns : Nat} (h : Loops turns free full) (hfree : free.Sound)
    (hbegins : Begins free.reader reader) (hlasts : Lasts reader) :
    ∃ other, run { free with reader } = .ok () { full with reader := other } ∧
      Begins full.reader other := by
  induction h generalizing reader with
  | stop hturn =>
    obtain ⟨other, hturn', hother, -⟩ :=
      exists_turn_of_begins hfree.writer hbegins hlasts.ends hturn
    exact ⟨other, by rw [run_step, hturn'], hother⟩
  | @go turns free middle full hturn hrest ih =>
    obtain ⟨other, hturn', hother, hbehind⟩ :=
      exists_turn_of_begins hfree.writer hbegins hlasts.ends hturn
    obtain ⟨_, hblank, hmiddle⟩ := hfree.exists_turn
    rw [hturn, ← hbegins.rawLine_eq hlasts.ends] at hblank
    obtain ⟨hgoes, rfl⟩ := EStateM.Result.ok.inj hblank
    have hline : ¬ IsBlank (rawLine reader.contents 0) := by simpa using hgoes
    obtain ⟨last, hrun, hlast⟩ := ih hmiddle.sound hother (hlasts.behind hbehind hline)
    exact ⟨last, by rw [run_step, hturn']; exact hrun, hlast⟩

/-- What a session `start` comes to whose source breaks at a place of some bytes. -/
structure IsBroken (start : Repl) (place : Nat) (fault : String) (bytes : List UInt8) : Prop where
  /-- The lines that have ended in front of the place are those with a line break that fit in
  there. -/
  ended : ∀ number, number < endedLines bytes place ↔ lineBreak ∈ rawLine bytes number ∧
    ((rawLines bytes).take (number + 1)).flatten.length ≤ place
  /-- If the place is behind the end, or one of the lines that have ended is blank, the first run is
  the same as with a source that brings all the bytes. -/
  unaffected : (bytes.length < place ∨
      ∃ number < endedLines bytes place, IsBlank (rawLine bytes number)) →
    ∀ whole : ByteReader, whole.Sound → whole.contents = bytes →
      whole.position = start.reader.position →
      ∃ full other, run { start with reader := whole } = .ok () full ∧
        run start = .ok () { full with reader := other } ∧ other.position = full.reader.position
  /-- Otherwise each run fails to read the line behind those that have ended, which are answered
  once. -/
  broken : place ≤ bytes.length →
    (∀ number < endedLines bytes place, ¬ IsBlank (rawLine bytes number)) →
    ∀ runs, ∃ failure after, run (afterRuns start runs) = .error failure after ∧
      failure.chain = [s!"reading line {endedLines bytes place + 1} failed",
        "reading input line failed", fault] ∧
      after.writer.written.toList = start.writer.written.toList ++
        (Utf8.encode (transcript start.prompt start.filename bytes 0 (endedLines bytes place)) ++
          (List.replicate runs (Utf8.encode start.prompt)).flatten) ∧
      after.linesRead = endedLines bytes place ∧
      after.reader.position = start.reader.position + place

/-- A source lasts for a run if it does not break, or if there is a blank line among those that have
ended. -/
theorem lasts_of_breaksAt {place : Nat} {bytes : List UInt8}
    (h : reader.BreaksAt place fault bytes) (hends : bytes.length < place ∨
      ∃ number < endedLines bytes place, IsBlank (rawLine bytes number)) : Lasts reader := by
  rcases hends with hlt | ⟨number, hlt, hblank⟩
  · exact .inl (by rw [h.broken, if_neg (Nat.not_le.2 hlt)])
  · refine .inr ⟨number, ?_, ?_⟩
    · rw [h.contents]
      exact hlt
    · rwa [h.contents, rawLine_of_isPrefix (List.take_prefix _ _) hlt]

/-- What so many runs leave of a session that is stuck behind the first of them: each of them fails
in the same way, and writes a prompt. -/
theorem exists_run_afterRuns {start first : Repl}
    (hrun : run start = .error (.read (linesRead + 1) fault) first)
    (hfirst : IsStuck fault prompt linesRead position written first) (runs : Nat) :
    ∃ after, run (afterRuns start runs) = .error (.read (linesRead + 1) fault) after ∧
      IsStuck fault prompt linesRead position
        (written ++ (List.replicate runs (Utf8.encode prompt)).flatten) after := by
  induction runs with
  | zero =>
    rw [List.replicate_zero, List.flatten_nil, List.append_nil]
    exact ⟨first, hrun, hfirst⟩
  | succ runs ih =>
    obtain ⟨before, hbefore, hstuck⟩ := ih
    obtain ⟨after, hafter, hmore⟩ := hstuck.exists_run
    have hnext : afterRuns start (runs + 1) = before := by rw [afterRuns, hbefore]
    rw [hnext, List.replicate_succ', List.flatten_append, List.flatten_singleton,
      ← List.append_assoc]
    exact ⟨after, hafter, hmore⟩

/-- **A session is stuck behind the lines that have ended** when its source breaks, unless it comes
to its end in them. -/
theorem isBroken {writer : ByteWriter} {place : Nat} {bytes : List UInt8}
    (hreader : reader.BreaksAt place fault bytes) (hwriter : writer.Reliable)
    (prompt : List Char) (filename : Option String) (report : Bool) :
    IsBroken { reader, writer, prompt, filename, report } place fault bytes := by
  generalize hs : ({ reader, writer, prompt, filename, report } : Repl) = start
  have hsource : start.reader = reader := by rw [← hs]
  have hsink : start.writer.Reliable := by rw [← hs]; exact hwriter
  have hzero : start.linesRead = 0 := by rw [← hs]
  have hwhole : ∀ whole : ByteReader, whole.Sound → Sound { start with reader := whole } :=
    fun whole hsound => ⟨hsound, hsink⟩
  rw [← hsource] at hreader
  constructor
  · exact fun _ => lt_endedLines_iff
  · intro hends whole hsound hbytes hposition
    obtain ⟨last, full, -, -, hloops, hrun, -⟩ := (hwhole whole hsound).proceeds.exists_run
    obtain ⟨other, hother, hbegins⟩ := hloops.exists_run (hwhole whole hsound)
      (hreader.begins hsound hbytes hposition.symm) (lasts_of_breaksAt hreader hends)
    exact ⟨full, other, hrun, hother, hbegins.position⟩
  · intro hle hlines runs
    -- A source of all the bytes tells which lines the session answers.
    have hsound : ByteReader.Sound ⟨[.ok bytes], none, start.reader.position⟩ :=
      ⟨rfl, fun _ hfill => ⟨_, List.mem_singleton.1 hfill⟩⟩
    have hbytes : ByteReader.contents ⟨[.ok bytes], none, start.reader.position⟩ = bytes :=
      List.append_nil bytes
    have hcount : start.reader.contents.count lineBreak = endedLines bytes place := by
      rw [hreader.contents, endedLines]
    have hcounted : start.linesRead + endedLines bytes place = endedLines bytes place := by
      rw [hzero, Nat.zero_add]
    have hlength : start.reader.contents.length = place := by
      rw [hreader.contents, List.length_take_of_le hle]
    have hbroken : start.reader.broken = some fault := by rw [hreader.broken, if_pos hle]
    obtain ⟨first, hrun, hfirst⟩ := (hwhole _ hsound).proceeds.exists_run_of_broken
      (hreader.begins hsound hbytes rfl) hbroken (fun number _ hlt => by
        rw [hbytes]
        exact hlines number (by omega))
    dsimp only at hrun hfirst
    rw [hcount, hcounted] at hrun
    rw [hcount, hcounted, Nat.zero_add, hlength, hbytes] at hfirst
    obtain ⟨after, hafter, hstuck⟩ := exists_run_afterRuns hrun hfirst runs
    refine ⟨_, after, hafter, rfl, ?_, hstuck.linesRead, ?_⟩
    · rw [hstuck.written, List.append_assoc]
    · rw [hstuck.reader]

/-- `1`, a line break and `2`, of which the first three bytes are brought two at a time. -/
theorem isBroken_three :
    (ByteReader.ofBytesBrokenAt 3 "fault" 2 [0x31, 0x0A, 0x32, 0x0A]).BreaksAt 3 "fault"
      [0x31, 0x0A, 0x32, 0x0A] ∧
    ByteWriter.unlimited.Reliable ∧
    IsBroken
      { reader := .ofBytesBrokenAt 3 "fault" 2 [0x31, 0x0A, 0x32, 0x0A], writer := .unlimited }
      3 "fault" [0x31, 0x0A, 0x32, 0x0A] := by
  have hreader := ByteReader.breaksAt_ofBytesBrokenAt 3 "fault" 2 [0x31, 0x0A, 0x32, 0x0A]
  have hwriter := ByteWriter.reliable_unlimited
  exact ⟨hreader, hwriter, isBroken hreader hwriter defaultPrompt none false⟩

end Runs

end Repl
end Reckoner
