/-
# What a session writes

Where neither reading nor writing can fail, a session is its transcript.  A run that
starts in front of a line goes on to the first blank line from there (`EndsAt`); for
each line before that one it writes the prompt and the record of the line, and then it
writes the prompt once more (`transcript`).  It has then read the blank line and nothing
behind it, so that the next run starts there (`run_transcript`).

One turn is known from `Sound.exists_turn`.  The turns of a run follow each other up to the first
blank line (`Sound.exists_loops`), and the runs of a session follow each other too, since each
leaves a session that is sound and stands behind some lines of the input
(`exists_proceeds_afterRuns`).
-/

import Reckoner.Proofs.Session.Turn

namespace Reckoner
namespace Repl

/-! ## Runs -/

/-- A run of so many turns that comes to its end. -/
inductive Loops : Nat → Repl → Repl → Prop
  /-- The turn on a blank line is the last one. -/
  | stop {repl after : Repl} (h : turn repl = .ok false after) : Loops 1 repl after
  /-- Any other turn has turns behind it. -/
  | go {turns : Nat} {repl middle after : Repl} (h : turn repl = .ok true middle)
      (hrest : Loops turns middle after) : Loops (turns + 1) repl after

/-- A run that comes to its end is what its turns lead to. -/
theorem Loops.run_eq {turns : Nat} {repl after : Repl} (h : Loops turns repl after) :
    run repl = .ok () after := by
  induction h with
  | stop h => rw [run_step, h]
  | go h _ ih =>
    rw [run_step, h]
    exact ih

/-- Whether a run that starts in front of the line `first` ends behind the line `last`:
this is the first blank line from there on. -/
structure EndsAt (bytes : List UInt8) (first last : Nat) : Prop where
  /-- The run reads at least one line. -/
  le : first ≤ last
  /-- It ends behind a blank line. -/
  isBlank : IsBlank (rawLine bytes last)
  /-- No line before that one is blank. -/
  not_isBlank : ∀ number, first ≤ number → number < last → ¬ IsBlank (rawLine bytes number)

/-- What a run writes from the line `first` to the blank line `last`. -/
def transcript (prompt : List Char) (filename : Option String) (bytes : List UInt8)
    (first last : Nat) : List Char :=
  ((List.range' first (last - first)).flatMap fun number =>
    prompt ++ record filename (rawLine bytes number)) ++ prompt

/-- Nothing is written about a blank line. -/
theorem record_of_isBlank {filename : Option String} {bytes : List UInt8} (h : IsBlank bytes) :
    record filename bytes = [] :=
  @Line.record_of_isBlankLine ⟨filename, Utf8.decodeLossy bytes⟩ h

section Transcript

variable {prompt : List Char} {filename : Option String} {bytes : List UInt8} {first last : Nat}

/-- A run on a blank line writes one prompt. -/
theorem transcript_self : transcript prompt filename bytes first first = prompt := by
  rw [transcript, Nat.sub_self]
  rfl

/-- A run on another line writes a prompt and a record first, and then what a run writes from the
next line on. -/
theorem transcript_of_lt (h : first < last) :
    transcript prompt filename bytes first last =
      prompt ++ record filename (rawLine bytes first) ++
        transcript prompt filename bytes (first + 1) last := by
  obtain ⟨count, hcount⟩ : ∃ count, last - first = count + 1 := ⟨last - first - 1, by omega⟩
  have hless : last - (first + 1) = count := by omega
  rw [transcript, transcript, hcount, hless, List.range'_succ, List.flatMap_cons,
    List.append_assoc]

end Transcript

/-- Without a prompt a run writes the records of the lines up to the first blank one.  Behind the
last line there are blank ones without end, so that the lines that there are suffice. -/
theorem transcript_eq_flatMap {bytes : List UInt8} {first last : Nat} (h : EndsAt bytes first last)
    (filename : Option String) :
    transcript [] filename bytes first last =
      ((((rawLines bytes).drop first).map Utf8.decodeLossy).takeWhile
        fun text => !decide (IsBlankLine text)).flatMap
          fun text => Line.record ⟨filename, text⟩ := by
  obtain ⟨hle, hblank, hbefore⟩ := h
  induction hn : last - first generalizing first with
  | zero =>
    obtain rfl : first = last := by omega
    rw [transcript_self]
    cases hdrop : (rawLines bytes).drop first with
    | nil => rfl
    | cons line others =>
      have hline : rawLine bytes first = line := by
        rw [rawLine, ← Nat.add_zero first, ← List.getElem?_drop, hdrop]
        rfl
      have htext : IsBlankLine (Utf8.decodeLossy line) := hline ▸ hblank
      rw [List.map_cons, List.takeWhile_cons_of_neg (by simpa using htext)]
      rfl
  | succ n ih =>
    have hfirst : ¬ IsBlankLine (Utf8.decodeLossy (rawLine bytes first)) :=
      hbefore first (Nat.le_refl _) (by omega)
    have hlt : first < (rawLines bytes).length := by
      by_contra hge
      rw [rawLine, List.getElem?_eq_none (by omega)] at hfirst
      exact hfirst fun c hc => by cases hc
    have hline : rawLine bytes first = (rawLines bytes)[first] := by
      rw [rawLine, List.getElem?_eq_getElem hlt]
      rfl
    rw [transcript_of_lt (by omega), ih (by omega) (fun number _ => hbefore number (by omega))
      (by omega), List.drop_eq_getElem_cons hlt, ← hline, List.map_cons,
      List.takeWhile_cons_of_pos (by simpa using hfirst)]
    rfl

/-- There is a blank line, at the latest behind all lines that there are: what is read there is
empty, and that is blank. -/
theorem exists_endsAt (bytes : List UInt8) (first : Nat) :
    ∃ last, EndsAt bytes first last ∧ last ≤ max first (rawLines bytes).length := by
  induction hn : (rawLines bytes).length - first generalizing first with
  | zero =>
    have hnil : rawLine bytes first = [] := by
      rw [rawLine, List.getElem?_eq_none (by omega)]
      rfl
    have hblank : IsBlank (rawLine bytes first) := by
      rw [hnil]
      intro c hc
      cases hc
    exact ⟨first, ⟨Nat.le_refl _, hblank, fun number _ _ => by omega⟩, by omega⟩
  | succ n ih =>
    by_cases hblank : IsBlank (rawLine bytes first)
    · exact ⟨first, ⟨Nat.le_refl _, hblank, fun number _ _ => by omega⟩, by omega⟩
    · obtain ⟨last, ⟨hle, hlast, hbefore⟩, hbound⟩ := ih (first + 1) (by omega)
      refine ⟨last, ⟨by omega, hlast, fun number hfirst hnumber => ?_⟩, by omega⟩
      by_cases heq : number = first
      · rwa [heq]
      · exact hbefore number (by omega) hnumber

/-- **A run goes through the lines up to the first blank one.**  The induction is on how many lines
there are before that one; each turn leaves a sound session in front of the next line. -/
theorem Sound.exists_loops {repl : Repl} {bytes : List UInt8} {first last : Nat}
    (h : repl.Sound) (hlines : rawLines repl.reader.contents = (rawLines bytes).drop first)
    (hends : EndsAt bytes first last) :
    ∃ after, Loops (last - first + 1) repl after ∧
      Proceeds (last - first + 1) (transcript repl.prompt repl.filename bytes first last)
        repl after := by
  obtain ⟨hle, hblank, hbefore⟩ := hends
  induction hn : last - first generalizing first repl with
  | zero =>
    obtain rfl : first = last := by omega
    obtain ⟨after, hturn, hafter⟩ := h.exists_turn
    have hline : rawLine repl.reader.contents 0 = rawLine bytes first := rawLine_of_drop hlines 0
    rw [hline, record_of_isBlank hblank, List.append_nil] at hafter
    rw [hline, decide_eq_true hblank] at hturn
    rw [transcript_self]
    exact ⟨after, .stop hturn, hafter⟩
  | succ n ih =>
    have hlt : first < last := by omega
    obtain ⟨middle, hturn, hmiddle⟩ := h.exists_turn
    have hline : rawLine repl.reader.contents 0 = rawLine bytes first := rawLine_of_drop hlines 0
    rw [hline] at hmiddle
    rw [hline, decide_eq_false (hbefore first (Nat.le_refl _) hlt)] at hturn
    have hothers : rawLines middle.reader.contents = (rawLines bytes).drop (first + 1) := by
      rw [hmiddle.others, hlines, List.drop_drop]
    obtain ⟨after, hloops, hafter⟩ := ih hmiddle.sound hothers hlt
      (fun number hnumber => hbefore number (by omega)) (by omega)
    rw [hmiddle.prompt, hmiddle.filename] at hafter
    have hall := hmiddle.trans hafter
    rw [← transcript_of_lt hlt, Nat.add_comm 1] at hall
    exact ⟨after, .go hturn hloops, hall⟩

/-! ## Any number of runs -/

/-- A session after so many runs, each to its end or to its failure. -/
def afterRuns (start : Repl) : Nat → Repl
  | 0 => start
  | runs + 1 =>
    match (afterRuns start runs).run with
    | .ok _ after => after
    | .error _ after => after

/-- A run behind other runs: it begins at the line where they have left the input, and what it
writes is said of the lines of the whole input. -/
theorem Proceeds.exists_run {start repl : Repl} {count : Nat} {text : List Char}
    (h : Proceeds count text start repl) :
    ∃ last after, EndsAt start.reader.contents count last ∧
      last ≤ max count (rawLines start.reader.contents).length ∧
      Loops (last - count + 1) repl after ∧ run repl = .ok () after ∧
      Proceeds (last - count + 1)
        (transcript start.prompt start.filename start.reader.contents count last) repl after := by
  obtain ⟨last, hends, hbound⟩ := exists_endsAt start.reader.contents count
  obtain ⟨after, hloops, hafter⟩ := h.sound.exists_loops h.others hends
  rw [h.prompt, h.filename] at hafter
  exact ⟨last, after, hends, hbound, hloops, hloops.run_eq, hafter⟩

/-- **However often a session is run,** it stands behind some lines of its input. -/
theorem exists_proceeds_afterRuns {start : Repl} (h : start.Sound) (runs : Nat) :
    ∃ count text, Proceeds count text start (afterRuns start runs) := by
  induction runs with
  | zero => exact ⟨0, [], h.proceeds⟩
  | succ runs ih =>
    obtain ⟨count, text, hbefore⟩ := ih
    obtain ⟨last, after, -, -, -, hrun, hafter⟩ := hbefore.exists_run
    rw [afterRuns, hrun]
    exact ⟨_, _, hbefore.trans hafter⟩

/-- What a run of the session `start` does that begins at `before`, perhaps behind other
runs, and comes to its end behind the line `last`. -/
structure IsTranscribed (start before : Repl) (last : Nat) (after : Repl) : Prop where
  /-- The last line is the first blank one from where the run begins. -/
  endsAt : EndsAt start.reader.contents before.linesRead last
  /-- The run comes to its end. -/
  run_eq : run before = .ok () after
  /-- Prompts and records are written, and a last prompt. -/
  written : after.writer.written.toList = before.writer.written.toList ++
    Utf8.encode (transcript start.prompt start.filename start.reader.contents
      before.linesRead last)
  /-- The blank line is counted, too. -/
  linesRead : after.linesRead = last + 1
  /-- What is behind the last line is left. -/
  contents : after.reader.contents = ((rawLines start.reader.contents).drop (last + 1)).flatten
  /-- The input has been consumed through the last line. -/
  position : after.reader.position = start.reader.position +
    ((rawLines start.reader.contents).take (last + 1)).flatten.length
  /-- There is at most one turn more than there are lines left. -/
  turns : ∃ turns, Loops turns before after ∧
    turns ≤ (rawLines before.reader.contents).length + 1
  /-- Any other session in front of the same bytes writes the same. -/
  fresh : ∀ fresh : Repl, fresh.Sound → fresh.prompt = start.prompt →
    fresh.filename = start.filename → fresh.reader.contents = before.reader.contents →
    ∃ other, run fresh = .ok () other ∧
      other.writer.written.toList = fresh.writer.written.toList ++
        Utf8.encode (transcript start.prompt start.filename start.reader.contents
          before.linesRead last)

/-- **Every run of a session is its transcript,** however many runs there were before.  Where the
run begins is known from the lines that have been read, and what it does depends on nothing else of
the runs before. -/
theorem run_transcript {reader : ByteReader} {writer : ByteWriter} (hreader : reader.Sound)
    (hwriter : writer.Reliable) (prompt : List Char) (filename : Option String) (report : Bool)
    (runs : Nat) :
    ∃ last after, IsTranscribed { reader, writer, prompt, filename, report }
      (afterRuns { reader, writer, prompt, filename, report } runs) last after := by
  have hstart : Sound { reader, writer, prompt, filename, report } := ⟨hreader, hwriter⟩
  generalize hs : ({ reader, writer, prompt, filename, report } : Repl) = start at hstart
  have hzero : start.linesRead = 0 := by rw [← hs]
  obtain ⟨count, text, hbefore⟩ := exists_proceeds_afterRuns hstart runs
  obtain ⟨last, after, hends, hbound, hloops, hrun, hafter⟩ := hbefore.exists_run
  have hcount : (afterRuns start runs).linesRead = count := by
    rw [hbefore.linesRead, hzero, Nat.zero_add]
  have hle := hends.le
  have hall := hbefore.trans hafter
  have hlast : count + (last - count + 1) = last + 1 := by omega
  rw [hlast] at hall
  refine ⟨last, after, ?_⟩
  constructor
  · rwa [hcount]
  · exact hrun
  · rw [hcount]
    exact hafter.written
  · rw [hall.linesRead, hzero, Nat.zero_add]
  · rw [← hall.others, flatten_rawLines]
  · exact hall.position
  · refine ⟨_, hloops, ?_⟩
    rw [hbefore.others, List.length_drop]
    omega
  · -- A fresh session has the lines in front that this one has come to.
    intro fresh hfresh hprompt hfilename hcontents
    have hlines : rawLines fresh.reader.contents = (rawLines start.reader.contents).drop count := by
      rw [hcontents, hbefore.others]
    obtain ⟨other, hloops', hother⟩ := hfresh.exists_loops hlines hends
    rw [hprompt, hfilename] at hother
    rw [hcount]
    exact ⟨other, hloops'.run_eq, hother.written⟩

/-- The second run over `1`, a blank line and `2` without a line break. -/
theorem run_transcript_behind_blank :
    ByteReader.Sound ⟨[.ok [0x31, 0x0A, 0x20, 0x0A, 0x32]], none, 0⟩ ∧
    ByteWriter.unlimited.Reliable ∧
    ∃ last after, IsTranscribed
      { reader := ⟨[.ok [0x31, 0x0A, 0x20, 0x0A, 0x32]], none, 0⟩, writer := .unlimited }
      (afterRuns
        { reader := ⟨[.ok [0x31, 0x0A, 0x20, 0x0A, 0x32]], none, 0⟩, writer := .unlimited } 1)
      last after := by
  have hreader : ByteReader.Sound ⟨[.ok [0x31, 0x0A, 0x20, 0x0A, 0x32]], none, 0⟩ :=
    ⟨rfl, fun _ hfill => ⟨_, List.mem_singleton.1 hfill⟩⟩
  have hwriter : ByteWriter.unlimited.Reliable := ⟨fun _ _ _ hpos => hpos, fun _ => rfl⟩
  exact ⟨hreader, hwriter, run_transcript hreader hwriter defaultPrompt none false 1⟩

end Repl
end Reckoner
