/-
# A turn where nothing fails

Where neither reading nor writing can fail (`Sound`), each part of a turn takes the
session some lines and some text further (`Proceeds`), and what the parts do adds up: a
turn writes the prompt and the record of the next line (`Sound.exists_turn`).

That a sink takes everything does not say in how many portions.  However it takes them, what it
holds in the end is what it held and what it was given, piece by piece
(`ByteWriter.Reliable.exists_writeEach`).
-/

import Reckoner.Proofs.Session.Exits
import Reckoner.Proofs.Session.RawLines

namespace Reckoner

/-! ## Writing where nothing fails -/

/-- Whether a sink never refuses an offer and never fails to flush. -/
structure ByteWriter.Reliable (writer : ByteWriter) : Prop where
  /-- Of each offer something is taken. -/
  takes : ∀ offers held offered, 0 < offered → 0 < writer.takes offers held offered
  /-- No flush fails. -/
  flushFails : ∀ number, writer.flushFails number = false

/-- A sink that never fails to flush is flushed. -/
theorem ByteWriter.flush_of_flushFails {writer : ByteWriter}
    (h : ∀ number, writer.flushFails number = false) :
    writer.flush = (.ok (), { writer with flushes := writer.flushes + 1 }) := by
  rw [flush, h]
  rfl

/-- A sink that takes everything is reliable. -/
theorem ByteWriter.reliable_unlimited : unlimited.Reliable := ⟨fun _ _ _ hpos => hpos, fun _ => rfl⟩

/-- **A sink that refuses nothing** takes all that is written, in one part or in
several. -/
theorem ByteWriter.Reliable.exists_write {writer : ByteWriter} (h : writer.Reliable)
    (bytes : List UInt8) :
    ∃ after, writer.write bytes = (.ok (), after) ∧
      after.written.toList = writer.written.toList ++ bytes ∧ after.Reliable := by
  induction hn : bytes.length using Nat.strongRecOn generalizing writer bytes with
  | ind n ih =>
    subst hn
    rw [ByteWriter.write]
    by_cases hnil : bytes = []
    · subst hnil
      exact ⟨writer, rfl, by simp, h⟩
    · have hpos : 0 < bytes.length := List.length_pos_iff.2 hnil
      have htakes := h.takes writer.offers writer.written.size bytes.length hpos
      have hlt : (bytes.drop (writer.takes writer.offers writer.written.size bytes.length)).length
          < bytes.length := by
        rw [List.length_drop]
        omega
      have hne : ¬ writer.takes writer.offers writer.written.size bytes.length = 0 := by omega
      rw [dif_neg hnil]
      dsimp only
      rw [if_neg hne]
      obtain ⟨after, hwrite, hwritten, hafter⟩ := ih _ hlt
        (⟨h.takes, h.flushFails⟩ : ByteWriter.Reliable
          { writer with
            written := writer.written ++
              bytes.take (writer.takes writer.offers writer.written.size bytes.length)
            offers := writer.offers + 1 }) _ rfl
      refine ⟨after, hwrite, ?_, hafter⟩
      rw [hwritten]
      simp

/-- **A sink that refuses nothing takes the pieces of a text as it takes the text.**  The induction
is on the pieces. -/
theorem ByteWriter.Reliable.exists_writeEach {writer : ByteWriter} (h : writer.Reliable)
    (pieces : List (List UInt8)) :
    ∃ after, writer.writeEach pieces = (.ok (), after) ∧
      after.written.toList = writer.written.toList ++ pieces.flatten ∧ after.Reliable := by
  induction pieces generalizing writer with
  | nil => exact ⟨writer, rfl, (List.append_nil _).symm, h⟩
  | cons piece pieces ih =>
    obtain ⟨middle, hwrite, hwritten, hmiddle⟩ := h.exists_write piece
    obtain ⟨after, hlater, hall, hafter⟩ := ih hmiddle
    refine ⟨after, ?_, ?_, hafter⟩
    · rw [writeEach, hwrite]
      exact hlater
    · rw [hall, hwritten, List.flatten_cons, List.append_assoc]

/-- A sink that does not fail takes the prompt. -/
theorem ByteWriter.Reliable.exists_prompted {repl : Repl} (h : repl.writer.Reliable) :
    ∃ after, repl.prompted = (.ok (), after) ∧
      after.written.toList = repl.writer.written.toList ++ Utf8.encode repl.prompt ∧
      after.Reliable := by
  obtain ⟨after, hwrite, hwritten, hafter⟩ := h.exists_write (Utf8.encode repl.prompt)
  refine ⟨{ after with flushes := after.flushes + 1 }, ?_, hwritten, hafter.takes,
    hafter.flushFails⟩
  rw [Repl.prompted, hwrite]
  exact ByteWriter.flush_of_flushFails hafter.flushFails

namespace Repl

/-! ## How far a session gets -/

/-- Whether neither reading nor writing can fail. -/
structure Sound (repl : Repl) : Prop where
  /-- Reading cannot fail. -/
  reader : repl.reader.Sound
  /-- Writing and flushing cannot fail. -/
  writer : repl.writer.Reliable

/-- How a session stands some lines and some text later. -/
structure Proceeds (count : Nat) (text : List Char) (repl after : Repl) : Prop where
  /-- The text has been written. -/
  written : after.writer.written.toList = repl.writer.written.toList ++ Utf8.encode text
  /-- The lines have been counted. -/
  linesRead : after.linesRead = repl.linesRead + count
  /-- The other lines are left. -/
  others : rawLines after.reader.contents = (rawLines repl.reader.contents).drop count
  /-- Exactly the lines have been consumed. -/
  position : after.reader.position =
    repl.reader.position + ((rawLines repl.reader.contents).take count).flatten.length
  /-- The prompt is the same. -/
  prompt : after.prompt = repl.prompt
  /-- The name of the input is the same. -/
  filename : after.filename = repl.filename
  /-- Still nothing can fail. -/
  sound : after.Sound

/-- Before anything is done a session stands where it stood, no lines and no text later. -/
theorem Sound.proceeds {repl : Repl} (h : repl.Sound) : Proceeds 0 [] repl repl :=
  ⟨by simp, rfl, rfl, rfl, rfl, rfl, h⟩

/-- **What is done one after the other adds up:** the lines, the text, and what has been consumed.
-/
theorem Proceeds.trans {first second : Nat} {text more : List Char} {repl middle after : Repl}
    (hf : Proceeds first text repl middle) (hs : Proceeds second more middle after) :
    Proceeds (first + second) (text ++ more) repl after := by
  constructor
  · rw [hs.written, hf.written, Utf8.encode_append, List.append_assoc]
  · rw [hs.linesRead, hf.linesRead, Nat.add_assoc]
  · rw [hs.others, hf.others, List.drop_drop]
  · rw [hs.position, hf.position, hf.others, List.take_add, List.flatten_append,
      List.length_append, Nat.add_assoc]
  · rw [hs.prompt, hf.prompt]
  · rw [hs.filename, hf.filename]
  · exact hs.sound

section Parts

variable {repl : Repl}

/-- **A line is answered by its record,** and the session goes on unless it is blank. -/
theorem Sound.exists_respond (h : repl.Sound) (line : Line) :
    ∃ after, respond line repl = .ok (!decide (IsBlankLine line.text)) after ∧
      Proceeds 0 line.record repl after := by
  by_cases hblank : IsBlankLine line.text
  · rw [respond_of_isBlank hblank, decide_eq_true hblank, Line.record_of_isBlankLine hblank]
    exact ⟨repl, rfl, h.proceeds⟩
  · obtain ⟨writer, hwrite, hwritten, hwriter⟩ := h.writer.exists_writeEach line.pieces
    rw [line.flatten_pieces] at hwritten
    rw [respond_of_not_isBlank hblank, decide_eq_false hblank, hwrite]
    exact ⟨_, rfl, hwritten, rfl, rfl, rfl, rfl, rfl, h.reader, hwriter⟩

/-- The record of some bytes that are a line. -/
def record (filename : Option String) (bytes : List UInt8) : List Char :=
  Line.record ⟨filename, Utf8.decodeLossy bytes⟩

/-- Whether some bytes that are a line are blank. -/
def IsBlank (bytes : List UInt8) : Prop := IsBlankLine (Utf8.decodeLossy bytes)

instance (bytes : List UInt8) : Decidable (IsBlank bytes) :=
  inferInstanceAs (Decidable (IsBlankLine _))

/-- **A turn** writes the prompt and the record of the next line, and the session goes on unless
this line is blank. -/
theorem Sound.exists_turn (h : repl.Sound) :
    ∃ after, turn repl = .ok (!decide (IsBlank (rawLine repl.reader.contents 0))) after ∧
      Proceeds 1 (repl.prompt ++ record repl.filename (rawLine repl.reader.contents 0))
        repl after := by
  obtain ⟨writer, hprompted, hwritten, hwriter⟩ := h.writer.exists_prompted
  obtain ⟨reader, hread, hothers, hposition, hreader⟩ := h.reader.exists_readLine
  rw [turn_of_readLine hprompted hread]
  have hline : Proceeds 1 repl.prompt repl
      { repl with writer, reader, linesRead := repl.linesRead + 1 } := by
    refine ⟨hwritten, rfl, hothers, ?_, rfl, rfl, hreader, hwriter⟩
    dsimp only
    rw [hposition, length_take_succ]
    simp
  obtain ⟨after, hrespond, hafter⟩ := hline.sound.exists_respond
    ⟨repl.filename, Utf8.decodeLossy (rawLine repl.reader.contents 0)⟩
  exact ⟨after, hrespond, hline.trans hafter⟩

/-- **A turn behind others** is about the line with the next number. -/
theorem Proceeds.exists_turn {start : Repl} {number : Nat} {text : List Char}
    (h : Proceeds number text start repl) :
    ∃ after, turn repl = .ok (!decide (IsBlank (rawLine start.reader.contents number))) after ∧
      Proceeds 1 (start.prompt ++ record start.filename (rawLine start.reader.contents number))
        repl after := by
  have hline : rawLine repl.reader.contents 0 = rawLine start.reader.contents number :=
    rawLine_of_drop h.others 0
  rw [← hline, ← h.prompt, ← h.filename]
  exact h.sound.exists_turn

end Parts

end Repl
end Reckoner
