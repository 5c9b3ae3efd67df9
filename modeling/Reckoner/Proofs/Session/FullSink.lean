/-
# A sink that fills up

A sink with room for so many bytes, which may take them in any portions, cuts a session off in
the middle of what it would write to a sink without end.  That text consists of parts (`parts`),
prompts and records by turns, and the part that has the first byte without room (`IsIn`) tells
all the rest: the failure, the lines that are counted and the place in the input (`isCutOff`).
A prompt is refused before its line is read, a record is refused behind it.

The session and the one with the other sink differ in their sinks alone, as long as both hold the
same (`Mirrors`), and each turn either keeps it so or is where the session is cut off
(`turned_turn`).

A record is written in pieces, and how a record or a piece of it is portioned makes no difference:
what the sink holds is the front of what it is given, up to its room (`FillsAt.exists_writeEach`).
A run is then followed from its first turn on (`Proceeds.cutsOff`).  The rest of a run is cut off
either in the turn in front, or as the rest behind this turn is (`CutsOff.of_turn`), and the last
turn has nothing but its prompt (`cutsOff_last`).
-/

import Reckoner.Proofs.Session.Transcript

namespace Reckoner

/-! ## Sinks with room for so many bytes -/

namespace ByteWriter

/-- Whether a sink takes so many bytes in all, in whatever portions, refuses all others and never
fails to flush. -/
structure FillsAt (capacity : Nat) (refusal : String) (writer : ByteWriter) : Prop where
  /-- Where there is room, some of an offer is taken and no more than there is room for. -/
  takes : ∀ offers held offered, 0 < offered → held < capacity →
    0 < writer.takes offers held offered ∧ held + writer.takes offers held offered ≤ capacity
  /-- Where there is no room, nothing is taken. -/
  refuses : ∀ offers held offered, capacity ≤ held → writer.takes offers held offered = 0
  /-- What a refusal says. -/
  refusal : writer.refusal = refusal
  /-- Flushing is no matter of room. -/
  flushFails : ∀ number, writer.flushFails number = false

/-- There are sinks with room for so many bytes: those that take each offer as far as there is room.
-/
theorem fillsAt_withCapacity (capacity : Nat) (refusal : String) :
    (unlimited.withCapacity capacity refusal).FillsAt capacity refusal where
  takes offers held offered hpos hroom := by
    show 0 < min offered (capacity - held) ∧ held + min offered (capacity - held) ≤ capacity
    omega
  refuses offers held offered hfull := by
    show min offered (capacity - held) = 0
    omega
  refusal := rfl
  flushFails _ := rfl

variable {capacity : Nat} {refusal : String} {free writer : ByteWriter}

/-- **A sink with room for so many bytes** takes what there is room for, and refuses the rest if
there is one.  The induction is on what is still to be offered: an offer is taken in part as long as
there is room, and the first one without room ends the write. -/
theorem FillsAt.exists_write (h : writer.FillsAt capacity refusal)
    (hroom : writer.written.size ≤ capacity) (bytes : List UInt8) :
    ∃ after, writer.write bytes =
        (if writer.written.size + bytes.length ≤ capacity then .ok () else .error refusal, after) ∧
      after.written.toList = (writer.written.toList ++ bytes).take capacity ∧
      after.FillsAt capacity refusal := by
  induction hn : bytes.length using Nat.strongRecOn generalizing writer bytes with
  | ind n ih =>
    subst hn
    have hsize : writer.written.toList.length = writer.written.size := Array.length_toList
    rw [ByteWriter.write]
    by_cases hnil : bytes = []
    · subst hnil
      refine ⟨writer, ?_, ?_, h⟩
      · simp [hroom]
      · rw [List.append_nil, List.take_of_length_le (by omega)]
    have hpos : 0 < bytes.length := List.length_pos_iff.2 hnil
    rw [dif_neg hnil]
    dsimp only
    rcases Nat.lt_or_ge writer.written.size capacity with hlt | hge
    · obtain ⟨htaken, hle⟩ := h.takes writer.offers writer.written.size bytes.length hpos hlt
      generalize writer.takes writer.offers writer.written.size bytes.length = taken at htaken hle
      have hgrown : (writer.written ++ bytes.take taken).size =
          writer.written.size + min taken bytes.length := by
        rw [← Array.length_toList, Array.toList_appendList, List.length_append, List.length_take,
          Array.length_toList]
      rw [if_neg (by omega)]
      -- The rest is offered to a sink that has grown by what it took.
      obtain ⟨after, hwrite, hwritten, hafter⟩ := ih (bytes.drop taken).length
        (by rw [List.length_drop]; omega)
        (⟨h.takes, h.refuses, h.refusal, h.flushFails⟩ : FillsAt capacity refusal
          { writer with
            written := writer.written ++ bytes.take taken
            offers := writer.offers + 1 })
        (by dsimp only; omega) _ rfl
      refine ⟨after, ?_, ?_, hafter⟩
      · have hsame : (writer.written ++ bytes.take taken).size + (bytes.drop taken).length =
            writer.written.size + bytes.length := by
          rw [hgrown, List.length_drop]
          omega
        rw [hwrite]
        dsimp only
        rw [hsame]
      · rw [hwritten]
        simp
    · rw [if_pos (h.refuses _ _ _ hge), if_neg (by omega)]
      refine ⟨{ writer with offers := writer.offers + 1 }, by rw [h.refusal], ?_, ?_⟩
      · rw [List.take_append_of_le_length (by omega), List.take_of_length_le (by omega)]
      · exact ⟨h.takes, h.refuses, h.refusal, h.flushFails⟩

/-- **A sink with room for so many bytes cuts pieces off where it cuts off the text that they make
up.**  The induction is on the pieces; behind the one that is cut off none is offered. -/
theorem FillsAt.exists_writeEach (h : writer.FillsAt capacity refusal)
    (hroom : writer.written.size ≤ capacity) (pieces : List (List UInt8)) :
    ∃ after, writer.writeEach pieces =
        (if writer.written.size + pieces.flatten.length ≤ capacity then .ok () else .error refusal,
          after) ∧
      after.written.toList = (writer.written.toList ++ pieces.flatten).take capacity ∧
      after.FillsAt capacity refusal := by
  induction pieces generalizing writer with
  | nil =>
    refine ⟨writer, by simp [writeEach, hroom], ?_, h⟩
    rw [List.flatten_nil, List.append_nil, List.take_of_length_le (by simpa using hroom)]
  | cons piece pieces ih =>
    obtain ⟨middle, hwrite, hwritten, hmiddle⟩ := h.exists_write hroom piece
    rw [writeEach, hwrite, List.flatten_cons, ← List.append_assoc, List.length_append]
    by_cases hfits : writer.written.size + piece.length ≤ capacity
    · have hlength : (writer.written.toList ++ piece).length ≤ capacity := by simpa using hfits
      rw [List.take_of_length_le hlength] at hwritten
      have hsize : middle.written.size = writer.written.size + piece.length := by
        rw [← Array.length_toList, hwritten, List.length_append, Array.length_toList]
      obtain ⟨after, hlater, hall, hafter⟩ := ih hmiddle (hsize ▸ hfits)
      rw [hsize, Nat.add_assoc] at hlater
      rw [hwritten] at hall
      rw [if_pos hfits]
      exact ⟨after, hlater, hall, hafter⟩
    · have hfull : capacity ≤ (writer.written.toList ++ piece).length := by
        rw [List.length_append, Array.length_toList]
        omega
      rw [if_neg hfits, if_neg (by omega), List.take_append_of_le_length hfull]
      exact ⟨middle, rfl, hwritten, hmiddle⟩

/-- What has been written is that much more. -/
theorem size_of_written {after : ByteWriter} {bytes : List UInt8}
    (h : after.written.toList = writer.written.toList ++ bytes) :
    after.written.size = writer.written.size + bytes.length := by
  rw [← Array.length_toList, h, List.length_append, Array.length_toList]

/-- Whether a sink with room for so many bytes holds the same as one that refuses nothing. -/
structure Mirrors (capacity : Nat) (refusal : String) (free writer : ByteWriter) : Prop where
  /-- The one refuses nothing. -/
  reliable : free.Reliable
  /-- The other has room for so many bytes. -/
  fillsAt : writer.FillsAt capacity refusal
  /-- Both hold the same. -/
  written : writer.written = free.written
  /-- There has been room for it. -/
  room : free.written.size ≤ capacity

/-- Pieces that there is room for are written to both sinks. -/
theorem Mirrors.writeEach_of_le (h : Mirrors capacity refusal free writer)
    (pieces : List (List UInt8)) (hle : free.written.size + pieces.flatten.length ≤ capacity) :
    ∃ after other, free.writeEach pieces = (.ok (), after) ∧
      after.written.toList = free.written.toList ++ pieces.flatten ∧
      writer.writeEach pieces = (.ok (), other) ∧ Mirrors capacity refusal after other := by
  obtain ⟨after, hwrite, hafter, hreliable⟩ := h.reliable.exists_writeEach pieces
  obtain ⟨other, hother, hwritten, hfills⟩ := h.fillsAt.exists_writeEach (h.written ▸ h.room) pieces
  have hlength : (free.written.toList ++ pieces.flatten).length ≤ capacity := by
    rw [List.length_append, Array.length_toList]
    exact hle
  rw [h.written, List.take_of_length_le hlength, ← hafter] at hwritten
  rw [h.written, if_pos hle] at hother
  exact ⟨after, other, hwrite, hafter, hother, hreliable, hfills, Array.toList_inj.1 hwritten,
    size_of_written hafter ▸ hle⟩

/-- Pieces that there is no room for are refused when the sink is full. -/
theorem Mirrors.writeEach_of_lt (h : Mirrors capacity refusal free writer)
    (pieces : List (List UInt8)) (hlt : capacity < free.written.size + pieces.flatten.length) :
    ∃ other, writer.writeEach pieces = (.error refusal, other) ∧
      other.written.toList = (free.written.toList ++ pieces.flatten).take capacity := by
  obtain ⟨other, hother, hwritten, -⟩ := h.fillsAt.exists_writeEach (h.written ▸ h.room) pieces
  rw [h.written] at hother hwritten
  rw [if_neg (Nat.not_le.2 hlt)] at hother
  exact ⟨other, hother, hwritten⟩

/-- Flushing changes nothing of this. -/
theorem Mirrors.flush (h : Mirrors capacity refusal free writer) :
    Mirrors capacity refusal { free with flushes := free.flushes + 1 }
      { writer with flushes := writer.flushes + 1 } :=
  ⟨⟨h.reliable.takes, h.reliable.flushFails⟩,
    ⟨h.fillsAt.takes, h.fillsAt.refuses, h.fillsAt.refusal, h.fillsAt.flushFails⟩, h.written,
    h.room⟩

end ByteWriter

/-! ## Parts of what is written -/

section IsIn

variable {α : Type} {bytesOf : α → List UInt8}

/-- Whether a byte, counted from 0 over all parts, is one of the bytes of a part. -/
def IsIn (bytesOf : α → List UInt8) (parts : List α) (place : Nat) (part : α) : Prop :=
  ∃ earlier later, parts = earlier ++ part :: later ∧
    (earlier.flatMap bytesOf).length ≤ place ∧
    place < (earlier.flatMap bytesOf).length + (bytesOf part).length

/-- A byte is in the first part, or in another one behind all bytes of the first. -/
theorem isIn_cons_iff {first part : α} {others : List α} {place : Nat} :
    IsIn bytesOf (first :: others) place part ↔
      (first = part ∧ place < (bytesOf part).length) ∨
        ∃ rest, place = (bytesOf first).length + rest ∧ IsIn bytesOf others rest part := by
  constructor
  · rintro ⟨earlier, later, heq, hle, hlt⟩
    cases earlier with
    | nil =>
      obtain ⟨rfl, -⟩ := List.cons.inj heq
      exact .inl ⟨rfl, by simpa using hlt⟩
    | cons _ earlier =>
      obtain ⟨rfl, hothers⟩ := List.cons.inj heq
      rw [List.flatMap_cons, List.length_append] at hle hlt
      exact .inr ⟨place - (bytesOf first).length, by omega, earlier, later, hothers, by omega,
        by omega⟩
  · rintro (⟨rfl, hlt⟩ | ⟨rest, rfl, earlier, later, rfl, hle, hlt⟩)
    · exact ⟨[], others, rfl, Nat.zero_le _, by simpa using hlt⟩
    · refine ⟨first :: earlier, later, rfl, ?_, ?_⟩ <;>
      · rw [List.flatMap_cons, List.length_append]
        omega

/-- Each byte is in a part, the first one that reaches beyond it. -/
theorem exists_isIn {parts : List α} {place : Nat} (h : place < (parts.flatMap bytesOf).length) :
    ∃ part, IsIn bytesOf parts place part := by
  induction parts generalizing place with
  | nil => cases h
  | cons first others ih =>
    rw [List.flatMap_cons, List.length_append] at h
    rcases Nat.lt_or_ge place (bytesOf first).length with hlt | hge
    · exact ⟨first, isIn_cons_iff.2 (.inl ⟨rfl, hlt⟩)⟩
    · obtain ⟨rest, rfl⟩ := Nat.exists_eq_add_of_le hge
      obtain ⟨part, hpart⟩ := @ih rest (by omega)
      exact ⟨part, isIn_cons_iff.2 (.inr ⟨rest, rfl, hpart⟩)⟩

end IsIn

namespace Repl

/-- A part of what a session writes: the prompt in front of a line, or its record. -/
inductive Part
  | prompt (number : Nat)
  | record (number : Nat)

/-- The bytes of a part. -/
def Part.bytes (start : Repl) : Part → List UInt8
  | prompt _ => Utf8.encode start.prompt
  | record number =>
    Utf8.encode (Repl.record start.filename (rawLine start.reader.contents number))

/-- How many lines have been read when a part is written. -/
def Part.linesRead : Part → Nat
  | prompt number => number
  | record number => number + 1

/-- How a session fails whose sink refuses a part. -/
def Part.failure (cause : String) : Part → Failure
  | prompt _ => .prompt cause
  | record _ => .result cause

/-- What the failure to write a part says first. -/
def Part.context : Part → String
  | prompt _ => "writing prompt failed"
  | record _ => "writing result failed"

/-- A part that is refused says what it was, and why it was refused. -/
theorem Part.chain_failure (part : Part) (cause : String) :
    (part.failure cause).chain = [part.context, cause] := by
  cases part <;> rfl

/-- The prompt does not change. -/
theorem Proceeds.encode_prompt {start repl : Repl} {count : Nat} {text : List Char}
    (h : Proceeds count text start repl) (number : Nat) :
    Utf8.encode repl.prompt = Part.bytes start (.prompt number) := congrArg Utf8.encode h.prompt

/-- The parts of what a run writes from the line `first` to the blank line `last`. -/
def parts (first last : Nat) : List Part :=
  ((List.range' first (last - first)).flatMap fun number => [.prompt number, .record number]) ++
    [.prompt last]

/-- A run of one turn has one part. -/
theorem parts_self (first : Nat) : parts first first = [.prompt first] := by
  rw [parts, Nat.sub_self]
  rfl

/-- A run of more turns begins with a prompt and a record. -/
theorem parts_of_lt {first last : Nat} (h : first < last) :
    parts first last = .prompt first :: .record first :: parts (first + 1) last := by
  obtain ⟨count, hcount⟩ : ∃ count, last - first = count + 1 := ⟨last - first - 1, by omega⟩
  have hless : last - (first + 1) = count := by omega
  rw [parts, parts, hcount, hless, List.range'_succ]
  rfl

/-- **The parts make up the transcript.** -/
theorem flatMap_parts (start : Repl) {first last : Nat} (h : first ≤ last) :
    (parts first last).flatMap (Part.bytes start) =
      Utf8.encode (transcript start.prompt start.filename start.reader.contents first last) := by
  induction hn : last - first generalizing first with
  | zero =>
    obtain rfl : first = last := by omega
    rw [parts_self, transcript_self, List.flatMap_singleton]
    rfl
  | succ n ih =>
    rw [parts_of_lt (by omega), transcript_of_lt (by omega), List.flatMap_cons, List.flatMap_cons,
      ih (by omega) (by omega), Utf8.encode_append, Utf8.encode_append, List.append_assoc]
    rfl

/-- A run of one turn has nothing but a prompt. -/
theorem isIn_parts_self {start : Repl} {first place : Nat} {part : Part}
    (hin : IsIn (Part.bytes start) (parts first first) place part) :
    part = .prompt first ∧ place < (Part.bytes start (.prompt first)).length := by
  rw [parts_self, isIn_cons_iff] at hin
  rcases hin with ⟨rfl, hplace⟩ | ⟨_, -, earlier, later, hnil, -⟩
  · exact ⟨rfl, hplace⟩
  · cases earlier <;> cases hnil

/-- A byte of a run is in its first prompt, in its first record, or in what comes behind, and there
it is counted from the second prompt on. -/
theorem isIn_parts_cases {start : Repl} {first last place : Nat} {part : Part} (h : first < last)
    (hin : IsIn (Part.bytes start) (parts first last) place part) :
    (part = .prompt first ∧ place < (Part.bytes start (.prompt first)).length) ∨
      (part = .record first ∧ ∃ rest, place = (Part.bytes start (.prompt first)).length + rest ∧
        rest < (Part.bytes start (.record first)).length) ∨
      ∃ rest, place = (Part.bytes start (.prompt first)).length +
          ((Part.bytes start (.record first)).length + rest) ∧
        IsIn (Part.bytes start) (parts (first + 1) last) rest part := by
  rw [parts_of_lt h, isIn_cons_iff] at hin
  rcases hin with ⟨rfl, hplace⟩ | ⟨rest, rfl, hin⟩
  · exact .inl ⟨rfl, hplace⟩
  rcases isIn_cons_iff.1 hin with ⟨rfl, hplace⟩ | ⟨later, rfl, hlater⟩
  · exact .inr (.inl ⟨rfl, rest, rfl, hplace⟩)
  · exact .inr (.inr ⟨later, rfl, hlater⟩)

/-! ## Turns -/

section Turns

variable {capacity : Nat} {refusal : String} {free : Repl} {writer : ByteWriter}

open ByteWriter (Mirrors)

/-- A prompt that there is room for arrives at both sinks. -/
theorem prompted_of_le (h : Mirrors capacity refusal free.writer writer)
    (hle : free.writer.written.size + (Utf8.encode free.prompt).length ≤ capacity) :
    ∃ after other, prompted free = (.ok (), after) ∧
      prompted { free with writer } = (.ok (), other) ∧ Mirrors capacity refusal after other := by
  obtain ⟨after, other, hwrite, -, hother, hmirrors⟩ :=
    h.writeEach_of_le [Utf8.encode free.prompt] (by simpa using hle)
  rw [ByteWriter.writeEach_singleton] at hwrite hother
  refine ⟨{ after with flushes := after.flushes + 1 }, { other with flushes := other.flushes + 1 },
    ?_, ?_, hmirrors.flush⟩
  · rw [prompted, hwrite]
    exact ByteWriter.flush_of_flushFails hmirrors.reliable.flushFails
  · rw [prompted, hother]
    exact ByteWriter.flush_of_flushFails hmirrors.fillsAt.flushFails

/-- A prompt that there is no room for does not arrive. -/
theorem prompted_of_lt (h : Mirrors capacity refusal free.writer writer)
    (hlt : capacity < free.writer.written.size + (Utf8.encode free.prompt).length) :
    ∃ other, prompted { free with writer } = (.error refusal, other) ∧
      other.written.toList =
        (free.writer.written.toList ++ Utf8.encode free.prompt).take capacity := by
  obtain ⟨other, hother, hwritten⟩ :=
    h.writeEach_of_lt [Utf8.encode free.prompt] (by simpa using hlt)
  rw [ByteWriter.writeEach_singleton] at hother
  rw [List.flatten_singleton] at hwritten
  exact ⟨other, by rw [prompted, hother], hwritten⟩

/-- What becomes of a turn with a sink of little room if it takes the session with the other sink
from `free` to `middle`: the prompt is cut off, or the record is, or both are written. -/
inductive Turned (capacity : Nat) (refusal : String) (free : Repl) (writer : ByteWriter)
    (goesOn : Bool) (middle : Repl) : Prop
  /-- There is no room for the prompt, and the line is not read. -/
  | unprompted {other : ByteWriter}
      (hlt : capacity < free.writer.written.size + (Utf8.encode free.prompt).length)
      (hturn : turn { free with writer } = .error (.prompt refusal) { free with writer := other })
      (hwritten : other.written.toList = middle.writer.written.toList.take capacity)
  /-- There is room for the prompt and none for the record: the line has been read. -/
  | unanswered {other : ByteWriter}
      (hle : free.writer.written.size + (Utf8.encode free.prompt).length ≤ capacity)
      (hlt : capacity < middle.writer.written.size)
      (hturn : turn { free with writer } = .error (.result refusal) { middle with writer := other })
      (hwritten : other.written.toList = middle.writer.written.toList.take capacity)
  /-- There is room for both, and the sinks still hold the same. -/
  | answered {other : ByteWriter}
      (hturn : turn { free with writer } = .ok goesOn { middle with writer := other })
      (hmirrors : Mirrors capacity refusal middle.writer other)

/-- The record of a line is cut off or is the same with both sinks.  A blank line has none. -/
theorem turned_respond {line : Line} {goesOn : Bool} {middle : Repl}
    (h : Mirrors capacity refusal free.writer writer)
    (hrespond : respond line free = .ok goesOn middle) :
    (∃ other, respond line { free with writer } = .ok goesOn { middle with writer := other } ∧
        Mirrors capacity refusal middle.writer other) ∨
      ∃ other, capacity < middle.writer.written.size ∧
        respond line { free with writer } =
          .error (.result refusal) { middle with writer := other } ∧
        other.written.toList = middle.writer.written.toList.take capacity := by
  by_cases hblank : IsBlankLine line.text
  · rw [respond_of_isBlank hblank] at hrespond
    cases hrespond
    exact .inl ⟨writer, respond_of_isBlank hblank, h⟩
  rw [respond_of_not_isBlank hblank] at hrespond ⊢
  obtain ⟨after, hwrite, hwritten, -⟩ := h.reliable.exists_writeEach line.pieces
  have hsize := ByteWriter.size_of_written hwritten
  rw [hwrite] at hrespond
  cases hrespond
  rcases Nat.lt_or_ge capacity after.written.size with hlt | hge
  · obtain ⟨other, hother, hcut⟩ := h.writeEach_of_lt line.pieces (hsize ▸ hlt)
    refine .inr ⟨other, hlt, ?_, ?_⟩
    · rw [hother]
      rfl
    · rw [hcut, hwritten]
  · obtain ⟨_, other, hsame, -, hother, hmirrors⟩ := h.writeEach_of_le line.pieces (hsize ▸ hge)
    rw [hwrite] at hsame
    cases hsame
    refine .inl ⟨other, ?_, hmirrors⟩
    rw [hother]
    rfl

/-- **A turn is cut off or is the same with both sinks.**  Whether the prompt has room decides what
is read; the two sessions read the same line, since their inputs are the same. -/
theorem turned_turn {goesOn : Bool} {middle : Repl} (hreader : free.reader.Sound)
    (h : Mirrors capacity refusal free.writer writer) (hturn : turn free = .ok goesOn middle)
    (hpre : free.writer.written.toList ++ Utf8.encode free.prompt <+:
      middle.writer.written.toList) :
    Turned capacity refusal free writer goesOn middle := by
  rcases Nat.lt_or_ge capacity
    (free.writer.written.size + (Utf8.encode free.prompt).length) with hlt | hle
  · obtain ⟨other, hprompted, hwritten⟩ := prompted_of_lt h hlt
    refine .unprompted hlt (turn_eq_prompt_iff.2 ⟨other, hprompted, rfl⟩) ?_
    obtain ⟨record, hrecord⟩ := hpre
    have hfull : capacity ≤ (free.writer.written.toList ++ Utf8.encode free.prompt).length := by
      rw [List.length_append, Array.length_toList]
      omega
    rw [hwritten, ← hrecord, List.take_append_of_le_length hfull]
  · obtain ⟨after, other, hprompted, hprompted', hmirrors⟩ := prompted_of_le h hle
    obtain ⟨reader, hread, -⟩ := hreader.exists_readLine
    rw [turn_of_readLine hprompted hread] at hturn
    have hother : turn { free with writer } = respond _ _ := turn_of_readLine hprompted' hread
    rcases turned_respond hmirrors hturn with ⟨last, hrespond, hlast⟩ | ⟨last, hlt, hrespond, hcut⟩
    · exact .answered (hother.trans hrespond) hlast
    · exact .unanswered hle hlt (hother.trans hrespond) hcut

end Turns

/-! ## Runs -/

section Runs

variable {start free full : Repl} {writer : ByteWriter} {capacity first last : Nat}
  {refusal : String} {text : List Char}

open ByteWriter (Mirrors)

/-- What becomes of the rest of a run, from the line `first` to the blank line `last`, if with a
sink that refuses nothing it goes from `free` to `full`. -/
structure CutsOff (start free : Repl) (writer : ByteWriter) (capacity : Nat) (refusal : String)
    (first last : Nat) (full : Repl) : Prop where
  /-- Where there is room for all of it nothing changes. -/
  unaffected : full.writer.written.size ≤ capacity →
    ∃ other, run { free with writer } = .ok () { full with writer := other } ∧
      other.written = full.writer.written
  /-- Else the part with the first byte that there is no room for is the last. -/
  cutOff : ∀ part place, IsIn (Part.bytes start) (parts first last) place part →
    free.writer.written.size + place = capacity →
    ∃ state before other, Proceeds part.linesRead before start state ∧
      run { free with writer } = .error (part.failure refusal) { state with writer := other } ∧
      other.written.toList = full.writer.written.toList.take capacity

/-- The last turn of a run writes the prompt alone, so that the run is cut off in this prompt or not
at all. -/
theorem cutsOff_last (h : Proceeds last text start free)
    (hmirrors : Mirrors capacity refusal free.writer writer) (hturn : turn free = .ok false full)
    (hwritten : full.writer.written.toList =
      free.writer.written.toList ++ Utf8.encode free.prompt) :
    CutsOff start free writer capacity refusal last last full := by
  have hprompt : Utf8.encode free.prompt = Part.bytes start (.prompt last) := h.encode_prompt _
  have hsize := ByteWriter.size_of_written hwritten
  rw [hprompt] at hsize
  rcases turned_turn h.sound.reader hmirrors hturn (hwritten ▸ List.prefix_refl _) with
    @⟨other, hnone, hturn', hother⟩ | ⟨hroom, hnone, -, -⟩ | @⟨other, hturn', hother⟩
  · rw [hprompt] at hnone
    refine ⟨fun hfits => absurd hfits (by omega), fun part place hin _ => ?_⟩
    obtain ⟨rfl, -⟩ := isIn_parts_self hin
    exact ⟨free, text, other, h, by rw [run_step, hturn']; rfl, hother⟩
  · rw [hprompt] at hroom
    omega
  · have hroom := hother.room
    refine ⟨fun _ => ⟨other, by rw [run_step, hturn'], hother.written⟩, fun part place hin _ => ?_⟩
    obtain ⟨-, _⟩ := isIn_parts_self hin
    omega

/-- **A turn in front of other turns** is where the run is cut off, or has room in the sink.  If it
is cut off, the byte without room is in its prompt or in its record, as the sizes say, and no other
part has this byte; if not, what is known of the turns behind it (`hrest`) is known of the run. -/
theorem CutsOff.of_turn {middle : Repl} {more : List Char} (h : Proceeds first text start free)
    (hmiddle : Proceeds (first + 1) more start middle) (hlt : first < last)
    (hmirrors : Mirrors capacity refusal free.writer writer) (hturn : turn free = .ok true middle)
    (hwritten : middle.writer.written.toList = free.writer.written.toList ++
      (Part.bytes start (.prompt first) ++ Part.bytes start (.record first)))
    (hpre : middle.writer.written.toList <+: full.writer.written.toList)
    (hrest : ∀ other, Mirrors capacity refusal middle.writer other →
      CutsOff start middle other capacity refusal (first + 1) last full) :
    CutsOff start free writer capacity refusal first last full := by
  have hprompt : Utf8.encode free.prompt = Part.bytes start (.prompt first) := h.encode_prompt _
  have hsize := ByteWriter.size_of_written hwritten
  rw [List.length_append] at hsize
  have hgrows : middle.writer.written.size ≤ full.writer.written.size := by
    simpa using hpre.length_le
  have hcut : ∀ {other : ByteWriter}, capacity ≤ middle.writer.written.size →
      other.written.toList = middle.writer.written.toList.take capacity →
      other.written.toList = full.writer.written.toList.take capacity := by
    intro other hle hother
    obtain ⟨rest, hfull⟩ := hpre
    rw [hother, ← hfull, List.take_append_of_le_length (by simpa using hle)]
  have hbefore : free.writer.written.toList ++ Utf8.encode free.prompt <+:
      middle.writer.written.toList :=
    ⟨Part.bytes start (.record first), by rw [hwritten, hprompt, List.append_assoc]⟩
  -- In each case the byte without room is compared with the bounds of the three places it can have.
  rcases turned_turn h.sound.reader hmirrors hturn hbefore with
    @⟨other, hnone, hturn', hother⟩ | @⟨other, hroom, hnone, hturn', hother⟩ |
    @⟨other, hturn', hother⟩
  · rw [hprompt] at hnone
    refine ⟨fun hfits => absurd hfits (by omega), fun part place hin hplace => ?_⟩
    rcases isIn_parts_cases hlt hin with ⟨rfl, -⟩ | ⟨rfl, rest, rfl, -⟩ | ⟨rest, rfl, -⟩
    · exact ⟨free, text, other, h, by rw [run_step, hturn']; rfl, hcut (by omega) hother⟩
    · omega
    · omega
  · rw [hprompt] at hroom
    refine ⟨fun hfits => absurd hfits (by omega), fun part place hin hplace => ?_⟩
    rcases isIn_parts_cases hlt hin with ⟨rfl, _⟩ | ⟨rfl, -⟩ | ⟨rest, rfl, -⟩
    · omega
    · exact ⟨middle, more, other, hmiddle, by rw [run_step, hturn']; rfl, hcut (by omega) hother⟩
    · omega
  · have hroom := hother.room
    have hrun : run { free with writer } = run { middle with writer := other } := by
      rw [run_step, hturn']
    obtain ⟨hunaffected, hcutOff⟩ := hrest other hother
    rw [← hrun] at hunaffected hcutOff
    refine ⟨hunaffected, fun part place hin hplace => ?_⟩
    rcases isIn_parts_cases hlt hin with ⟨rfl, _⟩ | ⟨rfl, rest, rfl, _⟩ | ⟨rest, rfl, hrest⟩
    · omega
    · omega
    · exact hcutOff part rest hrest (by omega)

/-- **A run is cut off in the part that the sink has no room for.**  The induction is on the turns
that the run still has. -/
theorem Proceeds.cutsOff (h : Proceeds first text start free)
    (hends : EndsAt start.reader.contents first last)
    (hmirrors : Mirrors capacity refusal free.writer writer) (hrun : run free = .ok () full)
    (hwritten : full.writer.written.toList = free.writer.written.toList ++
      (parts first last).flatMap (Part.bytes start)) :
    CutsOff start free writer capacity refusal first last full := by
  obtain ⟨hle, hblank, hbefore⟩ := hends
  induction hn : last - first generalizing first free writer text with
  | zero =>
    obtain rfl : first = last := by omega
    obtain ⟨middle, hturn, -⟩ := h.exists_turn
    rw [decide_eq_true hblank] at hturn
    obtain rfl : middle = full := by
      rw [run_step, hturn] at hrun
      cases hrun
      rfl
    refine cutsOff_last h hmirrors hturn ?_
    rw [hwritten, parts_self, List.flatMap_singleton, h.prompt]
    rfl
  | succ n ih =>
    have hlt : first < last := by omega
    obtain ⟨middle, hturn, hmiddle⟩ := h.exists_turn
    rw [decide_eq_false (hbefore first (Nat.le_refl _) hlt)] at hturn
    have hgrown : middle.writer.written.toList = free.writer.written.toList ++
        (Part.bytes start (.prompt first) ++ Part.bytes start (.record first)) := by
      rw [hmiddle.written, Utf8.encode_append]
      rfl
    have hfull : full.writer.written.toList = middle.writer.written.toList ++
        (parts (first + 1) last).flatMap (Part.bytes start) := by
      rw [hwritten, hgrown, parts_of_lt hlt, List.flatMap_cons, List.flatMap_cons]
      simp only [List.append_assoc]
    have hrest : run middle = .ok () full := by
      rw [run_step, hturn] at hrun
      exact hrun
    exact .of_turn h (h.trans hmiddle) hlt hmirrors hturn hgrown ⟨_, hfull.symm⟩ fun other hother =>
      ih (h.trans hmiddle) hother hrest hfull hlt
        (fun number hnumber => hbefore number (by omega)) (by omega)

/-- What a run of the session `start`, whose sink takes everything, has to do with a run of the
same session with a sink of little room: `full` is how it ends, behind the line `last`. -/
structure IsCutOff (start : Repl) (writer : ByteWriter) (capacity : Nat) (refusal : String)
    (last : Nat) (full : Repl) : Prop where
  /-- The line that ends the session is the first blank one. -/
  endsAt : EndsAt start.reader.contents 0 last
  /-- With a sink that takes everything the session comes to its end. -/
  run_eq : run start = .ok () full
  /-- What is written are prompts and records. -/
  written : full.writer.written.toList = (parts 0 last).flatMap (Part.bytes start)
  /-- Where there is room for all of it the session with little room is the same. -/
  unaffected : full.writer.written.size ≤ capacity →
    ∃ other, run { start with writer } = .ok () { full with writer := other } ∧
      other.written = full.writer.written
  /-- Else there is a part with the first byte that there is no room for. -/
  exists_part : capacity < full.writer.written.size →
    ∃ part, IsIn (Part.bytes start) (parts 0 last) capacity part
  /-- That part tells how the session fails, and which lines it has consumed. -/
  cutOff : ∀ part, IsIn (Part.bytes start) (parts 0 last) capacity part →
    ∃ failure after, run { start with writer } = .error failure after ∧
      failure.chain = [part.context, refusal] ∧
      after.writer.written.toList = full.writer.written.toList.take capacity ∧
      after.linesRead = part.linesRead ∧
      after.reader.position = start.reader.position +
        ((rawLines start.reader.contents).take part.linesRead).flatten.length ∧
      after.reader.contents = ((rawLines start.reader.contents).drop part.linesRead).flatten

/-- **A sink that fills up cuts the transcript off,** wherever its room ends, and the session fails
in the part that it ends in. -/
theorem isCutOff {reader : ByteReader} (hreader : reader.Sound)
    (hwriter : writer.FillsAt capacity refusal) (hnone : writer.written = #[])
    (prompt : List Char) (filename : Option String) (report : Bool) :
    ∃ last full, IsCutOff { reader, writer := .unlimited, prompt, filename, report }
      writer capacity refusal last full := by
  have hstart : Sound { reader, writer := .unlimited, prompt, filename, report } :=
    ⟨hreader, ByteWriter.reliable_unlimited⟩
  have hmirrors : Mirrors capacity refusal .unlimited writer :=
    ⟨ByteWriter.reliable_unlimited, hwriter, hnone, Nat.zero_le _⟩
  generalize hs : ({ reader, writer := .unlimited, prompt, filename, report } : Repl) = start
    at hstart
  have hempty : start.writer.written = #[] := by rw [← hs]; rfl
  have hzero : start.linesRead = 0 := by rw [← hs]
  have hsink : start.writer = .unlimited := by rw [← hs]
  obtain ⟨last, full, hends, -, -, hrun, hfull⟩ := hstart.proceeds.exists_run
  have hwritten : full.writer.written.toList = start.writer.written.toList ++
      (parts 0 last).flatMap (Part.bytes start) := by
    rw [flatMap_parts start (Nat.zero_le _)]
    exact hfull.written
  obtain ⟨hunaffected, hcutOff⟩ :=
    hstart.proceeds.cutsOff hends (hsink ▸ hmirrors) hrun hwritten
  rw [hempty] at hwritten hcutOff
  refine ⟨last, full, hends, hrun, hwritten, hunaffected, fun hlt => exists_isIn ?_,
    fun part hin => ?_⟩
  · rw [← Array.length_toList, hwritten] at hlt
    exact hlt
  · obtain ⟨state, before, other, hstate, hrun, hother⟩ :=
      hcutOff part capacity hin (Nat.zero_add _)
    refine ⟨_, _, hrun, part.chain_failure refusal, hother, ?_, hstate.position, ?_⟩
    · show state.linesRead = _
      rw [hstate.linesRead, hzero, Nat.zero_add]
    · rw [← hstate.others, flatten_rawLines]

/-- Two lines into a sink with room for the first record but a byte. -/
theorem isCutOff_five :
    ByteReader.Sound ⟨[.ok [0x31, 0x0A, 0x32, 0x0A]], none, 0⟩ ∧
    (ByteWriter.unlimited.withCapacity 5 "full").FillsAt 5 "full" ∧
    ∃ last full, IsCutOff
      { reader := ⟨[.ok [0x31, 0x0A, 0x32, 0x0A]], none, 0⟩, writer := .unlimited }
      (ByteWriter.unlimited.withCapacity 5 "full") 5 "full" last full := by
  have hreader : ByteReader.Sound ⟨[.ok [0x31, 0x0A, 0x32, 0x0A]], none, 0⟩ :=
    ⟨rfl, fun _ hfill => ⟨_, List.mem_singleton.1 hfill⟩⟩
  have hwriter := ByteWriter.fillsAt_withCapacity 5 "full"
  exact ⟨hreader, hwriter, isCutOff hreader hwriter rfl defaultPrompt none false⟩

end Runs

end Repl
end Reckoner
