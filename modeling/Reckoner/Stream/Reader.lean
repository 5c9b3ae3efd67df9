/-
# Reading lines of bytes

Input arrives in fills, each of which brings some bytes or fails.  When the
listed fills are used up, the input has ended, or, if it is broken there, every
further fill fails.

A line is read through its line break, or to the end of the input when there is
none; at the end of the input it is empty.  The bytes behind the line break stay
in front of the next fill.  When a fill fails in the middle of a line, the bytes
of that line are lost: they count as consumed and no later line contains them.

However the input is cut into fills, the lines are the same.  Only a failing
fill makes a difference.
-/

import Reckoner.Text.Utf8

namespace Reckoner

/-- The byte of a line break. -/
def lineBreak : UInt8 := 0x0A

/-- What a fill brings: some bytes, or why it failed. -/
abbrev Fill := Except String (List UInt8)

/-- Input that is read line by line. -/
structure ByteReader where
  /-- What is not consumed yet, fill by fill. -/
  fills : List Fill
  /-- Why every fill after those listed fails; without a reason the input ends
  there. -/
  broken : Option String
  /-- How many bytes have been consumed. -/
  position : Nat
  deriving Repr

namespace ByteReader

/-- The bytes that the fills still bring, failing fills apart. -/
def fillBytes : List Fill → Nat
  | [] => 0
  | .ok bytes :: fills => bytes.length + fillBytes fills
  | .error _ :: fills => fillBytes fills

/-- How many bytes there are still to read. -/
def unread (reader : ByteReader) : Nat := fillBytes reader.fills

/-- Reads on behind the bytes of a line that are held already, through the next
line break. -/
def readOn (broken : Option String) (held : Array UInt8) (position : Nat) :
    List Fill → Except String (List UInt8) × ByteReader
  | [] =>
    match broken with
    | none => (.ok held.toList, ⟨[], broken, position⟩)
    | some fault => (.error fault, ⟨[], broken, position⟩)
  | .error fault :: fills => (.error fault, ⟨fills, broken, position⟩)
  | .ok bytes :: fills =>
    let before := bytes.takeWhile (· != lineBreak)
    match bytes.dropWhile (· != lineBreak) with
    | [] => readOn broken (held ++ before) (position + before.length) fills
    | found :: after =>
      (.ok ((held ++ before).push found).toList,
        ⟨.ok after :: fills, broken, position + before.length + 1⟩)

/-- Reads one line, with its line break. -/
def readLine (reader : ByteReader) : Except String (List UInt8) × ByteReader :=
  readOn reader.broken #[] reader.position reader.fills

/-- Some bytes in fills of a given size, behind the fills made so far; the last
fill may be shorter. -/
def fillsAfter (made : Array Fill) (size : Nat) (bytes : List UInt8) : Array Fill :=
  if h : bytes = [] then made
  else
    have : bytes.length - (size + 1) < bytes.length :=
      Nat.sub_lt (List.length_pos_iff.2 h) (Nat.succ_pos _)
    fillsAfter (made.push (.ok (bytes.take (size + 1)))) size (bytes.drop (size + 1))
  termination_by bytes.length
  decreasing_by simpa using this

/-- Input of the given bytes, of which a fill brings at most `size`, but at least
one. -/
def ofBytes (size : Nat) (bytes : List UInt8) : ByteReader where
  fills := (fillsAfter #[] (size - 1) bytes).toList
  broken := none
  position := 0

/-- Input that is broken at a place: the bytes before it can be read, and a fill
beyond them fails.  A place behind the end of the input is never reached. -/
def ofBytesBrokenAt (place : Nat) (fault : String) (size : Nat) (bytes : List UInt8) :
    ByteReader :=
  { ofBytes size (bytes.take place) with
    broken := if place ≤ bytes.length then some fault else none }

/-- What a failure to read a line says, the cause last. -/
def faultChain (cause : String) : List String := ["reading input line failed", cause]

/-- **What is read is used up.**  A line and what is unread behind it are no more
than what was unread before. -/
theorem length_add_unread_of_readOn {broken : Option String} {held : Array UInt8}
    {position : Nat} {fills : List Fill} {line : List UInt8} {reader : ByteReader}
    (h : readOn broken held position fills = (.ok line, reader)) :
    line.length + reader.unread = held.size + fillBytes fills := by
  induction fills generalizing held position with
  | nil =>
    cases broken with
    | none =>
      obtain ⟨rfl, rfl⟩ : _ ∧ _ := by simpa [readOn] using h
      simp [unread, fillBytes]
    | some fault => simp [readOn] at h
  | cons fill fills ih =>
    cases fill with
    | error fault => simp [readOn] at h
    | ok bytes =>
      have hcut : bytes.length = (bytes.takeWhile (· != lineBreak)).length +
          (bytes.dropWhile (· != lineBreak)).length := by
        rw [← List.length_append, List.takeWhile_append_dropWhile]
      rw [readOn] at h
      split at h
      · next hd =>
        have := ih h
        simp only [← Array.length_toList, Array.toList_appendList, List.length_append, hd,
          List.length_nil, fillBytes] at this hcut ⊢
        omega
      · next found after hd =>
        obtain ⟨rfl, rfl⟩ : _ ∧ _ := by simpa using h
        simp only [hd, List.length_cons, unread, fillBytes] at hcut ⊢
        simp
        omega

/-- A line takes from what is unread exactly its length. -/
theorem length_add_unread_of_readLine {reader after : ByteReader} {line : List UInt8}
    (h : reader.readLine = (.ok line, after)) : line.length + after.unread = reader.unread := by
  simpa [unread] using length_add_unread_of_readOn h

end ByteReader
end Reckoner
