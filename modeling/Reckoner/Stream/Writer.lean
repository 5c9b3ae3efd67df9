/-
# Writing bytes to a sink

A sink takes what it is offered in one go, or a part of it, or refuses it.
Writing offers what is left again and again until all is taken or an offer is
refused, so that a sink that fills up holds a first part of what was written.
Writing nothing offers nothing and cannot fail.  A text that is put together from
pieces is written piece by piece (`writeEach`), so that a sink which counts its
offers sees where one piece ends and the next begins.

How much a sink takes may depend on the number of offers made before, on how
much it holds and on how much it is offered; to take nothing is to refuse.
Flushes are counted from 1, and the sink says which of them fail.
-/

namespace Reckoner

/-- A sink and what has been written to it. -/
structure ByteWriter where
  /-- The bytes that have been taken. -/
  written : Array UInt8
  /-- How many offers have been made. -/
  offers : Nat
  /-- How many flushes have been tried. -/
  flushes : Nat
  /-- How many bytes an offer takes, by the number of offers before it, the bytes
  held and the bytes offered. -/
  takes : (offers held offered : Nat) → Nat
  /-- Whether a flush fails, by its number. -/
  flushFails : Nat → Bool
  /-- Why an offer is refused. -/
  refusal : String
  /-- Why a flush fails. -/
  flushFault : String

namespace ByteWriter

/-- A sink that takes everything. -/
def unlimited : ByteWriter where
  written := #[]
  offers := 0
  flushes := 0
  takes := fun _ _ offered => offered
  flushFails := fun _ => false
  refusal := ""
  flushFault := ""

/-- The same sink with room for so many bytes in all. -/
def withCapacity (capacity : Nat) (refusal : String) (writer : ByteWriter) : ByteWriter :=
  { writer with takes := fun _ held offered => min offered (capacity - held), refusal }

/-- Writes some bytes, part by part. -/
def write (writer : ByteWriter) (bytes : List UInt8) : Except String Unit × ByteWriter :=
  if _ : bytes = [] then (.ok (), writer)
  else
    let taken := writer.takes writer.offers writer.written.size bytes.length
    if taken = 0 then (.error writer.refusal, { writer with offers := writer.offers + 1 })
    else
      write
        { writer with
          written := writer.written ++ bytes.take taken
          offers := writer.offers + 1 }
        (bytes.drop taken)
  termination_by bytes.length
  decreasing_by
    have := List.length_pos_iff.2 ‹¬bytes = []›
    simp only [List.length_drop]
    omega

/-- Writes some pieces one after the other, up to the first that is not taken in full. -/
def writeEach (writer : ByteWriter) : List (List UInt8) → Except String Unit × ByteWriter
  | [] => (.ok (), writer)
  | piece :: pieces =>
    match writer.write piece with
    | (.ok (), written) => written.writeEach pieces
    | (.error cause, written) => (.error cause, written)

/-- Writing the only piece is writing it. -/
@[simp] theorem writeEach_singleton (writer : ByteWriter) (piece : List UInt8) :
    writer.writeEach [piece] = writer.write piece := by
  rw [writeEach]
  rcases writer.write piece with ⟨cause | _, written⟩ <;> rfl

/-- Flushes the sink. -/
def flush (writer : ByteWriter) : Except String Unit × ByteWriter :=
  let number := writer.flushes + 1
  (if writer.flushFails number then .error writer.flushFault else .ok (),
    { writer with flushes := number })

end ByteWriter
end Reckoner
