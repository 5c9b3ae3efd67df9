/-
# UTF-8

`encode` writes a text as bytes.  Reading goes byte by byte: between two bytes
the decoder is at a boundary or inside a sequence (`Sequence`), of which it
knows the bits so far, how many bytes are still due and between which bounds
the next one has to lie.  The bounds of the byte after a leading byte keep out
what no text is written as:

| leading byte | length | next byte |
| --- | ---: | --- |
| `C2` … `DF` | 2 | `80` … `BF` |
| `E0` | 3 | `A0` … `BF` (nothing that fits in two bytes) |
| `E1` … `EC`, `EE`, `EF` | 3 | `80` … `BF` |
| `ED` | 3 | `80` … `9F` (no surrogate) |
| `F0` | 4 | `90` … `BF` (nothing that fits in three bytes) |
| `F1` … `F3` | 4 | `80` … `BF` |
| `F4` | 4 | `80` … `8F` (nothing above `U+10FFFF`) |

A sequence that breaks off, at a byte out of bounds or at the end, and a byte
that can start no sequence are one malformed stretch each, which the scan
reports as `none`.  The byte that broke a sequence off is looked at again, as
the first one of what follows.  `decode?` refuses input with such a stretch and
`decodeLossy` puts the replacement character `U+FFFD` in the place of each.
-/

namespace Reckoner
namespace Utf8

/-- The UTF-8 form of a text. -/
def encode (text : List Char) : List UInt8 := text.flatMap String.utf8EncodeChar

/-- No text takes no bytes. -/
@[simp] theorem encode_nil : encode [] = [] := rfl

/-- Two texts are encoded one after the other. -/
@[simp] theorem encode_append (first second : List Char) :
    encode (first ++ second) = encode first ++ encode second :=
  List.flatMap_append

/-- Pieces of a text are encoded one by one. -/
theorem flatten_map_encode (pieces : List (List Char)) :
    (pieces.map encode).flatten = encode pieces.flatten := by
  induction pieces with
  | nil => rfl
  | cons piece pieces ih =>
    rw [List.map_cons, List.flatten_cons, ih, List.flatten_cons, encode_append]

/-- A sequence of which at least the last byte is still due. -/
structure Sequence where
  /-- The bits of the code point that the bytes so far give. -/
  bits : Nat
  /-- How many bytes are due after the next one. -/
  further : Nat
  /-- The least value of the next byte. -/
  low : UInt8 := 0x80
  /-- The greatest value of the next byte. -/
  high : UInt8 := 0xBF
  deriving DecidableEq, Repr

/-- The sequence that a leading byte opens. -/
def Sequence.ofLead? (byte : UInt8) : Option Sequence :=
  if 0xC2 ≤ byte ∧ byte ≤ 0xDF then some { bits := byte.toNat - 0xC0, further := 0 }
  else if byte = 0xE0 then some { bits := 0, further := 1, low := 0xA0 }
  else if byte = 0xED then some { bits := 0xD, further := 1, high := 0x9F }
  else if 0xE1 ≤ byte ∧ byte ≤ 0xEF then some { bits := byte.toNat - 0xE0, further := 1 }
  else if byte = 0xF0 then some { bits := 0, further := 2, low := 0x90 }
  else if 0xF1 ≤ byte ∧ byte ≤ 0xF3 then some { bits := byte.toNat - 0xF0, further := 2 }
  else if byte = 0xF4 then some { bits := 4, further := 2, high := 0x8F }
  else none

/-- The decoder at a boundary takes a byte: where it stands then, and what is
complete. -/
def stepAtBoundary (byte : UInt8) : Option Sequence × List (Option Char) :=
  if byte < 0x80 then (none, [some (Char.ofNat byte.toNat)])
  else match Sequence.ofLead? byte with
    | some sequence => (some sequence, [])
    | none => (none, [none])

/-- The decoder inside a sequence takes a byte. -/
def Sequence.step (sequence : Sequence) (byte : UInt8) : Option Sequence × List (Option Char) :=
  if sequence.low ≤ byte ∧ byte ≤ sequence.high then
    let bits := 64 * sequence.bits + (byte.toNat - 0x80)
    match sequence.further with
    | 0 => (none, [some (Char.ofNat bits)])
    | further + 1 => (some { bits, further }, [])
  else
    let (state, complete) := stepAtBoundary byte
    (state, none :: complete)

/-- The decoder takes a byte. -/
def step : Option Sequence → UInt8 → Option Sequence × List (Option Char)
  | none, byte => stepAtBoundary byte
  | some sequence, byte => sequence.step byte

/-- What the input ending at a decoder's state completes. -/
def finish : Option Sequence → List (Option Char)
  | none => []
  | some _ => [none]

/-- The characters of some bytes in order, with `none` for each malformed
stretch. -/
def scan (bytes : List UInt8) : List (Option Char) :=
  let (state, complete) := bytes.foldl
    (fun (state, complete) byte =>
      let (next, more) := step state byte
      (next, complete ++ more))
    ((none : Option Sequence), (#[] : Array (Option Char)))
  (complete ++ finish state).toList

/-- The text that some bytes are, unless they are malformed somewhere. -/
def decode? (bytes : List UInt8) : Option (List Char) :=
  let found := scan bytes
  if found.all Option.isSome then some (found.filterMap id) else none

/-- What stands for a malformed stretch: `U+FFFD`. -/
def replacement : Char := '\uFFFD'

/-- The text of some bytes with a replacement character for each malformed
stretch. -/
def decodeLossy (bytes : List UInt8) : List Char :=
  (scan bytes).map (·.getD replacement)

/-- Malformed stretches are maximal: a cut-off sequence is one of them, and so
is each byte that can start nothing. -/
example : decodeLossy [0xF0, 0x9F, 0x98] = [replacement] ∧
    decodeLossy [0xC0, 0x80] = [replacement, replacement] ∧
    decodeLossy [0xED, 0xA0, 0x80] = [replacement, replacement, replacement] := by
  decide

end Utf8
end Reckoner
