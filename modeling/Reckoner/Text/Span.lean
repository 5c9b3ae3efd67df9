/-
# Places in a text

A text is a list of characters, and places in it are counted in the bytes of
its UTF-8 form.  A span is a byte offset and a byte length.

`byteLength` is additive (`byteLength_append`), so the span of a piece that is
cut out of a text starts at the byte length of what comes before it, and this
offset tells where the piece stands (`append_inj_of_byteLength`).
-/

namespace Reckoner

/-- The number of bytes that a text takes in UTF-8. -/
def byteLength (text : List Char) : Nat :=
  text.foldl (fun n c => n + c.utf8Size) 0

/-- An empty text has no bytes. -/
@[simp] theorem byteLength_nil : byteLength [] = 0 := rfl

/-- Bytes can be counted on from any number. -/
theorem foldl_utf8Size (text : List Char) (n : Nat) :
    text.foldl (fun n c => n + c.utf8Size) n = n + byteLength text := by
  induction text generalizing n with
  | nil => rfl
  | cons c text ih =>
    rw [byteLength, List.foldl_cons, List.foldl_cons, ih, ih (0 + c.utf8Size)]
    omega

/-- A text has the bytes of its first character and of the others. -/
@[simp] theorem byteLength_cons (c : Char) (text : List Char) :
    byteLength (c :: text) = c.utf8Size + byteLength text := by
  rw [byteLength, List.foldl_cons, foldl_utf8Size, Nat.zero_add]

/-- The bytes of two texts add up. -/
@[simp] theorem byteLength_append (first second : List Char) :
    byteLength (first ++ second) = byteLength first + byteLength second := by
  induction first with
  | nil => simp
  | cons c first ih => simp [ih, Nat.add_assoc]

/-- A text without bytes is empty, since each character has at least one. -/
theorem eq_nil_of_byteLength {text : List Char} (h : byteLength text = 0) : text = [] := by
  cases text with
  | nil => rfl
  | cons c text =>
    have := c.utf8Size_pos
    rw [byteLength_cons] at h
    omega

/-- **A text is cut at an offset in one way.** -/
theorem append_inj_of_byteLength {first second before after : List Char}
    (h : first ++ second = before ++ after) (hlength : byteLength first = byteLength before) :
    first = before ∧ second = after := by
  rcases List.append_eq_append_iff.1 h with ⟨more, rfl, rfl⟩ | ⟨more, rfl, rfl⟩
  · rw [byteLength_append] at hlength
    obtain rfl : more = [] := eq_nil_of_byteLength (by omega)
    simp
  · rw [byteLength_append] at hlength
    obtain rfl : more = [] := eq_nil_of_byteLength (by omega)
    simp

/-- A stretch of a text: where it starts and how long it is, in bytes. -/
structure Span where
  offset : Nat
  length : Nat
  deriving DecidableEq, Repr

/-- The offset right after a span. -/
def Span.stop (s : Span) : Nat := s.offset + s.length

end Reckoner
