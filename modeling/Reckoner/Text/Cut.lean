/-
# Cutting a text at a byte offset

A text can be cut at the offsets between its characters and at its two ends.  At an offset that
is inside a character or beyond the end it cannot be cut, and `cut?` says so.  Differences of
offsets are taken in the same way: there is none if the result would be below zero (`minus?`).
-/

import Reckoner.Text.Span

namespace Reckoner

/-- The parts of a text in front of a byte offset and behind it, if it can be cut there. -/
def cut? : (text : List Char) → (offset : Nat) → Option (List Char × List Char)
  | [], offset => if offset = 0 then some ([], []) else none
  | c :: text, offset =>
    if offset = 0 then some ([], c :: text)
    else if offset < c.utf8Size then none
    else (cut? text (offset - c.utf8Size)).map fun (front, rest) => (c :: front, rest)

/-- The difference of two offsets, if it is not below zero. -/
def minus? (m n : Nat) : Option Nat := if n ≤ m then some (m - n) else none

/-- A text can be cut behind any part of it. -/
@[simp] theorem cut?_append (front rest : List Char) :
    cut? (front ++ rest) (byteLength front) = some (front, rest) := by
  induction front with
  | nil => cases rest <;> simp [cut?]
  | cons c front ih =>
    have hpos := c.utf8Size_pos
    rw [List.cons_append, byteLength_cons, cut?, if_neg (by omega), if_neg (by omega),
      Nat.add_sub_cancel_left, ih]
    rfl

/-- **Where a text can be cut,** and what its parts are then. -/
theorem cut?_eq_some_iff {text front rest : List Char} {offset : Nat} :
    cut? text offset = some (front, rest) ↔ text = front ++ rest ∧ byteLength front = offset := by
  constructor
  · intro h
    induction text generalizing front offset with
    | nil => grind [cut?, byteLength_nil]
    | cons c text ih =>
      rw [cut?] at h
      split at h
      · next hzero =>
        obtain ⟨rfl, rfl⟩ : [] = front ∧ c :: text = rest := by simpa using h
        exact ⟨rfl, hzero.symm⟩
      split at h
      · cases h
      · next hle =>
        obtain ⟨⟨part, rest'⟩, hcut, heq⟩ := Option.map_eq_some_iff.1 h
        obtain ⟨rfl, rfl⟩ := Prod.mk.inj heq
        obtain ⟨rfl, hpart⟩ := ih hcut
        exact ⟨rfl, by rw [byteLength_cons]; omega⟩
  · rintro ⟨rfl, rfl⟩
    exact cut?_append front rest

/-- Taking one of two addends from their sum leaves the other. -/
theorem minus?_add (m n : Nat) : minus? (m + n) m = some n := by
  simp [minus?]

/-- Between the two bytes of an umlaut, and behind the end, there is no cut. -/
example : cut? ['ä', '1'] 1 = none ∧ cut? ['ä', '1'] 2 = some (['ä'], ['1']) ∧
    cut? ['ä', '1'] 4 = none := by
  decide

end Reckoner
