/-
# Texts and their bytes

The bytes that a text is written as are read as that text again, with or without
replacement of malformed stretches (`decode?_encode`, `decodeLossy_encode`).

A character is written with one to four bytes.  Each of the decoder's moves has a lemma here,
with the digits of the code point in base 64 as numbers, and the bounds of the byte behind a
leading byte are bounds on the code point: at least `0x800` behind `E0`, at least `0x10000`
behind `F0`, no surrogate behind `ED` and at most `0x10FFFF` behind `F4`.
-/

import Reckoner.Proofs.Decoding.LineBreaks

namespace Reckoner
namespace Utf8

/-! ## The moves of the decoder -/

/-- A byte below 128 at a boundary is the character of that number. -/
theorem scanFrom_ascii {n : Nat} (h : n ≤ 0x7F) (rest : List UInt8) :
    scanFrom none (UInt8.ofNat n :: rest) = some (Char.ofNat n) :: scanFrom none rest := by
  have hbyte : n < 256 := by omega
  have hn : (UInt8.ofNat n).toNat = n := UInt8.toNat_ofNat_of_lt' hbyte
  have hascii : UInt8.ofNat n < 0x80 := by
    rw [UInt8.lt_iff_toNat_lt, hn]
    exact Nat.lt_succ_of_le h
  rw [scanFrom, step, stepAtBoundary, if_pos hascii, hn]
  rfl

/-- A leading byte at a boundary begins its sequence. -/
theorem scanFrom_lead {n : Nat} {sequence : Sequence} (hlow : 0x80 ≤ n) (hhigh : n < 256)
    (h : Sequence.ofLead? (UInt8.ofNat n) = some sequence) (rest : List UInt8) :
    scanFrom none (UInt8.ofNat n :: rest) = scanFrom (some sequence) rest := by
  have hascii : ¬ UInt8.ofNat n < 0x80 := by
    rw [UInt8.lt_iff_toNat_lt, UInt8.toNat_ofNat_of_lt' hhigh]
    exact Nat.not_lt.2 hlow
  rw [scanFrom, step, stepAtBoundary, if_neg hascii, h]
  rfl

section Due

variable {bits n : Nat} {low high : UInt8}

/-- A byte within the bounds is no other than the digit that it adds. -/
theorem due_spec (hlow : low.toNat ≤ n + 0x80) (hhigh : n + 0x80 ≤ high.toNat) :
    (low ≤ UInt8.ofNat (n + 0x80) ∧ UInt8.ofNat (n + 0x80) ≤ high) ∧
      (UInt8.ofNat (n + 0x80)).toNat - 0x80 = n := by
  have hbyte : n + 0x80 < 256 := Nat.lt_of_le_of_lt hhigh high.toNat_lt
  have hn : (UInt8.ofNat (n + 0x80)).toNat = n + 0x80 := UInt8.toNat_ofNat_of_lt' hbyte
  rw [UInt8.le_iff_toNat_le, UInt8.le_iff_toNat_le, hn]
  exact ⟨⟨hlow, hhigh⟩, Nat.add_sub_cancel n 0x80⟩

/-- The last digit that is due completes the character. -/
theorem scanFrom_last (hlow : low.toNat ≤ n + 0x80) (hhigh : n + 0x80 ≤ high.toNat)
    (rest : List UInt8) :
    scanFrom (some ⟨bits, 0, low, high⟩) (UInt8.ofNat (n + 0x80) :: rest) =
      some (Char.ofNat (64 * bits + n)) :: scanFrom none rest := by
  obtain ⟨hin, hdigit⟩ := due_spec hlow hhigh
  rw [scanFrom, step, Sequence.step, if_pos hin, hdigit]
  rfl

/-- A digit behind which more are due goes into the code point, and the next one has no bounds but
those of a digit. -/
theorem scanFrom_more (hlow : low.toNat ≤ n + 0x80) (hhigh : n + 0x80 ≤ high.toNat)
    (further : Nat) (rest : List UInt8) :
    scanFrom (some ⟨bits, further + 1, low, high⟩) (UInt8.ofNat (n + 0x80) :: rest) =
      scanFrom (some ⟨64 * bits + n, further, 0x80, 0xBF⟩) rest := by
  obtain ⟨hin, hdigit⟩ := due_spec hlow hhigh
  rw [scanFrom, step, Sequence.step, if_pos hin, hdigit]
  rfl

end Due

/-! ## Leading bytes -/

/-- The leading bytes of two. -/
theorem ofLead?_two : ∀ n < 0x20, 2 ≤ n →
    Sequence.ofLead? (UInt8.ofNat (n + 0xC0)) = some ⟨n, 0, 0x80, 0xBF⟩ := by
  decide

/-- The leading bytes of three, with the bounds on what may follow them. -/
theorem ofLead?_three : ∀ n < 0x10,
    Sequence.ofLead? (UInt8.ofNat (n + 0xE0)) =
      some ⟨n, 1, if n = 0 then 0xA0 else 0x80, if n = 0xD then 0x9F else 0xBF⟩ := by
  decide

/-- The leading bytes of four, with the bounds on what may follow them. -/
theorem ofLead?_four : ∀ n < 5,
    Sequence.ofLead? (UInt8.ofNat (n + 0xF0)) =
      some ⟨n, 2, if n = 0 then 0x90 else 0x80, if n = 4 then 0x8F else 0xBF⟩ := by
  decide

/-! ## From a text to its bytes and back -/

section Lengths

variable {v : Nat}

/-- Two bytes are read as the character that they are written for. -/
theorem scanFrom_two (hlow : 0x7F < v) (hhigh : v ≤ 0x7FF) (rest : List UInt8) :
    scanFrom none (UInt8.ofNat (v / 64 % 32 + 0xC0) :: UInt8.ofNat (v % 64 + 0x80) :: rest) =
      some (Char.ofNat v) :: scanFrom none rest := by
  have hlead := ofLead?_two (v / 64 % 32) (by omega) (by omega)
  have hbits : 64 * (v / 64 % 32) + v % 64 = v := by omega
  rw [scanFrom_lead (by omega) (by omega) hlead, scanFrom_last (by simp) (by simp; omega), hbits]

/-- Three bytes are read as the character that they are written for. -/
theorem scanFrom_three (hlow : 0x7FF < v) (hhigh : v ≤ 0xFFFF) (hvalid : v < 0xD800 ∨ 0xDFFF < v)
    (rest : List UInt8) :
    scanFrom none (UInt8.ofNat (v / 4096 % 16 + 0xE0) :: UInt8.ofNat (v / 64 % 64 + 0x80) ::
        UInt8.ofNat (v % 64 + 0x80) :: rest) =
      some (Char.ofNat v) :: scanFrom none rest := by
  have hlead := ofLead?_three (v / 4096 % 16) (by omega)
  have hbits : 64 * (64 * (v / 4096 % 16) + v / 64 % 64) + v % 64 = v := by omega
  have hnext : (if v / 4096 % 16 = 0 then 0xA0 else 0x80 : UInt8).toNat ≤ v / 64 % 64 + 0x80 := by
    split <;> simp
    omega
  have hnext' : v / 64 % 64 + 0x80 ≤
      (if v / 4096 % 16 = 0xD then 0x9F else 0xBF : UInt8).toNat := by
    split <;> simp <;> omega
  rw [scanFrom_lead (by omega) (by omega) hlead, scanFrom_more hnext hnext',
    scanFrom_last (by simp) (by simp; omega), hbits]

/-- Four bytes are read as the character that they are written for. -/
theorem scanFrom_four (hlow : 0xFFFF < v) (hhigh : v < 0x110000) (rest : List UInt8) :
    scanFrom none (UInt8.ofNat (v / 262144 % 8 + 0xF0) :: UInt8.ofNat (v / 4096 % 64 + 0x80) ::
        UInt8.ofNat (v / 64 % 64 + 0x80) :: UInt8.ofNat (v % 64 + 0x80) :: rest) =
      some (Char.ofNat v) :: scanFrom none rest := by
  have hlead := ofLead?_four (v / 262144 % 8) (by omega)
  have hbits : 64 * (64 * (64 * (v / 262144 % 8) + v / 4096 % 64) + v / 64 % 64) + v % 64 = v := by
    omega
  have hnext : (if v / 262144 % 8 = 0 then 0x90 else 0x80 : UInt8).toNat ≤
      v / 4096 % 64 + 0x80 := by
    split <;> simp
    omega
  have hnext' : v / 4096 % 64 + 0x80 ≤
      (if v / 262144 % 8 = 4 then 0x8F else 0xBF : UInt8).toNat := by
    split <;> simp <;> omega
  rw [scanFrom_lead (by omega) (by omega) hlead, scanFrom_more hnext hnext',
    scanFrom_more (by simp) (by simp; omega), scanFrom_last (by simp) (by simp; omega), hbits]

end Lengths

/-- **The bytes of a character are read as the character.**  The cases are the four lengths; in
each, the digits of the code point in base 64 make it up again. -/
theorem scanFrom_utf8EncodeChar (c : Char) (rest : List UInt8) :
    scanFrom none (String.utf8EncodeChar c ++ rest) = some c :: scanFrom none rest := by
  have hvalid : c.val.toNat < 0xD800 ∨ 0xDFFF < c.val.toNat ∧ c.val.toNat < 0x110000 := c.valid
  have hc : Char.ofNat c.val.toNat = c := Char.ofNat_toNat c
  conv => rhs; rw [← hc]
  rw [String.utf8EncodeChar]
  split
  · next hone => exact scanFrom_ascii hone rest
  split
  · next hone htwo => exact scanFrom_two (by omega) htwo rest
  split
  · next htwo hthree => exact scanFrom_three (by omega) hthree (by omega) rest
  · next hthree => exact scanFrom_four (by omega) (by omega) rest

/-- **The bytes of a text are read as the text.** -/
theorem scan_encode (text : List Char) : scan (encode text) = text.map some := by
  rw [scan_eq_scanFrom]
  induction text with
  | nil => rfl
  | cons c text ih => rw [encode, List.flatMap_cons, scanFrom_utf8EncodeChar, ← encode, ih]; rfl

/-- What a text is written as is decoded as this text. -/
@[simp] theorem decode?_encode (text : List Char) : decode? (encode text) = some text := by
  simp [decode?, scan_encode]

/-- Decoding loses nothing of what a text is written as. -/
@[simp] theorem decodeLossy_encode (text : List Char) : decodeLossy (encode text) = text := by
  rw [decodeLossy, scan_encode, List.map_map]
  exact List.map_id text

/-- A text on one line is written on one line. -/
theorem lineBreak_not_mem_encode {text : List Char} (h : '\n' ∉ text) :
    lineBreak ∉ encode text := by
  intro hmem
  obtain ⟨line, rest, heq, hline⟩ := List.eq_append_cons_of_mem hmem
  obtain ⟨front, -, hdecode⟩ := exists_decodeLossy_lineBreak hline
  have htext := hdecode rest
  rw [← heq, decodeLossy_encode] at htext
  exact h (by simp [htext])

end Utf8
end Reckoner
