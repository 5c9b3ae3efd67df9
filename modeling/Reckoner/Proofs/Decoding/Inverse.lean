/-
# Bytes that are a text

Bytes are decoded without a malformed stretch just when they are what a text is written as
(`scan_eq_map_some_iff`), so that lossy decoding leaves a replacement character in all other
bytes (`replacement_mem_decodeLossy`).

The way back from a scan to the bytes goes byte by byte.  What carries it is that the bytes
taken so far are what every character begins with that the pending sequence can still become
(`Sequence.Follows`): each byte is one more of the digits that these characters have in base
64, and the bounds behind a leading byte keep out code points that are written shorter or are
no characters.

There is one lemma for each length of a sequence (`follows_two`, `follows_three`, `follows_four`),
stated for all leading bytes of this length at once, with their bounds as a function of the bits.
Each byte that is due then takes a digit off (`Sequence.Follows.extends_step`), and a scan without a
malformed stretch is followed from its first byte to its last (`Pends.eq_encode_of_scanFrom`).
-/

import Reckoner.Proofs.Decoding.RoundTrip

namespace Reckoner
namespace Utf8

/-! ## What a sequence can become -/

/-- The code point that begins with some bits and goes on with some digits in base 64. -/
def codePoint (bits : Nat) (digits : List Nat) : Nat :=
  digits.foldl (fun n digit => 64 * n + digit) bits

/-- Whether the characters that a sequence can become all begin with the bytes taken.  What is
written behind these are the digits that are due. -/
def Sequence.Follows (sequence : Sequence) (taken : List UInt8) : Prop :=
  ∀ digit digits, digits.length = sequence.further → (∀ d ∈ digits, d < 64) →
    sequence.low.toNat ≤ digit + 0x80 → digit + 0x80 ≤ sequence.high.toNat →
      String.utf8EncodeChar (Char.ofNat (codePoint sequence.bits (digit :: digits))) =
        taken ++ (digit :: digits).map fun d => UInt8.ofNat (d + 0x80)

/-- Whether a decoder stands where it does behind the bytes taken since the last boundary. -/
def Pends (taken : List UInt8) : Option Sequence → Prop
  | none => taken = []
  | some sequence => sequence.Follows taken

/-! ## Leading bytes -/

/-- A code point that is no surrogate is that of a character. -/
theorem toNat_ofNat {v : Nat} (h : v < 0xD800 ∨ 0xDFFF < v ∧ v < 0x110000) :
    (Char.ofNat v).val.toNat = v := by
  have hvalid : v.isValidChar := h
  rw [Char.ofNat, dif_pos hvalid]
  rfl

/-- Behind a leading byte of two the one digit that is due makes up the character, which needs at
least two bytes because of the bound on the leading byte. -/
theorem follows_two {n : Nat} (hlow : 2 ≤ n) (hhigh : n < 0x20) :
    Sequence.Follows ⟨n, 0, 0x80, 0xBF⟩ [UInt8.ofNat (n + 0xC0)] := by
  intro digit digits hlength _ hfirst hlast
  obtain rfl := List.eq_nil_of_length_eq_zero hlength
  have hfirst : 0x80 ≤ digit + 0x80 := hfirst
  have hlast : digit + 0x80 ≤ 0xBF := hlast
  have hv : codePoint n [digit] = 64 * n + digit := rfl
  have hc : (Char.ofNat (64 * n + digit)).val.toNat = 64 * n + digit := toNat_ofNat (by omega)
  have hlead : (64 * n + digit) / 64 % 32 = n := by omega
  have hdigit : (64 * n + digit) % 64 = digit := by omega
  rw [hv, String.utf8EncodeChar]
  rw [hc, if_neg (by omega), if_pos (by omega), hlead, hdigit]
  rfl

/-- Behind a leading byte of three the bound on the next digit keeps out what is written shorter,
and the surrogates. -/
theorem follows_three {n : Nat} (hn : n < 0x10) :
    Sequence.Follows ⟨n, 1, if n = 0 then 0xA0 else 0x80, if n = 0xD then 0x9F else 0xBF⟩
      [UInt8.ofNat (n + 0xE0)] := by
  intro digit digits hlength hdigits hfirst hlast
  obtain ⟨second, rfl⟩ := List.length_eq_one_iff.1 hlength
  have hsecond : second < 64 := hdigits second (List.mem_singleton.2 rfl)
  have hshort : n = 0 → 0x20 ≤ digit := by
    rintro rfl
    have : 0xA0 ≤ digit + 0x80 := hfirst
    omega
  have hsurrogate : n = 0xD → digit < 0x20 := by
    rintro rfl
    have : digit + 0x80 ≤ 0x9F := hlast
    omega
  have hdigit : digit < 64 := by
    have : (if n = 0xD then 0x9F else 0xBF : UInt8).toNat ≤ 0xBF := by split <;> decide
    have := Nat.le_trans hlast this
    omega
  have hv : codePoint n [digit, second] = 64 * (64 * n + digit) + second := rfl
  have hc : (Char.ofNat (64 * (64 * n + digit) + second)).val.toNat =
      64 * (64 * n + digit) + second := toNat_ofNat (by omega)
  have hlead : (64 * (64 * n + digit) + second) / 4096 % 16 = n := by omega
  have hmiddle : (64 * (64 * n + digit) + second) / 64 % 64 = digit := by omega
  have hend : (64 * (64 * n + digit) + second) % 64 = second := by omega
  rw [hv, String.utf8EncodeChar]
  rw [hc, if_neg (by omega), if_neg (by omega), if_pos (by omega), hlead, hmiddle, hend]
  rfl

/-- Behind a leading byte of four the bound on the next digit keeps out what is written shorter, and
what is above the last code point. -/
theorem follows_four {n : Nat} (hn : n < 5) :
    Sequence.Follows ⟨n, 2, if n = 0 then 0x90 else 0x80, if n = 4 then 0x8F else 0xBF⟩
      [UInt8.ofNat (n + 0xF0)] := by
  intro digit digits hlength hdigits hfirst hlast
  obtain ⟨second, digits, rfl⟩ := List.exists_cons_of_length_eq_add_one hlength
  obtain ⟨third, rfl⟩ := List.length_eq_one_iff.1 (Nat.succ.inj hlength)
  have hsecond : second < 64 := hdigits second (by simp)
  have hthird : third < 64 := hdigits third (by simp)
  have hshort : n = 0 → 0x10 ≤ digit := by
    rintro rfl
    have : 0x90 ≤ digit + 0x80 := hfirst
    omega
  have hgreatest : n = 4 → digit < 0x10 := by
    rintro rfl
    have : digit + 0x80 ≤ 0x8F := hlast
    omega
  have hdigit : digit < 64 := by
    have : (if n = 4 then 0x8F else 0xBF : UInt8).toNat ≤ 0xBF := by split <;> decide
    have := Nat.le_trans hlast this
    omega
  have hv : codePoint n [digit, second, third] = 64 * (64 * (64 * n + digit) + second) + third :=
    rfl
  have hc : (Char.ofNat (64 * (64 * (64 * n + digit) + second) + third)).val.toNat =
      64 * (64 * (64 * n + digit) + second) + third := toNat_ofNat (by omega)
  have hlead : (64 * (64 * (64 * n + digit) + second) + third) / 262144 % 8 = n := by omega
  have hnext : (64 * (64 * (64 * n + digit) + second) + third) / 4096 % 64 = digit := by omega
  have hmiddle : (64 * (64 * (64 * n + digit) + second) + third) / 64 % 64 = second := by omega
  have hend : (64 * (64 * (64 * n + digit) + second) + third) % 64 = third := by omega
  rw [hv, String.utf8EncodeChar]
  rw [hc, if_neg (by omega), if_neg (by omega), if_neg (by omega), hlead, hnext, hmiddle, hend]
  rfl

/-- A byte is the number that it is. -/
theorem eq_ofNat_of_toNat {byte : UInt8} {n : Nat} (h : byte.toNat = n) : byte = UInt8.ofNat n := by
  rw [← h, UInt8.ofNat_toNat]

/-- The bytes that open a sequence. -/
theorem bounds_of_ofLead? {byte : UInt8} {sequence : Sequence}
    (h : Sequence.ofLead? byte = some sequence) : 0xC2 ≤ byte.toNat ∧ byte.toNat ≤ 0xF4 := by
  by_contra hout
  have hnone : Sequence.ofLead? byte = none := by
    simp only [Sequence.ofLead?, UInt8.le_iff_toNat_le, ← UInt8.toNat_inj, UInt8.reduceToNat]
    rw [if_neg (by omega), if_neg (by omega), if_neg (by omega), if_neg (by omega),
      if_neg (by omega), if_neg (by omega), if_neg (by omega)]
  rw [hnone] at h
  cases h

/-- **A leading byte is what the characters begin with** that its sequence can become.  The bounds
of the bytes that open a sequence are those of the three lemmas above. -/
theorem follows_of_ofLead? {byte : UInt8} {sequence : Sequence}
    (h : Sequence.ofLead? byte = some sequence) : sequence.Follows [byte] := by
  obtain ⟨hlow, hhigh⟩ := bounds_of_ofLead? h
  rcases Nat.lt_or_ge byte.toNat 0xE0 with htwo | hthree
  · obtain ⟨n, hn⟩ := Nat.exists_eq_add_of_le' (Nat.le_trans (by decide : 0xC0 ≤ 0xC2) hlow)
    obtain rfl := eq_ofNat_of_toNat hn
    rw [ofLead?_two n (by omega) (by omega)] at h
    obtain rfl := Option.some.inj h
    exact follows_two (by omega) (by omega)
  rcases Nat.lt_or_ge byte.toNat 0xF0 with hthree' | hfour
  · obtain ⟨n, hn⟩ := Nat.exists_eq_add_of_le' hthree
    obtain rfl := eq_ofNat_of_toNat hn
    rw [ofLead?_three n (by omega)] at h
    obtain rfl := Option.some.inj h
    exact follows_three (by omega)
  · obtain ⟨n, hn⟩ := Nat.exists_eq_add_of_le' hfour
    obtain rfl := eq_ofNat_of_toNat hn
    rw [ofLead?_four n (by omega)] at h
    obtain rfl := Option.some.inj h
    exact follows_four (by omega)

/-! ## One byte -/

/-- What a byte comes to that ends no malformed stretch and is none: it completes a character,
or a sequence goes on. -/
inductive Extends (taken : List UInt8) : Option Sequence × List (Option Char) → Prop
  /-- What has been taken is the form of a character. -/
  | complete {c : Char} (h : String.utf8EncodeChar c = taken) : Extends taken (none, [some c])
  /-- What has been taken is the front of several. -/
  | pending {sequence : Sequence} (h : sequence.Follows taken) : Extends taken (some sequence, [])

/-- At a boundary a byte is a character, or what some characters begin with, unless it is malformed.
-/
theorem extends_stepAtBoundary {byte : UInt8} (hwell : none ∉ (stepAtBoundary byte).2) :
    Extends [byte] (stepAtBoundary byte) := by
  unfold stepAtBoundary at hwell ⊢
  by_cases hascii : byte < 0x80
  · rw [if_pos hascii]
    have hlt : byte.toNat < 0x80 := UInt8.lt_iff_toNat_lt.1 hascii
    have hc : (Char.ofNat byte.toNat).val.toNat = byte.toNat := toNat_ofNat (by omega)
    refine .complete ?_
    rw [String.utf8EncodeChar, hc, if_pos (by omega), UInt8.ofNat_toNat]
  rw [if_neg hascii] at hwell ⊢
  cases hlead : Sequence.ofLead? byte with
  | some sequence => exact .pending (follows_of_ofLead? hlead)
  | none =>
    rw [hlead] at hwell
    simp at hwell

/-- **A byte that is due** is the next one of all characters that the sequence can become. -/
theorem Sequence.Follows.extends_step {sequence : Sequence} {taken : List UInt8} {byte : UInt8}
    (h : sequence.Follows taken) (hsound : sequence.Sound)
    (hwell : none ∉ (sequence.step byte).2) : Extends (taken ++ [byte]) (sequence.step byte) := by
  obtain ⟨bits, further, low, high⟩ := sequence
  unfold Sequence.step at hwell ⊢
  by_cases hin : low ≤ byte ∧ byte ≤ high
  · have hlow : 0x80 ≤ low.toNat := UInt8.le_iff_toNat_le.1 hsound.low
    have hbyte : low.toNat ≤ byte.toNat := UInt8.le_iff_toNat_le.1 hin.1
    have hbyte' : byte.toNat ≤ high.toNat := UInt8.le_iff_toNat_le.1 hin.2
    obtain ⟨digit, hdigit⟩ := Nat.exists_eq_add_of_le' (Nat.le_trans hlow hbyte)
    have hsame : UInt8.ofNat (digit + 0x80) = byte := (eq_ofNat_of_toNat hdigit).symm
    have hfirst : low.toNat ≤ digit + 0x80 := hdigit ▸ hbyte
    have hlast : digit + 0x80 ≤ high.toNat := hdigit ▸ hbyte'
    rw [if_pos hin, hdigit, Nat.add_sub_cancel]
    cases further with
    | zero =>
      refine .complete ?_
      have hwritten := h digit [] rfl (fun d hd => by cases hd) hfirst hlast
      rwa [List.map_singleton, hsame] at hwritten
    | succ further =>
      refine .pending fun next digits hlength hdigits hnext hnext' => ?_
      have hnext' : next + 0x80 ≤ 0xBF := hnext'
      have hwritten := h digit (next :: digits) (congrArg (· + 1) hlength)
        (List.forall_mem_cons.2 ⟨by omega, hdigits⟩) hfirst hlast
      rwa [List.map_cons, hsame, List.append_cons] at hwritten
  · rw [if_neg hin] at hwell
    simp at hwell

/-- **A byte that is not malformed extends what is pending.**  Inside a sequence it is the digit
that is due, and at a boundary it begins a character or is one. -/
theorem Pends.extends_step {state : Option Sequence} {taken : List UInt8} {byte : UInt8}
    (h : Pends taken state) (hsound : SoundState state) (hwell : none ∉ (step state byte).2) :
    Extends (taken ++ [byte]) (step state byte) := by
  cases state with
  | none =>
    obtain rfl : taken = [] := h
    exact extends_stepAtBoundary hwell
  | some sequence => exact Sequence.Follows.extends_step h (hsound sequence rfl) hwell

/-! ## All bytes -/

/-- **A scan without a malformed stretch** is of the bytes of the text that it finds.  The induction
is on the bytes, with what is pending as its state; a text that ends inside a sequence would have a
malformed stretch at its end. -/
theorem Pends.eq_encode_of_scanFrom {bytes : List UInt8} {state : Option Sequence}
    {taken : List UInt8} {text : List Char} (h : Pends taken state) (hsound : SoundState state)
    (hscan : scanFrom state bytes = text.map some) : taken ++ bytes = encode text := by
  induction bytes generalizing state taken text with
  | nil =>
    cases state with
    | none =>
      obtain rfl : taken = [] := h
      obtain rfl := List.map_eq_nil_iff.1 hscan.symm
      rfl
    | some sequence =>
      have hmem : none ∈ text.map some := hscan ▸ List.mem_singleton.2 rfl
      simp at hmem
  | cons byte bytes ih =>
    have hwell : none ∉ (step state byte).2 := by
      intro hmem
      have hmem : none ∈ text.map some := hscan ▸ List.mem_append_left _ hmem
      simp at hmem
    have hextends := h.extends_step hsound hwell
    have hsound := (hsound.takes_step byte).soundState
    rw [scanFrom] at hscan
    generalize step state byte = result at hextends hsound hscan
    rw [List.append_cons]
    cases hextends with
    | @complete c hc =>
      have hscan : some c :: scanFrom none bytes = text.map some := hscan
      cases text with
      | nil => cases hscan
      | cons d text =>
        obtain ⟨hd, htail⟩ := List.cons.inj hscan
        obtain rfl := Option.some.inj hd
        have hrest := @ih none [] text rfl hsound htail
        rw [List.nil_append] at hrest
        rw [← hc, hrest, encode, encode, List.flatMap_cons]
    | pending hfollows => exact @ih (some _) (taken ++ [byte]) text hfollows hsound hscan

/-- **Bytes are decoded without a malformed stretch** just when they are those of a text. -/
theorem scan_eq_map_some_iff {bytes : List UInt8} {text : List Char} :
    scan bytes = text.map some ↔ bytes = encode text := by
  constructor
  · intro h
    rw [scan_eq_scanFrom] at h
    exact @Pends.eq_encode_of_scanFrom bytes none [] text rfl soundState_none h
  · rintro rfl
    exact scan_encode text

/-- Bytes that leave no replacement character are those of the text that they leave. -/
theorem eq_encode_decodeLossy {bytes : List UInt8} (h : replacement ∉ decodeLossy bytes) :
    bytes = encode (decodeLossy bytes) := by
  have hfound : ∀ found ∈ scan bytes, found = some (found.getD replacement) := by
    intro found hfound
    cases found with
    | none => exact absurd (List.mem_map.2 ⟨none, hfound, rfl⟩) h
    | some c => rfl
  refine scan_eq_map_some_iff.1 ?_
  rw [decodeLossy, List.map_map]
  conv => lhs; rw [← List.map_id (scan bytes)]
  exact List.map_congr_left hfound

/-- **Bytes that are those of no text** leave a replacement character. -/
theorem replacement_mem_decodeLossy {bytes : List UInt8} (h : ∀ text, bytes ≠ encode text) :
    replacement ∈ decodeLossy bytes := by
  by_contra hmem
  exact h _ (eq_encode_decodeLossy hmem)

end Utf8
end Reckoner
