/-
# Line breaks in malformed input

Bytes can be cut into lines before they are decoded or after, and the lines are the same
texts (`map_decodeLossy_rawLines`), whatever is wrong with the bytes.  A line break is never
a part of a longer sequence: it ends what is pending and leaves the decoder at a boundary,
and no other byte completes a line break.

The decoder is looked at byte by byte (`scanFrom`).  What a byte comes to is said once
(`takes_step`), and it needs an invariant (`Sequence.Sound`): the bytes that are due lie above
`7F`, and so does the character that they complete.

So the lines of the decoded text can be found one by one: a line break is decoded where it is,
and what is behind it is decoded as if nothing had been in front
(`exists_decodeLossy_lineBreak`).
-/

import Reckoner.Command
import Reckoner.Proofs.Session.RawLines

namespace Reckoner
namespace Utf8

/-! ## Byte by byte -/

/-- What a decoder finds in some bytes from where it stands. -/
def scanFrom (state : Option Sequence) : List UInt8 → List (Option Char)
  | [] => finish state
  | byte :: bytes => (step state byte).2 ++ scanFrom (step state byte).1 bytes

/-- The decoder takes a byte and keeps what is complete. -/
def absorb (held : Option Sequence × Array (Option Char)) (byte : UInt8) :
    Option Sequence × Array (Option Char) :=
  ((step held.1 byte).1, held.2 ++ (step held.1 byte).2)

/-- **Bytes are absorbed behind what has been found already:** this stays in front, and what they
add is what a scan from the state so far finds. -/
theorem foldl_absorb (bytes : List UInt8) (held : Option Sequence × Array (Option Char)) :
    (bytes.foldl absorb held).2.toList ++ finish (bytes.foldl absorb held).1 =
      held.2.toList ++ scanFrom held.1 bytes := by
  induction bytes generalizing held with
  | nil => rfl
  | cons byte bytes ih =>
    rw [List.foldl_cons, ih, scanFrom, ← List.append_assoc]
    simp [absorb]

/-- **A scan goes byte by byte** from a boundary on. -/
theorem scan_eq_scanFrom (bytes : List UInt8) : scan bytes = scanFrom none bytes := by
  have h : scan bytes = ((bytes.foldl absorb (none, #[])).2 ++
      finish (bytes.foldl absorb (none, #[])).1).toList := rfl
  rw [h, Array.toList_appendList, foldl_absorb]
  rfl

/-! ## What a byte comes to -/

/-- A sequence that can be pending: no ASCII byte is due, and no ASCII character is
completed. -/
structure Sequence.Sound (sequence : Sequence) : Prop where
  /-- The next byte is no ASCII byte. -/
  low : 0x80 ≤ sequence.low
  /-- The bits so far, or the next ones, are not all zero. -/
  bits : 0 < sequence.bits ∨ 0 < sequence.further ∧ 0x80 < sequence.low

/-- A leading byte opens a sequence that can be pending. -/
theorem Sequence.sound_of_ofLead? {byte : UInt8} {sequence : Sequence}
    (h : ofLead? byte = some sequence) : sequence.Sound := by
  unfold ofLead? at h
  split at h
  · next hb =>
    obtain rfl := Option.some.inj h
    have hlead : 0xC2 ≤ byte.toNat := UInt8.le_iff_toNat_le.1 hb.1
    exact ⟨UInt8.le_refl _, .inl (by dsimp only; omega)⟩
  split at h
  · obtain rfl := Option.some.inj h
    exact ⟨by decide, .inr ⟨by decide, by decide⟩⟩
  split at h
  · obtain rfl := Option.some.inj h
    exact ⟨by decide, .inl (by decide)⟩
  split at h
  · next hb =>
    obtain rfl := Option.some.inj h
    have hlead : 0xE1 ≤ byte.toNat := UInt8.le_iff_toNat_le.1 hb.1
    exact ⟨UInt8.le_refl _, .inl (by dsimp only; omega)⟩
  split at h
  · obtain rfl := Option.some.inj h
    exact ⟨by decide, .inr ⟨by decide, by decide⟩⟩
  split at h
  · next hb =>
    obtain rfl := Option.some.inj h
    have hlead : 0xF1 ≤ byte.toNat := UInt8.le_iff_toNat_le.1 hb.1
    exact ⟨UInt8.le_refl _, .inl (by dsimp only; omega)⟩
  split at h
  · obtain rfl := Option.some.inj h
    exact ⟨by decide, .inl (by decide)⟩
  · cases h

/-- What a byte comes to, with or without a malformed stretch that ends in front of it: a
character, a malformed stretch of its own, or a sequence that goes on.  Only a line break
comes to a line break. -/
inductive Takes (byte : UInt8) : Option Sequence × List (Option Char) → Prop
  /-- It completes a character. -/
  | complete {malformed : List (Option Char)} {c : Char} (hm : ∀ found ∈ malformed, found = none)
      (hc : c = '\n' ↔ byte = lineBreak) : Takes byte (none, malformed ++ [some c])
  /-- It can start nothing. -/
  | stray {malformed : List (Option Char)} (hm : ∀ found ∈ malformed, found = none)
      (hb : byte ≠ lineBreak) : Takes byte (none, malformed ++ [none])
  /-- It opens a sequence or goes on with one. -/
  | pending {malformed : List (Option Char)} {sequence : Sequence}
      (hm : ∀ found ∈ malformed, found = none) (hb : byte ≠ lineBreak) (hs : sequence.Sound) :
      Takes byte (some sequence, malformed)

/-- A character is a line break by its code point. -/
theorem ofNat_eq_lineBreak_iff (n : Nat) : Char.ofNat n = '\n' ↔ n = 10 := by
  constructor
  · intro h
    by_cases hn : n.isValidChar
    · have hvalue : (Char.ofNat n).toNat = n := by
        rw [Char.ofNat, dif_pos hn]
        rfl
      rw [h] at hvalue
      exact hvalue.symm
    · rw [Char.ofNat, dif_neg hn] at h
      cases h
  · rintro rfl
    rfl

/-- The line break is the byte ten. -/
theorem toNat_eq_lineBreak_iff {byte : UInt8} : byte.toNat = 10 ↔ byte = lineBreak := by
  rw [← UInt8.toNat_inj]
  rfl

/-- What a byte comes to at a boundary. -/
theorem takes_stepAtBoundary (byte : UInt8) : Takes byte (stepAtBoundary byte) := by
  have hmalformed : ∀ found ∈ ([] : List (Option Char)), found = none := by simp
  unfold stepAtBoundary
  by_cases hascii : byte < 0x80
  · rw [if_pos hascii]
    exact .complete hmalformed ((ofNat_eq_lineBreak_iff _).trans toNat_eq_lineBreak_iff)
  have hbyte : byte ≠ lineBreak := by
    rintro rfl
    exact hascii (by decide)
  rw [if_neg hascii]
  cases hlead : Sequence.ofLead? byte with
  | some sequence => exact .pending hmalformed hbyte (Sequence.sound_of_ofLead? hlead)
  | none => exact .stray hmalformed hbyte

/-- A malformed stretch in front changes nothing else. -/
theorem Takes.behind_malformed {byte : UInt8} {state : Option Sequence}
    {complete : List (Option Char)} (h : Takes byte (state, complete)) :
    Takes byte (state, none :: complete) := by
  cases h with
  | @complete malformed c hm hc =>
    exact @Takes.complete _ (none :: malformed) c (by simpa using hm) hc
  | @stray malformed hm hb => exact @Takes.stray _ (none :: malformed) (by simpa using hm) hb
  | pending hm hb hs => exact .pending (by simpa using hm) hb hs

/-- **What a byte comes to inside a sequence.**  If it is due it is taken, and the character that it
may complete lies above ASCII; otherwise it is what it is at a boundary, behind a malformed stretch.
-/
theorem Sequence.Sound.takes_step {sequence : Sequence} (h : sequence.Sound) (byte : UInt8) :
    Takes byte (sequence.step byte) := by
  have hmalformed : ∀ found ∈ ([] : List (Option Char)), found = none := by simp
  have hlow : 0x80 ≤ sequence.low.toNat := UInt8.le_iff_toNat_le.1 h.low
  unfold Sequence.step
  by_cases hin : sequence.low ≤ byte ∧ byte ≤ sequence.high
  · rw [if_pos hin]
    have hbyte : sequence.low.toNat ≤ byte.toNat := UInt8.le_iff_toNat_le.1 hin.1
    have hbreak : byte ≠ lineBreak := by
      rw [ne_eq, ← toNat_eq_lineBreak_iff]
      omega
    -- An `E0` or `F0` gives no bits, and the bound of the byte behind it makes up for that.
    have hbits : 0 < 64 * sequence.bits + (byte.toNat - 0x80) := by
      rcases h.bits with hbits | ⟨-, hlow⟩
      · omega
      · have hlow : 0x80 < sequence.low.toNat := UInt8.lt_iff_toNat_lt.1 hlow
        omega
    dsimp only
    split
    · next hfurther =>
      have hbits : 0 < sequence.bits := by
        rcases h.bits with hbits | ⟨hmore, -⟩
        · exact hbits
        · omega
      refine @Takes.complete _ [] _ hmalformed ?_
      rw [ofNat_eq_lineBreak_iff]
      exact iff_of_false (by omega) hbreak
    · exact .pending hmalformed hbreak ⟨UInt8.le_refl _, .inl hbits⟩
  · rw [if_neg hin]
    exact (takes_stepAtBoundary byte).behind_malformed

/-- Whether a decoder can stand so: at a boundary, or in a sequence that can be pending. -/
def SoundState (state : Option Sequence) : Prop :=
  ∀ sequence, state = some sequence → sequence.Sound

/-- At a boundary there is no sequence that could be unsound. -/
theorem soundState_none : SoundState none := fun _ h => by cases h

/-- A sound sequence makes a sound state. -/
theorem soundState_some {sequence : Sequence} (h : sequence.Sound) : SoundState (some sequence) :=
  fun _ heq => Option.some.inj heq ▸ h

/-- **What a byte comes to,** wherever the decoder stands. -/
theorem SoundState.takes_step {state : Option Sequence} (h : SoundState state) (byte : UInt8) :
    Takes byte (step state byte) := by
  cases state with
  | none => exact takes_stepAtBoundary byte
  | some sequence => exact (h sequence rfl).takes_step byte

section Takes

variable {byte : UInt8} {result : Option Sequence × List (Option Char)}

/-- Malformed stretches are no line breaks. -/
theorem lineBreak_not_mem_of_forall {malformed : List (Option Char)}
    (h : ∀ found ∈ malformed, found = none) : some '\n' ∉ malformed := by
  intro hmem
  cases h _ hmem

/-- What a byte leads to is sound. -/
theorem Takes.soundState (h : Takes byte result) : SoundState result.1 := by
  cases h with
  | complete => exact soundState_none
  | stray => exact soundState_none
  | pending _ _ hs => exact soundState_some hs

/-- No byte is lost: it has come to something, or something goes on. -/
theorem Takes.ne_nil (h : Takes byte result) : result.2 ≠ [] ∨ result.1 ≠ none := by
  cases h <;> simp

/-- A byte that is no line break brings no line break. -/
theorem Takes.lineBreak_not_mem (h : Takes byte result) (hb : byte ≠ lineBreak) :
    some '\n' ∉ result.2 := by
  cases h with
  | @complete malformed c hm hc =>
    have hne : '\n' ≠ c := fun heq => hb (hc.1 heq.symm)
    simp [lineBreak_not_mem_of_forall hm, hne]
  | stray hm => simp [lineBreak_not_mem_of_forall hm]
  | pending hm => exact lineBreak_not_mem_of_forall hm

/-- A line break ends what is pending. -/
theorem Takes.of_lineBreak (h : Takes lineBreak result) :
    ∃ found, some '\n' ∉ found ∧ result = (none, found ++ [some '\n']) := by
  cases h with
  | @complete malformed c hm hc =>
    obtain rfl : c = '\n' := hc.2 rfl
    exact ⟨malformed, lineBreak_not_mem_of_forall hm, rfl⟩
  | stray _ hb => exact absurd rfl hb
  | pending _ hb => exact absurd rfl hb

end Takes

/-! ## What some bytes come to -/

/-- Bytes without a line break are no line break. -/
theorem lineBreak_not_mem_scanFrom {bytes : List UInt8} {state : Option Sequence}
    (h : SoundState state) (hbytes : lineBreak ∉ bytes) : some '\n' ∉ scanFrom state bytes := by
  induction bytes generalizing state with
  | nil => cases state <;> simp [scanFrom, finish]
  | cons byte bytes ih =>
    obtain ⟨hbyte, hbytes⟩ := not_or.1 (mt List.mem_cons.2 hbytes)
    have htakes := h.takes_step byte
    rw [scanFrom, List.mem_append, not_or]
    exact ⟨htakes.lineBreak_not_mem (Ne.symm hbyte), ih htakes.soundState hbytes⟩

/-- **A line break leaves the decoder at a boundary.**  What is behind it is decoded as if
nothing had been in front. -/
theorem exists_scanFrom_lineBreak {line : List UInt8} {state : Option Sequence}
    (h : SoundState state) (hline : lineBreak ∉ line) :
    ∃ found, some '\n' ∉ found ∧ ∀ rest,
      scanFrom state (line ++ lineBreak :: rest) = found ++ some '\n' :: scanFrom none rest := by
  induction line generalizing state with
  | nil =>
    obtain ⟨found, hfound, hstep⟩ := (h.takes_step lineBreak).of_lineBreak
    refine ⟨found, hfound, fun rest => ?_⟩
    rw [List.nil_append, scanFrom, hstep, List.append_assoc]
    rfl
  | cons byte line ih =>
    obtain ⟨hbyte, hline⟩ := not_or.1 (mt List.mem_cons.2 hline)
    have htakes := h.takes_step byte
    obtain ⟨found, hfound, hrest⟩ := ih htakes.soundState hline
    refine ⟨(step state byte).2 ++ found, ?_, fun rest => ?_⟩
    · rw [List.mem_append, not_or]
      exact ⟨htakes.lineBreak_not_mem (Ne.symm hbyte), hfound⟩
    · rw [List.cons_append, scanFrom, hrest, List.append_assoc]

/-- What has begun is not lost: it completes a character or is a malformed stretch. -/
theorem scanFrom_ne_nil {bytes : List UInt8} {state : Option Sequence} (h : SoundState state)
    (hne : bytes ≠ [] ∨ state ≠ none) : scanFrom state bytes ≠ [] := by
  induction bytes generalizing state with
  | nil => cases state <;> simp_all [scanFrom, finish]
  | cons byte bytes ih =>
    have htakes := h.takes_step byte
    rw [scanFrom]
    rcases htakes.ne_nil with hfound | hstate
    · exact List.append_ne_nil_of_left_ne_nil hfound _
    · exact List.append_ne_nil_of_right_ne_nil _ (ih htakes.soundState (.inr hstate))

/-! ## Lines -/

/-- Lossy decoding puts a replacement character in the place of each malformed stretch that the scan
finds. -/
theorem decodeLossy_eq (bytes : List UInt8) :
    decodeLossy bytes = (scanFrom none bytes).map (·.getD replacement) := by
  rw [decodeLossy, scan_eq_scanFrom]

/-- A replacement character is no line break. -/
theorem lineBreak_not_mem_map {found : List (Option Char)} (h : some '\n' ∉ found) :
    '\n' ∉ found.map (·.getD replacement) := by
  intro hmem
  obtain ⟨c, hc, heq⟩ := List.mem_map.1 hmem
  cases c with
  | none => cases heq
  | some c =>
    obtain rfl : c = '\n' := heq
    exact h hc

/-- Bytes never vanish: what is malformed leaves a replacement character. -/
theorem decodeLossy_ne_nil {bytes : List UInt8} (h : bytes ≠ []) : decodeLossy bytes ≠ [] := by
  rw [decodeLossy_eq, ne_eq, List.map_eq_nil_iff]
  exact scanFrom_ne_nil soundState_none (.inl h)

/-- **Decoding brings no line break** that was not in the bytes: neither a character that takes
several bytes nor a replacement character is one. -/
theorem lineBreak_not_mem_decodeLossy {bytes : List UInt8} (h : lineBreak ∉ bytes) :
    '\n' ∉ decodeLossy bytes := by
  rw [decodeLossy_eq]
  exact lineBreak_not_mem_map (lineBreak_not_mem_scanFrom soundState_none h)

/-- **A line break is decoded where it is.** -/
theorem exists_decodeLossy_lineBreak {line : List UInt8} (h : lineBreak ∉ line) :
    ∃ text, '\n' ∉ text ∧ ∀ rest,
      decodeLossy (line ++ lineBreak :: rest) = text ++ '\n' :: decodeLossy rest := by
  obtain ⟨found, hfound, hrest⟩ := exists_scanFrom_lineBreak soundState_none h
  refine ⟨found.map (·.getD replacement), lineBreak_not_mem_map hfound, fun rest => ?_⟩
  rw [decodeLossy_eq, decodeLossy_eq, hrest, List.map_append]
  rfl

end Utf8

/-- **Bytes are cut into lines before they are decoded or after.**  The lines are the same
texts.  The induction is on the lines of the bytes, and each line break in them is one of the text
and the other way round. -/
theorem map_decodeLossy_rawLines (bytes : List UInt8) :
    (rawLines bytes).map Utf8.decodeLossy = textLines (Utf8.decodeLossy bytes) := by
  have htext : ∀ {text : List Char}, '\n' ∉ text → ∀ c ∈ text, (c == '\n') = false := by
    intro text h c hc
    rw [beq_eq_false_iff_ne]
    rintro rfl
    exact h hc
  induction bytes using rawLines_induction with
  | nil => rfl
  | last hne hline =>
    rw [rawLines_of_not_mem hne hline]
    exact (pieces_of_forall (Utf8.decodeLossy_ne_nil hne)
      (htext (Utf8.lineBreak_not_mem_decodeLossy hline))).symm
  | lineBreak hline ih =>
    obtain ⟨text, hbreak, hrest⟩ := Utf8.exists_decodeLossy_lineBreak hline
    rw [rawLines_append_lineBreak _ hline, List.map_cons, ih, hrest, hrest]
    exact (pieces_append_cons _ (htext hbreak) rfl).symm

end Reckoner
