/-
# Malformed lines

Bytes that are no text cannot pass for one.  A line of such bytes holds a replacement
character in front of its line break, and as no token contains that character the line has an
error there or in front of it; it has no value, and it does not end a session
(`IsReported`).

So what ends a session is blank in its bytes and not only in what they are decoded as
(`isBlankBytes_of_isBlank`).  This holds of any session, whatever fails before or after: a
turn that reads a line reads the next one (`of_turn_eq_ok`), and a run that comes to its end
has read a blank line last, or the end of the source (`exists_endsBlank`).
-/

import Reckoner.Proofs.Decoding.Inverse
import Reckoner.Proofs.Parsing.Error
import Reckoner.Proofs.Session.Turn

namespace Reckoner

open Utf8

/-! ## Lines of bytes and their texts -/

/-- No token contains the replacement character. -/
theorem isForeign_replacement : IsForeign replacement :=
  ⟨by decide, by decide, by decide, by decide, by decide⟩

/-- A line break that is the last byte at most is the last character at most. -/
theorem lineBreak_not_mem_dropLast {bytes : List UInt8} (h : lineBreak ∉ bytes.dropLast) :
    '\n' ∉ (decodeLossy bytes).dropLast := by
  rcases List.eq_nil_or_concat bytes with rfl | ⟨line, byte, rfl⟩
  · exact List.not_mem_nil
  rw [List.concat_eq_append, List.dropLast_concat] at h
  rw [List.concat_eq_append]
  by_cases hbyte : byte = lineBreak
  · subst hbyte
    obtain ⟨text, htext, hrest⟩ := exists_decodeLossy_lineBreak h
    have hwhole : decodeLossy (line ++ [lineBreak]) = text ++ ['\n'] := hrest []
    rwa [hwhole, List.dropLast_concat]
  · have hline : lineBreak ∉ line ++ [byte] := by simp [h, Ne.symm hbyte]
    exact fun hmem => lineBreak_not_mem_decodeLossy hline (List.dropLast_subset _ hmem)

/-- **A malformed line holds a replacement character** in front of its line break. -/
theorem exists_first_replacement {bytes : List UInt8} (hbreak : lineBreak ∉ bytes.dropLast)
    (h : ∀ text, bytes ≠ encode text) :
    ∃ before after, decodeLossy bytes = before ++ replacement :: after ∧
      replacement ∉ before ∧ '\n' ∉ before := by
  obtain ⟨before, after, htext, hfirst⟩ :=
    List.eq_append_cons_of_mem (replacement_mem_decodeLossy h)
  refine ⟨before, after, htext, hfirst, fun hmem => lineBreak_not_mem_dropLast hbreak ?_⟩
  rw [htext, List.dropLast_append_of_ne_nil (List.cons_ne_nil _ _)]
  exact List.mem_append_left _ hmem

/-- Whether some bytes are those of spaces and carriage returns only, up to a line break or, if
there is none, to their end. -/
def IsBlankBytes (bytes : List UInt8) : Prop :=
  ∀ byte ∈ bytes.takeWhile (· != lineBreak), byte = 0x20 ∨ byte = 0x0D

/-- The bytes of a gap. -/
theorem IsGap.forall_mem_encode {gap : List Char} (h : IsGap gap) :
    ∀ byte ∈ encode gap, byte = 0x20 ∨ byte = 0x0D := by
  intro byte hbyte
  obtain ⟨c, hc, hbyte⟩ := List.mem_flatMap.1 hbyte
  rcases h c hc with rfl | rfl
  · exact .inl (List.mem_singleton.1 hbyte)
  · exact .inr (List.mem_singleton.1 hbyte)

/-- A gap holds no replacement character. -/
theorem IsGap.replacement_not_mem {gap : List Char} (h : IsGap gap) : replacement ∉ gap :=
  fun hmem => (h.isPlain _ hmem).2 isForeign_replacement

section TakeWhile

variable {α : Type} [DecidableEq α] {a : α} {l : List α}

/-- What is taken up to an element that is not there is all there is. -/
theorem takeWhile_ne_of_not_mem (h : a ∉ l) : l.takeWhile (· != a) = l := by
  refine List.takeWhile_eq_self_iff.2 fun b hb => ?_
  rw [bne_iff_ne]
  rintro rfl
  exact h hb

/-- What is taken up to an element ends at the first one. -/
theorem takeWhile_ne_append_cons (h : a ∉ l) (rest : List α) :
    (l ++ a :: rest).takeWhile (· != a) = l := by
  have hall : ∀ b ∈ l, (b != a) = true := List.takeWhile_eq_self_iff.1 (takeWhile_ne_of_not_mem h)
  rw [List.takeWhile_append_of_pos hall, List.takeWhile_cons_of_neg (by simp), List.append_nil]

end TakeWhile

/-- **A line that is blank once it is decoded** is one of spaces and carriage returns. -/
theorem isBlankBytes_of_isBlank {bytes : List UInt8} (h : Repl.IsBlank bytes) :
    IsBlankBytes bytes := by
  have hblank : IsGap ((decodeLossy bytes).takeWhile (· != '\n')) := h
  by_cases hbreak : lineBreak ∈ bytes
  · obtain ⟨line, rest, rfl, hline⟩ := List.eq_append_cons_of_mem hbreak
    obtain ⟨text, htext, hrest⟩ := exists_decodeLossy_lineBreak hline
    rw [hrest, takeWhile_ne_append_cons htext] at hblank
    have hdecoded : decodeLossy (line ++ [lineBreak]) = text ++ ['\n'] := hrest []
    have hnone : replacement ∉ text ++ ['\n'] := by
      rw [List.mem_append, not_or]
      exact ⟨hblank.replacement_not_mem, by decide⟩
    have hwhole : line ++ [lineBreak] = encode text ++ [lineBreak] := by
      have hencode := eq_encode_decodeLossy (hdecoded ▸ hnone)
      rwa [hdecoded, encode_append] at hencode
    rw [IsBlankBytes, takeWhile_ne_append_cons hline, List.append_cancel_right hwhole]
    exact hblank.forall_mem_encode
  · rw [takeWhile_ne_of_not_mem (lineBreak_not_mem_decodeLossy hbreak)] at hblank
    rw [IsBlankBytes, takeWhile_ne_of_not_mem hbreak,
      eq_encode_decodeLossy hblank.replacement_not_mem]
    exact hblank.forall_mem_encode

/-! ## What ends a session -/

namespace Repl

/-- **A turn that does not fail** has read the next line, and the session goes on unless this is
blank.  Nothing is said of other turns: they may fail. -/
theorem of_turn_eq_ok {repl after : Repl} {goesOn : Bool} (h : turn repl = .ok goesOn after) :
    goesOn = !decide (IsBlank (rawLine repl.reader.contents 0)) ∧
      after.linesRead = repl.linesRead + 1 ∧
      rawLines after.reader.contents = (rawLines repl.reader.contents).drop 1 := by
  have hexits := turn_exits repl
  rw [h] at hexits
  generalize hresult : EStateM.Result.ok goesOn after = result at hexits
  cases hexits with
  | unprompted => cases hresult
  | unread => cases hresult
  | @answered bytes writer reader hprompted hread =>
    obtain ⟨rfl, hothers, -⟩ := ByteReader.readsLine_of_readLine hread
    by_cases hblank :
        IsBlankLine (Line.mk repl.filename (decodeLossy (rawLine repl.reader.contents 0))).text
    · have hdecide : decide (IsBlank (rawLine repl.reader.contents 0)) = true :=
        decide_eq_true hblank
      rw [respond_of_isBlank hblank] at hresult
      cases hresult
      rw [hdecide]
      exact ⟨rfl, rfl, hothers⟩
    · have hdecide : decide (IsBlank (rawLine repl.reader.contents 0)) = false :=
        decide_eq_false hblank
      rw [respond_of_not_isBlank hblank] at hresult
      rw [hdecide]
      split at hresult
      · cases hresult
        exact ⟨rfl, rfl, hothers⟩
      · cases hresult

/-- Whether a run from one session to the other has come to its end behind the line with this
number: a blank line or, behind the last one, the end of the source. -/
structure EndsBlank (repl after : Repl) (last : Nat) : Prop where
  /-- The lines through that one have been counted. -/
  linesRead : after.linesRead = repl.linesRead + (last + 1)
  /-- The lines behind it are left. -/
  others : rawLines after.reader.contents = (rawLines repl.reader.contents).drop (last + 1)
  /-- It is behind all lines, or it is blank in its bytes. -/
  last : last = (rawLines repl.reader.contents).length ∨
    ∃ line, (rawLines repl.reader.contents)[last]? = some line ∧ IsBlankBytes line

/-- **A run that comes to its end** has read a blank line last, or the end of the source.  The
induction is on the turns of the run. -/
theorem exists_endsBlank (repl : Repl) :
    ∀ after, run repl = .ok () after → ∃ last, EndsBlank repl after last := by
  refine run_induction (motive := fun repl result => ∀ after, result = .ok () after →
    ∃ last, EndsBlank repl after last) ?_ ?_ ?_ repl
  · rintro repl _ hturn after ⟨⟩
    obtain ⟨hblank, hcount, hothers⟩ := of_turn_eq_ok hturn
    have hblank : IsBlank (rawLine repl.reader.contents 0) := by simpa using hblank.symm
    refine ⟨0, hcount, hothers, ?_⟩
    cases hlines : rawLines repl.reader.contents with
    | nil => exact .inl rfl
    | cons line others =>
      rw [rawLine, hlines] at hblank
      exact .inr ⟨line, rfl, isBlankBytes_of_isBlank hblank⟩
  · rintro repl failure _ hturn after ⟨⟩
  · intro repl middle hturn ih after hrun
    obtain ⟨hgoes, hcount, hothers⟩ := of_turn_eq_ok hturn
    obtain ⟨last, hlinesRead, hbehind, hlast⟩ := ih after hrun
    -- The end of the source would have been blank.
    have hsome : rawLines repl.reader.contents ≠ [] := by
      intro hnil
      have hblank : IsBlank (rawLine repl.reader.contents 0) := by
        rw [rawLine, hnil]
        exact fun c hc => by cases hc
      rw [decide_eq_true hblank] at hgoes
      cases hgoes
    have hpos : 0 < (rawLines repl.reader.contents).length := List.length_pos_iff.2 hsome
    refine ⟨last + 1, by omega, by rw [hbehind, hothers, List.drop_drop, Nat.add_comm 1], ?_⟩
    rw [hothers, List.length_drop, List.getElem?_drop, Nat.add_comm 1] at hlast
    exact hlast.imp_left fun hlast => by omega

/-! ## Malformed lines -/

/-- How a malformed line of a file is reported. -/
structure IsReported (filename : Option String) (bytes : List UInt8) : Prop where
  /-- There is an error instead of an expression, so that there is neither a value nor a division
  by zero.  It is at the first replacement character or in front of it, and there it is about
  this character. -/
  error : ∃ error before after, decodeLossy bytes = before ++ replacement :: after ∧
    replacement ∉ before ∧
    (Line.mk filename (decodeLossy bytes)).expr? = .error error ∧
    (Line.mk filename (decodeLossy bytes)).value? = .error (.parse error) ∧
    error.span.offset ≤ byteLength before ∧
    (error.span.offset = byteLength before →
      error = .lexical (.invalidCharacter replacement (byteLength before)))
  /-- The line does not end a session. -/
  goesOn : ∀ repl after, respond ⟨filename, decodeLossy bytes⟩ repl ≠ .ok false after

/-- **Malformed bytes are reported,** wherever in a line they are, and a run that comes to its end
has read a line of spaces and carriage returns last, or the end of the source. -/
theorem malformed_isReported :
    (∀ (filename : Option String) (bytes : List UInt8), lineBreak ∉ bytes.dropLast →
      (∀ text, bytes ≠ encode text) → IsReported filename bytes) ∧
    ∀ repl after, run repl = .ok () after → ∃ last, EndsBlank repl after last := by
  refine ⟨fun filename bytes hbreak hmalformed => ?_, exists_endsBlank⟩
  obtain ⟨before, rest, htext, hfirst, hline⟩ := exists_first_replacement hbreak hmalformed
  obtain ⟨error, hexpr, hplace, hsame⟩ :=
    @expr?_of_isForeign ⟨filename, decodeLossy bytes⟩ _ _ _ htext isForeign_replacement hline
  refine ⟨⟨error, before, rest, htext, hfirst, hexpr, Line.value?_eq_parse_iff.2 hexpr, hplace,
    hsame⟩, fun repl after hrespond => ?_⟩
  rw [respond_of_not_isBlank (expr?_eq_error_iff.1 hexpr).1] at hrespond
  split at hrespond
  · cases hrespond
  · cases hrespond

/-- In `1+` and a byte that can start nothing it is this byte that is reported. -/
theorem malformed_isReported_stray :
    lineBreak ∉ [(0x31 : UInt8), 0x2B, 0xFF, 0x0A].dropLast ∧
    (∀ text, [(0x31 : UInt8), 0x2B, 0xFF, 0x0A] ≠ encode text) ∧
    IsReported none [0x31, 0x2B, 0xFF, 0x0A] := by
  have hbreak : lineBreak ∉ [(0x31 : UInt8), 0x2B, 0xFF, 0x0A].dropLast := by decide
  have hmalformed : ∀ text, [(0x31 : UInt8), 0x2B, 0xFF, 0x0A] ≠ encode text := by
    intro text htext
    have hnone : decode? [0x31, 0x2B, 0xFF, 0x0A] = none := rfl
    rw [htext, decode?_encode] at hnone
    cases hnone
  exact ⟨hbreak, hmalformed, malformed_isReported.1 none _ hbreak hmalformed⟩

end Repl

end Reckoner
