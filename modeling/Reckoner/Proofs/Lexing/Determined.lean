/-
# What is read is determined

A text that can be taken apart into gaps, tokens and a last item is read as these tokens
and this item, and as nothing else (`ReadsOn.itemsFrom_eq`).  So what some text is read
as is found by writing down the parts that it is made of, without going through the scan.
For one item this is the converse of `scan_spec` (`Scans.scan_eq`); how far a number goes
is settled because a text begins with at most one number.
-/

import Reckoner.Proofs.Lexing.Reading

namespace Reckoner

open Decimal (int64Bound)

/-- A digit is not skipped. -/
theorem not_isBlank_of_isDigit {c : Char} (h : c.isDigit) : ¬ isBlank c := by
  obtain ⟨hspace, hreturn, -⟩ := ne_of_isDigit h
  rw [isBlank_iff]
  exact fun hblank => hblank.elim hspace hreturn

/-- A symbol is neither skipped nor the end of a line nor a digit. -/
theorem toChar_spec (s : Symbol) :
    ¬ isBlank s.toChar ∧ s.toChar ≠ '\n' ∧ ¬ s.toChar.isDigit := by
  cases s <;> decide

/-- A number in front is read as far as it goes: what is read is a number too, and a text begins
with at most one. -/
theorem IsNumeral.numeral_eq {literal after : List Char} (h : IsNumeral literal after) :
    ∃ c rest, c.isDigit ∧ literal ++ after = c :: rest ∧ numeral (c :: rest) = literal := by
  obtain ⟨c, hc, hdigit⟩ := h.head
  obtain ⟨more, rfl⟩ : ∃ more, literal = c :: more := by
    cases literal with
    | nil => cases hc
    | cons d more => exact ⟨more, by rw [Option.some.inj hc]⟩
  obtain ⟨beyond, hwhole, hnumeral⟩ := exists_isNumeral_numeral (more ++ after) hdigit
  exact ⟨c, more ++ after, hdigit, rfl, hnumeral.unique h hwhole.symm⟩

/-- The value of a number in range is found. -/
theorem numeralValue?_eq_some {literal : List Char} {value : Int64}
    (h : value.toInt = digitsValue literal) : numeralValue? literal = some value := by
  have hlt : digitsValue literal < int64Bound := by
    have hmax : value.toInt < int64Bound := value.toInt_lt
    omega
  rw [numeralValue?_eq, if_pos hlt, Option.some.injEq, ← Int64.toInt_inj, h]
  exact Int64.toInt_ofNat_of_lt hlt

/-- **An item in front of a text is what is scanned.**  One case for each item: its first character
is none of those that the scan asks for before. -/
theorem Scans.scan_eq {offset : Nat} {literal after : List Char}
    {result : Except LexicalError (Token × List Char)} (h : Scans offset literal after result) :
    scan offset (literal ++ after) = result := by
  cases h with
  | ok h =>
    cases h with
    | endOfText => rfl
    | lineBreak => rfl
    | symbol s =>
      obtain ⟨hblank, hbreak, hdigit⟩ := toChar_spec s
      show scan offset (s.toChar :: after) = _
      rw [scan, if_neg hblank, if_neg hbreak, if_neg hdigit, Symbol.ofChar?_toChar]
    | number h hvalue =>
      obtain ⟨c, rest, hdigit, hwhole, hnumeral⟩ := h.numeral_eq
      have hbreak : c ≠ '\n' := (ne_of_isDigit hdigit).2.2
      have hdrop : (c :: rest).drop literal.length = after := by rw [← hwhole, List.drop_left]
      rw [hwhole, scan, if_neg (not_isBlank_of_isDigit hdigit), if_neg hbreak, if_pos hdigit,
        hnumeral]
      simp only [numeralValue?_eq_some hvalue, hdrop]
  | error h =>
    cases h with
    | outOfRange h hvalue =>
      obtain ⟨c, rest, hdigit, hwhole, hnumeral⟩ := h.numeral_eq
      have hbreak : c ≠ '\n' := (ne_of_isDigit hdigit).2.2
      rw [hwhole, scan, if_neg (not_isBlank_of_isDigit hdigit), if_neg hbreak, if_pos hdigit,
        hnumeral]
      simp only [numeralValue?_eq, if_neg (Nat.not_lt.2 hvalue)]
    | @foreign c h =>
      obtain ⟨hspace, hreturn, hbreak, hdigit, hsymbol⟩ := h
      have hblank : ¬ isBlank c := fun hblank => (isBlank_iff.1 hblank).elim hspace hreturn
      show scan offset (c :: after) = _
      rw [scan, if_neg hblank, if_neg hbreak, if_neg hdigit, ofChar?_eq_none_iff.2 hsymbol]

/-- **What is read is determined by the parts of the text.**  The induction is on the parts; behind
each token the scan begins at the place where the token stops. -/
theorem ReadsOn.itemsFrom_eq {text front rest : List Char} {tokens : List Token} {last : Item}
    (h : ReadsOn text front tokens last) (htext : text = front ++ rest) :
    itemsFrom (byteLength front) rest = tokens.map .ok ++ [last] := by
  induction h generalizing rest with
  | @last front gap literal after item hparts hgap hitem hlast =>
    obtain rfl : rest = gap ++ (literal ++ after) := by
      rw [hparts] at htext
      simpa using htext.symm
    rw [Reckoner.itemsFrom_eq, scan_gap hgap, ← byteLength_append]
    cases item with
    | error error => rw [(Scans.error hitem).scan_eq]; rfl
    | ok token =>
      have hend : token.kind = .endOfLine := hlast
      rw [(Scans.ok hitem).scan_eq]
      exact if_pos hend
  | @token front gap literal after token tokens last hparts hgap hitem hkind _ ih =>
    obtain rfl : rest = gap ++ (literal ++ after) := by
      rw [hparts] at htext
      simpa using htext.symm
    obtain ⟨hoffset, hliteral⟩ := hitem.eq_of_ok
    have hstop : token.span.stop = byteLength (front ++ gap ++ literal) := by
      rw [byteLength_append, ← hoffset, ← hliteral]
      rfl
    rw [Reckoner.itemsFrom_eq, scan_gap hgap, ← byteLength_append, (Scans.ok hitem).scan_eq]
    show (if token.kind = .endOfLine then _ else _) = _
    rw [if_neg hkind, hstop, ih hparts]
    rfl

/-- The items of a text that is read from its start. -/
theorem ReadsOn.items_eq {text : List Char} {tokens : List Token} {last : Item}
    (h : ReadsOn text [] tokens last) : items text = tokens.map .ok ++ [last] :=
  h.itemsFrom_eq rfl

end Reckoner
