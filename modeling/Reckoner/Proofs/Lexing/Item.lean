/-
# One item

`IsItemAt` lists the items that there are, each by its place, its text and the text
behind it, and says of numbers how far they go and what their value is.  What is scanned
from a text is a gap of spaces and carriage returns and then such an item (`scan_spec`).

A gap is skipped as a whole (`scan_gap`).  Behind it the first character decides: a line break
and a symbol are items of their own, a digit begins a number, which is read as far as it goes
(`exists_isNumeral_numeral`), and any other character is foreign (`scans_of_not_isBlank`).
-/

import Mathlib.Data.List.TakeWhile
import Reckoner.Token.Scan

namespace Reckoner

open Decimal (int64Bound)

/-- Whether a text is of spaces and carriage returns only. -/
def IsGap (text : List Char) : Prop := ∀ c ∈ text, c = ' ' ∨ c = '\r'

/-- Characters that no token contains. -/
def IsForeign (c : Char) : Prop :=
  c ≠ ' ' ∧ c ≠ '\r' ∧ c ≠ '\n' ∧ ¬ c.isDigit ∧ c ∉ ['+', '-', '*', '/', '(', ')']

/-- Whether a text in front of another is a number as far as it goes: digits and
carriage returns, with a digit at either end, and no digit to come behind the
carriage returns that follow. -/
structure IsNumeral (literal after : List Char) : Prop where
  /-- It begins with a digit. -/
  head : ∃ c, literal.head? = some c ∧ c.isDigit
  /-- It ends with a digit. -/
  getLast : ∃ c, literal.getLast? = some c ∧ c.isDigit
  /-- Among its digits there can be carriage returns. -/
  mem : ∀ c ∈ literal, c.isDigit ∨ c = '\r'
  /-- It goes as far as it can. -/
  maximal : ∀ c, (after.dropWhile (· == '\r')).head? = some c → ¬ c.isDigit

/-- The value of the digits of a number. -/
def digitsValue (literal : List Char) : Nat := Decimal.value (literal.filter Char.isDigit)

/-- The items that there are, by their place, their text and the text behind it. -/
inductive IsItemAt (offset : Nat) : (literal after : List Char) → Item → Prop
  /-- The end of the text is an end of line without text. -/
  | endOfText : IsItemAt offset [] [] (.ok ⟨.endOfLine, [], offset⟩)
  /-- A line break is an end of line, whatever is behind it. -/
  | lineBreak (after : List Char) :
      IsItemAt offset ['\n'] after (.ok ⟨.endOfLine, ['\n'], offset⟩)
  /-- A symbol is one character. -/
  | symbol (s : Symbol) (after : List Char) :
      IsItemAt offset [s.toChar] after (.ok ⟨.symbol s, [s.toChar], offset⟩)
  /-- A number is a token if its value is in range. -/
  | number {literal after : List Char} {value : Int64} (h : IsNumeral literal after)
      (hvalue : value.toInt = digitsValue literal) :
      IsItemAt offset literal after (.ok ⟨.number value, literal, offset⟩)
  /-- Else all of it is out of range. -/
  | outOfRange {literal after : List Char} (h : IsNumeral literal after)
      (hvalue : int64Bound ≤ digitsValue literal) :
      IsItemAt offset literal after (.error (.numberOutOfRange ⟨offset, byteLength literal⟩))
  /-- A character that no token contains is an error. -/
  | foreign {c : Char} (h : IsForeign c) (after : List Char) :
      IsItemAt offset [c] after (.error (.invalidCharacter c offset))

/-- The characters between tokens are the space and the carriage return. -/
theorem isBlank_iff {c : Char} : isBlank c ↔ c = ' ' ∨ c = '\r' := by
  simp [isBlank]

/-- A character that is no symbol is none of the six. -/
theorem ofChar?_eq_none_iff {c : Char} :
    Symbol.ofChar? c = none ↔ c ∉ ['+', '-', '*', '/', '(', ')'] := by
  constructor
  · intro h hc
    have hs : ∀ s : Symbol, c ≠ s.toChar := by
      rintro s rfl
      rw [Symbol.ofChar?_toChar] at h
      cases h
    simp only [List.mem_cons, List.not_mem_nil, or_false] at hc
    rcases hc with hc | hc | hc | hc | hc | hc
    · exact hs .plus hc
    · exact hs .minus hc
    · exact hs .asterisk hc
    · exact hs .slash hc
    · exact hs .leftParenthesis hc
    · exact hs .rightParenthesis hc
  · intro h
    cases ho : Symbol.ofChar? c with
    | none => rfl
    | some s =>
      rw [Symbol.ofChar?_eq_some_iff] at ho
      subst ho
      cases s <;> simp [Symbol.toChar] at h

/-- What is dropped is dropped as far as it goes. -/
theorem not_of_head?_dropWhile {p : Char → Bool} {text : List Char} {c : Char}
    (h : (text.dropWhile p).head? = some c) : ¬ p c := by
  have := List.head?_dropWhile_not p text
  rw [h] at this
  simpa using this

/-- **A number is read as far as it goes.**  The digits and carriage returns in front are taken, and
of these the carriage returns at the end are given back: they are a gap, and behind them there is
neither a digit nor another carriage return. -/
theorem exists_isNumeral_numeral {c : Char} (text : List Char) (h : c.isDigit) :
    ∃ after, c :: text = numeral (c :: text) ++ after ∧ IsNumeral (numeral (c :: text)) after := by
  obtain ⟨returns, hreturns, htake⟩ := takeWhile_isNumeral (c :: text)
  have hwhole : c :: text = numeral (c :: text) ++
      (returns ++ (c :: text).dropWhile isNumeral) := by
    rw [← List.append_assoc, ← htake, List.takeWhile_append_dropWhile]
  have hmem : ∀ d ∈ numeral (c :: text), d.isDigit ∨ d = '\r' := by
    intro d hd
    have htaken : d ∈ (c :: text).takeWhile isNumeral := by
      rw [htake]
      exact List.mem_append_left _ hd
    simpa [isNumeral] using List.all_eq_true.1 List.all_takeWhile d htaken
  have hne := numeral_ne_nil text h
  refine ⟨_, hwhole, ?_, ?_, hmem, ?_⟩
  · obtain ⟨d, literal, heq⟩ := List.exists_cons_of_ne_nil hne
    rw [heq] at hwhole ⊢
    obtain ⟨rfl, -⟩ : c = d ∧ _ := by simpa using hwhole
    exact ⟨c, rfl, h⟩
  · obtain ⟨d, hd⟩ : ∃ d, (numeral (c :: text)).getLast? = some d :=
      ⟨_, List.getLast?_eq_some_getLast hne⟩
    have hnot : ¬ d = '\r' := by
      rw [numeral, List.getLast?_reverse] at hd
      simpa using not_of_head?_dropWhile hd
    exact ⟨d, hd, (hmem d (List.mem_of_getLast? hd)).resolve_right hnot⟩
  · -- Behind the carriage returns that were given back the run of digits had stopped.
    intro d hd hdigit
    have hreturns' : ∀ c ∈ returns, (c == '\r') = true := fun c hc => by simp [hreturns c hc]
    rw [List.dropWhile_append_of_pos hreturns'] at hd
    cases hrest : (c :: text).dropWhile isNumeral with
    | nil =>
      rw [hrest] at hd
      cases hd
    | cons e rest =>
      have hstop : ¬ isNumeral e := not_of_head?_dropWhile (by rw [hrest]; rfl)
      have he : ¬ e = '\r' := fun heq => hstop (by simp [isNumeral, heq])
      rw [hrest] at hd
      obtain rfl : e = d := by simpa [he] using hd
      exact hstop (by simp [isNumeral, hdigit])

/-- The value of a number is that of its digits if it is in range. -/
theorem numeralValue?_eq (literal : List Char) :
    numeralValue? literal =
      if digitsValue literal < int64Bound then some (Int64.ofNat (digitsValue literal))
      else none := by
  rw [numeralValue?, Decimal.valueUpTo_eq]
  by_cases h : digitsValue literal < int64Bound
  · have hmin : min (digitsValue literal) int64Bound = digitsValue literal :=
      Nat.min_eq_left (Nat.le_of_lt h)
    rw [← digitsValue, hmin]
  · have hmin : min (digitsValue literal) int64Bound = int64Bound :=
      Nat.min_eq_right (Nat.le_of_not_lt h)
    rw [← digitsValue, hmin, if_neg h, if_neg (Nat.lt_irrefl _)]

/-- What a scan comes to if it finds an item: its token and the text behind it, or its
error. -/
inductive Scans (offset : Nat) (literal after : List Char) :
    Except LexicalError (Token × List Char) → Prop
  | ok {token : Token} (h : IsItemAt offset literal after (.ok token)) :
      Scans offset literal after (.ok (token, after))
  | error {error : LexicalError} (h : IsItemAt offset literal after (.error error)) :
      Scans offset literal after (.error error)

/-- Gaps are skipped, and what is behind a gap is found at its place in the whole. -/
theorem scan_gap {gap : List Char} (h : IsGap gap) (offset : Nat) (text : List Char) :
    scan offset (gap ++ text) = scan (offset + byteLength gap) text := by
  induction gap generalizing offset with
  | nil => rfl
  | cons c gap ih =>
    have hblank : isBlank c := isBlank_iff.2 (h c (List.mem_cons_self ..))
    have hgap : IsGap gap := fun d hd => h d (List.mem_cons_of_mem c hd)
    rw [List.cons_append, scan, if_pos hblank, ih hgap, byteLength_cons, Nat.add_assoc]

/-- **A character that is not skipped begins an item.**  The cases are those of the scan, in its
order. -/
theorem scans_of_not_isBlank (offset : Nat) {c : Char} (text : List Char) (hc : ¬ isBlank c) :
    ∃ literal after, c :: text = literal ++ after ∧
      Scans offset literal after (scan offset (c :: text)) := by
  rw [scan, if_neg hc]
  by_cases hbreak : c = '\n'
  · subst hbreak
    exact ⟨['\n'], text, rfl, .ok (.lineBreak text)⟩
  rw [if_neg hbreak]
  by_cases hdigit : c.isDigit
  · obtain ⟨after, hwhole, hnumeral⟩ := exists_isNumeral_numeral text hdigit
    have hdrop : (c :: text).drop (numeral (c :: text)).length = after := by
      obtain ⟨literal, hliteral⟩ : ∃ literal, literal = numeral (c :: text) := ⟨_, rfl⟩
      rw [← hliteral] at hwhole ⊢
      rw [hwhole, List.drop_left]
    refine ⟨_, after, hwhole, ?_⟩
    rw [if_pos hdigit]
    simp only [numeralValue?_eq, hdrop]
    by_cases hlt : digitsValue (numeral (c :: text)) < int64Bound
    · simp only [if_pos hlt]
      exact .ok (.number hnumeral (Int64.toInt_ofNat_of_lt hlt))
    · simp only [if_neg hlt]
      exact .error (.outOfRange hnumeral (Nat.le_of_not_lt hlt))
  rw [if_neg hdigit]
  cases hsymbol : Symbol.ofChar? c with
  | some s =>
    obtain rfl := Symbol.ofChar?_eq_some_iff.1 hsymbol
    exact ⟨[s.toChar], text, rfl, .ok (.symbol s text)⟩
  | none =>
    have hblank : ¬ (c = ' ' ∨ c = '\r') := fun h => hc (isBlank_iff.2 h)
    have hforeign : IsForeign c :=
      ⟨fun h => hblank (.inl h), fun h => hblank (.inr h), hbreak, hdigit,
        ofChar?_eq_none_iff.1 hsymbol⟩
    exact ⟨[c], text, rfl, .error (.foreign hforeign text)⟩

/-- **Each text is a gap, an item and what comes behind it.**  The gap is as long as can be, and the
end of the text counts as an item. -/
theorem scan_spec (offset : Nat) (text : List Char) :
    ∃ gap literal after, text = gap ++ literal ++ after ∧ IsGap gap ∧
      Scans (offset + byteLength gap) literal after (scan offset text) := by
  have hgap : IsGap (text.takeWhile isBlank) := fun c hc =>
    isBlank_iff.1 (List.all_eq_true.1 List.all_takeWhile c hc)
  have hwhole : text = text.takeWhile isBlank ++ text.dropWhile isBlank :=
    List.takeWhile_append_dropWhile.symm
  have hscan := scan_gap hgap offset (text.dropWhile isBlank)
  rw [← hwhole] at hscan
  rw [hscan]
  cases hrest : text.dropWhile isBlank with
  | nil =>
    refine ⟨text.takeWhile isBlank, [], [], ?_, hgap, .ok .endOfText⟩
    rw [List.append_nil, ← hrest]
    exact hwhole
  | cons c rest =>
    have hc : ¬ isBlank c := not_of_head?_dropWhile (by rw [hrest]; rfl)
    obtain ⟨literal, after, heq, hscans⟩ :=
      scans_of_not_isBlank (offset + byteLength (text.takeWhile isBlank)) rest hc
    refine ⟨text.takeWhile isBlank, literal, after, ?_, hgap, hscans⟩
    rw [List.append_assoc, ← heq, ← hrest]
    exact hwhole

section Token

variable {offset : Nat} {literal after : List Char} {token : Token}

/-- A token knows its place and its text. -/
theorem IsItemAt.eq_of_ok (h : IsItemAt offset literal after (.ok token)) :
    token.offset = offset ∧ token.literal = literal := by
  cases h <;> exact ⟨rfl, rfl⟩

/-- Only an end of line can be empty. -/
theorem IsItemAt.ne_nil (h : IsItemAt offset literal after (.ok token))
    (hkind : token.kind ≠ .endOfLine) : literal ≠ [] := by
  rintro rfl
  cases h with
  | endOfText => exact hkind rfl
  | number h =>
    obtain ⟨c, hc, -⟩ := h.head
    cases hc

/-- A symbol is written with its character. -/
theorem IsItemAt.of_symbol (h : IsItemAt offset literal after (.ok token)) {s : Symbol}
    (hkind : token.kind = .symbol s) : literal = [s.toChar] := by
  cases h <;> cases hkind
  rfl

/-- A number has the value of its digits, and takes all digits that there are. -/
theorem IsItemAt.of_number (h : IsItemAt offset literal after (.ok token)) {value : Int64}
    (hkind : token.kind = .number value) :
    value.toInt = digitsValue literal ∧ IsNumeral literal after := by
  cases h with
  | endOfText => cases hkind
  | lineBreak => cases hkind
  | symbol => cases hkind
  | number h hvalue =>
    cases hkind
    exact ⟨hvalue, h⟩

end Token

end Reckoner
