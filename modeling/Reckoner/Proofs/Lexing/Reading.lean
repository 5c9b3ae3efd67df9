/-
# What is read from a text

`IsReading text tokens last` says of a text, and not of any way to go through it,
what its tokens are and what ends them: where each literal stands, that nothing but
spaces and carriage returns is left out, how far a number goes and what its value
is, and which of an end of line, a foreign character and a number out of range
comes last, and where.  Taking tokens from a cursor until there are none left gives
a reading of its line and nothing else (`exists_isReading`).

Each part of this is a fact on one item, found at its place (`ReadsOn.found`).  What the last
item is can be told from what is left in front of it alone (`IsLeft`): which foreign character
(`IsItemAt.invalidCharacter_iff`), or which number, since a text begins with at most one
(`IsItemAt.numberOutOfRange_iff`, `IsNumeral.unique`).
-/

import Reckoner.Proofs.Lexing.Items

namespace Reckoner

open Decimal (int64Bound)

/-- Where an item is. -/
def Item.span : Item → Span
  | .ok token => token.span
  | .error error => error.span

/-- Whether a piece of a text stands at a place, counted in bytes. -/
def StandsAt (text : List Char) (offset : Nat) (piece : List Char) : Prop :=
  ∃ before after, text = before ++ piece ++ after ∧ byteLength before = offset

/-- Whether a text is left when its tokens and the gap behind them are taken away: it
starts at `offset` and with nothing that could still be skipped. -/
structure IsLeft (text : List Char) (tokens : List Token) (offset : Nat) (rest : List Char) :
    Prop where
  /-- In front of it are the tokens and a gap behind the last of them. -/
  split : ∃ front gap, text = front ++ gap ++ rest ∧ IsGap gap ∧
    byteLength front = stopBehind 0 (tokens.map .ok) ∧ byteLength (front ++ gap) = offset
  /-- The gap is as long as it can be. -/
  head : ∀ c, rest.head? = some c → c ≠ ' ' ∧ c ≠ '\r'

/-- **What the tokens of a text are, and what ends them.** -/
structure IsReading (text : List Char) (tokens : List Token) (last : Item) : Prop where
  /-- The last item, and no token before it, is an end of line or an error. -/
  isLast : Item.IsLast last ∧ ∀ token ∈ tokens, token.kind ≠ .endOfLine
  /-- Each literal stands where its token says. -/
  standsAt : ∀ token ∈ tokens, token.literal ≠ [] ∧ StandsAt text token.offset token.literal
  /-- Tokens come in order and do not overlap. -/
  pairwise : tokens.Pairwise fun first second => first.span.stop ≤ second.offset
  /-- In front of each item, from where the item before it stops, there is a gap. -/
  gap : ∀ earlier item later, tokens.map .ok ++ [last] = earlier ++ item :: later →
    ∃ gap, IsGap gap ∧ StandsAt text (stopBehind 0 earlier) gap ∧
      stopBehind 0 earlier + byteLength gap = (Item.span item).offset
  /-- An end of line is at the first line break, or at the end if there is none. -/
  endOfLine : ∀ token, last = .ok token →
    token.offset = byteLength (text.takeWhile (· != '\n')) ∧
      token.literal = if '\n' ∈ text then ['\n'] else []
  /-- A symbol is written as one character. -/
  symbol : ∀ token ∈ tokens, ∀ s, token.kind = .symbol s → token.literal = [s.toChar]
  /-- A number goes as far as it can, and its value is that of its digits. -/
  number : ∀ token ∈ tokens, ∀ value, token.kind = .number value →
    value.toInt = digitsValue token.literal ∧
      ∃ before after, text = before ++ token.literal ++ after ∧
        byteLength before = token.offset ∧ IsNumeral token.literal after
  /-- The last item is about a foreign character if that is what is left in front, and
  then about nothing but this character; and about a number if one is left in front
  that is out of range. -/
  error : ∃ offset rest, IsLeft text tokens offset rest ∧
    (∀ c place, last = .error (.invalidCharacter c place) ↔
      rest.head? = some c ∧ IsForeign c ∧ place = offset) ∧
    (∀ c place, last = .error (.invalidCharacter c place) →
      (Item.span last) = ⟨offset, byteLength [c]⟩ ∧ StandsAt text offset [c]) ∧
    ∀ span, last = .error (.numberOutOfRange span) ↔
      ∃ literal after, rest = literal ++ after ∧ IsNumeral literal after ∧
        int64Bound ≤ digitsValue literal ∧ span = ⟨offset, byteLength literal⟩

/-- A number does not stop in front of more of itself.  What is added ends with a digit; it is
carriage returns and then a digit, in front of which the number could not have stopped. -/
theorem IsNumeral.eq_nil_of_append {literal more after : List Char}
    (h : IsNumeral literal (more ++ after)) (hmore : IsNumeral (literal ++ more) after) :
    more = [] := by
  obtain ⟨last, hlast, hdigit⟩ := hmore.getLast
  rcases hd : more.dropWhile (· == '\r') with _ | ⟨d, rest⟩
  · rcases hm : more.getLast? with _ | c
    · exact List.getLast?_eq_none_iff.1 hm
    · rw [List.getLast?_append, hm, Option.some_or] at hlast
      cases hlast
      have hreturn : last = '\r' := by
        simpa using List.dropWhile_eq_nil_iff.1 hd last (List.mem_of_getLast? hm)
      exact absurd hdigit (by rw [hreturn]; decide)
  · have hne : d ≠ '\r' := by
      have := not_of_head?_dropWhile (p := (· == '\r')) (by rw [hd]; rfl)
      simpa using this
    have hmem : d ∈ more :=
      (List.dropWhile_sublist _).subset (by rw [hd]; exact List.mem_cons_self ..)
    have hin := (hmore.mem d (List.mem_append_right _ hmem)).resolve_right hne
    refine absurd hin (h.maximal d ?_)
    rw [List.dropWhile_append, hd]
    rfl

/-- **A text begins with at most one number:** of two, one is the front of the other. -/
theorem IsNumeral.unique {first after second after' : List Char} (hf : IsNumeral first after)
    (hs : IsNumeral second after') (heq : first ++ after = second ++ after') : first = second := by
  rcases List.append_eq_append_iff.1 heq with ⟨more, rfl, rfl⟩ | ⟨more, rfl, rfl⟩
  · rw [hf.eq_nil_of_append hs, List.append_nil]
  · rw [hs.eq_nil_of_append hf, List.append_nil]

/-- A number begins with a digit, whatever is written behind it. -/
theorem IsNumeral.head?_append {literal after : List Char} (h : IsNumeral literal after)
    (more : List Char) : ∃ c, (literal ++ more).head? = some c ∧ c.isDigit := by
  obtain ⟨c, hc, hdigit⟩ := h.head
  exact ⟨c, by rw [List.head?_append, hc]; rfl, hdigit⟩

/-- A digit is skipped nowhere and ends nothing. -/
theorem ne_of_isDigit {c : Char} (h : c.isDigit) : c ≠ ' ' ∧ c ≠ '\r' ∧ c ≠ '\n' := by
  refine ⟨?_, ?_, ?_⟩ <;> rintro rfl <;> exact absurd h (by decide)

section LastItem

variable {offset : Nat} {literal after : List Char} {last : Item}

/-- An item starts where it is found. -/
theorem IsItemAt.offset_span (h : IsItemAt offset literal after last) :
    (Item.span last).offset = offset := by
  cases h <;> rfl

/-- What is left in front of a last item is nothing that could be skipped. -/
theorem IsItemAt.head_of_isLast (h : IsItemAt offset literal after last)
    (hlast : Item.IsLast last) {c : Char} (hc : (literal ++ after).head? = some c) :
    c ≠ ' ' ∧ c ≠ '\r' := by
  cases h with
  | endOfText => cases hc
  | lineBreak =>
    cases hc
    decide
  | symbol => cases hlast
  | number => cases hlast
  | outOfRange h =>
    obtain ⟨d, hd, hdigit⟩ := h.head?_append after
    rw [hd] at hc
    cases hc
    exact ⟨(ne_of_isDigit hdigit).1, (ne_of_isDigit hdigit).2.1⟩
  | foreign h =>
    cases hc
    exact ⟨h.1, h.2.1⟩

/-- **A foreign character comes last just when it is in front.** -/
theorem IsItemAt.invalidCharacter_iff (h : IsItemAt offset literal after last)
    (hlast : Item.IsLast last) (c : Char) (place : Nat) :
    last = .error (.invalidCharacter c place) ↔
      (literal ++ after).head? = some c ∧ IsForeign c ∧ place = offset := by
  constructor
  · rintro rfl
    cases h with
    | foreign h => exact ⟨rfl, h, rfl⟩
  · rintro ⟨hc, ⟨-, -, hbreak, hdigit, -⟩, rfl⟩
    cases h with
    | endOfText => cases hc
    | lineBreak => cases hc; exact absurd rfl hbreak
    | symbol => cases hlast
    | number => cases hlast
    | outOfRange h =>
      obtain ⟨d, hd, hd'⟩ := h.head?_append after
      rw [hd] at hc
      cases hc
      exact absurd hd' hdigit
    | foreign => cases hc; rfl

/-- **A number out of range comes last just when it is in front.** -/
theorem IsItemAt.numberOutOfRange_iff (h : IsItemAt offset literal after last)
    (hlast : Item.IsLast last) (span : Span) :
    last = .error (.numberOutOfRange span) ↔
      ∃ first rest, literal ++ after = first ++ rest ∧ IsNumeral first rest ∧
        int64Bound ≤ digitsValue first ∧ span = ⟨offset, byteLength first⟩ := by
  constructor
  · rintro rfl
    cases h with
    | outOfRange h hvalue => exact ⟨literal, after, rfl, h, hvalue, rfl⟩
  · rintro ⟨first, rest, heq, hfirst, -, rfl⟩
    obtain ⟨c, hc, hdigit⟩ := hfirst.head?_append rest
    rw [← heq] at hc
    cases h with
    | endOfText => cases hc
    | lineBreak => cases hc; exact absurd rfl (ne_of_isDigit hdigit).2.2
    | symbol => cases hlast
    | number => cases hlast
    | outOfRange h => rw [hfirst.unique h heq.symm]
    | foreign h => cases hc; exact absurd hdigit h.2.2.2.1

end LastItem

namespace ReadsOn

variable {text : List Char} {tokens : List Token} {last : Item}

/-- Where a token is found: its literal stands at its offset, and what is behind it decides how far
it goes. -/
theorem exists_of_mem (h : ReadsOn text [] tokens last) {token : Token} (htoken : token ∈ tokens) :
    ∃ before after, text = before ++ token.literal ++ after ∧ byteLength before = token.offset ∧
      IsItemAt token.offset token.literal after (.ok token) := by
  obtain ⟨earlier, later, rfl⟩ := List.append_of_mem htoken
  have hsplit : (earlier ++ token :: later).map Except.ok ++ [last] =
      earlier.map .ok ++ .ok token :: (later.map .ok ++ [last]) := by
    simp
  obtain ⟨before, gap, literal, after, htext, -, -, hitem, -⟩ := h.found List.not_mem_nil hsplit
  obtain ⟨hoffset, hliteral⟩ := hitem.eq_of_ok
  rw [← hoffset, ← hliteral] at hitem
  rw [← hliteral] at htext
  exact ⟨before ++ gap, after, htext, hoffset.symm, hitem⟩

/-- Where the last item is found: behind a gap behind the last token, with no line break in front.
-/
theorem exists_last (h : ReadsOn text [] tokens last) :
    ∃ before gap literal after, text = before ++ gap ++ literal ++ after ∧ IsGap gap ∧
      byteLength before = stopBehind 0 (tokens.map .ok) ∧
      IsItemAt (byteLength (before ++ gap)) literal after last ∧ '\n' ∉ before :=
  h.found List.not_mem_nil rfl

/-- **An end of line is at the first line break,** or at the end if there is none. -/
theorem endOfLine (h : ReadsOn text [] tokens last) {token : Token} (hlast : last = .ok token) :
    token.offset = byteLength (text.takeWhile (· != '\n')) ∧
      token.literal = if '\n' ∈ text then ['\n'] else [] := by
  obtain ⟨before, gap, literal, after, htext, hgap, -, hitem, hbefore⟩ := h.exists_last
  have hfree : ∀ c ∈ before ++ gap, (c != '\n') = true := by
    intro c hc
    rw [bne_iff_ne]
    rintro rfl
    exact (List.mem_append.1 hc).elim hbefore hgap.not_mem_lineBreak
  have hend : token.kind = .endOfLine := by
    have := h.isLast.1
    rwa [hlast] at this
  subst hlast
  cases hitem with
  | endOfText =>
    rw [List.append_nil, List.append_nil] at htext
    rw [htext, List.takeWhile_eq_self_iff.2 hfree]
    simp [hbefore, hgap.not_mem_lineBreak]
  | lineBreak =>
    have hin : '\n' ∈ text := by simp [htext]
    rw [if_pos hin, htext, List.append_assoc _ ['\n'], List.takeWhile_append_of_pos hfree]
    simp
  | symbol => cases hend
  | number => cases hend

end ReadsOn

/-- **What is taken from a cursor is a reading of its line,** and there is exactly one sequence of
items that can be taken. -/
theorem exists_isReading (line : Line) :
    ∃ tokens last,
      (∀ found, (Cursor.ofLine line).Yields found ↔ found = tokens.map .ok ++ [last]) ∧
      IsReading line.text tokens last := by
  obtain ⟨tokens, last, hitems, h⟩ := exists_readsOn line.text [] line.text rfl
  refine ⟨tokens, last, fun found => ?_, ?_⟩
  · rw [Cursor.yields_iff, items]
    exact hitems ▸ Iff.rfl
  obtain ⟨front, gap, literal, after, htext, hgap, hstop, hlast, hfront⟩ := h.exists_last
  constructor
  · exact h.isLast
  · intro token htoken
    obtain ⟨before, after, htext, hbefore, hitem⟩ := h.exists_of_mem htoken
    exact ⟨hitem.ne_nil (h.isLast.2 token htoken), before, after, htext, hbefore⟩
  · exact h.pairwise.1
  · intro earlier item later hsplit
    obtain ⟨before, gap, literal, after, htext, hgap, hbefore, hitem, -⟩ :=
      h.found List.not_mem_nil hsplit
    refine ⟨gap, hgap, ⟨before, literal ++ after, by rw [htext, List.append_assoc], hbefore⟩, ?_⟩
    rw [hitem.offset_span, byteLength_append, hbefore]
    rfl
  · exact fun token htoken => h.endOfLine htoken
  · intro token htoken s hs
    obtain ⟨before, after, -, -, hitem⟩ := h.exists_of_mem htoken
    exact hitem.of_symbol hs
  · intro token htoken value hvalue
    obtain ⟨before, after, htext, hbefore, hitem⟩ := h.exists_of_mem htoken
    obtain ⟨hdigits, hnumeral⟩ := hitem.of_number hvalue
    exact ⟨hdigits, before, after, htext, hbefore, hnumeral⟩
  · -- What is left in front of the last item is its literal and what is behind it.
    refine ⟨byteLength (front ++ gap), literal ++ after, ⟨⟨front, gap, ?_, hgap, hstop, rfl⟩,
      fun c hc => hlast.head_of_isLast h.isLast.1 hc⟩,
      fun c place => hlast.invalidCharacter_iff h.isLast.1 c place, ?_,
      fun span => hlast.numberOutOfRange_iff h.isLast.1 span⟩
    · rw [htext, List.append_assoc]
    · rintro c place rfl
      cases hlast with
      | foreign =>
        refine ⟨?_, front ++ gap, after, htext, rfl⟩
        simp [Item.span, LexicalError.span]

end Reckoner
