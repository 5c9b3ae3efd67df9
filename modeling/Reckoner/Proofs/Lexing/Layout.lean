/-
# Layouts

Tokens can be written out in many ways.  A number may have leading zeros and carriage
returns between its digits, gaps may stand wherever two tokens meet and have to stand,
with a space in them, between two numbers, and behind the last token a line break may
come with anything at all behind it (`IsLayout`).  However some tokens are written out,
they are what is read (`IsLayout.items_eq`).

The induction is on the layout, and what it has to know of the text behind a number is
that no more digits follow (`IsLayout.not_isDigit`).
-/

import Reckoner.Proofs.Lexing.Determined

namespace Reckoner

/-- Whether a text spells a number in decimal, perhaps with leading zeros and with carriage
returns between the digits. -/
structure IsSpelling (value : Int64) (literal : List Char) : Prop where
  /-- It begins with a digit. -/
  head : ∃ c, literal.head? = some c ∧ c.isDigit
  /-- It ends with a digit. -/
  getLast : ∃ c, literal.getLast? = some c ∧ c.isDigit
  /-- In between there may be carriage returns. -/
  mem : ∀ c ∈ literal, c.isDigit ∨ c = '\r'
  /-- Its digits have the value of the number. -/
  value_eq : value.toInt = digitsValue literal

/-- **The texts that some tokens can be written as.** -/
inductive IsLayout : List Token.Kind → List Char → Prop
  /-- Behind the last token there may be nothing but a gap. -/
  | finish {gap : List Char} (hgap : IsGap gap) : IsLayout [] gap
  /-- Behind a line break there may be anything. -/
  | lineBreak {gap : List Char} (hgap : IsGap gap) (after : List Char) :
      IsLayout [] (gap ++ '\n' :: after)
  /-- A symbol is written with its character. -/
  | symbol {kinds : List Token.Kind} {gap text : List Char} (hgap : IsGap gap) (s : Symbol)
      (h : IsLayout kinds text) : IsLayout (.symbol s :: kinds) (gap ++ s.toChar :: text)
  /-- In front of a number there is a space behind the digits. -/
  | number {kinds : List Token.Kind} {gap literal text : List Char} {value : Int64}
      (hgap : IsGap gap) (hliteral : IsSpelling value literal)
      (hnext : ∀ next later, kinds = .number next :: later →
        ∃ first second, text = first ++ ' ' :: second ∧ IsGap first)
      (h : IsLayout kinds text) : IsLayout (.number value :: kinds) (gap ++ literal ++ text)

/-- There may be nothing between two tokens: the empty text is a gap. -/
theorem isGap_nil : IsGap [] := fun c hc => by cases hc

/-- Behind the carriage returns of a gap there is a space or what follows the gap. -/
theorem IsGap.head_of_dropWhile {gap rest : List Char} (hgap : IsGap gap) {c : Char}
    (hc : ((gap ++ rest).dropWhile (· == '\r')).head? = some c) :
    c = ' ' ∨ (rest.dropWhile (· == '\r')).head? = some c := by
  induction gap with
  | nil => exact .inr hc
  | cons d gap ih =>
    have hrest : IsGap gap := fun e he => hgap e (List.mem_cons_of_mem d he)
    rcases hgap d (List.mem_cons_self ..) with rfl | rfl
    · exact .inl (Option.some.inj hc).symm
    · exact ih hrest hc

/-- What is no carriage return is not passed over. -/
theorem head_of_dropWhile_cons {c d : Char} {rest : List Char} (hd : d ≠ '\r')
    (hc : ((d :: rest).dropWhile (· == '\r')).head? = some c) : c = d := by
  rw [List.dropWhile_cons_of_neg (by simpa using hd)] at hc
  exact (Option.some.inj hc).symm

namespace IsLayout

variable {kinds : List Token.Kind} {text : List Char}

/-- A symbol may stand in front of anything. -/
theorem symbol_cons (h : IsLayout kinds text) (s : Symbol) :
    IsLayout (.symbol s :: kinds) (s.toChar :: text) :=
  .symbol isGap_nil s h

/-- **Behind a number that is written out no digits follow,** carriage returns passed
over. -/
theorem not_isDigit (h : IsLayout kinds text)
    (hnext : ∀ next later, kinds = .number next :: later →
      ∃ first second, text = first ++ ' ' :: second ∧ IsGap first)
    {c : Char} (hc : (text.dropWhile (· == '\r')).head? = some c) : ¬ c.isDigit := by
  cases h with
  | finish hgap =>
    rw [← List.append_nil text] at hc
    rcases hgap.head_of_dropWhile hc with rfl | hc
    · decide
    · cases hc
  | lineBreak hgap after =>
    rcases hgap.head_of_dropWhile hc with rfl | hc
    · decide
    · obtain rfl := head_of_dropWhile_cons (by decide) hc
      decide
  | symbol hgap s =>
    rcases hgap.head_of_dropWhile hc with rfl | hc
    · decide
    · obtain ⟨hblank, -, hdigit⟩ := toChar_spec s
      have hreturn : s.toChar ≠ '\r' := fun heq => hblank (isBlank_iff.2 (.inr heq))
      rwa [head_of_dropWhile_cons hreturn hc]
  | number =>
    obtain ⟨first, second, htext, hfirst⟩ := hnext _ _ rfl
    rw [htext] at hc
    rcases hfirst.head_of_dropWhile hc with rfl | hc
    · decide
    · obtain rfl := head_of_dropWhile_cons (by decide) hc
      decide

/-- **Tokens that are written out are read,** wherever in a text this is. -/
theorem exists_readsOn (h : IsLayout kinds text) {whole front : List Char}
    (hwhole : whole = front ++ text) :
    ∃ (tokens : List Token) (last : Token), ReadsOn whole front tokens (.ok last) ∧
      last.kind = .endOfLine ∧ tokens.map Token.kind = kinds := by
  induction h generalizing front with
  | @finish gap hgap =>
    have hparts : whole = front ++ gap ++ [] ++ [] := by simpa using hwhole
    exact ⟨[], _, .last hparts hgap .endOfText rfl, rfl, rfl⟩
  | @lineBreak gap hgap after =>
    have hparts : whole = front ++ gap ++ ['\n'] ++ after := by simpa using hwhole
    exact ⟨[], _, .last hparts hgap (.lineBreak after) rfl, rfl, rfl⟩
  | @symbol kinds gap text hgap s _ ih =>
    have hparts : whole = front ++ gap ++ [s.toChar] ++ text := by simpa using hwhole
    obtain ⟨tokens, last, hreads, hlast, hkinds⟩ := ih hparts
    have hkind : Token.Kind.symbol s ≠ .endOfLine := fun heq => by cases heq
    exact ⟨_ :: tokens, last, .token hparts hgap (.symbol s text) hkind hreads, hlast,
      congrArg _ hkinds⟩
  | @number kinds gap literal text value hgap hliteral hnext h ih =>
    have hparts : whole = front ++ gap ++ literal ++ text := by simpa using hwhole
    obtain ⟨tokens, last, hreads, hlast, hkinds⟩ := ih hparts
    have hnumeral : IsNumeral literal text :=
      ⟨hliteral.head, hliteral.getLast, hliteral.mem, fun c hc => h.not_isDigit hnext hc⟩
    have hkind : Token.Kind.number value ≠ .endOfLine := fun heq => by cases heq
    exact ⟨_ :: tokens, last,
      .token hparts hgap (.number hnumeral hliteral.value_eq) hkind hreads, hlast,
      congrArg _ hkinds⟩

/-- **However some tokens are written out, they are what is read.** -/
theorem items_eq (h : IsLayout kinds text) :
    ∃ (tokens : List Token) (last : Token), items text = tokens.map .ok ++ [.ok last] ∧
      last.kind = .endOfLine ∧ tokens.map Token.kind = kinds := by
  have hwhole : text = [] ++ text := rfl
  obtain ⟨tokens, last, hreads, hlast, hkinds⟩ := h.exists_readsOn hwhole
  exact ⟨tokens, last, hreads.items_eq, hlast, hkinds⟩

end IsLayout

end Reckoner
