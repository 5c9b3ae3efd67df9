/-
# Foreign characters

A character that no token contains is passed over nowhere: what is in front of an item of a
text is plain, that is, of spaces, carriage returns, digits and symbols
(`exists_of_mem_items`).  So a line with a foreign character in front of its first line break
is not read to its end, no item begins behind the character, and an item that begins with it
is about it (`items_of_isForeign`).

The front of a text up to its first line break is therefore cut in two by its first foreign
character, and any place behind it is behind everything that is read (`exists_of_isPlain`).
-/

import Reckoner.Proofs.Lexing.Reading

namespace Reckoner

/-- Characters that can stand on a line in front of its end without an error: those of gaps,
numbers and symbols. -/
def IsPlain (c : Char) : Prop := c ≠ '\n' ∧ ¬ IsForeign c

/-- A digit is plain. -/
theorem isPlain_of_isDigit {c : Char} (h : c.isDigit) : IsPlain c :=
  ⟨(ne_of_isDigit h).2.2, fun hforeign => hforeign.2.2.2.1 h⟩

/-- A space is plain. -/
theorem isPlain_space : IsPlain ' ' := ⟨by decide, fun hforeign => hforeign.1 rfl⟩

/-- A carriage return is plain. -/
theorem isPlain_return : IsPlain '\r' := ⟨by decide, fun hforeign => hforeign.2.1 rfl⟩

/-- The character of a symbol is plain. -/
theorem isPlain_toChar (s : Symbol) : IsPlain s.toChar := by
  refine ⟨by cases s <;> decide, fun hforeign => hforeign.2.2.2.2 ?_⟩
  cases s <;> decide

/-- A gap is plain throughout. -/
theorem IsGap.isPlain {gap : List Char} (h : IsGap gap) : ∀ c ∈ gap, IsPlain c := by
  intro c hc
  rcases h c hc with rfl | rfl
  · exact isPlain_space
  · exact isPlain_return

/-- A number is plain throughout. -/
theorem IsNumeral.isPlain {literal after : List Char} (h : IsNumeral literal after) :
    ∀ c ∈ literal, IsPlain c := by
  intro c hc
  rcases h.mem c hc with hdigit | rfl
  · exact isPlain_of_isDigit hdigit
  · exact isPlain_return

section Item

variable {offset : Nat} {literal after : List Char} {item : Item}

/-- A token in front of the end of a line is plain. -/
theorem IsItemAt.isPlain {token : Token} (h : IsItemAt offset literal after (.ok token))
    (hkind : token.kind ≠ .endOfLine) : ∀ c ∈ literal, IsPlain c := by
  intro c hc
  cases h with
  | endOfText => cases hc
  | lineBreak => exact absurd rfl hkind
  | symbol s =>
    obtain rfl := List.mem_singleton.1 hc
    exact isPlain_toChar s
  | number hnumeral => exact hnumeral.isPlain c hc

/-- **An item that begins with a foreign character** is about this character. -/
theorem IsItemAt.eq_invalidCharacter (h : IsItemAt offset literal after item) {c : Char}
    {rest : List Char} (hrest : literal ++ after = c :: rest) (hc : IsForeign c) :
    item = .error (.invalidCharacter c offset) := by
  obtain ⟨-, -, hbreak, hdigit, -⟩ := id hc
  cases h with
  | endOfText => cases hrest
  | lineBreak => exact absurd (List.cons.inj hrest).1.symm hbreak
  | symbol s =>
    obtain rfl : s.toChar = c := (List.cons.inj hrest).1
    exact absurd hc (isPlain_toChar s).2
  | number hnumeral =>
    obtain ⟨d, hd, hd'⟩ := hnumeral.head?_append after
    rw [hrest] at hd
    obtain rfl := Option.some.inj hd
    exact absurd hd' hdigit
  | outOfRange hnumeral =>
    obtain ⟨d, hd, hd'⟩ := hnumeral.head?_append after
    rw [hrest] at hd
    obtain rfl := Option.some.inj hd
    exact absurd hd' hdigit
  | foreign =>
    obtain rfl := (List.cons.inj hrest).1
    rfl

end Item

/-- **What is in front of an item is plain.**  The induction is on the tokens in front. -/
theorem ReadsOn.exists_isPlain {text front : List Char} {tokens : List Token} {last : Item}
    (h : ReadsOn text front tokens last) (hfront : ∀ c ∈ front, IsPlain c) {item : Item}
    (hitem : item ∈ tokens.map .ok ++ [last]) :
    ∃ before literal after, text = before ++ literal ++ after ∧
      IsItemAt (byteLength before) literal after item ∧ ∀ c ∈ before, IsPlain c := by
  induction h with
  | @last front gap literal after last htext hgap hlast _ =>
    obtain rfl : item = last := by simpa using hitem
    exact ⟨front ++ gap, literal, after, htext, hlast,
      List.forall_mem_append.2 ⟨hfront, hgap.isPlain⟩⟩
  | @token front gap literal after token tokens last htext hgap hfound hkind _ ih =>
    have hbefore : ∀ c ∈ front ++ gap, IsPlain c :=
      List.forall_mem_append.2 ⟨hfront, hgap.isPlain⟩
    rcases List.mem_cons.1 hitem with rfl | hitem
    · exact ⟨front ++ gap, literal, after, htext, hfound, hbefore⟩
    · exact ih (List.forall_mem_append.2 ⟨hbefore, hfound.isPlain hkind⟩) hitem

/-- Each item of a text stands behind plain characters only. -/
theorem exists_of_mem_items {text : List Char} {item : Item} (h : item ∈ items text) :
    ∃ before literal after, text = before ++ literal ++ after ∧
      IsItemAt (byteLength before) literal after item ∧ ∀ c ∈ before, IsPlain c := by
  obtain ⟨tokens, last, hitems, hreads⟩ := exists_readsOn text [] text rfl
  exact hreads.exists_isPlain (fun c hc => by cases hc) (hitems ▸ h)

/-- What is plain is in front of all that is not. -/
theorem exists_of_isPlain {front rest before after : List Char} {c : Char}
    (h : front ++ rest = before ++ c :: after) (hfront : ∀ d ∈ front, IsPlain d)
    (hc : ¬ IsPlain c) : ∃ more, before = front ++ more ∧ rest = more ++ c :: after := by
  rcases List.append_eq_append_iff.1 h with ⟨more, rfl, hrest⟩ | ⟨more, hmore, hrest⟩
  · exact ⟨more, rfl, hrest⟩
  · cases more with
    | nil => exact ⟨[], by simpa using hmore.symm, by simpa using hrest.symm⟩
    | cons d more =>
      obtain ⟨rfl, -⟩ := List.cons.inj hrest
      exact absurd (hfront c (by simp [hmore])) hc

/-- **A foreign character on a line** ends the reading of the line with an error.  No item
begins behind it, and an item that begins with it is about it. -/
theorem items_of_isForeign {before after : List Char} {c : Char} (hc : IsForeign c)
    (hbreak : '\n' ∉ before) :
    (∃ (tokens : List Token) (error : LexicalError),
        items (before ++ c :: after) = tokens.map .ok ++ [.error error]) ∧
      ∀ item ∈ items (before ++ c :: after), (Item.span item).offset ≤ byteLength before ∧
        ((Item.span item).offset = byteLength before →
          item = .error (.invalidCharacter c (byteLength before))) := by
  have hplain : ¬ IsPlain c := fun hplain => hplain.2 hc
  obtain ⟨tokens, last, hitems, hreads⟩ := exists_readsOn (before ++ c :: after) [] _ rfl
  constructor
  · cases last with
    | error error => exact ⟨tokens, error, hitems⟩
    | ok last =>
      obtain ⟨front, literal, rest, htext, hlast, hfront⟩ :=
        hreads.exists_isPlain (fun d hd => by cases hd) (List.mem_append_right _
          (List.mem_singleton.2 rfl))
      rw [List.append_assoc] at htext
      obtain ⟨more, rfl, hrest⟩ := exists_of_isPlain htext.symm hfront hplain
      have hend : last.kind = .endOfLine := hreads.isLast.1
      cases hlast with
      | endOfText => simp at hrest
      | symbol => cases hend
      | number => cases hend
      | lineBreak =>
        cases more with
        | nil => exact absurd (List.cons.inj hrest).1.symm hc.2.2.1
        | cons d more =>
          obtain ⟨rfl, -⟩ := List.cons.inj hrest
          simp at hbreak
  · intro item hitem
    obtain ⟨front, literal, rest, htext, hfound, hfront⟩ := exists_of_mem_items hitem
    rw [List.append_assoc] at htext
    obtain ⟨more, rfl, hrest⟩ := exists_of_isPlain htext.symm hfront hplain
    rw [hfound.offset_span, byteLength_append]
    refine ⟨Nat.le_add_right _ _, fun hsame => ?_⟩
    obtain rfl : more = [] := eq_nil_of_byteLength (by omega)
    rw [byteLength_nil, Nat.add_zero]
    exact hfound.eq_invalidCharacter hrest hc

end Reckoner
