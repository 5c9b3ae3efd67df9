/-
# Tokens without carriage returns

Carriage returns are skipped between tokens, dropped inside numbers and trimmed off their
end, which happens in different places of a scan.  All of it comes to this: a text is read
as the same text without them is read (`items_withoutReturns`).  The literals lose their
carriage returns, and each place moves back by as many as there are in front of it
(`shiftedPlace`).

Places are counted in the whole text, and so the induction is on the parts of the text that
are read one by one (`ReadsOn.withoutReturns`).  What it needs of a single item is
`IsItemAt.withoutReturns`, and of a number that its end stays where it is, because that was
decided by the first character behind the carriage returns (`head?_withoutReturns`).
-/

import Reckoner.Proofs.Lexing.Determined

namespace Reckoner

open Decimal (int64Bound)

/-! ## Texts and places -/

/-- A text with its carriage returns deleted. -/
def withoutReturns (text : List Char) : List Char := text.filter (· != '\r')

/-- How many carriage returns of a text there are in front of a place. -/
def returnsBefore : List Char → Nat → Nat
  | [], _ => 0
  | c :: rest, place =>
    if place < c.utf8Size then 0
    else (if c = '\r' then 1 else 0) + returnsBefore rest (place - c.utf8Size)

/-- Where a place of a text is once the carriage returns are deleted. -/
def shiftedPlace (text : List Char) (place : Nat) : Nat := place - returnsBefore text place

/-- Where a stretch of a text is once the carriage returns are deleted. -/
def Span.shifted (text : List Char) (span : Span) : Span where
  offset := shiftedPlace text span.offset
  length := shiftedPlace text span.stop - shiftedPlace text span.offset

/-- Nothing is erased from an empty text. -/
@[simp] theorem withoutReturns_nil : withoutReturns [] = [] := rfl

/-- A carriage return is erased. -/
@[simp] theorem withoutReturns_return (text : List Char) :
    withoutReturns ('\r' :: text) = withoutReturns text := rfl

/-- Any other character stays. -/
theorem withoutReturns_cons {c : Char} (h : c ≠ '\r') (text : List Char) :
    withoutReturns (c :: text) = c :: withoutReturns text :=
  List.filter_cons_of_pos (by simpa using h)

/-- Two texts have their carriage returns erased one by one. -/
@[simp] theorem withoutReturns_append (first second : List Char) :
    withoutReturns (first ++ second) = withoutReturns first ++ withoutReturns second :=
  List.filter_append first second

/-- What is left are the other characters. -/
theorem mem_withoutReturns {c : Char} {text : List Char} :
    c ∈ withoutReturns text ↔ c ∈ text ∧ c ≠ '\r' := by
  simp [withoutReturns]

/-- A second time there is nothing to erase. -/
@[simp] theorem withoutReturns_withoutReturns (text : List Char) :
    withoutReturns (withoutReturns text) = withoutReturns text := by
  simp [withoutReturns]

/-- Carriage returns take one byte each. -/
theorem byteLength_withoutReturns (text : List Char) :
    byteLength (withoutReturns text) + text.count '\r' = byteLength text := by
  induction text with
  | nil => rfl
  | cons c text ih =>
    by_cases h : c = '\r'
    · subst h
      have hsize : '\r'.utf8Size = 1 := rfl
      rw [withoutReturns_return, List.count_cons_self, byteLength_cons, hsize]
      omega
    · rw [withoutReturns_cons h, List.count_cons_of_ne h, byteLength_cons, byteLength_cons]
      omega

/-- In front of a place are the carriage returns of the part of the text that ends
there. -/
theorem returnsBefore_append (front rest : List Char) :
    returnsBefore (front ++ rest) (byteLength front) = front.count '\r' := by
  induction front with
  | nil =>
    cases rest with
    | nil => rfl
    | cons c rest => exact if_pos c.utf8Size_pos
  | cons c front ih =>
    have hle : ¬ c.utf8Size + byteLength front < c.utf8Size := by omega
    have hrest : c.utf8Size + byteLength front - c.utf8Size = byteLength front := by omega
    rw [List.cons_append, returnsBefore, byteLength_cons, if_neg hle, hrest, ih]
    by_cases h : c = '\r'
    · rw [if_pos h, h, List.count_cons_self, Nat.add_comm]
    · rw [if_neg h, List.count_cons_of_ne h, Nat.zero_add]

/-- **A place moves to the end of what is left of the text in front of it.** -/
theorem shiftedPlace_append (front rest : List Char) :
    shiftedPlace (front ++ rest) (byteLength front) = byteLength (withoutReturns front) := by
  have hlength := byteLength_withoutReturns front
  rw [shiftedPlace, returnsBefore_append]
  omega

/-- **A stretch of a text moves to what is left of it.** -/
theorem Span.shifted_append (front piece rest : List Char) :
    Span.shifted (front ++ piece ++ rest) ⟨byteLength front, byteLength piece⟩ =
      ⟨byteLength (withoutReturns front), byteLength (withoutReturns piece)⟩ := by
  have hstart : shiftedPlace (front ++ piece ++ rest) (byteLength front) =
      byteLength (withoutReturns front) := by
    rw [List.append_assoc]
    exact shiftedPlace_append front (piece ++ rest)
  have hstop : shiftedPlace (front ++ piece ++ rest) (byteLength front + byteLength piece) =
      byteLength (withoutReturns front) + byteLength (withoutReturns piece) := by
    rw [← byteLength_append, shiftedPlace_append, withoutReturns_append, byteLength_append]
  rw [Span.shifted, Span.stop, hstart, hstop, Nat.add_sub_cancel_left]

/-! ## Items -/

/-- What a token is once the carriage returns are deleted. -/
def Token.shifted (text : List Char) (token : Token) : Token where
  kind := token.kind
  literal := withoutReturns token.literal
  offset := shiftedPlace text token.offset

/-- What a lexical error is once the carriage returns are deleted. -/
def LexicalError.shifted (text : List Char) : LexicalError → LexicalError
  | invalidCharacter character offset => .invalidCharacter character (shiftedPlace text offset)
  | numberOutOfRange literal => .numberOutOfRange (literal.shifted text)

/-- What an item is once the carriage returns are deleted. -/
def Item.shifted (text : List Char) : Item → Item
  | .ok token => .ok (token.shifted text)
  | .error error => .error (error.shifted text)

/-- Tokens stay tokens in their new places. -/
theorem map_shifted_ok (text : List Char) (tokens : List Token) :
    (tokens.map Except.ok : List Item).map (Item.shifted text) =
      (tokens.map (Token.shifted text)).map .ok := by
  rw [List.map_map, List.map_map]
  rfl

/-- The last item stays the last one. -/
theorem Item.IsLast.shifted {item : Item} (h : Item.IsLast item) (text : List Char) :
    Item.IsLast (item.shifted text) := by
  cases item with
  | ok token => exact h
  | error error => trivial

/-- A gap stays a gap. -/
theorem IsGap.withoutReturns {gap : List Char} (h : IsGap gap) : IsGap (withoutReturns gap) :=
  fun c hc => h c (mem_withoutReturns.1 hc).1

/-- Carriage returns in front make no difference once they are deleted. -/
theorem withoutReturns_dropWhile (text : List Char) :
    withoutReturns (text.dropWhile (· == '\r')) = withoutReturns text := by
  induction text with
  | nil => rfl
  | cons c text ih =>
    by_cases h : c = '\r'
    · subst h
      exact ih
    · rw [List.dropWhile_cons_of_neg (by simpa using h)]

/-- What is in front once carriage returns are deleted is what was behind those in
front. -/
theorem head?_withoutReturns (text : List Char) :
    (withoutReturns text).head? = (text.dropWhile (· == '\r')).head? := by
  rw [← withoutReturns_dropWhile]
  cases hrest : text.dropWhile (· == '\r') with
  | nil => rfl
  | cons c rest =>
    have hc : c ≠ '\r' := by
      have := not_of_head?_dropWhile (p := (· == '\r')) (by rw [hrest]; rfl)
      simpa using this
    rw [withoutReturns_cons hc]
    rfl

/-- **A number without its carriage returns** is a number, and goes as far. -/
theorem IsNumeral.withoutReturns {literal after : List Char} (h : IsNumeral literal after) :
    IsNumeral (withoutReturns literal) (withoutReturns after) := by
  obtain ⟨c, hc, hhead⟩ := h.head
  obtain ⟨d, hd, hlast⟩ := h.getLast
  have hne : ∀ e : Char, e.isDigit → e ≠ '\r' := fun e he => (ne_of_isDigit he).2.1
  constructor
  · refine ⟨c, ?_, hhead⟩
    obtain ⟨more, rfl⟩ := List.head?_eq_some_iff.1 hc
    rw [withoutReturns_cons (hne c hhead)]
    rfl
  · refine ⟨d, ?_, hlast⟩
    obtain ⟨more, rfl⟩ := List.getLast?_eq_some_iff.1 hd
    rw [withoutReturns_append, withoutReturns_cons (hne d hlast), withoutReturns_nil]
    exact List.getLast?_concat
  · exact fun e he => h.mem e (mem_withoutReturns.1 he).1
  · intro e he
    rw [← head?_withoutReturns, withoutReturns_withoutReturns, head?_withoutReturns] at he
    exact h.maximal e he

/-- The value of a number is that of its digits. -/
theorem digitsValue_withoutReturns (literal : List Char) :
    digitsValue (withoutReturns literal) = digitsValue literal := by
  have hfilter : (withoutReturns literal).filter Char.isDigit = literal.filter Char.isDigit := by
    rw [withoutReturns, List.filter_filter]
    refine List.filter_congr fun c _ => ?_
    by_cases h : c.isDigit
    · have hne := (ne_of_isDigit h).2.1
      simp [h, hne]
    · simp [h]
  rw [digitsValue, digitsValue, hfilter]

/-- **An item without its carriage returns** is the shifted item.  Its place is the length of what
is left in front of it, and what it covers is what is left of its literal. -/
theorem IsItemAt.withoutReturns {front literal after : List Char} {item : Item}
    (h : IsItemAt (byteLength front) literal after item) :
    IsItemAt (byteLength (withoutReturns front)) (withoutReturns literal) (withoutReturns after)
      (item.shifted (front ++ literal ++ after)) := by
  have hplace : shiftedPlace (front ++ literal ++ after) (byteLength front) =
      byteLength (Reckoner.withoutReturns front) := by
    rw [List.append_assoc]
    exact shiftedPlace_append front (literal ++ after)
  cases h with
  | endOfText =>
    rw [Item.shifted, Token.shifted, hplace]
    exact .endOfText
  | lineBreak =>
    rw [Item.shifted, Token.shifted, hplace]
    exact .lineBreak _
  | symbol s =>
    have hliteral : Reckoner.withoutReturns [s.toChar] = [s.toChar] := by cases s <;> rfl
    rw [Item.shifted, Token.shifted, hplace, hliteral]
    exact .symbol s _
  | number h hvalue =>
    rw [Item.shifted, Token.shifted, hplace]
    exact .number h.withoutReturns (by rw [digitsValue_withoutReturns, hvalue])
  | outOfRange h hvalue =>
    rw [Item.shifted, LexicalError.shifted, Span.shifted_append]
    exact .outOfRange h.withoutReturns (by rwa [digitsValue_withoutReturns])
  | @foreign c h =>
    rw [Item.shifted, LexicalError.shifted, hplace, withoutReturns_cons h.2.1]
    exact .foreign h _

/-- **A text without its carriage returns is read like the text.**  The induction is on the reading,
and each of its parts is a part of the new one. -/
theorem ReadsOn.withoutReturns {text front : List Char} {tokens : List Token} {last : Item}
    (h : ReadsOn text front tokens last) :
    ReadsOn (withoutReturns text) (withoutReturns front) (tokens.map (Token.shifted text))
      (last.shifted text) := by
  induction h with
  | last htext hgap hitem hlast =>
    have hparts := congrArg Reckoner.withoutReturns htext
    have hshifted := hitem.withoutReturns
    rw [← htext] at hshifted
    simp only [withoutReturns_append] at hparts hshifted
    exact .last hparts hgap.withoutReturns hshifted (hlast.shifted text)
  | token htext hgap hitem hkind _ ih =>
    have hparts := congrArg Reckoner.withoutReturns htext
    have hshifted := hitem.withoutReturns
    rw [← htext] at hshifted
    simp only [withoutReturns_append] at hparts hshifted ih
    exact .token hparts hgap.withoutReturns hshifted hkind ih

/-- **Deleting carriage returns shifts the items of a text** and does nothing else to
them. -/
theorem items_withoutReturns (text : List Char) :
    items (withoutReturns text) = (items text).map (Item.shifted text) := by
  obtain ⟨tokens, last, hitems, h⟩ := exists_readsOn text [] text rfl
  have hitems : items text = tokens.map .ok ++ [last] := hitems
  rw [h.withoutReturns.items_eq, hitems, List.map_append, map_shifted_ok]
  rfl

/-! ## Where items stand -/

/-- An item takes the place of its literal. -/
theorem IsItemAt.span_eq {offset : Nat} {literal after : List Char} {item : Item}
    (h : IsItemAt offset literal after item) : Item.span item = ⟨offset, byteLength literal⟩ := by
  cases h with
  | foreign h => simp [Item.span, LexicalError.span]
  | _ => rfl

/-- Each item of a text stands somewhere in it. -/
theorem exists_standsAt_of_mem_items {text : List Char} {item : Item} (h : item ∈ items text) :
    ∃ front literal after, text = front ++ literal ++ after ∧
      IsItemAt (byteLength front) literal after item := by
  obtain ⟨tokens, last, hitems, hreads⟩ := exists_readsOn text [] text rfl
  obtain ⟨earlier, later, hsplit⟩ := List.append_of_mem h
  have hitems : tokens.map .ok ++ [last] = earlier ++ item :: later := by
    rw [← hitems, ← hsplit]
    rfl
  obtain ⟨before, gap, literal, after, htext, -, -, hitem, -⟩ :=
    hreads.found List.not_mem_nil hitems
  exact ⟨before ++ gap, literal, after, htext, hitem⟩

/-- The span of an item is shifted with the item. -/
theorem span_shifted_of_mem_items {text : List Char} {item : Item} (h : item ∈ items text) :
    Item.span (item.shifted text) = (Item.span item).shifted text := by
  obtain ⟨front, literal, after, rfl, hitem⟩ := exists_standsAt_of_mem_items h
  rw [hitem.withoutReturns.span_eq, hitem.span_eq, Span.shifted_append]

end Reckoner
