/-
# Reading tokens from a text

`scan` reads the first token of a text.  Spaces and carriage returns in front of
it are skipped, a line break or the end of the text is an end of line, and each
of `+ - * / ( )` is a symbol.  A number starts at a digit and goes on as long as
there are digits and carriage returns, but the carriage returns at its end are
not part of it; its value is that of its digits.

`items` are all tokens of a text in order.  The last of them is the end of line
or the error at which reading stops, and it is the only one of either.

What `scan` leaves is shorter than what it started from (`length_of_scan`), so
that reading on comes to an end.
-/

import Reckoner.Line.Error

namespace Reckoner

/-- Characters between tokens that mean nothing. -/
def isBlank (c : Char) : Bool := c == ' ' || c == '\r'

/-- Characters that a number can contain. -/
def isNumeral (c : Char) : Bool := c.isDigit || c == '\r'

/-- The number at the start of a text: digits and carriage returns as far as
they go, without the carriage returns at the end. -/
def numeral (text : List Char) : List Char :=
  ((text.takeWhile isNumeral).reverse.dropWhile (· == '\r')).reverse

/-- The value of a number's digits if it is a 64-bit integer. -/
def numeralValue? (literal : List Char) : Option Int64 :=
  let value := Decimal.valueUpTo Decimal.int64Bound (literal.filter Char.isDigit)
  if value < Decimal.int64Bound then some (Int64.ofNat value) else none

/-- The first token of a text that starts at `offset`, and the text behind
it. -/
def scan (offset : Nat) : List Char → Except LexicalError (Token × List Char)
  | [] => .ok (⟨.endOfLine, [], offset⟩, [])
  | c :: rest =>
    if isBlank c then scan (offset + c.utf8Size) rest
    else if c = '\n' then .ok (⟨.endOfLine, [c], offset⟩, rest)
    else if c.isDigit then
      let literal := numeral (c :: rest)
      match numeralValue? literal with
      | some value => .ok (⟨.number value, literal, offset⟩, (c :: rest).drop literal.length)
      | none => .error (.numberOutOfRange ⟨offset, byteLength literal⟩)
    else match Symbol.ofChar? c with
      | some symbol => .ok (⟨.symbol symbol, [c], offset⟩, rest)
      | none => .error (.invalidCharacter c offset)

/-- What a number leaves of the digits and carriage returns in front of it are
carriage returns. -/
theorem takeWhile_isNumeral (text : List Char) :
    ∃ returns : List Char, (∀ c ∈ returns, c = '\r') ∧
      text.takeWhile isNumeral = numeral text ++ returns := by
  refine ⟨((text.takeWhile isNumeral).reverse.takeWhile (· == '\r')).reverse, ?_, ?_⟩
  · intro c hc
    simpa using List.all_eq_true.1 List.all_takeWhile c (List.mem_reverse.1 hc)
  · rw [numeral, ← List.reverse_append, List.takeWhile_append_dropWhile, List.reverse_reverse]

/-- A number is not empty: it holds its first digit. -/
theorem numeral_ne_nil {c : Char} (rest : List Char) (h : c.isDigit) :
    numeral (c :: rest) ≠ [] := by
  intro hnil
  obtain ⟨returns, hreturns, heq⟩ := takeWhile_isNumeral (c :: rest)
  rw [hnil, List.nil_append] at heq
  have hc : c = '\r' := hreturns c (by simp [← heq, isNumeral, h])
  subst hc
  exact absurd h (by decide)

/-- **A token takes at least one character,** the end of a text apart. -/
theorem length_of_scan {offset : Nat} {text : List Char} {token : Token} {rest : List Char}
    (h : scan offset text = .ok (token, rest)) :
    token.kind = .endOfLine ∨ rest.length < text.length := by
  induction text generalizing offset with
  | nil =>
    obtain ⟨rfl, rfl⟩ : _ ∧ _ := by simpa [scan] using h
    exact .inl rfl
  | cons c text ih =>
    rw [scan] at h
    split at h
    · rcases ih h with h | h
      · exact .inl h
      · exact .inr (Nat.lt_succ_of_lt h)
    split at h
    · obtain ⟨rfl, rfl⟩ : _ ∧ _ := by simpa using h
      exact .inl rfl
    split at h
    · next hc =>
      dsimp only at h
      split at h
      · obtain ⟨-, rfl⟩ : _ ∧ _ := by simpa using h
        have := List.length_pos_iff.2 (numeral_ne_nil text hc)
        right
        simp only [List.length_drop, List.length_cons]
        omega
      · simp at h
    · split at h
      · obtain ⟨-, rfl⟩ : _ ∧ _ := by simpa using h
        exact .inr (Nat.lt_succ_self _)
      · simp at h

/-- One of the things found when a text is read to its end. -/
abbrev Item := Except LexicalError Token

/-- The items of the text that starts at `offset`, behind those found so far. -/
def itemsAfter (found : Array Item) (offset : Nat) (text : List Char) : Array Item :=
  match h : scan offset text with
  | .error error => found.push (.error error)
  | .ok (token, rest) =>
    if hend : token.kind = .endOfLine then found.push (.ok token)
    else
      have : rest.length < text.length := (length_of_scan h).resolve_left hend
      itemsAfter (found.push (.ok token)) token.span.stop rest
  termination_by text.length

/-- The items of the text that starts at `offset`. -/
def itemsFrom (offset : Nat) (text : List Char) : List Item := (itemsAfter #[] offset text).toList

/-- The items that are collected come behind those that were found before. -/
theorem toList_itemsAfter (found : Array Item) (offset : Nat) (text : List Char) :
    (itemsAfter found offset text).toList = found.toList ++ itemsFrom offset text := by
  induction hn : text.length using Nat.strongRecOn generalizing found offset text with
  | ind n ih =>
    subst hn
    unfold itemsFrom
    rw [itemsAfter, itemsAfter]
    split
    · simp
    · next token rest hscan =>
      split
      · simp
      · next hend =>
        have hlt := (length_of_scan hscan).resolve_left hend
        dsimp only
        rw [ih _ hlt _ _ _ rfl, ih _ hlt (#[].push (.ok token)) _ _ rfl]
        simp

/-- **The items are the first token and the items behind it.** -/
theorem itemsFrom_eq (offset : Nat) (text : List Char) :
    itemsFrom offset text =
      match scan offset text with
      | .error error => [.error error]
      | .ok (token, rest) =>
        if token.kind = .endOfLine then [.ok token]
        else .ok token :: itemsFrom token.span.stop rest := by
  unfold itemsFrom
  rw [itemsAfter]
  split
  · next h => simp [h]
  · next token rest h =>
    split
    · next hend => simp [h, hend]
    · next hend =>
      rw [toList_itemsAfter]
      simp [h, hend, itemsFrom]

/-- The tokens of a text up to its end of line, or up to the first lexical
error. -/
def items (text : List Char) : List Item := itemsFrom 0 text

/-- There is always an end: a text has at least one item. -/
theorem itemsFrom_ne_nil (offset : Nat) (text : List Char) : itemsFrom offset text ≠ [] := by
  rw [itemsFrom_eq]
  split
  · simp
  · split <;> simp

/-- Whether reading stops at an item: an error or an end of line. -/
def Item.IsLast : Item → Prop
  | .error _ => True
  | .ok token => token.kind = .endOfLine

/-- **Reading stops at the last item and nowhere else.** -/
theorem isLast_iff_of_itemsFrom {offset : Nat} {text : List Char} {before later : List Item}
    {item : Item} (h : itemsFrom offset text = before ++ item :: later) :
    Item.IsLast item ↔ later = [] := by
  induction before generalizing offset text with
  | nil =>
    rw [itemsFrom_eq] at h
    split at h
    · obtain ⟨rfl, rfl⟩ : _ ∧ _ := by simpa using h
      simp [Item.IsLast]
    · next token rest _ =>
      split at h
      · next hend =>
        obtain ⟨rfl, rfl⟩ : _ ∧ _ := by simpa using h
        simp [Item.IsLast, hend]
      · next hend =>
        obtain ⟨rfl, rfl⟩ : _ ∧ _ := by simpa using h
        simp [Item.IsLast, hend, itemsFrom_ne_nil]
  | cons first before ih =>
    rw [itemsFrom_eq] at h
    split at h
    · simp at h
    · split at h
      · simp at h
      · rw [List.cons_append] at h
        exact ih (List.cons.inj h).2

end Reckoner
