/-
# All items of a text

The items of a text are read one by one, each behind the one before it
(`exists_readsOn`), and they are what a cursor gives when tokens are taken from it until
there are none left (`Cursor.yields_iff`).  What the steps have in common is found by
induction on them (`ReadsOn`).

A reading consists of tokens that are no end of line and of one last item, which is an end of line
or an error (`ReadsOn.isLast`).  Each item is found behind a gap behind the one before it
(`ReadsOn.found`), so that tokens come in order and apart (`ReadsOn.pairwise`), and no line break is
in front of an item.  A line whose only item is its end is one of spaces and carriage returns
(`items_eq_endOfLine_iff`).
-/

import Reckoner.Proofs.Lexing.Item
import Reckoner.Token.Cursor

namespace Reckoner

/-- Tokens are told by their items. -/
theorem map_ok_inj {first second : List Token} :
    first.map (Except.ok : Token → Item) = second.map .ok ↔ first = second :=
  List.map_inj_right fun _ _ => Except.ok.inj

/-- Where all items are tokens the last one is a token. -/
theorem exists_eq_append_of_map_ok {tokens front : List Token} {last : Item}
    (h : tokens.map .ok = front.map .ok ++ [last]) :
    ∃ token, tokens = front ++ [token] ∧ last = .ok token := by
  obtain ⟨others, back, rfl, hothers, hback⟩ := List.map_eq_append_iff.1 h
  obtain rfl : others = front := map_ok_inj.1 hothers
  obtain ⟨token, rfl, rfl⟩ := List.map_eq_singleton_iff.1 hback
  exact ⟨token, rfl, rfl⟩

/-- The tokens behind a front part of a text, and what ends them, one by one.  The text is the same
throughout, and the front grows by the gap and the literal of each token. -/
inductive ReadsOn (text : List Char) : (front : List Char) → List Token → Item → Prop
  /-- An end of line or an error is the last item. -/
  | last {front gap literal after : List Char} {item : Item}
      (htext : text = front ++ gap ++ literal ++ after) (hgap : IsGap gap)
      (hitem : IsItemAt (byteLength (front ++ gap)) literal after item)
      (hlast : Item.IsLast item) : ReadsOn text front [] item
  /-- Behind any other token the reading goes on. -/
  | token {front gap literal after : List Char} {token : Token} {tokens : List Token} {item : Item}
      (htext : text = front ++ gap ++ literal ++ after) (hgap : IsGap gap)
      (hitem : IsItemAt (byteLength (front ++ gap)) literal after (.ok token))
      (hkind : token.kind ≠ .endOfLine)
      (hrest : ReadsOn text (front ++ gap ++ literal) tokens item) :
      ReadsOn text front (token :: tokens) item

/-- **The items of a text are read one by one.**  The induction is on the length of what is left,
which each token that is no end of line makes shorter. -/
theorem exists_readsOn (text front rest : List Char) (htext : text = front ++ rest) :
    ∃ tokens last, itemsFrom (byteLength front) rest = tokens.map .ok ++ [last] ∧
      ReadsOn text front tokens last := by
  induction hn : rest.length using Nat.strongRecOn generalizing front rest with
  | ind n ih =>
    subst hn
    obtain ⟨gap, literal, after, hrest, hgap, hscans⟩ := scan_spec (byteLength front) rest
    rw [← byteLength_append] at hscans
    have hwhole : text = front ++ gap ++ literal ++ after := by
      rw [htext, hrest]
      simp only [List.append_assoc]
    rw [itemsFrom_eq]
    generalize hscan : scan (byteLength front) rest = result at hscans ⊢
    cases hscans with
    | error hitem => exact ⟨[], _, rfl, .last hwhole hgap hitem trivial⟩
    | @ok token hitem =>
      by_cases hend : token.kind = .endOfLine
      · exact ⟨[], .ok token, by simp [hend], .last hwhole hgap hitem hend⟩
      · have hlt : after.length < rest.length := (length_of_scan hscan).resolve_left hend
        have hstop : token.span.stop = byteLength (front ++ gap ++ literal) := by
          obtain ⟨hoffset, hliteral⟩ := hitem.eq_of_ok
          rw [byteLength_append, ← hoffset, ← hliteral]
          rfl
        -- The next item is looked for where this one stops, which is the length of the new front.
        obtain ⟨tokens, last, hitems, hreads⟩ :=
          ih _ hlt (front ++ gap ++ literal) after hwhole rfl
        refine ⟨token :: tokens, last, ?_, .token hwhole hgap hitem hend hreads⟩
        simp only [if_neg hend, hstop, hitems]
        rfl

/-- Where the last token among some items stops; at `start` if there is none. -/
def stopBehind (start : Nat) : List Item → Nat
  | [] => start
  | .ok token :: items => stopBehind token.span.stop items
  | .error _ :: items => stopBehind start items

/-- Only an end of line contains a line break. -/
theorem IsItemAt.not_mem_lineBreak {offset : Nat} {literal after : List Char} {token : Token}
    (h : IsItemAt offset literal after (.ok token)) (hkind : token.kind ≠ .endOfLine) :
    '\n' ∉ literal := by
  cases h with
  | endOfText => exact absurd rfl hkind
  | lineBreak => exact absurd rfl hkind
  | symbol s => cases s <;> decide
  | number h =>
    intro hmem
    rcases h.mem '\n' hmem with h | h
    · exact absurd h (by decide)
    · exact absurd h (by decide)

/-- A gap does not reach over the end of a line. -/
theorem IsGap.not_mem_lineBreak {gap : List Char} (h : IsGap gap) : '\n' ∉ gap := by
  intro hmem
  rcases h '\n' hmem with h | h
  · exact absurd h (by decide)
  · exact absurd h (by decide)

namespace ReadsOn

variable {text front : List Char} {tokens : List Token} {last : Item}

/-- The last item is one that ends the reading, and no token before it is. -/
theorem isLast (h : ReadsOn text front tokens last) :
    Item.IsLast last ∧ ∀ token ∈ tokens, token.kind ≠ .endOfLine := by
  induction h with
  | last _ _ _ hlast => exact ⟨hlast, fun token htoken => by cases htoken⟩
  | token _ _ _ hkind _ ih =>
    refine ⟨ih.1, fun token htoken => ?_⟩
    rcases List.mem_cons.1 htoken with rfl | htoken
    · exact hkind
    · exact ih.2 token htoken

/-- **Where an item is found:** right behind a gap behind the item before it, and
behind no line break. -/
theorem found (h : ReadsOn text front tokens last) (hfront : '\n' ∉ front) :
    ∀ {earlier item later}, tokens.map .ok ++ [last] = earlier ++ item :: later →
      ∃ before gap literal after, text = before ++ gap ++ literal ++ after ∧ IsGap gap ∧
        byteLength before = stopBehind (byteLength front) earlier ∧
        IsItemAt (byteLength (before ++ gap)) literal after item ∧ '\n' ∉ before := by
  induction h with
  | last htext hgap hitem _ =>
    intro earlier item later heq
    obtain ⟨rfl, hcons⟩ | ⟨_, rfl, hcons⟩ := List.cons_eq_append_iff.1 heq
    · cases hcons
      exact ⟨_, _, _, _, htext, hgap, rfl, hitem, hfront⟩
    · simp at hcons
  | @token front gap literal after token tokens last htext hgap hitem hkind _ ih =>
    intro earlier item later heq
    obtain ⟨rfl, hcons⟩ | ⟨earlier, rfl, hcons⟩ := List.cons_eq_append_iff.1 heq
    · cases hcons
      exact ⟨_, _, _, _, htext, hgap, rfl, hitem, hfront⟩
    · have hfront' : '\n' ∉ front ++ gap ++ literal := by
        simp [hfront, hgap.not_mem_lineBreak, hitem.not_mem_lineBreak hkind]
      obtain ⟨before, gap', literal', after', htext', hgap', hstop, hitem', hbefore⟩ :=
        ih hfront' hcons
      refine ⟨before, gap', literal', after', htext', hgap', ?_, hitem', hbefore⟩
      obtain ⟨hoffset, hliteral⟩ := hitem.eq_of_ok
      rw [hstop, byteLength_append, ← hoffset, ← hliteral]
      rfl

/-- **Tokens come in order and apart:** each begins where the one before it stops or further on, and
none begins in front of where the reading does. -/
theorem pairwise (h : ReadsOn text front tokens last) :
    tokens.Pairwise (fun first second => first.span.stop ≤ second.offset) ∧
      ∀ token ∈ tokens, byteLength front ≤ token.offset := by
  induction h with
  | last => exact ⟨.nil, fun token htoken => by cases htoken⟩
  | @token front gap literal after token tokens last htext hgap hitem hkind _ ih =>
    obtain ⟨hoffset, hliteral⟩ := hitem.eq_of_ok
    have hstop : token.span.stop = byteLength (front ++ gap ++ literal) := by
      rw [byteLength_append, ← hoffset, ← hliteral]
      rfl
    have hstart : byteLength front ≤ token.offset := by
      rw [hoffset, byteLength_append]
      exact Nat.le_add_right _ _
    refine ⟨List.pairwise_cons.2 ⟨fun second hsecond => hstop ▸ ih.2 second hsecond, ih.1⟩,
      fun other hother => ?_⟩
    rcases List.mem_cons.1 hother with rfl | hother
    · exact hstart
    · have hle := ih.2 other hother
      rw [byteLength_append, byteLength_append] at hle
      omega

end ReadsOn

/-! ## Taking tokens until there are none -/

namespace Cursor

/-- What a cursor gives if tokens are taken from it until it gives none. -/
inductive Yields : Cursor → List Item → Prop
  | done {cursor after : Cursor} (h : next cursor = .ok none after) : Yields cursor []
  | token {cursor after : Cursor} {token : Token} {items : List Item}
      (h : next cursor = .ok (some token) after) (hafter : Yields after items) :
      Yields cursor (.ok token :: items)
  | error {cursor after : Cursor} {error : LexicalError} {items : List Item}
      (h : next cursor = .error (.lexical error) after) (hafter : Yields after items) :
      Yields cursor (.error error :: items)

/-- A cursor gives the same whenever it is asked: what `next` comes to says which of the three cases
it is. -/
theorem Yields.unique {cursor : Cursor} {first second : List Item} (hf : Yields cursor first)
    (hs : Yields cursor second) : first = second := by
  induction hf generalizing second with
  | done h =>
    cases hs with
    | done => rfl
    | token h' => rw [h] at h'; cases h'
    | error h' => rw [h] at h'; cases h'
  | token h _ ih =>
    cases hs with
    | done h' => rw [h] at h'; cases h'
    | token h' hafter =>
      rw [h] at h'
      cases h'
      rw [ih hafter]
    | error h' => rw [h] at h'; cases h'
  | error h _ ih =>
    cases hs with
    | done h' => rw [h] at h'; cases h'
    | token h' => rw [h] at h'; cases h'
    | error h' hafter =>
      rw [h] at h'
      cases h'
      rw [ih hafter]

/-- A finished cursor yields nothing more. -/
theorem yields_nil {cursor : Cursor} (hp : cursor.peeked = none) (hf : cursor.finished = true) :
    Yields cursor [] :=
  .done (by rw [next, hp, hf]; rfl)

/-- A cursor that holds no token back and is not finished reads the next token. -/
theorem next_of_unfinished {cursor : Cursor} (hp : cursor.peeked = none)
    (hf : cursor.finished = false) :
    next cursor = match fetch cursor with
      | .ok token after => .ok (some token) after
      | .error error after => .error error after := by
  rw [next, advance, hp, hf]
  rfl

/-- **A cursor in front of a text gives the items of the text.**  The last of them finishes the
cursor, which yields nothing more then. -/
theorem yields_itemsFrom {cursor : Cursor} (hp : cursor.peeked = none)
    (hf : cursor.finished = false) : Yields cursor (itemsFrom cursor.offset cursor.rest) := by
  induction hn : cursor.rest.length using Nat.strongRecOn generalizing cursor with
  | ind n ih =>
    subst hn
    have hnext := next_of_unfinished hp hf
    rw [itemsFrom_eq]
    cases hscan : scan cursor.offset cursor.rest with
    | error error =>
      have hfetch : fetch cursor = .error (.lexical error) cursor.skipRest := by
        rw [fetch, hscan]
      rw [hfetch] at hnext
      exact .error hnext (yields_nil hp rfl)
    | ok found =>
      obtain ⟨token, rest⟩ := found
      by_cases hend : token.kind = .endOfLine
      · have hfetch : fetch cursor = .ok token cursor.skipRest := by
          rw [fetch, hscan]
          exact if_pos hend
        rw [hfetch] at hnext
        simp only [if_pos hend]
        exact .token hnext (yields_nil hp rfl)
      · have hfetch : fetch cursor =
            .ok token { cursor with rest, offset := token.span.stop } := by
          rw [fetch, hscan]
          exact if_neg hend
        rw [hfetch] at hnext
        have hlt : rest.length < cursor.rest.length := (length_of_scan hscan).resolve_left hend
        simp only [if_neg hend]
        exact .token hnext
          (@ih rest.length hlt { cursor with rest, offset := token.span.stop } hp hf rfl)

/-- A new cursor gives the items of its line. -/
theorem yields_iff (line : Line) (found : List Item) :
    Yields (ofLine line) found ↔ found = items line.text := by
  have hitems : Yields (ofLine line) (items line.text) := yields_itemsFrom rfl rfl
  constructor
  · exact fun h => h.unique hitems
  · rintro rfl
    exact hitems

end Cursor

/-! ## Lines without tokens -/

/-- Whether a line is of spaces and carriage returns only, up to its line break or, if
there is none, to its end. -/
def IsBlankLine (text : List Char) : Prop := IsGap (text.takeWhile (· != '\n'))

instance (text : List Char) : Decidable (IsBlankLine text) :=
  inferInstanceAs (Decidable (∀ c ∈ text.takeWhile (· != '\n'), c = ' ' ∨ c = '\r'))

/-- A gap is in front of the first line break. -/
theorem IsGap.takeWhile_append {gap : List Char} (h : IsGap gap) (rest : List Char) :
    (gap ++ rest).takeWhile (· != '\n') = gap ++ rest.takeWhile (· != '\n') := by
  refine List.takeWhile_append_of_pos fun c hc => ?_
  rw [bne_iff_ne]
  rintro rfl
  exact h.not_mem_lineBreak hc

/-- The only item of a blank line is its end: the scan skips all in front of the first line break.
-/
theorem items_of_isBlankLine {text : List Char} (h : IsBlankLine text) :
    ∃ last, items text = [.ok last] ∧ last.kind = .endOfLine := by
  have hwhole := List.takeWhile_append_dropWhile (p := (· != '\n')) (l := text)
  have hscan := scan_gap h 0 (text.dropWhile (· != '\n'))
  rw [hwhole] at hscan
  rw [items, itemsFrom_eq, hscan]
  cases hrest : text.dropWhile (· != '\n') with
  | nil => exact ⟨_, rfl, rfl⟩
  | cons c rest =>
    have hhead : (text.dropWhile (· != '\n')).head? = some c := by rw [hrest]; rfl
    obtain rfl : c = '\n' := by simpa using not_of_head?_dropWhile hhead
    exact ⟨_, rfl, rfl⟩

/-- **A line has no tokens** in front of its end just when it is blank. -/
theorem items_eq_endOfLine_iff (text : List Char) :
    (∃ last, items text = [.ok last] ∧ last.kind = .endOfLine) ↔ IsBlankLine text := by
  refine ⟨?_, items_of_isBlankLine⟩
  rintro ⟨last, hitems, hkind⟩
  obtain ⟨tokens, last', hreads, h⟩ := exists_readsOn text [] text rfl
  have hone : tokens.map .ok ++ [last'] = [.ok last] := hreads.symm.trans hitems
  cases h with
  | token => simp at hone
  | last htext hgap hitem =>
    obtain rfl : last' = .ok last := by simpa using hone
    rw [IsBlankLine, htext, List.nil_append, List.append_assoc, hgap.takeWhile_append]
    cases hitem with
    | endOfText => simpa using hgap
    | lineBreak => simpa using hgap
    | symbol => cases hkind
    | number => cases hkind

end Reckoner
