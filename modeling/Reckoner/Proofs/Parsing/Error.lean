/-
# Where an error is

An error of a line is about the first item that the line cannot go on with
(`error_leftmost`): the tokens in front of it can go on to a sentence, and together with
it they cannot.  So behind a token that breaks a rule nothing is looked at, and behind a
lexical error nothing either.

A character that no token contains is such an item, and so a line with one has an error there
or in front of it (`expr?_of_isForeign`).

That the line cannot go on with an item is said of sentences (`Blocks`) and not of the automaton;
the automaton gets through exactly the viable tokens, so what it does not go on with is what the
line cannot go on with (`blocks_of_refuses`).
-/

import Reckoner.Proofs.Lexing.Foreign
import Reckoner.Proofs.Parsing.Line

namespace Reckoner

open Grammar Automaton

variable {line : Line}

/-- Whether a line whose tokens so far are of these kinds cannot go on with an item: an
error, an end of line that does not end a sentence, or a token behind which no sentence
is possible any more. -/
def Blocks (kinds : List Token.Kind) : Item → Prop
  | .error _ => True
  | .ok token =>
    if token.kind = .endOfLine then ∀ expr, ¬ IsSentence kinds expr
    else ¬ Viable (kinds ++ [token.kind])

/-- Whether an error is about an item: it is the lexical error that the item is, or it
names the span of the token that the item is. -/
def ParseError.IsAbout : ParseError → Item → Prop
  | .lexical error, item => item = .error error
  | .grammar error, item => ∃ token, item = .ok token ∧ error.span = token.span

/-- The first tokens of a viable sequence are viable. -/
theorem viable_of_append {first rest : List Token.Kind} (h : Viable (first ++ rest)) :
    Viable first := by
  obtain ⟨more, expr, hsentence⟩ := h
  rw [List.append_assoc] at hsentence
  exact ⟨rest ++ more, expr, hsentence⟩

/-- What the automaton does not go on with, a line cannot go on with. -/
theorem blocks_of_refuses {kinds : List Token.Kind} {state : Automaton.State} {item : Item}
    {error : ParseError} (hrun : run initial kinds = .ok state) (h : Refuses state item error) :
    Blocks kinds item ∧ error.IsAbout item := by
  cases h with
  | lexical error => exact ⟨trivial, rfl⟩
  | @finish token violation hkind hfinish =>
    refine ⟨?_, token, rfl, rfl⟩
    rw [Blocks, if_pos hkind]
    intro expr hsentence
    rw [run_of_isSentence hsentence] at hrun
    cases hrun
    cases hfinish
  | @step token violation hkind hstep =>
    refine ⟨?_, token, rfl, rfl⟩
    rw [Blocks, if_neg hkind, viable_iff]
    rintro ⟨last, hlast⟩
    obtain ⟨middle, hmiddle, hlast⟩ := run_append_eq_ok_iff.1 hlast
    rw [hmiddle] at hrun
    cases hrun
    have hsteps := run_singleton_eq_ok_iff.1 hlast
    rw [step_eq_ok_iff.2 hsteps] at hstep
    cases hstep

/-- A line that fails does so by the verdict of the automaton. -/
theorem judge_of_expr?_eq_error {error : ParseError} (h : line.expr? = .error error) :
    judge initial (items line.text) = .error error :=
  (expr?_eq_error_iff.1 h).2

/-- An error is about an item of its line. -/
theorem exists_isAbout_of_expr?_eq_error {error : ParseError} (h : line.expr? = .error error) :
    ∃ item ∈ items line.text, error.IsAbout item := by
  obtain ⟨tokens, item, later, middle, hitems, hrun, hrefuses⟩ :=
    exists_refuses_of_judge (judge_of_expr?_eq_error h)
  refine ⟨item, ?_, (blocks_of_refuses hrun hrefuses).2⟩
  rw [hitems]
  exact List.mem_append_right _ (List.mem_cons_self ..)

/-- An error has the place of the item that it is about. -/
theorem ParseError.IsAbout.span_eq {error : ParseError} {item : Item} (h : error.IsAbout item) :
    error.span = Item.span item := by
  cases error with
  | lexical error =>
    obtain rfl : item = .error error := h
    rfl
  | grammar error =>
    obtain ⟨token, rfl, hspan⟩ := h
    exact hspan

/-- **A line with a foreign character fails,** there or in front of it, and if it fails there it is
this character that the error names. -/
theorem expr?_of_isForeign {before after : List Char} {c : Char}
    (htext : line.text = before ++ c :: after) (hc : IsForeign c) (hbreak : '\n' ∉ before) :
    ∃ error, line.expr? = .error error ∧ error.span.offset ≤ byteLength before ∧
      (error.span.offset = byteLength before →
        error = .lexical (.invalidCharacter c (byteLength before))) := by
  obtain ⟨⟨tokens, lexical, hitems⟩, hbefore⟩ := @items_of_isForeign before after c hc hbreak
  rw [← htext] at hitems hbefore
  have hlast : ∀ {others : List Token} {last : Token},
      items line.text ≠ others.map .ok ++ [.ok last] := by
    intro others last heq
    have hsame := (List.append_inj' (hitems.symm.trans heq) rfl).2
    cases hsame
  rcases h : line.expr? with error | _ | expr
  · obtain ⟨item, hmem, habout⟩ := exists_isAbout_of_expr?_eq_error h
    obtain ⟨hle, hsame⟩ := hbefore item hmem
    refine ⟨error, rfl, habout.span_eq ▸ hle, fun hplace => ?_⟩
    obtain rfl := hsame (habout.span_eq ▸ hplace)
    cases error with
    | lexical error => rw [Except.error.inj habout]
    | grammar error =>
      obtain ⟨token, htoken, -⟩ := habout
      cases htoken
  · obtain ⟨last, hone, -⟩ := (items_eq_endOfLine_iff line.text).2 (expr?_eq_none_iff.1 h)
    exact absurd hone (@hlast [] last)
  · obtain ⟨others, last, -, hothers, -⟩ := expr?_eq_some_iff.1 h
    exact absurd hothers hlast

/-- **No item blocks in front of tokens that can go on to a sentence.**  An item further in front
would be one of these tokens, which are viable up to there and beyond. -/
theorem length_le_of_blocks {text : List Char} {tokens earlier : List Token}
    {item item' : Item} {later later' : List Item}
    (hitems : items text = tokens.map .ok ++ item :: later)
    (hviable : Viable (tokens.map Token.kind))
    (hitems' : items text = earlier.map .ok ++ item' :: later')
    (hblocks : Blocks (earlier.map Token.kind) item') : tokens.length ≤ earlier.length := by
  rcases List.append_eq_append_iff.1 (hitems'.symm.trans hitems) with
    ⟨between, htokens, hrest⟩ | ⟨between, hearlier, -⟩
  · cases between with
    | nil =>
      have hlength := congrArg List.length htokens
      simp at hlength
      omega
    | cons first between =>
      obtain ⟨rfl, -⟩ := List.cons.inj hrest
      obtain ⟨front, back, rfl, hfront, hback⟩ := List.map_eq_append_iff.1 htokens
      obtain ⟨token, more, rfl, rfl, -⟩ := List.map_eq_cons_iff.1 hback
      obtain rfl : front = earlier := map_ok_inj.1 hfront
      have hkind : token.kind ≠ .endOfLine := ne_endOfLine_of_items hitems token (by simp)
      have hsplit : (front ++ token :: more).map Token.kind =
          (front.map Token.kind ++ [token.kind]) ++ more.map Token.kind := by simp
      rw [hsplit] at hviable
      rw [Blocks, if_neg hkind] at hblocks
      exact absurd (viable_of_append hviable) hblocks
  · have hlength := congrArg List.length hearlier
    simp at hlength
    omega

/-- **An error is about the first item that the line cannot go on with.**  The tokens in
front of that item can go on to a sentence, and together with it they cannot. -/
theorem error_leftmost {error : ParseError} (h : line.expr? = .error error) :
    ∃ (tokens : List Token) (item : Item) (later : List Item),
      items line.text = tokens.map .ok ++ item :: later ∧
      Viable (tokens.map Token.kind) ∧ Blocks (tokens.map Token.kind) item ∧
      error.IsAbout item ∧
      ∀ (earlier : List Token) (item' : Item) (later' : List Item),
        items line.text = earlier.map .ok ++ item' :: later' →
        Blocks (earlier.map Token.kind) item' → tokens.length ≤ earlier.length := by
  obtain ⟨tokens, item, later, middle, hitems, hrun, hrefuses⟩ :=
    exists_refuses_of_judge (judge_of_expr?_eq_error h)
  have hviable : Viable (tokens.map Token.kind) := viable_iff.2 ⟨middle, hrun⟩
  obtain ⟨hblocks, habout⟩ := blocks_of_refuses hrun hrefuses
  exact ⟨tokens, item, later, hitems, hviable, hblocks, habout,
    fun earlier item' later' hitems' hblocks' =>
      length_le_of_blocks hitems hviable hitems' hblocks'⟩

/-- In `1 2 @` it is the second number that the line cannot go on with. -/
theorem error_leftmost_of_two_numbers :
    (Line.mk none ['1', ' ', '2', ' ', '@']).expr? =
      .error (.grammar ⟨.operatorWanted, ⟨2, 1⟩⟩) ∧
    ∃ (tokens : List Token) (item : Item) (later : List Item),
      items ['1', ' ', '2', ' ', '@'] = tokens.map .ok ++ item :: later ∧
      Viable (tokens.map Token.kind) ∧ Blocks (tokens.map Token.kind) item ∧
      (ParseError.grammar ⟨.operatorWanted, ⟨2, 1⟩⟩).IsAbout item ∧
      ∀ (earlier : List Token) (item' : Item) (later' : List Item),
        items ['1', ' ', '2', ' ', '@'] = earlier.map .ok ++ item' :: later' →
        Blocks (earlier.map Token.kind) item' → tokens.length ≤ earlier.length := by
  have h : (Line.mk none ['1', ' ', '2', ' ', '@']).expr? =
      .error (.grammar ⟨.operatorWanted, ⟨2, 1⟩⟩) := rfl
  exact ⟨h, error_leftmost h⟩

end Reckoner
