/-
# Lines inside lines

If the text of a number is replaced by another line in parentheses, the new line is read as the
expression of the old one with the expression of the other line for its leaf there
(`expr?_of_replaced`), as long as there is room for the parentheses that are open and for the
operators of both.  So a line that has the value of the number can take its place, and the value
of the whole, or the division by zero in it, stays what it is.

Three things are put together: the tokens of the new line are those of the old one with the others
in the place of the number (`ReadsOn.exchange`), what derives a tree does so with an expression in
parentheses in the place of a number, and evaluation looks at nothing of a leaf but its value.
-/

import Reckoner.Line.Value
import Reckoner.Proofs.Lexing.Seams
import Reckoner.Proofs.Parsing.Line
import Reckoner.Proofs.Sentence.Substitution

namespace Reckoner

open Grammar

/-- The token that an item is, an end of line apart. -/
def Item.token? : Item → Option Token
  | .ok token => if token.kind = .endOfLine then none else some token
  | .error _ => none

/-- The tokens of a line, its end apart. -/
def Line.tokens (line : Line) : List Token := (items line.text).filterMap Item.token?

/-- The kinds of the tokens of a line. -/
def Line.kinds (line : Line) : List Token.Kind := line.tokens.map Token.kind

section Tokens

variable {line : Line} {expr : Expr}

/-- Tokens in front of the end of a line are the tokens of the line. -/
theorem filterMap_token? {tokens : List Token} (h : ∀ token ∈ tokens, token.kind ≠ .endOfLine) :
    (tokens.map Except.ok).filterMap Item.token? = tokens := by
  induction tokens with
  | nil => rfl
  | cons token tokens ih =>
    obtain ⟨hkind, htokens⟩ := List.forall_mem_cons.1 h
    have htoken : Item.token? (.ok token) = some token := if_neg hkind
    rw [List.map_cons, List.filterMap_cons_some htoken, ih htokens]

/-- What is read from a line that is accepted are its tokens and an end of line. -/
theorem exists_readsOn_tokens (h : line.expr? = .ok (some expr)) :
    ∃ last : Token, ReadsOn line.text [] line.tokens (.ok last) ∧ IsSentence line.kinds expr := by
  obtain ⟨tokens, last, hlast, hitems, hsentence⟩ := expr?_eq_some_iff.1 h
  obtain ⟨others, item, hothers, hreads⟩ := exists_readsOn line.text [] line.text rfl
  obtain ⟨hsame, hitem⟩ := List.append_inj' (hitems.symm.trans hothers) rfl
  obtain rfl : tokens = others := map_ok_inj.1 hsame
  obtain rfl : .ok last = item := (List.cons.inj hitem).1
  have hend : Item.token? (.ok last) = none := if_pos hlast
  have htokens : line.tokens = tokens := by
    rw [Line.tokens, hitems, List.filterMap_append, filterMap_token? hreads.isLast.2,
      List.filterMap_cons_none hend, List.filterMap_nil, List.append_nil]
  rw [Line.kinds, htokens]
  exact ⟨last, hreads, hsentence⟩

end Tokens

/-- **A line in parentheses can be written in the place of a number.**  Where the number stands
tells the text around it, and the leaf that is exchanged has as many leaves in front of it as there
are numbers in front of the number. -/
theorem expr?_of_replaced {line part : Line} {expr new : Expr} {earlier later : List Token}
    {token : Token} {value : Int64} (hline : line.expr? = .ok (some expr))
    (htokens : line.tokens = earlier ++ token :: later) (hkind : token.kind = .number value)
    (hpart : part.expr? = .ok (some new)) (hbreak : '\n' ∉ part.text)
    (hnests : opened (earlier.map Token.kind) + 1 + nesting part.kinds ≤ maxNesting)
    (hcount : operatorCount line.kinds + operatorCount part.kinds ≤ maxOperators)
    (filename : Option String) :
    ∃ before after, line.text = before ++ token.literal ++ after ∧
      byteLength before = token.offset ∧
      Line.expr? ⟨filename, before ++ '(' :: (part.text ++ ')' :: after)⟩ =
        .ok (some (expr.withLeaf (numbers (earlier.map Token.kind)).length new)) ∧
      (part.value? = .ok (some value) →
        Line.value? ⟨filename, before ++ '(' :: (part.text ++ ')' :: after)⟩ = line.value?) := by
  obtain ⟨last, hreads, hsentence⟩ := exists_readsOn_tokens hline
  obtain ⟨partLast, hpartReads, hpartSentence⟩ := exists_readsOn_tokens hpart
  obtain ⟨before, after, hwhole, hoffset, hothers, hexchange⟩ := hreads.exchange htokens
  have hlater : IsLayout (later.map Token.kind) after := hothers.isLayout hwhole
  have hinner : IsLayout part.kinds part.text := hpartReads.isLayout rfl
  have hgroup := (hinner.append_symbol hbreak .rightParenthesis hlater).symbol_cons .leftParenthesis
  obtain ⟨found, last', hnew, hlast', hfound⟩ := hexchange .leftParenthesis _ _ hgroup
  have hkinds : line.kinds =
      earlier.map Token.kind ++ .number value :: later.map Token.kind := by
    rw [Line.kinds, htokens, List.map_append, List.map_cons, hkind]
  rw [hkinds] at hsentence hcount
  have hexpr : Line.expr? ⟨filename, before ++ '(' :: (part.text ++ ')' :: after)⟩ =
      .ok (some (expr.withLeaf (numbers (earlier.map Token.kind)).length new)) := by
    refine expr?_eq_some_iff.2 ⟨earlier ++ found, last', hlast', hnew.items_eq, ?_⟩
    rw [List.map_append, hfound]
    exact hsentence.exchange hpartSentence hnests hcount
  refine ⟨before, after, by simpa using hwhole, by simpa using hoffset, hexpr, fun hvalue => ?_⟩
  have hleaf : expr.leaves[(numbers (earlier.map Token.kind)).length]? = some value := by
    rw [← hsentence.isExpression.of_closed closed_leaves, numbers_append, numbers_cons_number]
    simp
  have hsame : new.value = (Expr.number value).value := by
    rw [Line.value?_of_expr? hpart] at hvalue
    cases hnew : new.value with
    | ok found =>
      rw [hnew] at hvalue
      cases hvalue
      rfl
    | error error =>
      rw [hnew] at hvalue
      cases hvalue
  rw [Line.value?_of_expr? hexpr, Line.value?_of_expr? hline, Expr.value_withLeaf hsame,
    Expr.withLeaf_self hleaf]

/-- In `7-10*(8)` the `10` can be written as `4+6`: the second leaf becomes a sum, and the value
is the same. -/
theorem expr?_of_replaced_ten :
    (Line.mk none ['7', '-', '1', '0', '*', '(', '8', ')']).tokens =
      [⟨.number 7, ['7'], 0⟩, ⟨.symbol .minus, ['-'], 1⟩] ++ ⟨.number 10, ['1', '0'], 2⟩ ::
        [⟨.symbol .asterisk, ['*'], 4⟩, ⟨.symbol .leftParenthesis, ['('], 5⟩,
          ⟨.number 8, ['8'], 6⟩, ⟨.symbol .rightParenthesis, [')'], 7⟩] ∧
    '\n' ∉ ['4', '+', '6'] ∧
    Line.expr? ⟨none, ['7', '-', '(', '4', '+', '6', ')', '*', '(', '8', ')']⟩ =
      .ok (some (.binary .subtract (.number 7)
        (.binary .multiply (.binary .add (.number 4) (.number 6)) (.number 8)))) ∧
    Line.value? ⟨none, ['7', '-', '(', '4', '+', '6', ')', '*', '(', '8', ')']⟩ =
      Line.value? ⟨none, ['7', '-', '1', '0', '*', '(', '8', ')']⟩ := by
  have hline : Line.expr? ⟨none, ['7', '-', '1', '0', '*', '(', '8', ')']⟩ =
      .ok (some (.binary .subtract (.number 7) (.binary .multiply (.number 10) (.number 8)))) := by
    decide +kernel
  have htokens : (Line.mk none ['7', '-', '1', '0', '*', '(', '8', ')']).tokens =
      [⟨.number 7, ['7'], 0⟩, ⟨.symbol .minus, ['-'], 1⟩] ++ ⟨.number 10, ['1', '0'], 2⟩ ::
        [⟨.symbol .asterisk, ['*'], 4⟩, ⟨.symbol .leftParenthesis, ['('], 5⟩,
          ⟨.number 8, ['8'], 6⟩, ⟨.symbol .rightParenthesis, [')'], 7⟩] := by
    decide +kernel
  have hpart : Line.expr? ⟨none, ['4', '+', '6']⟩ =
      .ok (some (.binary .add (.number 4) (.number 6))) := by
    decide +kernel
  have hvalue : Line.value? ⟨none, ['4', '+', '6']⟩ = .ok (some 10) := by decide +kernel
  have hbreak : '\n' ∉ ['4', '+', '6'] := by decide
  obtain ⟨before, after, htext, hplace, hreplaced, hsame⟩ := expr?_of_replaced hline htokens rfl
    hpart hbreak (by decide +kernel) (by decide +kernel) none
  -- The place of the number tells the text in front of it.
  obtain ⟨rfl, hbehind⟩ : before = ['7', '-'] ∧
      ['1', '0'] ++ after = ['1', '0'] ++ ['*', '(', '8', ')'] :=
    append_inj_of_byteLength (by simpa using htext.symm) hplace
  obtain rfl : after = ['*', '(', '8', ')'] := List.append_cancel_left hbehind
  exact ⟨htokens, hbreak, hreplaced, hsame hvalue⟩

end Reckoner
