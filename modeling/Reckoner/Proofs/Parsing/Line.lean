/-
# What a line is read as

A line is read as an expression just when its tokens up to an end of line are a
sentence of the grammar, and then as the tree of this sentence; it is read as no
expression just when it is blank; and in every other case there is an error
(`expr?_iff`).

That the rules of the grammar and the automaton agree on a line is known from
`Reckoner.Expr.Grammar.Simulation`, that no tokens derive two trees from
`Reckoner.Proofs.Sentence.TwoStacks`, and that the trees of chains are folded to
the left from `Reckoner.Proofs.Sentence.Chain`.
-/

import Reckoner.Expr.Grammar.Simulation
import Reckoner.Proofs.Lexing.Items
import Reckoner.Proofs.Parsing.Verdict
import Reckoner.Proofs.Sentence.Chain
import Reckoner.Proofs.Sentence.TwoStacks

namespace Reckoner

open Grammar Automaton

/-- Tokens in front of the last item of a text are no end of line. -/
theorem ne_endOfLine_of_items {text : List Char} {tokens : List Token} {item : Item}
    {later : List Item} (h : items text = tokens.map .ok ++ item :: later) :
    ∀ token ∈ tokens, token.kind ≠ .endOfLine := by
  intro token htoken hkind
  obtain ⟨earlier, others, rfl⟩ := List.append_of_mem htoken
  have hsplit : itemsFrom 0 text =
      earlier.map .ok ++ .ok token :: (others.map .ok ++ item :: later) := by
    rw [← items, h]
    simp
  have := (isLast_iff_of_itemsFrom hsplit).1 hkind
  simp at this

/-- Two sequences of tokens, each with one item behind it, are the same sequence. -/
theorem tokens_eq_of_items {text : List Char} {first second : List Token} {last last' : Token}
    (hf : items text = first.map .ok ++ [.ok last])
    (hs : items text = second.map .ok ++ [.ok last']) : first = second :=
  map_ok_inj.1 (List.append_inj' (hf.symm.trans hs) rfl).1

/-- A sentence has a token. -/
theorem not_isSentence_nil {expr : Expr} : ¬ IsSentence [] expr := by
  intro h
  have hrun := run_of_isSentence h
  cases hrun

variable {line : Line}

/-- **A line is read as the tree of the sentence on it,** and as no other.  The rules give a tree
that the tokens derive, the automaton has kept the limits, and no tokens derive two trees. -/
theorem expr?_eq_some_iff {expr : Expr} :
    line.expr? = .ok (some expr) ↔
      ∃ (tokens : List Token) (last : Token), last.kind = .endOfLine ∧
        items line.text = tokens.map .ok ++ [.ok last] ∧
        IsSentence (tokens.map Token.kind) expr := by
  have hreads := line_reads line
  constructor
  · intro h
    rw [h] at hreads
    cases hreads with
    | @expression _ tokens last hlast hitems hderives hjudge =>
      rw [hitems, judge_eq_ok_iff hlast (ne_endOfLine_of_items hitems)] at hjudge
      obtain ⟨other, hsentence⟩ := hjudge
      obtain rfl := hsentence.isExpression.unique hderives
      exact ⟨tokens, last, hlast, hitems, hsentence⟩
  · rintro ⟨tokens, last, hlast, hitems, hsentence⟩
    have haccepted : judge initial (items line.text) = .ok () := by
      rw [hitems]
      exact (judge_eq_ok_iff hlast (ne_endOfLine_of_items hitems)).2 ⟨expr, hsentence⟩
    generalize line.expr? = found at hreads
    cases hreads with
    | blank _ hitems' =>
      obtain rfl : tokens = [] := tokens_eq_of_items hitems hitems'
      exact absurd hsentence not_isSentence_nil
    | expression _ hitems' hderives =>
      obtain rfl := tokens_eq_of_items hitems hitems'
      rw [hderives.unique hsentence.isExpression]
    | error hjudge =>
      rw [haccepted] at hjudge
      cases hjudge

/-- **A line is read as no expression** just when it is blank. -/
theorem expr?_eq_none_iff : line.expr? = .ok none ↔ IsBlankLine line.text := by
  rw [← items_eq_endOfLine_iff]
  constructor
  · intro h
    have hreads := line_reads line
    rw [h] at hreads
    cases hreads with
    | @blank last hlast hitems => exact ⟨last, hitems, hlast⟩
  · rintro ⟨last, hitems, hlast⟩
    exact expr?_of_endOfLine hitems hlast

/-- **A line that is not blank fails** just when the automaton refuses its items, and then
with the same error. -/
theorem expr?_eq_error_iff {error : ParseError} :
    line.expr? = .error error ↔
      ¬ IsBlankLine line.text ∧ judge initial (items line.text) = .error error := by
  have hreads := line_reads line
  constructor
  · intro h
    refine ⟨fun hblank => ?_, ?_⟩
    · rw [expr?_eq_none_iff.2 hblank] at h
      cases h
    · rw [h] at hreads
      cases hreads with
      | error hjudge => exact hjudge
  · rintro ⟨hblank, hjudge⟩
    rcases h : line.expr? with found | _ | expr
    · rw [h] at hreads
      cases hreads with
      | error hfound =>
        rw [hjudge] at hfound
        rw [Except.error.inj hfound]
    · exact absurd (expr?_eq_none_iff.1 h) hblank
    · rw [h] at hreads
      cases hreads with
      | expression _ _ _ haccepted =>
        rw [haccepted] at hjudge
        cases hjudge

/-- **What a line is read as.**  It is the tree of the sentence on the line, or no
expression if the line is blank, and an error in every other case.  A sentence is an
expression within the limits: an expression is a chain of terms and a term a chain of
factors, and the tree of a chain is folded to the left. -/
theorem expr?_iff (line : Line) :
    (∀ expr, line.expr? = .ok (some expr) ↔
      ∃ (tokens : List Token) (last : Token), last.kind = .endOfLine ∧
        items line.text = tokens.map .ok ++ [.ok last] ∧
        IsSentence (tokens.map Token.kind) expr) ∧
    (line.expr? = .ok none ↔ IsBlankLine line.text) ∧
    ((∃ error, line.expr? = .error error) ↔
      ¬ IsBlankLine line.text ∧
      ¬ ∃ (tokens : List Token) (last : Token) (expr : Expr), last.kind = .endOfLine ∧
        items line.text = tokens.map .ok ++ [.ok last] ∧
        IsSentence (tokens.map Token.kind) expr) ∧
    (∀ kinds expr, IsExpression kinds expr ↔ IsChain additive IsTerm kinds expr) ∧
    ∀ kinds expr, IsTerm kinds expr ↔ IsChain multiplicative IsFactor kinds expr := by
  refine ⟨fun expr => expr?_eq_some_iff, expr?_eq_none_iff, ?_,
    fun _ _ => isExpression_iff_isChain, fun _ _ => isTerm_iff_isChain⟩
  constructor
  · rintro ⟨error, herror⟩
    constructor
    · intro hblank
      rw [expr?_eq_none_iff.2 hblank] at herror
      cases herror
    · rintro ⟨tokens, last, expr, hsentence⟩
      rw [expr?_eq_some_iff.2 ⟨tokens, last, hsentence⟩] at herror
      cases herror
  · rintro ⟨hblank, hsentence⟩
    rcases h : line.expr? with error | _ | expr
    · exact ⟨error, rfl⟩
    · exact absurd (expr?_eq_none_iff.1 h) hblank
    · obtain ⟨tokens, last, hread⟩ := expr?_eq_some_iff.1 h
      exact absurd ⟨tokens, last, expr, hread⟩ hsentence

end Reckoner
