/-
# Lines without carriage returns

A line and the same line with its carriage returns deleted are read alike.  Their items
correspond one to one, they have the same expression or none and the same value, and where
one fails the other fails too, with the same message and the same advice at the place that
corresponds (`ignoresReturns`).

The items are the subject of `Reckoner.Proofs.Lexing.Returns`.  Whatever else is said about
a line is said about its items, because the automaton looks at nothing but kinds
(`judge_map_shifted`), and an error is about one of the items
(`exists_mem_items_of_expr?_eq_error`).

A place is shifted by the carriage returns in front of it (`Span.shifted`), and with its item an
error is shifted, with the error its diagnostic, and with this its labels.  That a shifted label
still covers what it did, without its carriage returns, is known of the items
(`exists_covers_of_mem_items`).
-/

import Reckoner.Diagnostic
import Reckoner.Line.Value
import Reckoner.Proofs.Lexing.Returns
import Reckoner.Proofs.Parsing.Line

namespace Reckoner

open Grammar Automaton

/-- A line with its carriage returns deleted. -/
def Line.withoutReturns (line : Line) : Line :=
  { line with text := Reckoner.withoutReturns line.text }

/-- What an error is once the carriage returns are deleted. -/
def ParseError.shifted (text : List Char) : ParseError → ParseError
  | lexical error => .lexical (error.shifted text)
  | grammar error => .grammar { error with span := error.span.shifted text }

/-- What the reason for having no value is once the carriage returns are deleted. -/
def LineError.shifted (text : List Char) : LineError → LineError
  | parse error => .parse (error.shifted text)
  | divisionByZero error => .divisionByZero error

/-- What a label is once the carriage returns are deleted. -/
def Label.shifted (text : List Char) (label : Label) : Label :=
  { label with span := label.span.shifted text }

/-- Whether a span of a text is that of a piece. -/
def Covers (text : List Char) (span : Span) (piece : List Char) : Prop :=
  StandsAt text span.offset piece ∧ byteLength piece = span.length

/-! ## The verdict -/

/-- **The verdict on shifted items is the shifted verdict.**  The induction is on the items; the
automaton sees the same kinds, and where it refuses one it names the span of the shifted item. -/
theorem judge_map_shifted {text : List Char} {state : Automaton.State} {found : List Item}
    (h : ∀ item ∈ found, Item.span (item.shifted text) = (Item.span item).shifted text) :
    judge state (found.map (Item.shifted text)) =
      (judge state found).mapError (ParseError.shifted text) := by
  induction found generalizing state with
  | nil => rfl
  | cons item later ih =>
    obtain ⟨hspan, hlater⟩ := List.forall_mem_cons.1 h
    cases item with
    | error error => rfl
    | ok token =>
      have hspan : (token.shifted text).span = token.span.shifted text := hspan
      rw [List.map_cons, Item.shifted, judge, judge]
      show (if token.kind = .endOfLine then _ else _) = _
      by_cases hkind : token.kind = .endOfLine
      · rw [if_pos hkind, if_pos hkind, hspan]
        cases finish state with
        | none => rfl
        | some violation => rfl
      · rw [if_neg hkind, if_neg hkind, hspan]
        have hstep : step state (token.shifted text).kind = step state token.kind := rfl
        rw [hstep]
        cases step state token.kind with
        | error violation => rfl
        | ok after => exact ih hlater

/-- The verdict on a text without its carriage returns. -/
theorem judge_withoutReturns (text : List Char) :
    judge initial (items (withoutReturns text)) =
      (judge initial (items text)).mapError (ParseError.shifted text) := by
  rw [items_withoutReturns]
  exact judge_map_shifted fun item hitem => span_shifted_of_mem_items hitem

/-! ## Expressions and values -/

/-- A text is blank just when it is so without its carriage returns. -/
theorem isBlankLine_withoutReturns (text : List Char) :
    IsBlankLine (withoutReturns text) ↔ IsBlankLine text := by
  rw [← items_eq_endOfLine_iff, ← items_eq_endOfLine_iff, items_withoutReturns]
  constructor
  · rintro ⟨last, hitems, hkind⟩
    obtain ⟨item, hitems, hitem⟩ := List.map_eq_singleton_iff.1 hitems
    cases item with
    | error error => cases hitem
    | ok token =>
      have hlast : token.shifted text = last := Except.ok.inj hitem
      exact ⟨token, hitems, by rw [← hlast] at hkind; exact hkind⟩
  · rintro ⟨last, hitems, hkind⟩
    exact ⟨last.shifted text, by rw [hitems]; rfl, hkind⟩

/-- **The expression on a line** is that on the line without its carriage returns, and so
is the error. -/
theorem expr?_withoutReturns (line : Line) :
    line.withoutReturns.expr? = line.expr?.mapError (ParseError.shifted line.text) := by
  have hblank := isBlankLine_withoutReturns line.text
  rcases h : line.expr? with error | _ | expr
  · obtain ⟨hne, hjudge⟩ := expr?_eq_error_iff.1 h
    refine expr?_eq_error_iff.2 ⟨fun hb => hne (hblank.1 hb), ?_⟩
    show judge initial (items (withoutReturns line.text)) = _
    rw [judge_withoutReturns, hjudge]
    rfl
  · exact expr?_eq_none_iff.2 (hblank.2 (expr?_eq_none_iff.1 h))
  · obtain ⟨tokens, last, hlast, hitems, hsentence⟩ := expr?_eq_some_iff.1 h
    refine expr?_eq_some_iff.2
      ⟨tokens.map (Token.shifted line.text), last.shifted line.text, hlast, ?_, ?_⟩
    · show items (withoutReturns line.text) = _
      rw [items_withoutReturns, hitems, List.map_append, map_shifted_ok]
      rfl
    · have hkinds : (tokens.map (Token.shifted line.text)).map Token.kind =
          tokens.map Token.kind := by
        rw [List.map_map]
        rfl
      rwa [hkinds]

/-- **The value of a line** is that of the line without its carriage returns. -/
theorem value?_withoutReturns (line : Line) :
    line.withoutReturns.value? = line.value?.mapError (LineError.shifted line.text) := by
  have hexpr := expr?_withoutReturns line
  rcases h : line.expr? with error | _ | expr
  · rw [h] at hexpr
    rw [Line.value?_eq_parse_iff.2 h, Line.value?_eq_parse_iff.2 hexpr]
    rfl
  · rw [h] at hexpr
    rw [Line.value?, Line.value?, hexpr, h]
    rfl
  · rw [h] at hexpr
    rw [Line.value?_of_expr? h, Line.value?_of_expr? hexpr]
    cases expr.value with
    | ok value => rfl
    | error error => rfl

/-! ## Diagnostics -/

/-- **An error is about an item of the line.** -/
theorem exists_mem_items_of_expr?_eq_error {line : Line} {error : ParseError}
    (h : line.expr? = .error error) : ∃ item ∈ items line.text,
      error.span = Item.span item ∧
        (error.shifted line.text).span = Item.span (item.shifted line.text) := by
  obtain ⟨-, hjudge⟩ := expr?_eq_error_iff.1 h
  obtain ⟨tokens, item, later, middle, hitems, -, hrefuses⟩ := exists_refuses_of_judge hjudge
  have hmem : item ∈ items line.text := by
    rw [hitems]
    exact List.mem_append_right _ (List.mem_cons_self ..)
  refine ⟨item, hmem, ?_⟩
  cases hrefuses with
  | lexical error => exact ⟨rfl, rfl⟩
  | finish => exact ⟨rfl, (span_shifted_of_mem_items hmem).symm⟩
  | step => exact ⟨rfl, (span_shifted_of_mem_items hmem).symm⟩

/-- A piece of a text that an item covers is covered by the shifted item once the carriage
returns are deleted from both. -/
theorem exists_covers_of_mem_items {text : List Char} {item : Item} (h : item ∈ items text) :
    ∃ piece, Covers text (Item.span item) piece ∧
      Covers (withoutReturns text) (Item.span (item.shifted text)) (withoutReturns piece) := by
  obtain ⟨front, literal, after, rfl, hitem⟩ := exists_standsAt_of_mem_items h
  refine ⟨literal, ?_, ?_⟩
  · rw [hitem.span_eq]
    exact ⟨⟨front, after, rfl, rfl⟩, rfl⟩
  · rw [hitem.withoutReturns.span_eq]
    refine ⟨⟨withoutReturns front, withoutReturns after, ?_, rfl⟩, rfl⟩
    rw [withoutReturns_append, withoutReturns_append]

/-- What is said of an error does not depend on its place. -/
theorem message_shifted (text : List Char) (error : ParseError) :
    (error.shifted text).message = error.message ∧ (error.shifted text).help = error.help ∧
      (error.shifted text).label = error.label := by
  cases error with
  | grammar error => exact ⟨rfl, rfl, rfl⟩
  | lexical error =>
    cases error with
    | invalidCharacter character offset => exact ⟨rfl, rfl, rfl⟩
    | numberOutOfRange literal => exact ⟨rfl, rfl, rfl⟩

/-- What a line without its carriage returns is, beside the line itself. -/
structure IgnoresReturns (line : Line) : Prop where
  /-- Taking tokens gives the same ones, with shifted places, and ends in the same way; what
  an item covers, its literal, loses its carriage returns. -/
  yields : ∃ found, (∀ other, (Cursor.ofLine line).Yields other ↔ other = found) ∧
    (∀ other, (Cursor.ofLine line.withoutReturns).Yields other ↔
      other = found.map (Item.shifted line.text)) ∧
    ∀ item ∈ found, ∃ piece, Covers line.text (Item.span item) piece ∧
      Covers line.withoutReturns.text (Item.span (item.shifted line.text))
        (Reckoner.withoutReturns piece)
  /-- The expression is the same, or the error is the shifted one. -/
  expr? : line.withoutReturns.expr? = line.expr?.mapError (ParseError.shifted line.text)
  /-- So is the value, or the error. -/
  value? : line.withoutReturns.value? = line.value?.mapError (LineError.shifted line.text)
  /-- What is said of an error stays, and its labels are shifted with what they cover. -/
  diagnostic : ∀ error, line.value? = .error error →
    ∃ before after, before = error.diagnostic line ∧
      after = (error.shifted line.text).diagnostic line.withoutReturns ∧
      after.message = before.message ∧ after.help = before.help ∧
      after.labels = before.labels.map (Label.shifted line.text) ∧
      ∀ label ∈ before.labels, ∃ piece, Covers line.text label.span piece ∧
        Covers line.withoutReturns.text (label.shifted line.text).span
          (Reckoner.withoutReturns piece)

/-- The diagnostic of an error that is about an item. -/
theorem diagnostic_shifted {line : Line} {error : ParseError} (h : line.expr? = .error error) :
    ((error.shifted line.text).diagnostic line.withoutReturns).labels =
        (error.diagnostic line).labels.map (Label.shifted line.text) ∧
      ∀ label ∈ (error.diagnostic line).labels, ∃ piece, Covers line.text label.span piece ∧
        Covers line.withoutReturns.text (label.shifted line.text).span
          (Reckoner.withoutReturns piece) := by
  obtain ⟨item, hmem, hspan, hshifted⟩ := exists_mem_items_of_expr?_eq_error h
  have hmoved : (error.shifted line.text).span = error.span.shifted line.text := by
    rw [hshifted, span_shifted_of_mem_items hmem, hspan]
  refine ⟨?_, fun label hlabel => ?_⟩
  · show [(⟨_, _⟩ : Label)] = [⟨_, _⟩]
    rw [hmoved, (message_shifted line.text error).2.2]
  · obtain rfl : label = ⟨error.span, error.label⟩ := List.mem_singleton.1 hlabel
    obtain ⟨piece, hbefore, hafter⟩ := exists_covers_of_mem_items hmem
    rw [← hspan] at hbefore
    rw [← hshifted, hmoved] at hafter
    exact ⟨piece, hbefore, hafter⟩

/-- **Carriage returns are invisible.**  Any line is read as it is without them, and what is said
about it is said about the same part of it. -/
theorem ignoresReturns (line : Line) : IgnoresReturns line := by
  constructor
  · refine ⟨items line.text, Cursor.yields_iff line, fun other => ?_,
      fun item hitem => exists_covers_of_mem_items hitem⟩
    rw [Cursor.yields_iff, ← items_withoutReturns]
    rfl
  · exact expr?_withoutReturns line
  · exact value?_withoutReturns line
  · intro error herror
    refine ⟨_, _, rfl, rfl, ?_⟩
    cases error with
    | divisionByZero error => exact ⟨rfl, rfl, rfl, fun label hlabel => by cases hlabel⟩
    | parse error =>
      have hexpr : line.expr? = .error error := Line.value?_eq_parse_iff.1 herror
      obtain ⟨hmessage, hhelp, -⟩ := message_shifted line.text error
      obtain ⟨hlabels, hcovers⟩ := diagnostic_shifted hexpr
      exact ⟨hmessage, congrArg some hhelp, hlabels, hcovers⟩

end Reckoner
