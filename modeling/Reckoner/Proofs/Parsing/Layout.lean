/-
# Lines that are written out differently

A text is a layout of some tokens just when these are what is read from it, with an end of line
behind them (`isLayout_iff`).  So two layouts of the same tokens are read alike
(`reads_layout`): they have the same expression and the same value, or both have none, and where
one of them has an error the other one has the same error about the token with the same number.
The places of the tokens are all that a layout changes, and the automaton looks at nothing but
kinds (`judge_agrees`).

Two results agree if they are the same or are errors that correspond (`Agrees`), and errors
correspond if the same rule is broken by tokens with the same number (`ParseError.SameRule`).  There
are no lexical errors among them: a layout has tokens only.
-/

import Mathlib.Data.List.Forall2
import Reckoner.Line.Value
import Reckoner.Proofs.Lexing.Seams
import Reckoner.Proofs.Parsing.Line

namespace Reckoner

open Grammar Automaton

/-! ## What a layout is read as -/

/-- **A number in decimal is spelled** with any number of zeros in front and with carriage returns
between its digits. -/
theorem isSpelling_of_zeros {value : Int64} {literal : List Char} {n zeros : Nat}
    (hhead : ∃ c, literal.head? = some c ∧ c.isDigit)
    (hlast : ∃ c, literal.getLast? = some c ∧ c.isDigit)
    (hmem : ∀ c ∈ literal, c.isDigit ∨ c = '\r') (hvalue : value.toInt = n)
    (hdigits : literal.filter Char.isDigit = List.replicate zeros '0' ++ Decimal.ofNat n) :
    IsSpelling value literal := by
  refine ⟨hhead, hlast, hmem, hvalue.trans (congrArg Int.ofNat ?_)⟩
  rw [digitsValue, hdigits]
  -- A zero in front of digits adds nothing to what they denote.
  have hzeros : ∀ count, Decimal.value (List.replicate count '0' ++ Decimal.ofNat n) = n := by
    intro count
    induction count with
    | zero => exact Decimal.value_ofNat n
    | succ count ih => exact ih
  exact (hzeros zeros).symm

/-- What comes of a line whose tokens are of some kinds: tokens of these kinds, an end of line, and
nothing more. -/
structure Gives (line : Line) (kinds : List Token.Kind) (tokens : List Token) : Prop where
  /-- The tokens are of these kinds, and the last one is an end of line. -/
  kinds_eq : tokens.map Token.kind = kinds ++ [.endOfLine]
  /-- They are what is taken from the line until there are none left. -/
  yields_iff : ∀ found, (Cursor.ofLine line).Yields found ↔ found = tokens.map .ok

variable {kinds : List Token.Kind}

/-- What a line gives is all that is read from it. -/
theorem Gives.items_eq {line : Line} {tokens : List Token} (h : Gives line kinds tokens) :
    items line.text = tokens.map .ok :=
  (h.yields_iff _).1 ((Cursor.yields_iff line _).2 rfl)

/-- **The layouts of some tokens** are the texts that these tokens are read from.  That a layout is
read as its tokens is known already; the other way, what has been read to the end of a line is a
layout of what has been found. -/
theorem isLayout_iff {line : Line} :
    IsLayout kinds line.text ↔ ∃ tokens, Gives line kinds tokens := by
  constructor
  · intro h
    obtain ⟨tokens, last, hitems, hlast, rfl⟩ := h.items_eq
    refine ⟨tokens ++ [last], by simp [hlast], fun found => ?_⟩
    rw [Cursor.yields_iff, hitems, List.map_append]
    rfl
  · rintro ⟨tokens, h⟩
    obtain ⟨others, item, hothers, hreads⟩ := exists_readsOn line.text [] line.text rfl
    have hitems : tokens.map Except.ok = others.map .ok ++ [item] := h.items_eq.symm.trans hothers
    obtain ⟨last, rfl, rfl⟩ := exists_eq_append_of_map_ok hitems
    have hkinds := h.kinds_eq
    rw [List.map_append] at hkinds
    rw [← (List.append_inj' hkinds rfl).1]
    exact hreads.isLayout rfl

/-! ## Results that differ in places only -/

/-- Whether two results are the same, or errors that are related. -/
inductive Agrees {ε α : Type} (related : ε → ε → Prop) : Except ε α → Except ε α → Prop
  | ok (a : α) : Agrees related (.ok a) (.ok a)
  | error {first second : ε} (h : related first second) :
      Agrees related (.error first) (.error second)

/-- Whether two errors are that the tokens with some number break the same rule. -/
inductive ParseError.SameRule (first second : List Token) : ParseError → ParseError → Prop
  | grammar (violation : Violation) {token other : Token} (h : (token, other) ∈ first.zip second) :
      SameRule first second (.grammar ⟨violation, token.span⟩) (.grammar ⟨violation, other.span⟩)

/-- Whether two lines have no value for the same reason. -/
inductive LineError.SameReason (first second : List Token) : LineError → LineError → Prop
  | parse {error other : ParseError} (h : error.SameRule first second other) :
      SameReason first second (.parse error) (.parse other)
  | divisionByZero (error : DivisionByZero) :
      SameReason first second (.divisionByZero error) (.divisionByZero error)

/-- Results that agree up to one relation agree up to a wider one. -/
theorem Agrees.imp {ε α : Type} {related other : ε → ε → Prop} {first second : Except ε α}
    (h : Agrees related first second) (himp : ∀ e e', related e e' → other e e') :
    Agrees other first second := by
  cases h with
  | ok a => exact .ok a
  | error h => exact .error (himp _ _ h)

/-- A token in front of both sequences moves the place of the error by one in each. -/
theorem ParseError.SameRule.cons {first second : List Token} {error error' : ParseError}
    (h : error.SameRule first second error') (token other : Token) :
    error.SameRule (token :: first) (other :: second) error' := by
  cases h with
  | grammar violation h => exact .grammar violation (List.mem_cons_of_mem _ h)

/-- **The verdict on tokens** depends on their places in its own place only.  The induction is on
both sequences, from any state: the automaton makes the same step at both first tokens or refuses
both for the same reason. -/
theorem judge_agrees {first second : List Token}
    (h : first.map Token.kind = second.map Token.kind) (state : Automaton.State) :
    Agrees (ParseError.SameRule first second) (judge state (first.map .ok))
      (judge state (second.map .ok)) := by
  induction first generalizing second state with
  | nil =>
    obtain rfl : second = [] := List.map_eq_nil_iff.1 h.symm
    exact .ok ()
  | cons token first ih =>
    obtain ⟨other, second, rfl, hkind, hkinds⟩ := List.map_eq_cons_iff.1 h.symm
    have hmem : (token, other) ∈ (token :: first).zip (other :: second) := List.mem_cons_self
    rw [List.map_cons, List.map_cons, judge, judge, hkind]
    by_cases hend : token.kind = .endOfLine
    · rw [if_pos hend, if_pos hend]
      cases finish state with
      | none => exact .ok ()
      | some violation => exact .error (.grammar violation hmem)
    · rw [if_neg hend, if_neg hend]
      cases step state token.kind with
      | error violation => exact .error (.grammar violation hmem)
      | ok after => exact (ih hkinds.symm after).imp fun _ _ hsame => hsame.cons token other

/-! ## Expressions and values -/

namespace Gives

variable {line : Line} {tokens : List Token}

/-- The tokens are those of the kinds and an end of line. -/
theorem exists_append (h : Gives line kinds tokens) :
    ∃ front last, tokens = front ++ [last] ∧ front.map Token.kind = kinds ∧
      last.kind = .endOfLine := by
  obtain ⟨front, back, htokens, hfront, hback⟩ := List.map_eq_append_iff.1 h.kinds_eq
  obtain ⟨last, rfl, hlast⟩ := List.map_eq_singleton_iff.1 hback
  exact ⟨front, last, htokens, hfront, hlast⟩

/-- A line is blank just when it gives no tokens but its end. -/
theorem isBlankLine_iff (h : Gives line kinds tokens) : IsBlankLine line.text ↔ kinds = [] := by
  obtain ⟨front, last, rfl, rfl, hlast⟩ := h.exists_append
  rw [← items_eq_endOfLine_iff, h.items_eq, List.map_append, List.map_eq_nil_iff]
  constructor
  · rintro ⟨other, hitems, -⟩
    exact List.map_eq_nil_iff.1 (List.append_inj' (hitems.trans (List.nil_append _).symm) rfl).1
  · rintro rfl
    exact ⟨last, rfl, hlast⟩

/-- **A line is read as the tree of the sentence that it gives,** wherever its tokens stand. -/
theorem expr?_eq_some_iff (h : Gives line kinds tokens) {expr : Expr} :
    line.expr? = .ok (some expr) ↔ IsSentence kinds expr := by
  obtain ⟨front, last, rfl, rfl, hlast⟩ := h.exists_append
  have hitems : items line.text = front.map .ok ++ [.ok last] := by
    rw [h.items_eq, List.map_append]
    rfl
  rw [Reckoner.expr?_eq_some_iff]
  constructor
  · rintro ⟨others, last', -, hothers, hsentence⟩
    rwa [tokens_eq_of_items hitems hothers]
  · exact fun hsentence => ⟨front, last, hlast, hitems, hsentence⟩

end Gives

section Results

variable {first second : Line} {tokens others : List Token}

/-- **What a line is read as** depends on its kinds, and an error on the places beside.  A blank
line has no kinds, so that one line is blank just when the other is. -/
theorem expr?_agrees (hfirst : Gives first kinds tokens) (hsecond : Gives second kinds others) :
    Agrees (ParseError.SameRule tokens others) first.expr? second.expr? := by
  rcases h : first.expr? with error | _ | expr
  · obtain ⟨hblank, hjudge⟩ := expr?_eq_error_iff.1 h
    have hagrees := judge_agrees (hfirst.kinds_eq.trans hsecond.kinds_eq.symm) initial
    rw [← hfirst.items_eq, ← hsecond.items_eq, hjudge] at hagrees
    generalize hother : judge initial (items second.text) = result at hagrees
    cases hagrees with
    | error hsame =>
      have hblank' : ¬ IsBlankLine second.text := fun hblank' =>
        hblank (hfirst.isBlankLine_iff.2 (hsecond.isBlankLine_iff.1 hblank'))
      rw [expr?_eq_error_iff.2 ⟨hblank', hother⟩]
      exact .error hsame
  · have hblank := hfirst.isBlankLine_iff.1 (expr?_eq_none_iff.1 h)
    rw [expr?_eq_none_iff.2 (hsecond.isBlankLine_iff.2 hblank)]
    exact .ok none
  · rw [hsecond.expr?_eq_some_iff.2 (hfirst.expr?_eq_some_iff.1 h)]
    exact .ok (some expr)

/-- Lines that are read alike have the same value. -/
theorem value?_agrees (h : Agrees (ParseError.SameRule tokens others) first.expr? second.expr?) :
    Agrees (LineError.SameReason tokens others) first.value? second.value? := by
  rw [Line.value?, Line.value?]
  generalize first.expr? = found, second.expr? = result at h ⊢
  cases h with
  | error hsame => exact .error (.parse hsame)
  | ok found =>
    cases found with
    | none => exact .ok none
    | some expr =>
      dsimp only
      cases expr.value with
      | ok value => exact .ok (some value)
      | error error => exact .error (.divisionByZero error)

end Results

/-- **However some tokens are written out,** these tokens and an end of line are what is read, and
the line has the same expression and the same value.  If it has none, then for the same reason. -/
theorem reads_layout {first second : Line} (hfirst : IsLayout kinds first.text)
    (hsecond : IsLayout kinds second.text) :
    ∃ tokens others, Gives first kinds tokens ∧ Gives second kinds others ∧
      Agrees (ParseError.SameRule tokens others) first.expr? second.expr? ∧
      Agrees (LineError.SameReason tokens others) first.value? second.value? := by
  obtain ⟨tokens, htokens⟩ := isLayout_iff.1 hfirst
  obtain ⟨others, hothers⟩ := isLayout_iff.1 hsecond
  have hagrees := expr?_agrees htokens hothers
  exact ⟨tokens, others, htokens, hothers, hagrees, value?_agrees hagrees⟩

/-- Two numbers, and a layout of them with a zero, carriage returns and text behind a line break:
in either line it is the second number that cannot stand. -/
theorem reads_layout_of_two_numbers :
    IsLayout [.number 7, .number 7] ['7', ' ', '7'] ∧
    IsLayout [.number 7, .number 7] ['0', '\r', '7', '\r', ' ', '7', '\n', '?'] ∧
    ∃ tokens others, Gives ⟨none, ['7', ' ', '7']⟩ [.number 7, .number 7] tokens ∧
      Gives ⟨none, ['0', '\r', '7', '\r', ' ', '7', '\n', '?']⟩ [.number 7, .number 7] others ∧
      Agrees (ParseError.SameRule tokens others) (Line.mk none ['7', ' ', '7']).expr?
        (Line.mk none ['0', '\r', '7', '\r', ' ', '7', '\n', '?']).expr? ∧
      Agrees (LineError.SameReason tokens others) (Line.mk none ['7', ' ', '7']).value?
        (Line.mk none ['0', '\r', '7', '\r', ' ', '7', '\n', '?']).value? := by
  have hspace : IsGap [' '] := fun c hc => .inl (List.mem_singleton.1 hc)
  have hreturn : IsGap ['\r'] := fun c hc => .inr (List.mem_singleton.1 hc)
  have hseven : IsSpelling 7 ['7'] :=
    @isSpelling_of_zeros 7 ['7'] 7 0 ⟨'7', rfl, rfl⟩ ⟨'7', rfl, rfl⟩ (by simp) rfl rfl
  have hzero : IsSpelling 7 ['0', '\r', '7'] :=
    @isSpelling_of_zeros 7 ['0', '\r', '7'] 7 1 ⟨'0', rfl, rfl⟩ ⟨'7', rfl, rfl⟩
      (by simp) rfl rfl
  have hfirst : IsLayout [.number 7, .number 7] ['7', ' ', '7'] :=
    .number isGap_nil hseven (fun _ _ _ => ⟨[], ['7'], rfl, isGap_nil⟩)
      (.number hspace hseven (fun _ _ hnext => by cases hnext) (.finish isGap_nil))
  have hsecond : IsLayout [.number 7, .number 7] ['0', '\r', '7', '\r', ' ', '7', '\n', '?'] :=
    .number isGap_nil hzero (fun _ _ _ => ⟨['\r'], ['7', '\n', '?'], rfl, hreturn⟩)
      (.number (List.forall_mem_append.2 ⟨hreturn, hspace⟩) hseven
        (fun _ _ hnext => by cases hnext) (.lineBreak isGap_nil ['?']))
  exact ⟨hfirst, hsecond, @reads_layout _ ⟨none, _⟩ ⟨none, _⟩ hfirst hsecond⟩

end Reckoner
