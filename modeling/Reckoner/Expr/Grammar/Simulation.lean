/-
# The rules of the grammar against the automaton

A rule of the grammar reads a tree and the automaton of `Reckoner.Expr.Automaton` reads none, but
on the same tokens they do the same: where the rule succeeds, the automaton has come as far with the
same counts, and where the rule fails, the automaton's verdict is the same error.  A rule `Reads` a
class of token lists if this holds from every state, and if what it takes derives the tree that it
gives.

The facts go up along the grammar: from a token (`factor_reads`) to chains (`joined_reads`), to
expressions at each depth (`expression_reads`) and to a line (`line_reads`).  Nothing is assumed of
the line.

What the automaton counts a rule has otherwise.  The operators are in the state of both.  The open
parentheses are how deep the rules have called each other, so that `opened` is a parameter of
`Reads` and goes up by one for the rule in a pair of parentheses.  Whether an operand is wanted is
where in a rule one is: in front of an operand (`Reads`), or behind one (`chain_agrees`).
-/

import Reckoner.Expr.Automaton
import Reckoner.Expr.Derivation
import Reckoner.Expr.Reading.Operator

namespace Reckoner
namespace Grammar

open Automaton (judge)

/-! ## Operators -/

/-- Whether a class of operators is that of the terms or that of the factors. -/
def IsClass (select : Symbol → Option Operator) : Prop :=
  select = additive ∨ select = multiplicative

/-- Whether an item is a token that is no operator of a class. -/
def Unselected (select : Symbol → Option Operator) : Item → Prop
  | .error _ => False
  | .ok token => token.kind.symbol?.bind select = none

/-- Behind an operand the automaton counts an operator of either class, and refuses it if it is
beyond the limit. -/
theorem judge_of_select {select : Symbol → Option Operator} (hc : IsClass select)
    {opened operators : Nat} {token : Token} {later : List Item} {operator : Operator}
    (hs : token.kind.symbol?.bind select = some operator) :
    judge ⟨false, opened, operators⟩ (.ok token :: later) =
      if operators < maxOperators then judge ⟨true, opened, operators + 1⟩ later
      else .error (.grammar ⟨.tooManyOperators, token.span⟩) := by
  obtain ⟨s, hkind, hsel⟩ := eq_symbol_of_select hs
  rw [judge, hkind]
  by_cases hn : operators < maxOperators <;> rcases hc with rfl | rfl <;> cases s <;> cases hsel <;>
    simp [hn, Automaton.step, Automaton.stepComplete]

/-! ## What a rule does -/

/-- A result that goes along with the automaton from where it was, with an operand
wanted or complete, to an item that is `done`.

A rule that succeeds has taken the tokens `consumed`, and the automaton comes through them to the
same counts with an operand complete, so that what it says of all that was upcoming is what it says
of the rest.  A rule that fails has the automaton's error, wherever it leaves the cursor. -/
inductive Agrees (derives : List Token.Kind → Expr → Prop) (done : Item → Prop) (opened : Nat)
    (wanted : Bool) (operators : Nat) (upcoming : List Item)
    (result : EStateM.Result ParseError State Expr) : Prop
  | ok (consumed : List Token) {expr : Expr} {after : State} {item : Item} {later : List Item}
      (hresult : result = .ok expr after)
      (hitems : upcoming = consumed.map .ok ++ item :: later)
      (hafter : after.cursor.upcoming = item :: later)
      (hderives : derives (consumed.map Token.kind) expr)
      (hdone : done item)
      (hle : operators ≤ after.operators)
      (hmax : after.operators ≤ maxOperators)
      (hjudge : judge ⟨wanted, opened, operators⟩ upcoming =
        judge ⟨false, opened, after.operators⟩ (item :: later))
  | error (after : State) {error : ParseError}
      (hresult : result = .error error after)
      (hjudge : judge ⟨wanted, opened, operators⟩ upcoming = .error error)

/-- A rule that, with so many parentheses open, takes tokens that derive the tree
it gives, up to an item that is `done`, or fails with the automaton's verdict. -/
def Reads (derives : List Token.Kind → Expr → Prop) (done : Item → Prop) (opened : Nat)
    (rule : Rule Expr) : Prop :=
  ∀ state : State, state.operators ≤ maxOperators →
    Agrees derives done opened true state.operators state.cursor.upcoming (rule state)

/-! ## Chains -/

section Chains

variable {select : Symbol → Option Operator} {operand : Rule Expr}
  {derives derivesOperand : List Token.Kind → Expr → Prop} {done : Item → Prop} {opened : Nat}

/-- **A chain behind its first operand** is read as the automaton reads it, from a state in which
there are more links left than operators.  The induction is on the links; each of them takes an
operator, which the automaton counts, and an operand, for which `Reads` is known.  That the links
last as long as the operators is what keeps the bound on a chain out of every statement from here
on. -/
theorem chain_agrees (hc : IsClass select) (hoperand : Reads derivesOperand done opened operand)
    (hjoin : ∀ {left right lhs rhs s operator}, derives left lhs → select s = some operator →
      derivesOperand right rhs → derives (left ++ .symbol s :: right) (.binary operator lhs rhs))
    (links : Nat) (first : Expr) (kinds : List Token.Kind) (state : State)
    (hfirst : derives kinds first) (hmax : state.operators ≤ maxOperators)
    (hlinks : maxOperators < links + state.operators)
    {item : Item} {later : List Item} (hup : state.cursor.upcoming = item :: later)
    (hdone : done item) :
    Agrees (fun more => derives (kinds ++ more)) (fun item => done item ∧ Unselected select item)
      opened false state.operators (item :: later) (chain select operand links first state) := by
  induction links generalizing first kinds state item later with
  | zero => omega
  | succ links ih =>
    cases item with
    | error error =>
      have hnext := @nextOperator_of_error _ _ state _ _ select hup
      exact .error _ (bind_eq_error_iff.2 (.inl hnext)) rfl
    | ok token =>
      cases hsel : token.kind.symbol?.bind select with
      | none =>
        obtain ⟨cursor, hnext, hafter⟩ := nextOperator_of_none state hup hsel
        exact .ok [] (bind_eq_ok_iff.2 ⟨_, _, hnext, rfl⟩) rfl hafter (by simpa using hfirst)
          ⟨hdone, hsel⟩ (Nat.le_refl _) hmax rfl
      | some operator =>
        by_cases hlt : state.operators < maxOperators
        · obtain ⟨cursor, hcursor, hnext⟩ := nextOperator_of_some state hup hsel hlt
          have hstep : judge ⟨false, opened, state.operators⟩ (.ok token :: later) =
              judge ⟨true, opened, state.operators + 1⟩ cursor.upcoming := by
            rw [judge_of_select hc hsel, if_pos hlt, hcursor]
          obtain ⟨s, hkind, hs⟩ := eq_symbol_of_select hsel
          -- The operand behind the operator, and then the links behind the operand.
          rcases hoperand ⟨cursor, state.operators + 1⟩ hlt with
            @⟨consumed, second, after, found, beyond, hr, hitems, hafter, hder, hfound, hle, hmax',
              hjudge⟩ | @⟨after, error, hr, hjudge⟩
          · dsimp only at hitems hle hjudge
            have hboth : derives (kinds ++ token.kind :: consumed.map Token.kind)
                (.binary operator first second) := by
              rw [hkind]
              exact hjoin hfirst hs hder
            rcases ih _ _ after hboth hmax' (by omega) hafter hfound with
              @⟨consumed', expr, last, found', beyond', hr', hitems', hafter', hder', hfound', hle',
                hmax'', hjudge'⟩ | @⟨last, error, hr', hjudge'⟩
            · refine .ok (token :: consumed ++ consumed')
                (bind_eq_ok_iff.2 ⟨_, _, hnext, bind_eq_ok_iff.2 ⟨_, _, hr, hr'⟩⟩)
                ?_ hafter' (by simpa using hder') hfound' (by omega) hmax''
                (hstep.trans (hjudge.trans hjudge'))
              rw [← hcursor, hitems, hitems']
              simp
            · exact .error last (bind_eq_error_iff.2 (.inr ⟨_, _, hnext, bind_eq_error_iff.2
                (.inr ⟨_, _, hr, hr'⟩)⟩)) (hstep.trans (hjudge.trans hjudge'))
          · exact .error after (bind_eq_error_iff.2 (.inr ⟨_, _, hnext,
              bind_eq_error_iff.2 (.inl hr)⟩)) (hstep.trans hjudge)
        · obtain ⟨cursor, -, hnext⟩ := nextOperator_of_full state hup hsel hlt
          exact .error _ (bind_eq_error_iff.2 (.inl hnext))
            (by rw [judge_of_select hc hsel, if_neg hlt])

/-- **Operands joined by operators of a class** are read as the automaton reads them if the operand
is.  What derives the operand derives the chain of one operand, and the rule that joins makes the
derivation of each longer one; a chain ends in front of an item that is no operator of its class. -/
theorem joined_reads (hc : IsClass select) (hoperand : Reads derivesOperand done opened operand)
    (hone : ∀ {kinds expr}, derivesOperand kinds expr → derives kinds expr)
    (hjoin : ∀ {left right lhs rhs s operator}, derives left lhs → select s = some operator →
      derivesOperand right rhs → derives (left ++ .symbol s :: right) (.binary operator lhs rhs)) :
    Reads derives (fun item => done item ∧ Unselected select item) opened
      (joined select operand) := by
  intro state hmax
  rcases hoperand state hmax with
    @⟨consumed, first, after, found, beyond, hr, hitems, hafter, hder, hfound, hle, hmax', hjudge⟩ |
    @⟨after, error, hr, hjudge⟩
  · rcases chain_agrees hc hoperand hjoin (maxOperators + 1) first _ after (hone hder) hmax'
        (by omega) hafter hfound with
      @⟨consumed', expr, last, found', beyond', hr', hitems', hafter', hder', hfound', hle', hmax'',
        hjudge'⟩ | @⟨last, error, hr', hjudge'⟩
    · refine .ok (consumed ++ consumed') (bind_eq_ok_iff.2 ⟨_, _, hr, hr'⟩) ?_ hafter'
        (by simpa using hder') hfound' (Nat.le_trans hle hle') hmax'' (hjudge.trans hjudge')
      rw [hitems, hitems']
      simp
    · exact .error last (bind_eq_error_iff.2 (.inr ⟨_, _, hr, hr'⟩)) (hjudge.trans hjudge')
  · exact .error after (bind_eq_error_iff.2 (.inl hr)) hjudge

end Chains

/-! ## Factors -/

/-- At a number a factor takes it, whatever may stand in parentheses. -/
theorem factor_of_number {inner : Option (Rule Expr)} {state : State} {token : Token}
    {later : List Item} {value : Int64} (h : state.cursor.upcoming = .ok token :: later)
    (hkind : token.kind = .number value) :
    ∃ cursor, factor inner state = .ok (.number value) { state with cursor } ∧
      cursor.upcoming = later := by
  obtain ⟨peeked, hpeek, hup⟩ := peek_of_token state h
  obtain ⟨cursor, hadvance, -, hlater⟩ := Cursor.advance_of_token hup
  refine ⟨cursor, bind_eq_ok_iff.2 ⟨_, _, hpeek, ?_⟩, hlater (by simp [hkind])⟩
  rw [hkind]
  exact bind_eq_ok_iff.2 ⟨_, _, liftM_of_ok { state with cursor := peeked } hadvance, rfl⟩

/-- At a token that is neither a number nor an opening parenthesis a factor says that an operand is
wanted. -/
theorem factor_of_other {inner : Option (Rule Expr)} {state : State} {token : Token}
    {later : List Item} (h : state.cursor.upcoming = .ok token :: later)
    (hnumber : ∀ value, token.kind ≠ .number value)
    (hleft : token.kind ≠ .symbol .leftParenthesis) :
    ∃ after, factor inner state = .error (.grammar ⟨.operandWanted, token.span⟩) after := by
  obtain ⟨peeked, hpeek, -⟩ := peek_of_token state h
  refine ⟨{ state with cursor := peeked }, bind_eq_error_iff.2 (.inr ⟨_, _, hpeek, ?_⟩)⟩
  rcases hkind : token.kind with value | s | _
  · exact absurd hkind (hnumber value)
  · cases s with
    | leftParenthesis => exact absurd hkind hleft
    | _ => rfl
  · rfl

/-- At an opening parenthesis a factor in which none may be opened says that the nesting is too
deep. -/
theorem factor_of_deep {state : State} {token : Token} {later : List Item}
    (h : state.cursor.upcoming = .ok token :: later)
    (hleft : token.kind = .symbol .leftParenthesis) :
    ∃ after, factor none state = .error (.grammar ⟨.nestedTooDeeply, token.span⟩) after := by
  obtain ⟨peeked, hpeek, -⟩ := peek_of_token state h
  refine ⟨{ state with cursor := peeked }, bind_eq_error_iff.2 (.inr ⟨_, _, hpeek, ?_⟩)⟩
  rw [hleft]
  rfl

/-- What is left of a group behind its opening parenthesis. -/
def groupRest (expression : Rule Expr) : Rule Expr := do
  let expr ← expression
  let _ ← Cursor.expect .rightParenthesis
  return expr

/-- At an opening parenthesis a factor takes it, and what is left is the group behind it. -/
theorem factor_of_group {rule : Rule Expr} {state : State} {token : Token} {later : List Item}
    (h : state.cursor.upcoming = .ok token :: later)
    (hleft : token.kind = .symbol .leftParenthesis) :
    ∃ cursor : Cursor, cursor.upcoming = later ∧
      factor (some rule) state = groupRest rule { state with cursor } := by
  obtain ⟨peeked, hpeek, hup⟩ := peek_of_token state h
  obtain ⟨cursor, hadvance, -, hlater⟩ := Cursor.advance_of_token hup
  refine ⟨cursor, hlater (by simp [hleft]), (bind_of_ok hpeek).trans ?_⟩
  rw [hleft]
  exact bind_of_ok (liftM_of_ok { state with cursor := peeked } hadvance)

/-- Whether an expression may end in front of an item: at the end of the line, or at a closing
parenthesis whether or not one is open. -/
def Closes : Item → Prop
  | .error _ => False
  | .ok token => token.kind = .endOfLine ∨ token.kind = .symbol .rightParenthesis

section Factor

variable {inner : Option (Rule Expr)} {opened : Nat} {state : State} {token : Token}
  {later : List Item}

/-- **A number** is taken by the rule and by the automaton, and an operand is complete behind it. -/
theorem agrees_of_number {value : Int64} (hup : state.cursor.upcoming = .ok token :: later)
    (hkind : token.kind = .number value) (hmax : state.operators ≤ maxOperators) :
    Agrees IsFactor (fun _ => True) opened true state.operators (.ok token :: later)
      (factor inner state) := by
  obtain ⟨cursor, hr, hcursor⟩ := @factor_of_number inner _ _ _ _ hup hkind
  rcases later with _ | ⟨item, later⟩
  · exact absurd hcursor (Cursor.upcoming_ne_nil _)
  refine .ok [token] hr rfl hcursor ?_ trivial (Nat.le_refl _) hmax ?_
  · simpa [hkind] using IsFactor.number value
  · simp [judge, Automaton.step, Automaton.stepWanted, hkind]

/-- **A group** is read as the automaton reads it if what stands in its parentheses is.  The rule
for that ends in front of what closes an expression, which need not be a parenthesis: at the end of
the line both refuse to go on. -/
theorem agrees_of_group {rule : Rule Expr} (hup : state.cursor.upcoming = .ok token :: later)
    (hleft : token.kind = .symbol .leftParenthesis) (hmax : state.operators ≤ maxOperators)
    (hlt : opened < maxNesting) (hrule : Reads IsExpression Closes (opened + 1) rule) :
    Agrees IsFactor (fun _ => True) opened true state.operators (.ok token :: later)
      (factor (some rule) state) := by
  obtain ⟨cursor, hcursor, hgroup⟩ := @factor_of_group rule _ _ _ hup hleft
  have hstep : judge ⟨true, opened, state.operators⟩ (.ok token :: later) =
      judge ⟨true, opened + 1, state.operators⟩ cursor.upcoming := by
    simp [judge, Automaton.step, Automaton.stepWanted, hleft, hlt, hcursor]
  rw [hgroup]
  rcases hrule { state with cursor } hmax with
    @⟨consumed, expr, after, found, beyond, hr, hitems, hafter, hder, hfound, hle, hmax', hjudge⟩ |
    @⟨after, error, hr, hjudge⟩
  · cases found with
    | error _ => exact absurd hfound id
    | ok close =>
      by_cases hright : close.kind = .symbol .rightParenthesis
      · obtain ⟨closed, hexpect, hclosed⟩ := Cursor.expect_of_eq hafter hright
        rcases beyond with _ | ⟨item, beyond⟩
        · exact absurd hclosed (Cursor.upcoming_ne_nil _)
        have hgroup : groupRest rule { state with cursor } =
            .ok expr { after with cursor := closed } :=
          bind_eq_ok_iff.2 ⟨_, _, hr, bind_of_ok (liftM_of_ok after hexpect)⟩
        refine .ok (token :: consumed ++ [close]) hgroup ?_ hclosed ?_ trivial hle hmax'
          (hstep.trans (hjudge.trans ?_))
        · rw [← hcursor, hitems]
          simp
        · simpa [hleft, hright] using IsFactor.group hder
        · simp [judge, Automaton.step, Automaton.stepComplete, hright]
      · obtain ⟨unclosed, hexpect, -⟩ := Cursor.expect_of_ne hafter hright
        have hend : close.kind = .endOfLine := hfound.resolve_right hright
        have hgroup : groupRest rule { state with cursor } =
            .error (.grammar ⟨.symbolWanted .rightParenthesis, close.span⟩)
              { after with cursor := unclosed } :=
          bind_eq_error_iff.2
            (.inr ⟨_, _, hr, bind_eq_error_iff.2 (.inl (liftM_of_error after hexpect))⟩)
        refine .error _ hgroup (hstep.trans (hjudge.trans ?_))
        simp [judge, Automaton.finish, hend]
  · exact .error after (bind_eq_error_iff.2 (.inl hr)) (hstep.trans hjudge)

/-- **Any other token** is refused by the rule and by the automaton, because an operand is wanted.
-/
theorem agrees_of_other (hup : state.cursor.upcoming = .ok token :: later)
    (hnumber : ∀ value, token.kind ≠ .number value)
    (hleft : token.kind ≠ .symbol .leftParenthesis) :
    Agrees IsFactor (fun _ => True) opened true state.operators (.ok token :: later)
      (factor inner state) := by
  obtain ⟨after, hr⟩ := @factor_of_other inner _ _ _ hup hnumber hleft
  refine .error after hr ?_
  rcases hkind : token.kind with value | s | _
  · exact absurd hkind (hnumber value)
  · cases s with
    | leftParenthesis => exact absurd hkind hleft
    | _ => simp [judge, Automaton.step, Automaton.stepWanted, hkind]
  · simp [judge, Automaton.finish, hkind]

end Factor

/-- **A factor** is read as the automaton reads it if the rule for what stands in
its parentheses is, and if there is no such rule only at the greatest depth.  The cases are those of
the first upcoming item: an error, a number, an opening parenthesis, and any other token. -/
theorem factor_reads {inner : Option (Rule Expr)} {opened : Nat}
    (hnone : inner = none → opened = maxNesting)
    (hsome : ∀ rule, inner = some rule →
      opened < maxNesting ∧ Reads IsExpression Closes (opened + 1) rule) :
    Reads IsFactor (fun _ => True) opened (factor inner) := by
  intro state hmax
  rcases hup : state.cursor.upcoming with _ | ⟨item, later⟩
  · exact absurd hup (Cursor.upcoming_ne_nil _)
  cases item with
  | error error =>
    exact .error _ (bind_peek_of_error state hup) rfl
  | ok token =>
    by_cases hnumber : ∃ value, token.kind = .number value
    · obtain ⟨value, hkind⟩ := hnumber
      exact agrees_of_number hup hkind hmax
    by_cases hleft : token.kind = .symbol .leftParenthesis
    · cases hinner : inner with
      | none =>
        -- With the last level used up as many parentheses are open as the automaton allows.
        obtain ⟨after, hr⟩ := factor_of_deep hup hleft
        refine .error after hr ?_
        simp [judge, Automaton.step, Automaton.stepWanted, hleft, hnone hinner]
      | some rule =>
        obtain ⟨hlt, hrule⟩ := hsome rule hinner
        exact agrees_of_group hup hleft hmax hlt hrule
    · exact agrees_of_other hup (fun value hkind => hnumber ⟨value, hkind⟩) hleft

/-! ## Expressions -/

/-- A token that goes on with no chain and ends none is a number or an opening parenthesis. -/
theorem stepComplete_of_unselected {opened operators : Nat} {token : Token}
    (ha : Unselected additive (.ok token)) (hm : Unselected multiplicative (.ok token))
    (hcloses : ¬ Closes (.ok token)) :
    Automaton.stepComplete opened operators token.kind = .error .operatorWanted := by
  rcases hkind : token.kind with value | s | _
  · rfl
  · cases s with
    | leftParenthesis => rfl
    | rightParenthesis => exact absurd (.inr hkind) hcloses
    | plus | minus => simp [Unselected, Token.Kind.symbol?, additive, hkind] at ha
    | asterisk | slash => simp [Unselected, Token.Kind.symbol?, multiplicative, hkind] at hm
  · exact absurd (.inl hkind) hcloses

/-- **Terms up to a closing parenthesis or the end of a line** are read as the automaton reads them
if factors are.  Both kinds of chain have ended where the rule looks at the next token, so that what
it refuses there can only be a number or an opening parenthesis, and the automaton refuses it with
the same words. -/
theorem terms_reads {inner : Option (Rule Expr)} {opened : Nat}
    (hfactor : Reads IsFactor (fun _ => True) opened (factor inner)) :
    Reads IsExpression Closes opened (terms inner) := by
  have hterm : Reads IsTerm _ opened (term inner) := joined_reads (.inr rfl) hfactor .factor .join
  have hterms : Reads IsExpression _ opened (joined additive (term inner)) :=
    joined_reads (.inl rfl) hterm .term .join
  intro state hmax
  rcases hterms state hmax with
    @⟨consumed, expr, after, found, beyond, hr, hitems, hafter, hder, hfound, hle, hmax', hjudge⟩ |
    @⟨after, error, hr, hjudge⟩
  · obtain ⟨⟨-, hmultiplicative⟩, hadditive⟩ := hfound
    cases found with
    | error _ => exact absurd hadditive id
    | ok token =>
      obtain ⟨cursor, hpeek, hcursor⟩ := peek_of_token after hafter
      by_cases hcloses : Closes (.ok token)
      · have hrun : terms inner state = .ok expr { after with cursor } := by
          refine bind_eq_ok_iff.2 ⟨_, _, hr, bind_eq_ok_iff.2 ⟨_, _, hpeek, ?_⟩⟩
          rcases hcloses with hkind | hkind <;> rw [hkind] <;> rfl
        exact .ok consumed hrun hitems hcursor hder hcloses hle hmax' hjudge
      · have hrun : terms inner state =
            .error (.grammar ⟨.operatorWanted, token.span⟩) { after with cursor } := by
          refine bind_eq_error_iff.2 (.inr ⟨_, _, hr, bind_eq_error_iff.2 (.inr ⟨_, _, hpeek, ?_⟩)⟩)
          rcases hkind : token.kind with value | s | _
          · rfl
          · cases s with
            | rightParenthesis => exact absurd (.inr hkind) hcloses
            | _ => rfl
          · exact absurd (.inl hkind) hcloses
        have hend : token.kind ≠ .endOfLine := fun hkind => hcloses (.inl hkind)
        refine .error _ hrun (hjudge.trans ?_)
        simp [judge, Automaton.step, hend,
          stepComplete_of_unselected hadditive hmultiplicative hcloses]
  · exact .error after (bind_eq_error_iff.2 (.inl hr)) hjudge

/-- **An expression at any depth** is read as the automaton reads it.  The induction is on the
levels that are left: each pair of parentheses takes one away and is one more that is open, and at
level 0 none may be opened. -/
theorem expression_reads {levels opened : Nat} (h : levels + opened = maxNesting) :
    Reads IsExpression Closes opened (expression levels) := by
  induction levels generalizing opened with
  | zero => exact terms_reads (factor_reads (fun _ => by omega) (fun _ h => by cases h))
  | succ levels ih =>
    refine terms_reads (factor_reads (fun h => by cases h) (fun rule hrule => ?_))
    cases hrule
    exact ⟨by omega, ih (by omega)⟩

/-! ## Lines -/

/-- What comes behind the first look at a line that is not empty. -/
def lineRest : Rule (Option Expr) := do
  let expr ← expression maxNesting
  let token ← Cursor.peek
  if token.kind = .endOfLine then return some expr
  else refuse .notOpened token

/-- A line that begins with its end is read as no expression. -/
theorem expr?_of_endOfLine {l : Line} {last : Token} {later : List Item}
    (hitems : items l.text = .ok last :: later) (hlast : last.kind = .endOfLine) :
    l.expr? = .ok none := by
  have hup : (State.mk (Cursor.ofLine l) 0).cursor.upcoming = .ok last :: later :=
    (Cursor.upcoming_ofLine l).trans hitems
  obtain ⟨cursor, hpeek, -⟩ := peek_of_token (State.mk (Cursor.ofLine l) 0) hup
  have hrun : line ⟨Cursor.ofLine l, 0⟩ = .ok none ⟨cursor, 0⟩ := by
    refine bind_eq_ok_iff.2 ⟨_, _, hpeek, ?_⟩
    rw [if_pos hlast]
    rfl
  rw [Line.expr?, hrun]

/-- What reading a line comes to, beside the automaton.  Either there are no tokens on
it; or its tokens derive the tree that it gives and the automaton accepts them; or it
fails, and the automaton's verdict is the same error. -/
inductive LineReads (l : Line) : Except ParseError (Option Expr) → Prop
  | blank {last : Token} (hlast : last.kind = .endOfLine) (hitems : items l.text = [.ok last]) :
      LineReads l (.ok none)
  | expression {expr : Expr} {tokens : List Token} {last : Token}
      (hlast : last.kind = .endOfLine) (hitems : items l.text = tokens.map .ok ++ [.ok last])
      (hderives : IsExpression (tokens.map Token.kind) expr)
      (hjudge : judge Automaton.initial (items l.text) = .ok ()) : LineReads l (.ok (some expr))
  | error {error : ParseError} (hjudge : judge Automaton.initial (items l.text) = .error error) :
      LineReads l (.error error)

/-- **A line is read as the automaton reads it.**  A line that begins with its end is blank;
otherwise an expression is read with no parenthesis open, and what it ends in front of is the end of
the line or a closing parenthesis that was never opened. -/
theorem line_reads (l : Line) : LineReads l l.expr? := by
  have hok : ∀ {expr after}, line ⟨Cursor.ofLine l, 0⟩ = .ok expr after → l.expr? = .ok expr :=
    fun h => by rw [Line.expr?, h]
  have herror : ∀ {error after}, line ⟨Cursor.ofLine l, 0⟩ = .error error after →
      l.expr? = .error error := fun h => by rw [Line.expr?, h]
  have hup : (State.mk (Cursor.ofLine l) 0).cursor.upcoming = items l.text :=
    Cursor.upcoming_ofLine l
  rcases hitems : items l.text with _ | ⟨item, later⟩
  · exact absurd hitems (itemsFrom_ne_nil _ _)
  rw [hitems] at hup
  cases item with
  | error error =>
    rw [herror (bind_peek_of_error (State.mk (Cursor.ofLine l) 0) hup)]
    exact .error (by rw [hitems]; rfl)
  | ok token =>
    obtain ⟨cursor, hpeek, hcursor⟩ := peek_of_token (State.mk (Cursor.ofLine l) 0) hup
    by_cases hend : token.kind = .endOfLine
    · obtain rfl := (@isLast_iff_of_itemsFrom _ _ [] _ _ hitems).1 hend
      rw [expr?_of_endOfLine hitems hend]
      exact .blank hend hitems
    -- The line is not blank: what is left of it has been looked at and nothing has been taken.
    have hrest : line ⟨Cursor.ofLine l, 0⟩ = lineRest ⟨cursor, 0⟩ := by
      refine (bind_of_ok hpeek).trans ?_
      rw [if_neg hend]
      rfl
    rcases @expression_reads maxNesting 0 rfl ⟨cursor, 0⟩ (Nat.zero_le _) with
      @⟨consumed, expr, after, found, beyond, hr, hfront, hafter, hder, hfound, -, -, hjudge⟩ |
      @⟨after, error, hr, hjudge⟩
    · dsimp only at hfront hjudge
      rw [hcursor] at hfront hjudge
      rw [← hitems] at hjudge
      cases found with
      | error _ => exact absurd hfound id
      | ok close =>
        obtain ⟨closed, hpeek', -⟩ := peek_of_token after hafter
        by_cases hkind : close.kind = .endOfLine
        · have hrun : lineRest ⟨cursor, 0⟩ = .ok (some expr) { after with cursor := closed } := by
            refine bind_eq_ok_iff.2 ⟨_, _, hr, bind_eq_ok_iff.2 ⟨_, _, hpeek', ?_⟩⟩
            rw [if_pos hkind]
            rfl
          obtain rfl := (isLast_iff_of_itemsFrom (hitems.trans hfront)).1 hkind
          rw [hok (hrest.trans hrun)]
          refine .expression hkind (hitems.trans hfront) hder (hjudge.trans ?_)
          simp [judge, Automaton.finish, hkind]
        · -- What closes an expression and is not the end of the line is a closing parenthesis.
          have hrun : lineRest ⟨cursor, 0⟩ =
              .error (.grammar ⟨.notOpened, close.span⟩) { after with cursor := closed } := by
            refine bind_eq_error_iff.2 (.inr ⟨_, _, hr,
              bind_eq_error_iff.2 (.inr ⟨_, _, hpeek', ?_⟩)⟩)
            rw [if_neg hkind]
            rfl
          rw [herror (hrest.trans hrun)]
          refine .error (hjudge.trans ?_)
          simp [judge, Automaton.step, Automaton.stepComplete, hfound.resolve_left hkind]
    · dsimp only at hjudge
      rw [hcursor, ← hitems] at hjudge
      have hrun : lineRest ⟨cursor, 0⟩ = .error error after := bind_eq_error_iff.2 (.inl hr)
      rw [herror (hrest.trans hrun)]
      exact .error hjudge

end Grammar
end Reckoner
