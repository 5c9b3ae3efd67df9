/-
# The steps of a descent

What a step does is decided by the first upcoming item, and there are twelve cases
(`moves_step`).  In the last two the descent ends with an error: `refused` with the item that was
not taken, for one of the reasons in `Refuses`, and `full` with the operator beyond the limit,
which has been taken before the counter is compared.  Everything that is said about a descent later
is said of these cases, and no step is opened again.

There is one lemma for each control (`moves_start`, `moves_factor`, and for a part that has been
read `moves_nil`, `moves_group` and `moves_chain`, by the innermost call).  Each of them works out
the move on the first upcoming item and hands the result to `step_of_ok` or `step_of_error`.

Each step leaves less to do than there was (`Moves.potential_le`), so that the items of the line
bound how long a descent can go on.
-/

import Reckoner.Expr.Descent
import Reckoner.Expr.Grammar.Simulation

namespace Reckoner
namespace Descent

open Grammar

/-- A cursor that is moved opens no parenthesis. -/
@[simp] theorem depth_moveTo (state : Descent) (cursor : Cursor) :
    (HoldsCursor.moveTo state cursor).depth = state.depth := rfl

/-- A token that is no end of line is taken, and noted. -/
theorem take_of_token {state : Descent} {token : Token} {later : List Item}
    (h : state.cursor.upcoming = .ok token :: later) (hkind : token.kind ≠ .endOfLine) :
    ∃ cursor, take state = .ok () { state with cursor, taken := state.taken ++ [token] } ∧
      cursor.upcoming = later := by
  obtain ⟨cursor, hadvance, -, hlater⟩ := Cursor.advance_of_token h
  exact ⟨cursor, bind_eq_ok_iff.2 ⟨token, _, liftM_of_ok state hadvance, rfl⟩, hlater hkind⟩

/-! ## What a step does -/

/-- Why a descent does not go on with an item. -/
inductive Refuses (state : Descent) : Item → ParseError → Prop
  /-- Something that is no token stands in the way of every rule. -/
  | lexical {error : LexicalError} (hlive : ∀ result, state.control ≠ .done result) :
      Refuses state (.error error) (.lexical error)
  /-- A factor begins with a number or an opening parenthesis. -/
  | operandWanted {token : Token} (hcontrol : state.control = .read .factor)
      (hnumber : ∀ value, token.kind ≠ .number value)
      (hopening : token.kind ≠ .symbol .leftParenthesis) :
      Refuses state (.ok token) (.grammar ⟨.operandWanted, token.span⟩)
  /-- As many parentheses are open as may be. -/
  | nestedTooDeeply {token : Token} (hcontrol : state.control = .read .factor)
      (hkind : token.kind = .symbol .leftParenthesis) (hdepth : state.depth = maxNesting) :
      Refuses state (.ok token) (.grammar ⟨.nestedTooDeeply, token.span⟩)
  /-- Behind a sum there is what closes it. -/
  | operatorWanted {token : Token} {expr : Expr} {before : Option (Expr × Operator)}
      {calls : List Call} (hcontrol : state.control = .give expr)
      (hcalls : state.calls = .chain .sum before :: calls)
      (hs : Unselected additive (.ok token)) (hcloses : ¬ Closes (.ok token)) :
      Refuses state (.ok token) (.grammar ⟨.operatorWanted, token.span⟩)
  /-- Behind an expression in parentheses there is the closing one. -/
  | notClosed {token : Token} {expr : Expr} {calls : List Call}
      (hcontrol : state.control = .give expr) (hcalls : state.calls = .group :: calls)
      (hkind : token.kind ≠ .symbol .rightParenthesis) :
      Refuses state (.ok token) (.grammar ⟨.symbolWanted .rightParenthesis, token.span⟩)
  /-- Behind the expression of the line there is nothing more. -/
  | notOpened {token : Token} {expr : Expr} (hcontrol : state.control = .give expr)
      (hcalls : state.calls = []) (hkind : token.kind ≠ .endOfLine) :
      Refuses state (.ok token) (.grammar ⟨.notOpened, token.span⟩)

/-- **What a descent can do next.**  Each case says under which control and with which calls it
comes about, what is in front then, and what all fields of the state are afterwards; of the cursor
it says what is upcoming. -/
inductive Moves (state : Descent) : Descent → Prop
  /-- What is done stays as it is. -/
  | rest {result : Except ParseError (Option Expr)} (hcontrol : state.control = .done result) :
      Moves state state
  /-- A chain calls the rule of its first operand. -/
  | call {chain : Chain} (hcontrol : state.control = .read (.chain chain)) :
      Moves state
        { state with
          control := .read chain.operand
          calls := .chain chain none :: state.calls }
  /-- A line without tokens has no expression. -/
  | blank {token : Token} {later : List Item} {cursor : Cursor} (hcontrol : state.control = .start)
      (hfront : state.cursor.upcoming = .ok token :: later) (hkind : token.kind = .endOfLine) :
      Moves state { state with control := .done (.ok none), cursor }
  /-- A line with tokens is read as a sum. -/
  | begin {token : Token} {later : List Item} {cursor : Cursor} (hcontrol : state.control = .start)
      (hfront : state.cursor.upcoming = .ok token :: later) (hkind : token.kind ≠ .endOfLine)
      (hcursor : cursor.upcoming = .ok token :: later) :
      Moves state { state with control := .read (.chain .sum), cursor }
  /-- A number is taken, and given as a leaf. -/
  | number {token : Token} {later : List Item} {cursor : Cursor} {value : Int64}
      (hcontrol : state.control = .read .factor)
      (hfront : state.cursor.upcoming = .ok token :: later) (hkind : token.kind = .number value)
      (hcursor : cursor.upcoming = later) :
      Moves state
        { state with
          control := .give (.number value)
          cursor
          taken := state.taken ++ [token] }
  /-- An opening parenthesis is taken and counted, and a sum is called. -/
  | opened {token : Token} {later : List Item} {cursor : Cursor}
      (hcontrol : state.control = .read .factor)
      (hfront : state.cursor.upcoming = .ok token :: later)
      (hkind : token.kind = .symbol .leftParenthesis) (hdepth : state.depth ≠ maxNesting)
      (hcursor : cursor.upcoming = later) :
      Moves state
        { state with
          control := .read (.chain .sum)
          calls := .group :: state.calls
          cursor
          depth := state.depth + 1
          taken := state.taken ++ [token] }
  /-- An operator is taken and counted, and another operand is called. -/
  | linked {token : Token} {later : List Item} {cursor : Cursor} {expr : Expr} {chain : Chain}
      {before : Option (Expr × Operator)} {calls : List Call} {operator : Operator}
      (hcontrol : state.control = .give expr) (hcalls : state.calls = .chain chain before :: calls)
      (hfront : state.cursor.upcoming = .ok token :: later)
      (hs : token.kind.symbol?.bind chain.select = some operator)
      (hlt : state.operators < maxOperators) (hcursor : cursor.upcoming = later) :
      Moves state
        { state with
          control := .read chain.operand
          calls := .chain chain (some (join before expr, operator)) :: calls
          cursor
          operators := state.operators + 1
          taken := state.taken ++ [token] }
  /-- A chain without a further operator gives what it has read. -/
  | ended {token : Token} {later : List Item} {cursor : Cursor} {expr : Expr} {chain : Chain}
      {before : Option (Expr × Operator)} {calls : List Call}
      (hcontrol : state.control = .give expr) (hcalls : state.calls = .chain chain before :: calls)
      (hfront : state.cursor.upcoming = .ok token :: later)
      (hs : Unselected chain.select (.ok token)) (hcloses : chain = .sum → Closes (.ok token))
      (hcursor : cursor.upcoming = .ok token :: later) :
      Moves state { state with control := .give (join before expr), calls, cursor }
  /-- A closing parenthesis is taken, and there is one less open. -/
  | closed {token : Token} {later : List Item} {cursor : Cursor} {expr : Expr} {calls : List Call}
      (hcontrol : state.control = .give expr) (hcalls : state.calls = .group :: calls)
      (hfront : state.cursor.upcoming = .ok token :: later)
      (hkind : token.kind = .symbol .rightParenthesis) (hcursor : cursor.upcoming = later) :
      Moves state
        { state with
          control := .give expr
          calls
          cursor
          depth := state.depth - 1
          taken := state.taken ++ [token] }
  /-- The expression is followed by the end of the line. -/
  | accepted {token : Token} {later : List Item} {cursor : Cursor} {expr : Expr}
      (hcontrol : state.control = .give expr) (hcalls : state.calls = [])
      (hfront : state.cursor.upcoming = .ok token :: later) (hkind : token.kind = .endOfLine) :
      Moves state { state with control := .done (.ok (some expr)), cursor }
  /-- An item is refused, and stays where it is. -/
  | refused {item : Item} {later : List Item} {error : ParseError} {cursor : Cursor}
      (hfront : state.cursor.upcoming = item :: later) (hrefuses : Refuses state item error) :
      Moves state { state with control := .done (.error error), cursor }
  /-- An operator is taken that is one too many. -/
  | full {token : Token} {later : List Item} {cursor : Cursor} {expr : Expr} {chain : Chain}
      {before : Option (Expr × Operator)} {calls : List Call} {operator : Operator}
      (hcontrol : state.control = .give expr) (hcalls : state.calls = .chain chain before :: calls)
      (hfront : state.cursor.upcoming = .ok token :: later)
      (hs : token.kind.symbol?.bind chain.select = some operator)
      (hfull : ¬ state.operators < maxOperators) (hcursor : cursor.upcoming = later) :
      Moves state
        { state with
          control := .done (.error (.grammar ⟨.tooManyOperators, token.span⟩))
          cursor
          operators := state.operators + 1
          taken := state.taken ++ [token] }

section Step

variable {state after : Descent} {now next : Control} {error : ParseError} {token : Token}
  {later : List Item}

/-- A step is its move where the move succeeds, and what the move gives is done next. -/
theorem step_of_ok (hcontrol : state.control = now) (h : move now state = .ok next after) :
    state.step = { after with control := next } := by
  rw [step, hcontrol, h]

/-- A step whose move fails ends the reading with the error of the move. -/
theorem step_of_error (hcontrol : state.control = now) (h : move now state = .error error after) :
    state.step = { after with control := .done (.error error) } := by
  rw [step, hcontrol, h]

/-- Something is always in front. -/
theorem exists_front (state : Descent) : ∃ item later, state.cursor.upcoming = item :: later :=
  List.exists_cons_of_ne_nil (Cursor.upcoming_ne_nil _)

/-- **The beginning of a line** is decided by the first item: an end of line makes the line blank,
any other token is left to the sum that is called, and an error is the error of the line. -/
theorem moves_start (hcontrol : state.control = .start) : Moves state state.step := by
  obtain ⟨item, later, hfront⟩ := exists_front state
  cases item with
  | error error =>
    rw [step_of_error hcontrol (bind_peek_of_error state hfront)]
    exact .refused hfront (.lexical (by simp [hcontrol]))
  | ok token =>
    obtain ⟨cursor, hpeek, hcursor⟩ := peek_of_token state hfront
    by_cases hkind : token.kind = .endOfLine
    · have hmove : move .start state = .ok (.done (.ok none)) { state with cursor } := by
        refine bind_eq_ok_iff.2 ⟨_, _, hpeek, ?_⟩
        rw [if_pos hkind]
        rfl
      rw [step_of_ok hcontrol hmove]
      exact .blank hcontrol hfront hkind
    · have hmove : move .start state = .ok (.read (.chain .sum)) { state with cursor } := by
        refine bind_eq_ok_iff.2 ⟨_, _, hpeek, ?_⟩
        rw [if_neg hkind]
        rfl
      rw [step_of_ok hcontrol hmove]
      exact .begin hcontrol hfront hkind hcursor

/-- What a factor does at a number: it looks at it first, so that the cursor holds the number when
it is taken. -/
theorem moves_number {value : Int64} (hcontrol : state.control = .read .factor)
    (hfront : state.cursor.upcoming = .ok token :: later) (hkind : token.kind = .number value) :
    Moves state state.step := by
  obtain ⟨peeked, hpeek, hup⟩ := peek_of_token state hfront
  obtain ⟨cursor, htake, hcursor⟩ :=
    @take_of_token { state with cursor := peeked } _ _ hup (by simp [hkind])
  have hmove : move (.read .factor) state = .ok (.give (.number value))
      { state with cursor, taken := state.taken ++ [token] } := by
    refine bind_eq_ok_iff.2 ⟨_, _, hpeek, ?_⟩
    rw [hkind]
    exact bind_of_ok htake
  rw [step_of_ok hcontrol hmove]
  exact .number hcontrol hfront hkind hcursor

/-- What a factor does at an opening parenthesis.  The depth is compared before the parenthesis is
taken, so that at the limit the descent ends in front of it. -/
theorem moves_opening (hcontrol : state.control = .read .factor)
    (hfront : state.cursor.upcoming = .ok token :: later)
    (hkind : token.kind = .symbol .leftParenthesis) : Moves state state.step := by
  obtain ⟨peeked, hpeek, hup⟩ := peek_of_token state hfront
  by_cases hdepth : state.depth = maxNesting
  · have hmove : move (.read .factor) state =
        .error (.grammar ⟨.nestedTooDeeply, token.span⟩) { state with cursor := peeked } := by
      refine bind_eq_error_iff.2 (.inr ⟨_, _, hpeek, ?_⟩)
      rw [hkind]
      refine bind_eq_error_iff.2 (.inr ⟨_, _, rfl, ?_⟩)
      rw [depth_moveTo, if_pos hdepth]
      rfl
    rw [step_of_error hcontrol hmove]
    exact .refused hfront (.nestedTooDeeply hcontrol hkind hdepth)
  · obtain ⟨cursor, htake, hcursor⟩ :=
      @take_of_token { state with cursor := peeked } _ _ hup (by simp [hkind])
    have hmove : move (.read .factor) state = .ok (.read (.chain .sum))
        { state with
          calls := .group :: state.calls
          cursor
          depth := state.depth + 1
          taken := state.taken ++ [token] } := by
      refine bind_eq_ok_iff.2 ⟨_, _, hpeek, ?_⟩
      rw [hkind]
      refine bind_eq_ok_iff.2 ⟨_, _, rfl, ?_⟩
      rw [depth_moveTo, if_neg hdepth]
      exact bind_of_ok htake
    rw [step_of_ok hcontrol hmove]
    exact .opened hcontrol hfront hkind hdepth hcursor

/-- **A factor** is a number or begins with an opening parenthesis.  A parenthesis beyond the limit
on depth and every other token are refused, and are not taken. -/
theorem moves_factor (hcontrol : state.control = .read .factor) : Moves state state.step := by
  obtain ⟨item, later, hfront⟩ := exists_front state
  cases item with
  | error error =>
    rw [step_of_error hcontrol (bind_peek_of_error state hfront)]
    exact .refused hfront (.lexical (by simp [hcontrol]))
  | ok token =>
    by_cases hnumber : ∃ value, token.kind = .number value
    · obtain ⟨value, hkind⟩ := hnumber
      exact moves_number hcontrol hfront hkind
    by_cases hopening : token.kind = .symbol .leftParenthesis
    · exact moves_opening hcontrol hfront hopening
    · obtain ⟨peeked, hpeek, -⟩ := peek_of_token state hfront
      have hnumber : ∀ value, token.kind ≠ .number value := fun value h => hnumber ⟨value, h⟩
      have hmove : move (.read .factor) state =
          .error (.grammar ⟨.operandWanted, token.span⟩) { state with cursor := peeked } := by
        refine bind_eq_error_iff.2 (.inr ⟨_, _, hpeek, ?_⟩)
        rcases hkind : token.kind with value | s | _
        · exact absurd hkind (hnumber value)
        · cases s with
          | leftParenthesis => exact absurd hkind hopening
          | _ => rfl
        · rfl
      rw [step_of_error hcontrol hmove]
      exact .refused hfront (.operandWanted hcontrol hnumber hopening)

/-! ### Going on with a part -/

section Resume

variable {expr : Expr} {calls : List Call}

/-- Where a part has been read, a step is what the innermost call does with it. -/
theorem step_of_resume_ok (hcontrol : state.control = .give expr) (hcalls : state.calls = calls)
    (h : resume expr calls state = .ok next after) :
    state.step = { after with control := next } := by
  subst hcalls
  exact step_of_ok hcontrol h

/-- Where the innermost call cannot go on with a part, the reading ends with its error. -/
theorem step_of_resume_error (hcontrol : state.control = .give expr) (hcalls : state.calls = calls)
    (h : resume expr calls state = .error error after) :
    state.step = { after with control := .done (.error error) } := by
  subst hcalls
  exact step_of_error hcontrol h

/-- **What comes of a part that is the whole line**: it is the expression of the line if the line
ends there, and otherwise what is in front was not opened. -/
theorem moves_nil (hcontrol : state.control = .give expr) (hcalls : state.calls = []) :
    Moves state state.step := by
  obtain ⟨item, later, hfront⟩ := exists_front state
  cases item with
  | error error =>
    rw [step_of_resume_error hcontrol hcalls (bind_peek_of_error state hfront)]
    exact .refused hfront (.lexical (by simp [hcontrol]))
  | ok token =>
    obtain ⟨cursor, hpeek, -⟩ := peek_of_token state hfront
    by_cases hkind : token.kind = .endOfLine
    · have hmove : resume expr [] state = .ok (.done (.ok (some expr))) { state with cursor } := by
        refine bind_eq_ok_iff.2 ⟨_, _, hpeek, ?_⟩
        rw [if_pos hkind]
        rfl
      rw [step_of_resume_ok hcontrol hcalls hmove]
      exact .accepted hcontrol hcalls hfront hkind
    · have hmove : resume expr [] state =
          .error (.grammar ⟨.notOpened, token.span⟩) { state with cursor } := by
        refine bind_eq_error_iff.2 (.inr ⟨_, _, hpeek, ?_⟩)
        rw [if_neg hkind]
        rfl
      rw [step_of_resume_error hcontrol hcalls hmove]
      exact .refused hfront (.notOpened hcontrol hcalls hkind)

/-- **What comes of an expression in parentheses**: it is what the parentheses stand for if they
are closed behind it. -/
theorem moves_group (hcontrol : state.control = .give expr)
    (hcalls : state.calls = .group :: calls) : Moves state state.step := by
  obtain ⟨item, later, hfront⟩ := exists_front state
  cases item with
  | error error =>
    have hmove : resume expr (.group :: calls) state =
        .error (.lexical error) { state with cursor := state.cursor.skipRest } :=
      bind_eq_error_iff.2 (.inl (liftM_of_error state (Cursor.bind_peek_of_error hfront)))
    rw [step_of_resume_error hcontrol hcalls hmove]
    exact .refused hfront (.lexical (by simp [hcontrol]))
  | ok token =>
    by_cases hkind : token.kind = .symbol .rightParenthesis
    · obtain ⟨cursor, hexpect, hcursor⟩ := Cursor.expect_of_eq hfront hkind
      have hmove : resume expr (.group :: calls) state = .ok (.give expr)
          { state with calls, cursor, depth := state.depth - 1, taken := state.taken ++ [token] } :=
        bind_of_ok (liftM_of_ok state hexpect)
      rw [step_of_resume_ok hcontrol hcalls hmove]
      exact .closed hcontrol hcalls hfront hkind hcursor
    · obtain ⟨cursor, hexpect, -⟩ := Cursor.expect_of_ne hfront hkind
      have hmove : resume expr (.group :: calls) state =
          .error (.grammar ⟨.symbolWanted .rightParenthesis, token.span⟩) { state with cursor } :=
        bind_eq_error_iff.2 (.inl (liftM_of_error state hexpect))
      rw [step_of_resume_error hcontrol hcalls hmove]
      exact .refused hfront (.notClosed hcontrol hcalls hkind)

/-- A product ends anywhere, and a sum where it closes: at the end of the line or at a closing
parenthesis.  A sum that would end somewhere else ends the reading. -/
theorem close_cases (chain : Chain) (hfront : state.cursor.upcoming = .ok token :: later) :
    ((chain = .sum → Closes (.ok token)) ∧
      ∃ cursor, close chain state = .ok () { state with cursor } ∧
        cursor.upcoming = .ok token :: later) ∨
    (chain = .sum ∧ ¬ Closes (.ok token) ∧
      ∃ cursor, close chain state =
        .error (.grammar ⟨.operatorWanted, token.span⟩) { state with cursor }) := by
  cases chain with
  | product => exact .inl ⟨by simp, state.cursor, rfl, hfront⟩
  | sum =>
    obtain ⟨cursor, hpeek, hcursor⟩ := peek_of_token state hfront
    by_cases hcloses : token.kind = .endOfLine ∨ token.kind = .symbol .rightParenthesis
    · refine .inl ⟨fun _ => hcloses, cursor, bind_eq_ok_iff.2 ⟨_, _, hpeek, ?_⟩, hcursor⟩
      rw [if_pos hcloses]
      rfl
    · refine .inr ⟨rfl, hcloses, cursor, bind_eq_error_iff.2 (.inr ⟨_, _, hpeek, ?_⟩)⟩
      rw [if_neg hcloses]
      rfl

/-- **What comes of an operand**: it is joined to what the chain has read already, and either there
is an operator behind it and the chain goes on, or the chain ends and gives what it has. -/
theorem moves_chain {chain : Chain} {before : Option (Expr × Operator)}
    (hcontrol : state.control = .give expr) (hcalls : state.calls = .chain chain before :: calls) :
    Moves state state.step := by
  obtain ⟨item, later, hfront⟩ := exists_front state
  cases item with
  | error error =>
    have hmove : resume expr (.chain chain before :: calls) state =
        .error (.lexical error) { state with cursor := state.cursor.skipRest } :=
      bind_eq_error_iff.2 (.inl (nextOperator_of_error state hfront))
    rw [step_of_resume_error hcontrol hcalls hmove]
    exact .refused hfront (.lexical (by simp [hcontrol]))
  | ok token =>
    cases hs : token.kind.symbol?.bind chain.select with
    | some operator =>
      by_cases hlt : state.operators < maxOperators
      · obtain ⟨cursor, hcursor, hnext⟩ := nextOperator_of_some state hfront hs hlt
        have hmove : resume expr (.chain chain before :: calls) state = .ok (.read chain.operand)
            { state with
              calls := .chain chain (some (join before expr, operator)) :: calls
              cursor
              operators := state.operators + 1
              taken := state.taken ++ [token] } := bind_of_ok hnext
        rw [step_of_resume_ok hcontrol hcalls hmove]
        exact .linked hcontrol hcalls hfront hs hlt hcursor
      · obtain ⟨cursor, hcursor, hnext⟩ := nextOperator_of_full state hfront hs hlt
        have hmove : resume expr (.chain chain before :: calls) state =
            .error (.grammar ⟨.tooManyOperators, token.span⟩)
              { state with
                cursor
                operators := state.operators + 1
                taken := state.taken ++ [token] } := bind_of_error hnext
        rw [step_of_resume_error hcontrol hcalls hmove]
        exact .full hcontrol hcalls hfront hs hlt hcursor
    | none =>
      -- The cursor has looked ahead by now, and the chain closes from there.
      obtain ⟨peeked, hnext, hup⟩ := nextOperator_of_none state hfront hs
      rcases @close_cases { state with cursor := peeked } _ _ chain hup with
        ⟨hcloses, cursor, hclose, hcursor⟩ | ⟨rfl, hcloses, cursor, hclose⟩
      · have hmove : resume expr (.chain chain before :: calls) state =
            .ok (.give (join before expr)) { state with calls, cursor } :=
          bind_eq_ok_iff.2 ⟨_, _, hnext, bind_of_ok hclose⟩
        rw [step_of_resume_ok hcontrol hcalls hmove]
        exact .ended hcontrol hcalls hfront hs hcloses hcursor
      · have hmove : resume expr (.chain .sum before :: calls) state =
            .error (.grammar ⟨.operatorWanted, token.span⟩) { state with cursor } :=
          bind_eq_error_iff.2 (.inr ⟨_, _, hnext, bind_of_error hclose⟩)
        rw [step_of_resume_error hcontrol hcalls hmove]
        exact .refused hfront (.operatorWanted hcontrol hcalls hs hcloses)

end Resume

/-- **A descent can do nothing else.**  The control says which rule is at work, and for a part that
has been read the innermost call does. -/
theorem moves_step (state : Descent) : Moves state state.step := by
  cases hcontrol : state.control with
  | start => exact moves_start hcontrol
  | read part =>
    cases part with
    | chain chain =>
      rw [step_of_ok hcontrol rfl]
      exact .call hcontrol
    | factor => exact moves_factor hcontrol
  | give expr =>
    cases hcalls : state.calls with
    | nil => exact moves_nil hcontrol hcalls
    | cons call calls =>
      cases call with
      | group => exact moves_group hcontrol hcalls
      | chain chain before => exact moves_chain hcontrol hcalls
  | done result =>
    have hstep : state.step = state := by
      obtain ⟨control, calls, cursor, depth, operators, taken⟩ := state
      cases hcontrol
      rfl
    rw [hstep]
    exact .rest hcontrol

end Step

/-! ## How long a descent can go on -/

/-- What a control can still do before it takes a token: a sum has its own call, that of a product
and that of a factor in front of it. -/
def Control.weight : Control → Nat
  | .start => 6
  | .read (.chain .sum) => 5
  | .read (.chain .product) => 3
  | .read .factor | .give _ => 1
  | .done _ => 0

/-- How many chains are under way. -/
def chains : List Call → Nat
  | [] => 0
  | .chain _ _ :: calls => chains calls + 1
  | .group :: calls => chains calls

/-- A bound on the steps that are left.  An upcoming item is worth more than all that can be done
before the next is taken: an opening parenthesis calls a sum, which calls a product, which calls a
factor, and each chain that is called ends at some time. -/
def potential (state : Descent) : Nat :=
  match state.control with
  | .done _ => 0
  | control => 5 * state.cursor.upcoming.length + control.weight + chains state.calls

section Potential

variable {state after : Descent}

/-- Where nothing is left to do a descent is done: every other control still has its own weight. -/
theorem control_eq_done_of_potential (h : state.potential = 0) :
    ∃ result, state.control = .done result := by
  unfold potential at h
  cases hcontrol : state.control with
  | done result => exact ⟨result, rfl⟩
  | start | give expr => simp [hcontrol, Control.weight] at h
  | read part =>
    cases part with
    | chain chain => cases chain <;> simp [hcontrol, Control.weight] at h
    | factor => simp [hcontrol, Control.weight] at h

/-- **A step uses up what is left.**  A step that takes a token may raise the weight of the control
and put one chain more under way, and the token makes up for both; any other step lowers the one or
ends a chain. -/
theorem Moves.potential_le (h : Moves state after) : after.potential ≤ state.potential - 1 := by
  cases h with
  | rest hcontrol => simp [potential, hcontrol]
  | blank | accepted | refused | full => exact Nat.zero_le _
  | @call chain hcontrol =>
    cases chain <;>
      simp only [potential, hcontrol, Chain.operand, Control.weight, chains] <;>
      omega
  | begin hcontrol hfront _ hcursor =>
    simp only [potential, hcontrol, hfront, hcursor, Control.weight]
    omega
  | number hcontrol hfront _ hcursor =>
    simp only [potential, hcontrol, hfront, hcursor, Control.weight, List.length_cons]
    omega
  | opened hcontrol hfront _ _ hcursor =>
    simp only [potential, hcontrol, hfront, hcursor, Control.weight, List.length_cons, chains]
    omega
  | @linked _ _ _ _ chain _ _ _ hcontrol hcalls hfront _ _ hcursor =>
    cases chain <;>
      simp only [potential, hcontrol, hcalls, hfront, hcursor, Chain.operand, Control.weight,
        List.length_cons, chains] <;>
      omega
  | ended hcontrol hcalls hfront _ _ hcursor =>
    simp only [potential, hcontrol, hcalls, hfront, hcursor, Control.weight, chains]
    omega
  | closed hcontrol hcalls hfront _ hcursor =>
    simp only [potential, hcontrol, hcalls, hfront, hcursor, Control.weight, List.length_cons,
      chains]
    omega

end Potential

end Descent
end Reckoner
