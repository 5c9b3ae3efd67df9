/-
# What a descent reads

A descent reads a line as the rules of the grammar read it: what it is done with is what they give
(`Stands`).  What carries this through the steps is which part is wanted or has been read, what
the calls that are under way have read before it (`Within`), and that the automaton has come as
far with the same counters (`Follows`).  So a token that the descent refuses is one that the
automaton refuses, and from there on what is known of the automaton is enough.

The counters are those of the calls and those of the tokens (`Counted`): a parenthesis is open for
each group that is under way, and in each group there is one sum.

Both are kept by each of the twelve cases of `Moves` (`Stands.moves`, `Sound.moves`), and so they
hold after any number of steps (`sound_after`).  Of the cases that go on, each either takes a token
that the automaton goes on with (`Follows.take`), or takes none and leaves what is upcoming as it
is.  Of those that end, `blank`, `accepted` and `refused` are each what the rules give there, as is
known of them by `expr?_eq_some_iff` and `expr?_eq_error_iff`.
-/

import Reckoner.Expr.Descent.Moves
import Reckoner.Proofs.Parsing.Refinement

namespace Reckoner
namespace Descent

open Grammar Automaton

/-! ## Parts and calls -/

/-- The trees that some tokens derive as a part. -/
def Part.Derives : Part → List Token.Kind → Expr → Prop
  | .chain .sum => IsExpression
  | .chain .product => IsTerm
  | .factor => IsFactor

/-- Whether a part can end in front of an item. -/
def Part.EndsBefore : Part → Item → Prop
  | .chain .sum => Closes
  | .chain .product => Unselected multiplicative
  | .factor => fun _ => True

/-- What a chain has read when it waits for an operand: nothing, or operands and an operator. -/
inductive Pending (chain : Chain) : Option (Expr × Operator) → List Token.Kind → Prop
  /-- It waits for its first operand. -/
  | first : Pending chain none []
  /-- It waits for the right operand of an operator. -/
  | next {kinds : List Token.Kind} {lhs : Expr} {s : Symbol} {operator : Operator}
      (h : (Part.chain chain).Derives kinds lhs) (hs : chain.select s = some operator) :
      Pending chain (some (lhs, operator)) (kinds ++ [.symbol s])

/-- The tokens in front of a part that is wanted, by the calls that are under way and the number
of open parentheses.  It goes along the calls, and each of them says which part it waits for and
which tokens it has taken itself. -/
inductive Within : Part → Nat → List Call → List Token.Kind → Prop
  /-- A line is a sum. -/
  | line : Within (.chain .sum) 0 [] []
  /-- A group stands for a factor, and waits for a sum behind its parenthesis. -/
  | group {depth : Nat} {calls : List Call} {kinds : List Token.Kind}
      (h : Within .factor depth calls kinds) :
      Within (.chain .sum) (depth + 1) (.group :: calls) (kinds ++ [.symbol .leftParenthesis])
  /-- A chain waits for an operand behind what it has read. -/
  | operand {part : Part} {chain : Chain} {depth : Nat} {before : Option (Expr × Operator)}
      {calls : List Call} {kinds more : List Token.Kind} (hpart : part = chain.operand)
      (h : Within (.chain chain) depth calls kinds) (hpending : Pending chain before more) :
      Within part depth (.chain chain before :: calls) (kinds ++ more)

section Within

variable {part : Part} {chain : Chain} {depth : Nat} {before : Option (Expr × Operator)}
  {calls : List Call} {kinds new : List Token.Kind} {expr : Expr} {s : Symbol}
  {operator : Operator}

/-- An operator of a chain is an operator. -/
theorem Chain.operator?_of_select (h : chain.select s = some operator) :
    operator? s = some operator := by
  cases chain with
  | sum => exact operator?_of_additive h
  | product => exact operator?_of_multiplicative h

/-- **An operand goes on with what a chain has read.**  A first operand is a chain by itself, and
any other is joined from the left, as the grammar has it. -/
theorem Pending.derives (hp : Pending chain before kinds) (h : chain.operand.Derives new expr) :
    (Part.chain chain).Derives (kinds ++ new) (join before expr) := by
  cases hp with
  | first =>
    cases chain with
    | sum => exact .term h
    | product => exact .factor h
  | @next kinds lhs s operator hl hs =>
    rw [List.append_assoc]
    cases chain with
    | sum => exact .join hl hs h
    | product => exact .join hl hs h

/-- With no call under way, it is a whole line that is read, and no token is around it. -/
theorem Within.of_nil (h : Within part depth [] kinds) :
    part = .chain .sum ∧ depth = 0 ∧ kinds = [] := by
  cases h with
  | line => exact ⟨rfl, rfl, rfl⟩

/-- Inside a group an expression is read, and its opening parenthesis is the last token around it.
-/
theorem Within.of_group (h : Within part depth (.group :: calls) kinds) :
    part = .chain .sum ∧ ∃ opened outer, depth = opened + 1 ∧
      kinds = outer ++ [.symbol .leftParenthesis] ∧ Within .factor opened calls outer := by
  cases h with
  | group h => exact ⟨rfl, _, _, rfl, rfl, h⟩

/-- Inside a chain an operand is read, behind what the chain holds already. -/
theorem Within.of_chain (h : Within part depth (.chain chain before :: calls) kinds) :
    part = chain.operand ∧ ∃ outer more, kinds = outer ++ more ∧
      Within (.chain chain) depth calls outer ∧ Pending chain before more := by
  cases h with
  | operand hpart h hpending => exact ⟨hpart, _, _, rfl, h, hpending⟩

/-- **Each group that is under way has a parenthesis open.** -/
theorem Within.count_group (h : Within part depth calls kinds) : calls.count .group = depth := by
  induction h with
  | line => rfl
  | group _ ih => simp [ih]
  | operand _ _ _ ih => simp [ih]

/-- **In each group there is one sum,** and one in none. -/
theorem Within.countP_isSum (h : Within part depth calls kinds) :
    calls.countP Call.isSum + (Control.read part).isSum.toNat = depth + 1 := by
  induction h with
  | line => rfl
  | group _ ih => simpa [Call.isSum, Control.isSum] using ih
  | @operand _ chain _ _ _ _ _ hpart _ _ ih =>
    subst hpart
    cases chain <;> simpa [List.countP_cons, Call.isSum, Control.isSum, Chain.operand] using ih

end Within

/-! ## Where a descent stands -/

/-- What a descent that goes on has taken of a line, and where the automaton is behind that. -/
structure Follows (line : Line) (wanted : Bool) (state : Descent) : Prop where
  /-- What has been taken and what is upcoming are the items of the line. -/
  items_eq : items line.text = state.taken.map .ok ++ state.cursor.upcoming
  /-- The automaton has gone through what has been taken, and has the same counters. -/
  run_eq : Automaton.run initial (state.taken.map Token.kind) =
    .ok ⟨wanted, state.depth, state.operators⟩

/-- A part is wanted: all that has been taken is in front of it. -/
structure Reads (line : Line) (part : Part) (state : Descent) : Prop
    extends Follows line true state where
  within : Within part state.depth state.calls (state.taken.map Token.kind)

/-- A part has been read, as far as it goes: the last tokens that have been taken derive it, those
in front are in front of the part, and what is upcoming does not belong to it. -/
inductive Gives (line : Line) (expr : Expr) (state : Descent) : Prop
  | intro {part : Part} {kinds new : List Token.Kind} (hfollows : Follows line false state)
      (htaken : state.taken.map Token.kind = kinds ++ new)
      (hwithin : Within part state.depth state.calls kinds) (hderives : part.Derives new expr)
      (hends : ∀ item later, state.cursor.upcoming = item :: later → part.EndsBefore item)

/-- **What holds of a descent by what it does next.**  In front of the line nothing has been taken;
while a part is wanted or has been read the line is not blank; and what a descent is done with is
what the rules of the grammar give. -/
def Stands (line : Line) (state : Descent) : Control → Prop
  | .start => Reads line (.chain .sum) state ∧ state.taken = []
  | .read part => ¬ IsBlankLine line.text ∧ Reads line part state
  | .give expr => ¬ IsBlankLine line.text ∧ Gives line expr state
  | .done result => result = line.expr?

section Follows

variable {line : Line} {state after : Descent} {wanted : Bool} {token : Token} {item : Item}
  {later : List Item} {expr : Expr} {part : Part}

/-- **A token that is taken moves the automaton on,** to the counters that the descent then has. -/
theorem Follows.take {wanted' : Bool} (h : Follows line wanted state)
    (hfront : state.cursor.upcoming = .ok token :: later)
    (hs : Steps ⟨wanted, state.depth, state.operators⟩ token.kind
      ⟨wanted', after.depth, after.operators⟩)
    (htaken : after.taken = state.taken ++ [token]) (hcursor : after.cursor.upcoming = later) :
    Follows line wanted' after := by
  constructor
  · rw [h.items_eq, htaken, hcursor, hfront]
    simp
  · rw [htaken, List.map_append]
    exact run_append_eq_ok_iff.2 ⟨_, h.run_eq, run_singleton_eq_ok_iff.2 hs⟩

/-- **What the automaton refuses behind the same tokens** is the error of the line: the rules give
the automaton's verdict on it. -/
theorem Follows.expr?_eq_error {error : ParseError} (h : Follows line wanted state)
    (hblank : ¬ IsBlankLine line.text) (hfront : state.cursor.upcoming = item :: later)
    (hrefuses : Automaton.Refuses ⟨wanted, state.depth, state.operators⟩ item error) :
    line.expr? = .error error := by
  have hitems : items line.text = state.taken.map .ok ++ item :: later := hfront ▸ h.items_eq
  exact expr?_eq_error_iff.2 ⟨hblank, judge_eq_error_iff.2 ⟨_, _, _, _, hitems, h.run_eq, hrefuses⟩⟩

/-- The automaton behind the tokens that have been taken is one that can be reached. -/
theorem Follows.reached (h : Follows line wanted state) :
    Reached (state.taken.map Token.kind) ⟨wanted, state.depth, state.operators⟩ :=
  reached_initial.run h.run_eq

/-- Nothing but the end of the line is in front of a blank one. -/
theorem Follows.not_isBlankLine (h : Follows line wanted state) (htaken : state.taken = [])
    (hfront : state.cursor.upcoming = item :: later)
    (hitem : ∀ token, item = .ok token → token.kind ≠ .endOfLine) : ¬ IsBlankLine line.text := by
  intro hblank
  obtain ⟨last, hlast, hkind⟩ := (items_eq_endOfLine_iff line.text).2 hblank
  have hitems := h.items_eq
  rw [hlast, htaken, hfront] at hitems
  exact hitem last (List.cons.inj hitems).1.symm hkind

/-- A descent that goes on follows the automaton, and what it goes on with is no blank line unless
this is yet to be seen. -/
theorem Stands.follows (h : Stands line state state.control)
    (hlive : ∀ result, state.control ≠ .done result) :
    (∃ wanted, Follows line wanted state) ∧ (¬ IsBlankLine line.text ∨ state.taken = []) := by
  cases hcontrol : state.control with
  | start =>
    rw [hcontrol] at h
    exact ⟨⟨_, h.1.toFollows⟩, .inr h.2⟩
  | read part =>
    rw [hcontrol] at h
    exact ⟨⟨_, h.2.toFollows⟩, .inl h.1⟩
  | give expr =>
    rw [hcontrol] at h
    obtain ⟨hblank, hfollows, -⟩ := h
    exact ⟨⟨_, hfollows⟩, .inl hblank⟩
  | done result => exact absurd hcontrol (hlive result)

/-- An operand that has been read belongs to its chain: joined to what the chain has read before, it
is what the chain has read now. -/
theorem Gives.of_chain {chain : Chain} {before : Option (Expr × Operator)} {calls : List Call}
    (h : Gives line expr state) (hcalls : state.calls = .chain chain before :: calls) :
    Follows line false state ∧ ∃ outer inner,
      state.taken.map Token.kind = outer ++ inner ∧
      Within (.chain chain) state.depth calls outer ∧
      (Part.chain chain).Derives inner (join before expr) ∧
      ∀ item later, state.cursor.upcoming = item :: later → chain.operand.EndsBefore item := by
  obtain ⟨hfollows, htaken, hwithin, hderives, hends⟩ := h
  rw [hcalls] at hwithin
  obtain ⟨rfl, outer, more, rfl, hwithin, hpending⟩ := hwithin.of_chain
  rw [List.append_assoc] at htaken
  exact ⟨hfollows, outer, _, htaken, hwithin, hpending.derives hderives, hends⟩

/-- What has been read in parentheses is an expression. -/
theorem Gives.of_group {calls : List Call} (h : Gives line expr state)
    (hcalls : state.calls = .group :: calls) :
    Follows line false state ∧ ∃ opened outer inner, state.depth = opened + 1 ∧
      state.taken.map Token.kind = outer ++ .symbol .leftParenthesis :: inner ∧
      Within .factor opened calls outer ∧ IsExpression inner expr ∧
      ∀ item later, state.cursor.upcoming = item :: later → Closes item := by
  obtain ⟨hfollows, htaken, hwithin, hderives, hends⟩ := h
  rw [hcalls] at hwithin
  obtain ⟨rfl, opened, outer, hdepth, rfl, houter⟩ := hwithin.of_group
  rw [List.append_assoc] at htaken
  exact ⟨hfollows, opened, outer, _, hdepth, htaken, houter, hderives, hends⟩

/-- What has been read outside of all calls is an expression, too, and it is all that there is. -/
theorem Gives.of_nil (h : Gives line expr state) (hcalls : state.calls = []) :
    Follows line false state ∧ state.depth = 0 ∧
      IsExpression (state.taken.map Token.kind) expr ∧
      ∀ item later, state.cursor.upcoming = item :: later → Closes item := by
  obtain ⟨hfollows, htaken, hwithin, hderives, hends⟩ := h
  rw [hcalls] at hwithin
  obtain ⟨rfl, hdepth, rfl⟩ := hwithin.of_nil
  rw [List.nil_append] at htaken
  exact ⟨hfollows, hdepth, htaken ▸ hderives, hends⟩

/-- **What a descent refuses** is the error of the line.  The cases are the reasons in `Refuses`; in
each the automaton refuses the item as well, with the same words. -/
theorem Refuses.expr?_eq_error {error : ParseError} (h : Refuses state item error)
    (hstands : Stands line state state.control) (hfront : state.cursor.upcoming = item :: later) :
    line.expr? = .error error := by
  cases h with
  | @lexical error hlive =>
    obtain ⟨⟨wanted, hfollows⟩, hblank⟩ := hstands.follows hlive
    have hblank := hblank.elim id fun htaken => hfollows.not_isBlankLine htaken hfront (by simp)
    exact hfollows.expr?_eq_error hblank hfront (.lexical error)
  | @operandWanted token hcontrol hnumber hopening =>
    rw [hcontrol] at hstands
    obtain ⟨hblank, hreads⟩ := hstands
    refine hreads.expr?_eq_error hblank hfront ?_
    by_cases hkind : token.kind = .endOfLine
    · exact .finish hkind rfl
    · exact .step hkind (stepWanted_of_ne hnumber hopening)
  | nestedTooDeeply hcontrol hkind hdepth =>
    rw [hcontrol] at hstands
    obtain ⟨hblank, hreads⟩ := hstands
    refine hreads.expr?_eq_error hblank hfront (.step (by simp [hkind]) ?_)
    simp [Automaton.step, stepWanted, hkind, hdepth]
  | operatorWanted hcontrol hcalls hs hcloses =>
    rw [hcontrol] at hstands
    obtain ⟨hblank, hgives⟩ := hstands
    obtain ⟨hfollows, -, -, -, -, -, hends⟩ := hgives.of_chain hcalls
    -- The product in front of the token has ended there, and so it is no `*` and no `/`.
    have hm : Unselected multiplicative _ := hends _ _ hfront
    refine hfollows.expr?_eq_error hblank hfront (.step (fun hkind => hcloses (.inl hkind)) ?_)
    exact stepComplete_of_unselected hs hm hcloses
  | notClosed hcontrol hcalls hkind =>
    rw [hcontrol] at hstands
    obtain ⟨hblank, hgives⟩ := hstands
    obtain ⟨hfollows, opened, -, -, hdepth, -, -, -, hends⟩ := hgives.of_group hcalls
    have hcloses := hends _ _ hfront
    refine hfollows.expr?_eq_error hblank hfront (.finish (hcloses.resolve_right hkind) ?_)
    simp [Automaton.finish, hdepth]
  | notOpened hcontrol hcalls hkind =>
    rw [hcontrol] at hstands
    obtain ⟨hblank, hgives⟩ := hstands
    obtain ⟨hfollows, hdepth, -, hends⟩ := hgives.of_nil hcalls
    have hcloses := hends _ _ hfront
    refine hfollows.expr?_eq_error hblank hfront (.step hkind ?_)
    simp [Automaton.step, stepComplete, hcloses.resolve_left hkind, hdepth]

/-- **What a descent accepts** is the tree of the line.  The tokens derive it, and their limits are
those that the automaton has kept on the way. -/
theorem Gives.expr?_eq_some (h : Gives line expr state) (hcalls : state.calls = [])
    (hfront : state.cursor.upcoming = .ok token :: later) (hkind : token.kind = .endOfLine) :
    line.expr? = .ok (some expr) := by
  obtain ⟨hfollows, -, hexpression, -⟩ := h.of_nil hcalls
  have hitems := hfollows.items_eq
  rw [hfront] at hitems
  obtain rfl := (isLast_iff_of_itemsFrom hitems).1 hkind
  have hreached := hfollows.reached
  have hcount : operatorCount (state.taken.map Token.kind) ≤ maxOperators :=
    hreached.operators ▸ hreached.operators_le
  exact expr?_eq_some_iff.2
    ⟨state.taken, token, hkind, hitems, hexpression, hreached.nestsWithin, hcount⟩

/-! ## What a step keeps -/

/-- An operator that goes on with a chain is one that the automaton counts. -/
theorem steps_of_select {opened operators : Nat} {chain : Chain} {operator : Operator}
    (hs : token.kind.symbol?.bind chain.select = some operator) (hlt : operators < maxOperators) :
    ∃ s, token.kind = .symbol s ∧ chain.select s = some operator ∧
      Steps ⟨false, opened, operators⟩ token.kind ⟨true, opened, operators + 1⟩ := by
  obtain ⟨s, hkind, hs⟩ := eq_symbol_of_select hs
  rw [hkind]
  exact ⟨s, rfl, hs, .operator (Chain.operator?_of_select hs) hlt⟩

/-- **A step keeps where a descent stands.**  One case for each of the cases of `Moves`. -/
theorem Stands.moves (h : Stands line state state.control) (hm : Moves state after) :
    Stands line after after.control := by
  cases hm with
  | rest => exact h
  | call hcontrol =>
    rw [hcontrol] at h
    obtain ⟨hblank, hreads⟩ := h
    refine ⟨hblank, ⟨hreads.items_eq, hreads.run_eq⟩, ?_⟩
    -- The new call has read nothing.
    rw [← List.append_nil (List.map _ _)]
    exact .operand rfl hreads.within .first
  | blank hcontrol hfront hkind =>
    rw [hcontrol] at h
    obtain ⟨hreads, htaken⟩ := h
    have hitems := hreads.items_eq
    rw [htaken, hfront] at hitems
    exact (expr?_of_endOfLine hitems hkind).symm
  | begin hcontrol hfront hkind hcursor =>
    rw [hcontrol] at h
    obtain ⟨hreads, htaken⟩ := h
    have hblank := hreads.not_isBlankLine htaken hfront fun token heq => Except.ok.inj heq ▸ hkind
    refine ⟨hblank, ⟨?_, hreads.run_eq⟩, hreads.within⟩
    rw [hreads.items_eq, hcursor, hfront]
  | @number token later cursor value hcontrol hfront hkind hcursor =>
    rw [hcontrol] at h
    obtain ⟨hblank, hreads⟩ := h
    have hs : Steps ⟨true, state.depth, state.operators⟩ token.kind
        ⟨false, state.depth, state.operators⟩ := hkind ▸ .number value
    refine ⟨hblank, hreads.take hfront hs rfl hcursor, ?_, hreads.within, .number value,
      fun _ _ _ => trivial⟩
    simp [hkind]
  | @opened token later cursor hcontrol hfront hkind hdepth hcursor =>
    rw [hcontrol] at h
    obtain ⟨hblank, hreads⟩ := h
    -- The counter is compared for equality, and below the limit is what the run has kept it.
    have hlt : state.depth < maxNesting := Nat.lt_of_le_of_ne hreads.reached.opened_le hdepth
    have hs : Steps ⟨true, state.depth, state.operators⟩ token.kind
        ⟨true, state.depth + 1, state.operators⟩ := hkind ▸ .opening hlt
    refine ⟨hblank, hreads.take hfront hs rfl hcursor, ?_⟩
    have hwithin := hreads.within.group
    rw [← hkind] at hwithin
    simpa using hwithin
  | @linked token later cursor expr chain before calls operator hcontrol hcalls hfront hs hlt
      hcursor =>
    rw [hcontrol] at h
    obtain ⟨hblank, hgives⟩ := h
    obtain ⟨hfollows, outer, inner, htaken, hwithin, hderives, -⟩ := hgives.of_chain hcalls
    obtain ⟨s, hkind, hs, hsteps⟩ := @steps_of_select _ state.depth _ _ _ hs hlt
    refine ⟨hblank, hfollows.take hfront hsteps rfl hcursor, ?_⟩
    have hnext := Within.operand rfl hwithin (.next hderives hs)
    simpa [htaken, hkind] using hnext
  | @ended token later cursor expr chain before calls hcontrol hcalls hfront hs hcloses hcursor =>
    rw [hcontrol] at h
    obtain ⟨hblank, hgives⟩ := h
    obtain ⟨hfollows, outer, inner, htaken, hwithin, hderives, -⟩ := hgives.of_chain hcalls
    refine ⟨hblank, ⟨?_, hfollows.run_eq⟩, htaken, hwithin, hderives, ?_⟩
    · rw [hfollows.items_eq, hcursor, hfront]
    · intro item others heq
      obtain ⟨rfl, -⟩ := List.cons.inj (hcursor.symm.trans heq)
      cases chain with
      | sum => exact hcloses rfl
      | product => exact hs
  | @closed token later cursor expr calls hcontrol hcalls hfront hkind hcursor =>
    rw [hcontrol] at h
    obtain ⟨hblank, hgives⟩ := h
    obtain ⟨hfollows, opened, outer, inner, hdepth, htaken, hwithin, hexpression, -⟩ :=
      hgives.of_group hcalls
    have hs : Steps ⟨false, state.depth, state.operators⟩ token.kind
        ⟨false, state.depth - 1, state.operators⟩ := by
      rw [hkind, hdepth]
      exact .closing
    -- With its parentheses the expression is the factor that was wanted in front of them.
    have hgroup : Part.factor.Derives
        (.symbol .leftParenthesis :: (inner ++ [.symbol .rightParenthesis])) expr :=
      .group hexpression
    have hwithin : Within .factor (state.depth - 1) calls outer := by rwa [hdepth]
    refine ⟨hblank, hfollows.take hfront hs rfl hcursor, ?_, hwithin, hgroup, fun _ _ _ => trivial⟩
    simp [htaken, hkind]
  | accepted hcontrol hcalls hfront hkind =>
    rw [hcontrol] at h
    exact (h.2.expr?_eq_some hcalls hfront hkind).symm
  | refused hfront hrefuses => exact (hrefuses.expr?_eq_error h hfront).symm
  | full hcontrol hcalls hfront hs hfull =>
    rw [hcontrol] at h
    obtain ⟨hblank, hfollows, -⟩ := h
    obtain ⟨s, hkind, hs⟩ := eq_symbol_of_select hs
    refine (hfollows.expr?_eq_error hblank hfront (.step (by simp [hkind]) ?_)).symm
    rw [hkind]
    exact (stepComplete_of_operator (Chain.operator?_of_select hs)).trans (if_neg hfull)

end Follows

/-! ## What is counted -/

/-- The counters of a descent, by its calls and by the tokens that it has taken. -/
structure Counted (line : Line) (state : Descent) : Prop where
  /-- What has been taken comes in front of something else. -/
  items_eq : ∃ item later, items line.text = state.taken.map .ok ++ item :: later
  /-- A parenthesis is open for each group that is under way. -/
  count_group : state.calls.count .group = state.depth
  /-- Among the tokens that have been taken as many parentheses are open. -/
  opened : (state.taken.map Token.kind).count (.symbol .leftParenthesis) =
    (state.taken.map Token.kind).count (.symbol .rightParenthesis) + state.depth
  /-- No more parentheses are open than may be. -/
  depth_le : state.depth ≤ maxNesting
  /-- There is one sum more than there are groups, at most. -/
  sums_le : state.sums ≤ state.depth + 1
  /-- The operators that are counted are those that have been taken. -/
  operators_eq : operatorCount (state.taken.map Token.kind) = state.operators
  /-- The last operator may be one too many. -/
  operators_le : state.operators ≤ maxOperators + 1

section Counted

variable {line : Line} {state after : Descent}

/-- What is counted in a descent that goes on: the calls say it of the open parentheses, and the
automaton says it of the tokens. -/
theorem Follows.counted {wanted : Bool} {part : Part} {kinds : List Token.Kind}
    (h : Follows line wanted state) (hwithin : Within part state.depth state.calls kinds)
    (hsums : state.sums ≤ state.depth + 1) : Counted line state := by
  have hreached := h.reached
  obtain ⟨item, later, hfront⟩ := exists_front state
  exact
    { items_eq := ⟨item, later, hfront ▸ h.items_eq⟩
      count_group := hwithin.count_group
      opened := hreached.opened
      depth_le := hreached.opened_le
      sums_le := hsums
      operators_eq := hreached.operators
      operators_le := Nat.le_succ_of_le hreached.operators_le }

/-- Before its end a descent has counted right: the invariant of the counters follows from that of
the tokens. -/
theorem Stands.counted (h : Stands line state state.control)
    (hlive : ∀ result, state.control ≠ .done result) : Counted line state := by
  cases hcontrol : state.control with
  | start =>
    rw [hcontrol] at h
    have hsums : state.calls.countP Call.isSum + 1 = state.depth + 1 := h.1.within.countP_isSum
    refine h.1.counted h.1.within ?_
    rw [sums, hcontrol]
    show state.calls.countP Call.isSum + 0 ≤ state.depth + 1
    omega
  | read part =>
    rw [hcontrol] at h
    refine h.2.counted h.2.within (Nat.le_of_eq ?_)
    rw [sums, hcontrol]
    exact h.2.within.countP_isSum
  | give expr =>
    rw [hcontrol] at h
    obtain ⟨-, hfollows, -, hwithin, -⟩ := h
    have hsums := hwithin.countP_isSum
    refine hfollows.counted hwithin ?_
    rw [sums, hcontrol]
    show state.calls.countP Call.isSum + 0 ≤ state.depth + 1
    omega
  | done result => exact absurd hcontrol (hlive result)

/-- A descent that is done has the counters that it had, whatever it is done with. -/
theorem Counted.done (h : Counted line state) (result : Except ParseError (Option Expr))
    (cursor : Cursor) : Counted line { state with control := .done result, cursor } where
  items_eq := h.items_eq
  count_group := h.count_group
  opened := h.opened
  depth_le := h.depth_le
  sums_le := Nat.le_trans (by simp [sums, Control.isSum]) h.sums_le
  operators_eq := h.operators_eq
  operators_le := h.operators_le

/-- An operator that is one too many has been taken and counted, so that the counter and the tokens
still agree and the counter is above its limit by one. -/
theorem Counted.full {token : Token} {later : List Item} {cursor : Cursor} {chain : Chain}
    {operator : Operator} {wanted : Bool} (h : Counted line state)
    (hfollows : Follows line wanted state) (hfront : state.cursor.upcoming = .ok token :: later)
    (hs : token.kind.symbol?.bind chain.select = some operator)
    (hcursor : cursor.upcoming = later) (result : Except ParseError (Option Expr)) :
    Counted line
      { state with
        control := .done result
        cursor
        operators := state.operators + 1
        taken := state.taken ++ [token] } := by
  obtain ⟨s, hkind, hs⟩ := eq_symbol_of_select hs
  have hs := Chain.operator?_of_select hs
  obtain ⟨hleft, hright⟩ := ne_parenthesis_of_operator? hs
  obtain ⟨item, others, hothers⟩ := List.exists_cons_of_ne_nil (Cursor.upcoming_ne_nil cursor)
  constructor
  case items_eq =>
    refine ⟨item, others, ?_⟩
    rw [hfollows.items_eq, hfront, ← hcursor, hothers]
    simp
  case count_group => exact h.count_group
  case opened => simpa [hkind, hleft, hright] using h.opened
  case depth_le => exact h.depth_le
  case sums_le => exact (h.done result cursor).sums_le
  case operators_eq =>
    simpa [hkind, hs, operatorCount, isOperator, Token.Kind.symbol?] using h.operators_eq
  case operators_le => exact Nat.succ_le_succ hfollows.reached.operators_le

end Counted

/-! ## From the first step on -/

/-- What holds of a descent into a line at every step. -/
structure Sound (line : Line) (state : Descent) : Prop where
  /-- It reads the line as the rules do. -/
  stands : Stands line state state.control
  /-- Its counters are right. -/
  counted : Counted line state

/-- A descent begins sound: nothing has been taken and no call is under way. -/
theorem sound_ofLine (line : Line) : Sound line (ofLine line) := by
  have hstands : Stands line (ofLine line) .start := ⟨⟨⟨rfl, rfl⟩, .line⟩, rfl⟩
  exact ⟨hstands, hstands.counted (by simp [ofLine])⟩

/-- **A step keeps what holds of a descent.**  While a descent goes on its counters follow from
where it stands; when it ends they are those that it had, or one operator more. -/
theorem Sound.moves {line : Line} {state after : Descent} (h : Sound line state)
    (hm : Moves state after) : Sound line after := by
  have hstands := h.stands.moves hm
  refine ⟨hstands, ?_⟩
  cases hm with
  | rest => exact h.counted
  | blank | accepted | refused => exact h.counted.done _ _
  | full hcontrol _ hfront hs _ hcursor =>
    obtain ⟨⟨_, hfollows⟩, -⟩ := h.stands.follows (by simp [hcontrol])
    exact h.counted.full hfollows hfront hs hcursor _
  | _ => exact hstands.counted (by simp)

/-- **What holds of a descent after any number of steps.** -/
theorem sound_after (line : Line) (steps : Nat) : Sound line (after line steps) := by
  induction steps with
  | zero => exact sound_ofLine line
  | succ steps ih => exact ih.moves (moves_step _)

end Descent
end Reckoner
