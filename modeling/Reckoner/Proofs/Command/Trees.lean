/-
# Trees told by their text

The text of an expression can be told from all others, and its end from what comes behind it, as
long as this begins with nothing that could go on with a number (`Expr.append_render_inj`).  A
minus sign does no harm: as an operator it stands behind an opening parenthesis, and as a sign in
front of a digit, where no operator can be.

So a listing of trees, which has one text on each line, tells the trees that are listed
(`listing_render_inj`), and these are the trees of the lines in front of the first one that has
none (`render_tells_trees`).

What is behind an expression is a variable of the induction.  Behind a left operand there is a
space and the right operand, and behind that a closing parenthesis and whatever is behind the
whole, so that each operand is told from the text behind it in turn.
-/

import Reckoner.Proofs.Command.Agreement

namespace Reckoner

namespace Decimal

/-- What can stand behind a number without going on with it. -/
def EndsNumber (text : List Char) : Prop := ∀ c, text.head? = some c → c ≠ '-' ∧ ¬ c.isDigit

/-- Characters that an integer is written with. -/
def isWritten (c : Char) : Bool := c == '-' || c.isDigit

/-- An integer is written with at least one character. -/
theorem ofInt_ne_nil (n : Int) : ofInt n ≠ [] := by
  cases n with
  | ofNat n => exact ofNat_ne_nil n
  | negSucc n => exact List.cons_ne_nil _ _

/-- An integer is written with characters of its own kind only. -/
theorem isWritten_of_mem_ofInt {n : Int} {c : Char} (h : c ∈ ofInt n) : isWritten c := by
  simpa [isWritten] using isDigit_of_mem_ofInt h

/-- An integer is all that is written of it. -/
theorem takeWhile_isWritten {text : List Char} (n : Int) (h : EndsNumber text) :
    (ofInt n ++ text).takeWhile isWritten = ofInt n := by
  rw [List.takeWhile_append_of_pos fun c hc => isWritten_of_mem_ofInt hc]
  cases text with
  | nil => simp
  | cons c text =>
    obtain ⟨hminus, hdigit⟩ := h c rfl
    rw [List.takeWhile_cons_of_neg (by simp [isWritten, hminus, hdigit]), List.append_nil]

/-- **An integer is told from what is behind it.** -/
theorem append_ofInt64_inj {m n : Int64} {x y : List Char} (hx : EndsNumber x) (hy : EndsNumber y)
    (h : ofInt64 m ++ x = ofInt64 n ++ y) : m = n ∧ x = y := by
  have hsame : ofInt64 m = ofInt64 n := by
    have htaken := congrArg (List.takeWhile isWritten) h
    rwa [ofInt64, ofInt64, takeWhile_isWritten _ hx, takeWhile_isWritten _ hy] at htaken
  rw [hsame] at h
  exact ⟨ofInt64_inj.1 hsame, List.append_cancel_left h⟩

/-- No integer begins like an expression in parentheses. -/
theorem append_ofInt64_ne (n : Int64) (x y : List Char) : ofInt64 n ++ x ≠ '(' :: y := by
  obtain ⟨c, rest, hrest⟩ := List.exists_cons_of_ne_nil (ofInt_ne_nil n.toInt)
  intro h
  rw [ofInt64, hrest, List.cons_append] at h
  have hc : isWritten c := isWritten_of_mem_ofInt (n := n.toInt) (by simp [hrest])
  rw [(List.cons.inj h).1] at hc
  exact absurd hc (by decide)

end Decimal

open Decimal (EndsNumber)

/-- No two operators are written alike. -/
theorem Operator.toChar_inj {first second : Operator} (h : first.toChar = second.toChar) :
    first = second := by
  cases first <;> cases second <;> first | rfl | cases h

namespace Expr

/-- What can stand behind an expression inside another one: nothing, a space or a closing
parenthesis. -/
def EndsExpr (text : List Char) : Prop := ∀ c, text.head? = some c → c = ' ' ∨ c = ')'

/-- Neither a space nor a closing parenthesis goes on with a number. -/
theorem EndsExpr.endsNumber {text : List Char} (h : EndsExpr text) : EndsNumber text := by
  intro c hc
  rcases h c hc with rfl | rfl <;> decide

/-- A space, a closing parenthesis or a line break ends a number, whatever stands behind it. -/
theorem endsNumber_cons {c : Char} (text : List Char) (h : c = ' ' ∨ c = ')' ∨ c = '\n') :
    EndsNumber (c :: text) := by
  rintro d ⟨⟩
  rcases h with rfl | rfl | rfl <;> decide

/-- The text of an operator and its operands, with the text behind it pushed inwards, so that both
operands have something behind them again. -/
theorem render_binary_append (operator : Operator) (lhs rhs : Expr) (text : List Char) :
    (binary operator lhs rhs).render ++ text =
      '(' :: operator.toChar :: ' ' ::
        (lhs.render ++ ' ' :: (rhs.render ++ ')' :: text)) := by
  simp [render]

/-- **An expression is told from what is behind it.**  The induction is on one of the two, and
what is behind its operands is part of what is behind them. -/
theorem append_render_inj {a b : Expr} {x y : List Char} (hx : EndsNumber x) (hy : EndsNumber y)
    (h : a.render ++ x = b.render ++ y) : a = b ∧ x = y := by
  induction a generalizing b x y with
  | number m =>
    cases b with
    | number n =>
      obtain ⟨rfl, rfl⟩ := Decimal.append_ofInt64_inj hx hy h
      exact ⟨rfl, rfl⟩
    | binary operator lhs rhs =>
      rw [render_binary_append] at h
      exact absurd h (Decimal.append_ofInt64_ne m x _)
  | binary operator lhs rhs ihl ihr =>
    rw [render_binary_append] at h
    cases b with
    | number n => exact absurd h.symm (Decimal.append_ofInt64_ne n y _)
    | binary operator' lhs' rhs' =>
      rw [render_binary_append] at h
      simp only [List.cons.injEq, true_and] at h
      obtain ⟨hoperator, hparts⟩ := h
      obtain ⟨rfl, hright⟩ :=
        ihl (endsNumber_cons _ (.inl rfl)) (endsNumber_cons _ (.inl rfl)) hparts
      obtain ⟨rfl, hbehind⟩ := ihr (endsNumber_cons _ (.inr (.inl rfl)))
        (endsNumber_cons _ (.inr (.inl rfl))) (List.cons.inj hright).2
      rw [Operator.toChar_inj hoperator]
      exact ⟨rfl, (List.cons.inj hbehind).2⟩

end Expr

namespace Command

/-- The trees of some lines up to the first line that has none. -/
def leadingTrees (file : String) : List (List Char) → List Expr
  | [] => []
  | line :: lines =>
    match (Line.mk (some file) line).expr? with
    | .ok (some tree) => tree :: leadingTrees file lines
    | _ => []

/-- Lines with trees in front of one that has none give all leading trees. -/
theorem leadingTrees_of_forall₂ {file : String} {before rest : List (List Char)}
    {trees : List Expr} (h : List.Forall₂ (HasTree file) before trees)
    (hrest : ∀ line ∈ rest.head?, ∀ tree, ¬ HasTree file line tree) :
    leadingTrees file (before ++ rest) = trees := by
  induction h with
  | nil =>
    cases rest with
    | nil => rfl
    | cons line rest =>
      rw [List.nil_append, leadingTrees]
      split
      · next tree htree => exact absurd htree (hrest line rfl tree)
      · rfl
  | cons htree _ ih =>
    rw [HasTree] at htree
    rw [List.cons_append, leadingTrees, htree, ih]

/-- **What a listing of trees shows** are the leading trees. -/
theorem output_listTrees (file : String) (text : List Char) :
    (listTrees file text).output =
      listing ((leadingTrees file (textLines text)).map Expr.render) := by
  obtain ⟨before, trees, rest, hlines, hbefore, hrest⟩ :=
    exists_forall₂ (HasTree file) (textLines text)
  have htrees : treesByLine file text = trees.map .ok ++ treesOf file rest := by
    rw [treesByLine_eq, hlines, treesOf_append hbefore]
  rw [hlines, leadingTrees_of_forall₂ hbefore hrest, listTrees, htrees, successes_ok_append,
    firstError?_ok_append]
  rcases ends_of_not_hasTree hrest with ⟨-, htreesOf, -⟩ | ⟨_, _, _, -, -, htreesOf, -⟩
  · simp [htreesOf]
  · simp [htreesOf]

/-- A file whose bytes are a text is listed by the leading trees of the text. -/
theorem output_perform_listTrees {surroundings : Surroundings} {file : String} {text : List Char}
    (h : surroundings.file file = .ok (Utf8.encode text)) (options : Options) :
    (perform surroundings options (.listTrees file)).output =
      listing ((leadingTrees file (textLines text)).map Expr.render) := by
  simp only [perform, withText, h, Utf8.decode?_encode, output_listTrees]

/-- **A listing tells what is listed.**  The line break behind a tree ends its text, and what is
behind the line break is the listing of the others. -/
theorem listing_render_inj {trees others : List Expr}
    (h : listing (trees.map Expr.render) = listing (others.map Expr.render)) : trees = others := by
  have htext := congrArg Utf8.decodeLossy h
  rw [listing, listing, Utf8.decodeLossy_encode, Utf8.decodeLossy_encode, List.flatMap_map,
    List.flatMap_map] at htext
  clear h
  induction trees generalizing others with
  | nil =>
    cases others with
    | nil => rfl
    | cons other others => simp at htext
  | cons tree trees ih =>
    cases others with
    | nil => simp at htext
    | cons other others =>
      simp only [List.flatMap_cons, List.append_assoc, List.singleton_append] at htext
      obtain ⟨rfl, hrest⟩ := Expr.append_render_inj (Expr.endsNumber_cons _ (.inr (.inr rfl)))
        (Expr.endsNumber_cons _ (.inr (.inr rfl))) htext
      rw [ih (List.cons.inj hrest).2]

/-- **Expressions are told by their text.**  Where an expression ends inside a text is known, no
two expressions have the same text, and two files are listed alike just when they have the same
leading trees. -/
theorem render_tells_trees :
    (∀ (a b : Expr) (x y : List Char), Expr.EndsExpr x → Expr.EndsExpr y →
      a.render ++ x = b.render ++ y → a = b ∧ x = y) ∧
    Function.Injective Expr.render ∧
    ∀ (surroundings surroundings' : Surroundings) (options options' : Options)
      (file file' : String) (text text' : List Char),
      surroundings.file file = .ok (Utf8.encode text) →
      surroundings'.file file' = .ok (Utf8.encode text') →
      ((perform surroundings options (.listTrees file)).output =
          (perform surroundings' options' (.listTrees file')).output ↔
        leadingTrees file (textLines text) = leadingTrees file' (textLines text')) := by
  refine ⟨fun a b x y hx hy => Expr.append_render_inj hx.endsNumber hy.endsNumber,
    fun a b h => ?_, ?_⟩
  · have hnil : EndsNumber [] := fun c hc => by cases hc
    have hends : a.render ++ [] = b.render ++ [] := by rw [h]
    exact (Expr.append_render_inj hnil hnil hends).1
  · intro surroundings surroundings' options options' file file' text text' h h'
    rw [output_perform_listTrees h, output_perform_listTrees h']
    exact ⟨listing_render_inj, fun hsame => by rw [hsame]⟩

/-- The sign of the least integer and the operator in front of it look alike, and are told by what
is around them. -/
example : (Expr.binary .subtract (.number (-9223372036854775808)) (.number 0)).render =
    "(- -9223372036854775808 0)".toList := by
  decide +kernel

end Command
end Reckoner
