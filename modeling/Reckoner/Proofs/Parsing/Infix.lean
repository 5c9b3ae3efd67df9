/-
# Reading back what has been written

An expression without negative numbers can be written on a line in infix form
(`Expr.IsWrittenAs`): with enough parentheses, as many more as anyone likes, and any layout.
Reading the line gives back the same expression (`expr?_of_isWrittenAs`).  One such line is
the one without gaps (`Grouped.render`).

That the tokens are a sentence is known from `Reckoner.Proofs.Sentence.Grouping`, and that
these tokens are read from `Reckoner.Proofs.Lexing.Layout`.

The line without gaps is a layout because nowhere in it do two numbers meet.  That is said of each
part in front of whatever does not begin with a number (`Writes`), which an operator and a closing
parenthesis do not.
-/

import Reckoner.Expr.Leaves
import Reckoner.Proofs.Lexing.Layout
import Reckoner.Proofs.Parsing.Line
import Reckoner.Proofs.Sentence.Grouping

namespace Reckoner

open Grammar

/-! ## Lines without gaps -/

/-- The text of an expression in parentheses, without gaps. -/
def Grouped.render : Grouped → List Char
  | number pairs value => enclose '(' ')' pairs (Decimal.ofInt64 value)
  | binary pairs operator lhs rhs =>
    enclose '(' ')' pairs (lhs.render ++ operator.toChar :: rhs.render)

/-- A digit is no carriage return, and so all digits count. -/
theorem digitsValue_of_isDigit {literal : List Char} (h : ∀ c ∈ literal, c.isDigit) :
    digitsValue literal = Decimal.value literal := by
  rw [digitsValue, List.filter_eq_self.2 h]

/-- **A number that is not negative is spelled by its decimal text.** -/
theorem isSpelling_ofInt64 {value : Int64} (h : 0 ≤ value) :
    IsSpelling value (Decimal.ofInt64 value) := by
  have hnonneg : 0 ≤ value.toInt := Int64.le_iff_toInt_le.1 h
  obtain ⟨n, hn⟩ := Int.eq_ofNat_of_zero_le hnonneg
  have htext : Decimal.ofInt64 value = Decimal.ofNat n := by
    rw [Decimal.ofInt64, hn]
    rfl
  have hdigits : ∀ c ∈ Decimal.ofNat n, c.isDigit := fun c hc => Decimal.isDigit_of_mem_ofNat hc
  have hne := Decimal.ofNat_ne_nil n
  rw [htext]
  constructor
  · exact ⟨_, List.head?_eq_some_head hne, hdigits _ (List.head_mem hne)⟩
  · exact ⟨_, List.getLast?_eq_some_getLast hne, hdigits _ (List.getLast_mem hne)⟩
  · exact fun c hc => .inl (hdigits c hc)
  · rw [digitsValue_of_isDigit hdigits, Decimal.value_ofNat, hn]

/-- Whether a text writes out some tokens in front of anything that is written out and does
not begin with a number. -/
def Writes (kinds : List Token.Kind) (text : List Char) : Prop :=
  ∀ later rest, IsLayout later rest → (∀ next more, later ≠ .number next :: more) →
    IsLayout (kinds ++ later) (text ++ rest)

namespace Writes

variable {kinds left right : List Token.Kind} {text before behind : List Char}

/-- A number is written by any of its spellings. -/
theorem number {value : Int64} {literal : List Char} (h : IsSpelling value literal) :
    Writes [.number value] literal := by
  intro later rest hrest hlater
  exact .number isGap_nil h (fun next more heq => absurd heq (hlater next more)) hrest

/-- What begins with a symbol begins with no number, so that no two numbers meet at a symbol. -/
theorem symbol_ne_number {s : Symbol} {later : List Token.Kind} (next : Int64)
    (more : List Token.Kind) : Token.Kind.symbol s :: later ≠ .number next :: more := by
  intro heq
  cases heq

/-- An operator between two written parts needs no gap on either side. -/
theorem join (s : Symbol) (hl : Writes left before) (hr : Writes right behind) :
    Writes (left ++ .symbol s :: right) (before ++ s.toChar :: behind) := by
  intro later rest hrest hlater
  have hbehind := (hr later rest hrest hlater).symbol_cons s
  have hall := hl _ _ hbehind symbol_ne_number
  simpa using hall

/-- Parentheses around a written part need no gap either. -/
theorem enclose (h : Writes kinds text) (pairs : Nat) :
    Writes (enclose (.symbol .leftParenthesis) (.symbol .rightParenthesis) pairs kinds)
      (enclose '(' ')' pairs text) := by
  induction pairs with
  | zero => exact h
  | succ pairs ih =>
    intro later rest hrest hlater
    have hclosing := hrest.symbol_cons .rightParenthesis
    have hall := (ih _ _ hclosing symbol_ne_number).symbol_cons .leftParenthesis
    simpa [Reckoner.enclose, Symbol.toChar] using hall

end Writes

/-- **The line without gaps is one that the tokens can be written as.** -/
theorem Grouped.writes_render (grouped : Grouped) (h : ∀ value ∈ grouped.expr.leaves, 0 ≤ value) :
    Writes grouped.kinds grouped.render := by
  induction grouped with
  | number pairs value =>
    have hvalue : 0 ≤ value := h value (List.mem_singleton.2 rfl)
    exact (Writes.number (isSpelling_ofInt64 hvalue)).enclose pairs
  | binary pairs operator lhs rhs ihl ihr =>
    have hsymbol : operator.toSymbol.toChar = operator.toChar := by cases operator <;> rfl
    have hlhs := ihl fun value hvalue => h value (List.mem_append_left _ hvalue)
    have hrhs := ihr fun value hvalue => h value (List.mem_append_right _ hvalue)
    have hjoin := hlhs.join operator.toSymbol hrhs
    rw [hsymbol] at hjoin
    exact hjoin.enclose pairs

/-! ## Any lines -/

/-- Whether a text is an infix form of an expression, with parentheses where they are wanted
and no more than 256 open at once. -/
def Expr.IsWrittenAs (expr : Expr) (text : List Char) : Prop :=
  ∃ grouped : Grouped, grouped.expr = expr ∧ grouped.Sufficient ∧
    NestsWithin maxNesting grouped.kinds ∧ IsLayout grouped.kinds text

/-- A line is read as the expression that it is an infix form of: the tokens are a sentence of this
expression, within the limits, and a layout of them is read as them. -/
theorem Expr.IsWrittenAs.expr?_eq {expr : Expr} {text : List Char} (h : expr.IsWrittenAs text)
    (hcount : expr.operators ≤ maxOperators) (filename : Option String) :
    Line.expr? ⟨filename, text⟩ = .ok (some expr) := by
  obtain ⟨grouped, rfl, hsufficient, hnests, hlayout⟩ := h
  obtain ⟨tokens, last, hitems, hlast, hkinds⟩ := hlayout.items_eq
  refine expr?_eq_some_iff.2 ⟨tokens, last, hlast, hitems, ?_⟩
  rw [hkinds]
  exact hsufficient.isSentence hnests hcount

/-- **Reading a line undoes the writing of an expression,** however it is written: with
these parentheses or with those, with gaps or without. -/
theorem expr?_of_isWrittenAs {expr : Expr} (hleaves : ∀ value ∈ expr.leaves, 0 ≤ value)
    (hcount : expr.operators ≤ maxOperators) (filename : Option String) :
    (∀ text, expr.IsWrittenAs text → Line.expr? ⟨filename, text⟩ = .ok (some expr)) ∧
    (∀ grouped : Grouped, grouped.expr = expr → grouped.Sufficient →
      NestsWithin maxNesting grouped.kinds →
      Line.expr? ⟨filename, grouped.render⟩ = .ok (some expr)) ∧
    ∀ first second, expr.IsWrittenAs first → expr.IsWrittenAs second →
      Line.expr? ⟨filename, first⟩ = Line.expr? ⟨filename, second⟩ := by
  refine ⟨fun text h => h.expr?_eq hcount filename, ?_, ?_⟩
  · rintro grouped rfl hsufficient hnests
    have hlayout := grouped.writes_render hleaves [] [] (.finish isGap_nil)
      fun next more heq => by cases heq
    rw [List.append_nil, List.append_nil] at hlayout
    have hwritten : grouped.expr.IsWrittenAs grouped.render :=
      ⟨grouped, rfl, hsufficient, hnests, hlayout⟩
    exact hwritten.expr?_eq hcount filename
  · intro first second hfirst hsecond
    rw [hfirst.expr?_eq hcount filename, hsecond.expr?_eq hcount filename]

/-- The expression `(8 - (3 - 2)) * 4` with two pairs around the `4`. -/
def Grouped.sample : Grouped :=
  .binary 0 .multiply
    (.binary 1 .subtract (.number 0 8) (.binary 1 .subtract (.number 0 3) (.number 0 2)))
    (.number 2 4)

/-- Both parentheses that this expression needs are kept, and the pairs around the `4` make
no difference. -/
theorem expr?_of_isWrittenAs_sample :
    (∀ value ∈ Grouped.sample.expr.leaves, 0 ≤ value) ∧
    Grouped.sample.expr.operators ≤ maxOperators ∧
    Line.expr? ⟨none, "(8-(3-2))*((4))".toList⟩ =
      .ok (some (.binary .multiply
        (.binary .subtract (.number 8) (.binary .subtract (.number 3) (.number 2)))
        (.number 4))) := by
  have hleaves : ∀ value ∈ Grouped.sample.expr.leaves, 0 ≤ value := by
    simp [Grouped.sample, Grouped.expr, Expr.leaves]
  have hcount : Grouped.sample.expr.operators ≤ maxOperators := by decide
  have hdifference : (Grouped.binary 1 .subtract (.number 0 3) (.number 0 2)).Sufficient :=
    .binary 1 .subtract (.number 0 3) (.number 0 2) (fun _ h => by cases h) (fun _ h => by cases h)
  have hleft : (Grouped.binary 1 .subtract (.number 0 8)
      (.binary 1 .subtract (.number 0 3) (.number 0 2))).Sufficient :=
    .binary 1 .subtract (.number 0 8) hdifference (fun _ h => by cases h)
      (fun _ _ _ => Nat.one_pos)
  have hsufficient : Grouped.sample.Sufficient :=
    .binary 0 .multiply hleft (.number 2 4) (fun _ _ _ => Nat.one_pos) (fun _ _ _ => Nat.two_pos)
  have hnests : NestsWithin maxNesting Grouped.sample.kinds := by
    intro first hfirst
    have hle := hfirst.sublist.count_le (.symbol .leftParenthesis)
    have hfour : Grouped.sample.kinds.count (.symbol .leftParenthesis) = 4 := by decide
    have hmax : maxNesting = 256 := rfl
    omega
  have htext : Grouped.sample.render = "(8-(3-2))*((4))".toList := by decide +kernel
  rw [← htext]
  exact ⟨hleaves, hcount,
    (expr?_of_isWrittenAs hleaves hcount none).2.1 _ rfl hsufficient hnests⟩

end Reckoner
