/-
# 64-bit arithmetic and exact arithmetic

Two facts about one operator carry what is said here about whole expressions.  On operands
that 64 bits hold, the operator gives what it gives exactly, wrapped around
(`Operator.apply_eq_wrapped`); and unless it divides, it does so on operands that have been
wrapped around themselves (`Operator.apply_ofInt`).

So the value of an expression is its exact value as long as nothing that is computed on the
way is too large (`value_of_isInt64_computed`).  Without divisions it does not matter what
is too large on the way: the value is the 64-bit integer that is congruent to the exact
value modulo `2 ^ 64` (`value_wraps_around`).

Both are inductions on the expression.  In the first the operands are exact, because what has
been computed up to there is what 64 bits hold (`value_eq_wrapped`); in the second they may be
wrapped around, and one wrap at the end is as good as one at each step (`value_of_isDivisionFree`).
-/

import Reckoner.Expr.Exact
import Reckoner.Expr.Value

namespace Reckoner

open Decimal (int64Bound)

/-- Whether 64 bits hold an integer: it is at least `-2 ^ 63` and less than `2 ^ 63`. -/
def IsInt64 (n : Int) : Prop := -(int64Bound : Int) ≤ n ∧ n < int64Bound

instance (n : Int) : Decidable (IsInt64 n) :=
  inferInstanceAs (Decidable (-(int64Bound : Int) ≤ n ∧ n < int64Bound))

/-- An integer in the range of 64 bits is the same when it is stored in them. -/
theorem toInt_ofInt_of_isInt64 {n : Int} (h : IsInt64 n) : (Int64.ofInt n).toInt = n := by
  obtain ⟨hle, hlt⟩ := h
  rw [int64Bound] at hle hlt
  exact Int64.toInt_ofInt_of_le (by omega) (by omega)

/-- An integer is congruent to a 64-bit integer just when it wraps around to it. -/
theorem emod_eq_iff_eq_ofInt {n : Int} {value : Int64} :
    value.toInt % Int64.size = n % Int64.size ↔ value = Int64.ofInt n := by
  constructor
  · intro h
    rw [← Int64.toInt_inj]
    calc value.toInt
        = (Int64.ofInt value.toInt).toInt := by rw [Int64.ofInt_toInt]
      _ = (value.toInt % Int64.size).bmod Int64.size := by rw [Int64.toInt_ofInt, Int.emod_bmod]
      _ = (Int64.ofInt n).toInt := by rw [h, Int.emod_bmod, Int64.toInt_ofInt]
  · rintro rfl
    rw [Int64.toInt_ofInt, Int.bmod_emod]

/-- An exact result, wrapped around. -/
def wrapped : Except Int Int → Except DivisionByZero Int64
  | .ok n => .ok (Int64.ofInt n)
  | .error dividend => .error ⟨Int64.ofInt dividend⟩

namespace Operator

/-- **Wrapping around can wait,** as long as nothing is divided: sums, differences and products of
congruent operands are congruent. -/
theorem apply_ofInt {operator : Operator} (h : operator ≠ .divide) (lhs rhs : Int) :
    ∃ n, operator.applyExactly lhs rhs = .ok n ∧
      operator.apply (Int64.ofInt lhs) (Int64.ofInt rhs) = .ok (Int64.ofInt n) := by
  cases operator with
  | add => exact ⟨_, rfl, by rw [apply, Int64.ofInt_add]⟩
  | subtract => exact ⟨_, rfl, by rw [apply, Int64.ofInt_sub]⟩
  | multiply => exact ⟨_, rfl, by rw [apply, Int64.ofInt_mul]⟩
  | divide => exact absurd rfl h

/-- **An operator gives its exact result, wrapped around.**  This holds of a division too, since its
operands are exact; what wraps around there is the quotient of the least integer and `-1`. -/
theorem apply_eq_wrapped (operator : Operator) (lhs rhs : Int64) :
    operator.apply lhs rhs = wrapped (operator.applyExactly lhs.toInt rhs.toInt) := by
  -- A quotient does not go with wrapping around; here both operands are in range already.
  by_cases hdivide : operator = .divide
  · subst hdivide
    by_cases hzero : rhs = 0
    · subst hzero
      rw [apply, if_pos rfl, applyExactly, if_pos Int64.toInt_zero, wrapped, Int64.ofInt_toInt]
    · have hzero' : rhs.toInt ≠ 0 := fun h => hzero (Int64.toInt_inj.1 h)
      have hquotient : Int64.ofInt (lhs.toInt.tdiv rhs.toInt) = lhs / rhs := by
        rw [Int64.ofInt_tdiv lhs.minValue_le_toInt lhs.toInt_le rhs.minValue_le_toInt rhs.toInt_le,
          Int64.ofInt_toInt, Int64.ofInt_toInt]
      rw [apply, if_neg hzero, applyExactly, if_neg hzero', wrapped, hquotient]
  · obtain ⟨n, hexact, happly⟩ := apply_ofInt hdivide lhs.toInt rhs.toInt
    rw [Int64.ofInt_toInt, Int64.ofInt_toInt] at happly
    rw [hexact, happly, wrapped]

end Operator

/-- Only a division fails, and it leaves its dividend. -/
theorem Operator.eq_of_applyExactly_eq_error {operator : Operator} {lhs rhs dividend : Int}
    (h : operator.applyExactly lhs rhs = .error dividend) : dividend = lhs := by
  cases operator with
  | add => cases h
  | subtract => cases h
  | multiply => cases h
  | divide =>
    rw [applyExactly] at h
    split at h
    · exact (Except.error.inj h).symm
    · cases h

namespace Expr

/-- What comes of an expression, be it a value or a dividend, has been computed. -/
theorem mem_computed {expr : Expr} {n : Int}
    (h : expr.exactValue = .ok n ∨ expr.exactValue = .error n) : n ∈ expr.computed := by
  induction expr generalizing n with
  | number value =>
    rcases h with h | h
    · cases h
      exact List.mem_singleton_self _
    · cases h
  | binary operator lhs rhs ihl ihr =>
    rcases h with h | h
    · exact mem_computed_self h
    · cases hleft : lhs.exactValue with
      | error dividend =>
        rw [exactValue_of_left hleft] at h
        cases h
        exact mem_computed_left (ihl (.inr hleft))
      | ok left =>
        cases hright : rhs.exactValue with
        | error dividend =>
          rw [exactValue_of_right hleft hright] at h
          cases h
          exact mem_computed_right hleft (ihr (.inr hright))
        | ok right =>
          rw [exactValue_of_operands hleft hright] at h
          obtain rfl := Operator.eq_of_applyExactly_eq_error h
          exact mem_computed_left (ihl (.inl hleft))

/-- As long as 64 bits hold what is computed, the value is the exact one, wrapped around.  The left
operand comes first: if it fails nothing is asked of the right one. -/
theorem value_eq_wrapped {expr : Expr} (h : ∀ n ∈ expr.computed, IsInt64 n) :
    expr.value = wrapped expr.exactValue := by
  induction expr with
  | number value => rw [Expr.value, exactValue, wrapped, Int64.ofInt_toInt]
  | binary operator lhs rhs ihl ihr =>
    have hl := ihl fun n hn => h n (mem_computed_left hn)
    cases hleft : lhs.exactValue with
    | error dividend =>
      rw [hleft] at hl
      rw [value_of_left hl, exactValue_of_left hleft, wrapped]
    | ok left =>
      rw [hleft] at hl
      have hr := ihr fun n hn => h n (mem_computed_right hleft hn)
      cases hright : rhs.exactValue with
      | error dividend =>
        rw [hright] at hr
        rw [value_of_right hl hr, exactValue_of_right hleft hright, wrapped]
      | ok right =>
        rw [hright] at hr
        -- Both operands have been computed, so wrapping around leaves them as they are.
        have hleft64 := h left (mem_computed_left (mem_computed (.inl hleft)))
        have hright64 := h right (mem_computed_right hleft (mem_computed (.inl hright)))
        rw [value_of_operands hl hr, exactValue_of_operands hleft hright,
          Operator.apply_eq_wrapped, toInt_ofInt_of_isInt64 hleft64,
          toInt_ofInt_of_isInt64 hright64]

/-- **Evaluation is exact as long as nothing overflows.**  If 64 bits hold everything that is
computed until there is an exact value or a division fails, the value is the exact value, or
the same division fails. -/
theorem value_of_isInt64_computed {expr : Expr} (h : ∀ n ∈ expr.computed, IsInt64 n) :
    (∀ n, expr.exactValue = .ok n → ∃ value, expr.value = .ok value ∧ value.toInt = n) ∧
    ∀ dividend, expr.exactValue = .error dividend →
      ∃ error, expr.value = .error error ∧ error.dividend.toInt = dividend := by
  have hvalue := value_eq_wrapped h
  constructor
  · intro n hexact
    rw [hexact] at hvalue
    exact ⟨_, hvalue, toInt_ofInt_of_isInt64 (h n (mem_computed (.inl hexact)))⟩
  · intro dividend hexact
    rw [hexact] at hvalue
    exact ⟨_, hvalue, toInt_ofInt_of_isInt64 (h dividend (mem_computed (.inr hexact)))⟩

/-- The least integer is an operand like any other, and behind its quotient `-7 / 2` is cut
off to the dividend `-3`. -/
theorem value_of_isInt64_computed_at_division :
    (∀ n ∈ (binary .multiply (binary .divide (number Int64.minValue) (number 3))
      (binary .divide (binary .divide (number (-7)) (number 2))
        (binary .subtract (number 5) (number 5)))).computed, IsInt64 n) ∧
    ∃ error, (binary .multiply (binary .divide (number Int64.minValue) (number 3))
      (binary .divide (binary .divide (number (-7)) (number 2))
        (binary .subtract (number 5) (number 5)))).value = .error error ∧
      error.dividend.toInt = -3 := by
  have h : ∀ n ∈ (binary .multiply (binary .divide (number Int64.minValue) (number 3))
      (binary .divide (binary .divide (number (-7)) (number 2))
        (binary .subtract (number 5) (number 5)))).computed, IsInt64 n := by
    decide
  exact ⟨h, (value_of_isInt64_computed h).2 (-3) rfl⟩

/-! ## Wrapping around -/

/-- Without divisions there is always an exact value, and the value is that, wrapped around. -/
theorem value_of_isDivisionFree {expr : Expr} (h : expr.IsDivisionFree) :
    ∃ n, expr.exactValue = .ok n ∧ expr.value = .ok (Int64.ofInt n) := by
  induction expr with
  | number value => exact ⟨value.toInt, rfl, by rw [Expr.value, Int64.ofInt_toInt]⟩
  | binary operator lhs rhs ihl ihr =>
    obtain ⟨hoperator, hlhs, hrhs⟩ := h
    obtain ⟨left, hleft, hl⟩ := ihl hlhs
    obtain ⟨right, hright, hr⟩ := ihr hrhs
    obtain ⟨n, hexact, happly⟩ := Operator.apply_ofInt hoperator left right
    refine ⟨n, ?_, ?_⟩
    · rw [exactValue_of_operands hleft hright, hexact]
    · rw [value_of_operands hl hr, happly]

/-- **Arithmetic wraps around.**  Without divisions an expression has a value, which is the
only 64-bit integer that is congruent to the exact value modulo `2 ^ 64`, so that the exact
value alone decides it.  A quotient is the exact one, cut off toward zero, unless it is the
one that 64 bits do not hold. -/
theorem value_wraps_around :
    (∀ expr : Expr, expr.IsDivisionFree →
      ∃ n value, expr.exactValue = .ok n ∧ expr.value = .ok value ∧
        ∀ other : Int64, other.toInt % Int64.size = n % Int64.size ↔ other = value) ∧
    (∀ first second : Expr, first.IsDivisionFree → second.IsDivisionFree →
      first.exactValue = second.exactValue → first.value = second.value) ∧
    ∀ (lhs rhs : Expr) (dividend divisor : Int64),
      lhs.value = .ok dividend → rhs.value = .ok divisor → divisor ≠ 0 →
      ∃ quotient, (binary .divide lhs rhs).value = .ok quotient ∧
        if dividend = Int64.minValue ∧ divisor = -1 then quotient = Int64.minValue
        else quotient.toInt = dividend.toInt.tdiv divisor.toInt := by
  refine ⟨fun expr h => ?_, fun first second hfirst hsecond hexact => ?_, ?_⟩
  · obtain ⟨n, hexact, hvalue⟩ := value_of_isDivisionFree h
    exact ⟨n, _, hexact, hvalue, fun other => emod_eq_iff_eq_ofInt⟩
  · obtain ⟨n, hn, hvalue⟩ := value_of_isDivisionFree hfirst
    obtain ⟨m, hm, hvalue'⟩ := value_of_isDivisionFree hsecond
    rw [hn, hm] at hexact
    rw [hvalue, hvalue', Except.ok.inj hexact]
  · intro lhs rhs dividend divisor hl hr hzero
    refine ⟨dividend / divisor, ?_, ?_⟩
    · rw [value_of_operands hl hr, Operator.apply, if_neg hzero]
    · split
      · next hmin =>
        obtain ⟨rfl, rfl⟩ := hmin
        rfl
      · next hmin =>
        rcases Decidable.not_and_iff_not_or_not.1 hmin with hne | hne
        · exact Int64.toInt_div_of_ne_left dividend divisor hne
        · exact Int64.toInt_div_of_ne_right dividend divisor hne

/-- `(2 ^ 63 - 1 + 2 ^ 63 - 1) * -3` is too large twice and comes to `6`.  The quotient that
64 bits do not hold is that of the least integer and `-1`. -/
theorem value_wraps_around_twice :
    (binary .multiply (binary .add (number Int64.maxValue) (number Int64.maxValue))
      (number (-3))).IsDivisionFree ∧
    (∀ other : Int64,
      other.toInt % Int64.size = (-55340232221128654842 : Int) % Int64.size ↔ other = 6) ∧
    (-1 : Int64) ≠ 0 ∧
    (binary .divide (number Int64.minValue) (number (-1))).value = .ok Int64.minValue := by
  obtain ⟨hring, -, hdivide⟩ := value_wraps_around
  have hfree : (binary .multiply (binary .add (number Int64.maxValue) (number Int64.maxValue))
      (number (-3))).IsDivisionFree := ⟨by decide, ⟨by decide, trivial, trivial⟩, trivial⟩
  obtain ⟨n, value, hexact, hvalue, hunique⟩ := hring _ hfree
  obtain ⟨quotient, hquotient, hmin⟩ :=
    hdivide (number Int64.minValue) (number (-1)) Int64.minValue (-1) rfl rfl (by decide)
  cases hexact
  cases hvalue
  rw [if_pos ⟨rfl, rfl⟩] at hmin
  exact ⟨hfree, hunique, by decide, hmin ▸ hquotient⟩

end Expr
end Reckoner
