/-
# Decimal numbers

Integers are written in base ten with no leading zero and a minus sign in front
of a negative one (`ofInt`), the sign as a piece of its own (`signAndDigits`).
Digits are read with any number of leading zeros (`value`), so that a number is
read back from its text (`value_ofNat`).  No two integers are written alike
(`ofInt64_inj`).

A run of digits can be far longer than any number of interest, so reading takes
a bound and stops counting there: `valueUpTo bound digits` is
`min (value digits) bound` (`valueUpTo_eq`).
-/

import Reckoner.Text.Span

namespace Reckoner
namespace Decimal

/-- The first number above the greatest 64-bit integer, `2 ^ 63`. -/
def int64Bound : Nat := 0x8000000000000000

/-- The number that a run of digits denotes in base ten. -/
def value (digits : List Char) : Nat :=
  digits.foldl (fun n d => 10 * n + (d.toNat - '0'.toNat)) 0

/-- The number that a run of digits denotes, or `bound` if it is larger. -/
def valueUpTo (bound : Nat) (digits : List Char) : Nat :=
  digits.foldl (fun n d => min (10 * n + (d.toNat - '0'.toNat)) bound) 0

/-- A bound that has been reached once is kept, since digits make a number no smaller. -/
theorem foldl_min_eq (bound : Nat) (digits : List Char) (n : Nat) :
    digits.foldl (fun n d => min (10 * n + (d.toNat - '0'.toNat)) bound) (min n bound) =
      min (digits.foldl (fun n d => 10 * n + (d.toNat - '0'.toNat)) n) bound := by
  induction digits generalizing n with
  | nil => rfl
  | cons d digits ih =>
    rw [List.foldl_cons, List.foldl_cons, ← ih]
    congr 1
    omega

/-- **Counting up to a bound is exact below it.** -/
theorem valueUpTo_eq (bound : Nat) (digits : List Char) :
    valueUpTo bound digits = min (value digits) bound := by
  have h := foldl_min_eq bound digits 0
  rwa [Nat.zero_min] at h

/-- The decimal text of a natural number. -/
def ofNat (n : Nat) : List Char := Nat.toDigits 10 n

/-- **What is written in decimal denotes the number** that it was written from. -/
theorem value_ofNat (n : Nat) : value (ofNat n) = n := Nat.ofDigitChars_ten_toDigits

/-- A natural number has at least one digit. -/
theorem ofNat_ne_nil (n : Nat) : ofNat n ≠ [] := Nat.toDigits_ne_nil

/-- A natural number is written with digits only. -/
theorem isDigit_of_mem_ofNat {n : Nat} {c : Char} (h : c ∈ ofNat n) : c.isDigit :=
  Nat.isDigit_of_mem_toDigits (by decide) (by decide) h

/-- The decimal text of an integer. -/
def ofInt : Int → List Char
  | .ofNat n => ofNat n
  | .negSucc n => '-' :: ofNat (n + 1)

/-- The sign of an integer, if it has one, and its digits. -/
def signAndDigits : Int → List (List Char)
  | .ofNat n => [ofNat n]
  | .negSucc n => [['-'], ofNat (n + 1)]

/-- **Sign and digits make up the text** of an integer. -/
theorem flatten_signAndDigits (n : Int) : (signAndDigits n).flatten = ofInt n := by
  cases n with
  | ofNat n => exact List.append_nil _
  | negSucc n => exact congrArg ('-' :: ·) (List.append_nil _)

/-- No two natural numbers are written alike. -/
theorem ofNat_inj {m n : Nat} : ofNat m = ofNat n ↔ m = n := by
  refine ⟨fun h => ?_, fun h => h ▸ rfl⟩
  rw [← value_ofNat m, h, value_ofNat]

/-- The text of a natural number begins with no minus sign. -/
theorem ofNat_ne_minus (n : Nat) (text : List Char) : ofNat n ≠ '-' :: text := by
  intro h
  have hminus : '-' ∈ ofNat n := by simp [h]
  exact absurd (isDigit_of_mem_ofNat hminus) (by decide)

/-- **No two integers are written alike.** -/
theorem ofInt_inj {m n : Int} : ofInt m = ofInt n ↔ m = n := by
  refine ⟨fun h => ?_, fun h => h ▸ rfl⟩
  cases m with
  | ofNat m =>
    cases n with
    | ofNat n => rw [ofNat_inj.1 h]
    | negSucc n => exact absurd h (ofNat_ne_minus m _)
  | negSucc m =>
    cases n with
    | ofNat n => exact absurd h.symm (ofNat_ne_minus n _)
    | negSucc n => rw [Nat.succ_inj.1 (ofNat_inj.1 (List.cons.inj h).2)]

/-- An integer is written with digits and a minus sign. -/
theorem isDigit_of_mem_ofInt {n : Int} {c : Char} (h : c ∈ ofInt n) : c = '-' ∨ c.isDigit := by
  cases n with
  | ofNat n => exact .inr (isDigit_of_mem_ofNat h)
  | negSucc n => exact (List.mem_cons.1 h).imp id isDigit_of_mem_ofNat

/-- The decimal text of a 64-bit integer. -/
def ofInt64 (n : Int64) : List Char := ofInt n.toInt

/-- No two 64-bit integers are written alike. -/
theorem ofInt64_inj {m n : Int64} : ofInt64 m = ofInt64 n ↔ m = n :=
  ofInt_inj.trans Int64.toInt_inj

/-- A 64-bit integer is written on one line. -/
theorem lineBreak_not_mem_ofInt64 (n : Int64) : '\n' ∉ ofInt64 n := by
  intro h
  rcases isDigit_of_mem_ofInt h with hminus | hdigit
  · cases hminus
  · exact absurd hdigit (by decide)

end Decimal
end Reckoner
