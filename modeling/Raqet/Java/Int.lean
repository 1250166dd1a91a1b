import Mathlib.Algebra.Order.Ring.Int

/-!
# Machine integers

The arithmetic of `int` and `long`. An expression is computed on unbounded
integers and then reduced to the signed range of its type, where Java reduces
it: after an arithmetic operation, and at a narrowing cast.

A nonnegative value wraps downwards only: it is kept when it fits, and loses at
least `2 ^ 32` otherwise (`toInt_eq_or_le`).
-/

namespace Java

/-- The value of an `int` expression: its exact value, reduced to 32 signed bits. -/
def toInt (x : ℤ) : ℤ := x.bmod (2 ^ 32)

/-- The value of a `long` expression: its exact value, reduced to 64 signed bits. -/
def toLong (x : ℤ) : ℤ := x.bmod (2 ^ 64)

theorem toInt_eq_self {x : ℤ} (h₁ : -2 ^ 31 ≤ x) (h₂ : x < 2 ^ 31) : toInt x = x := by
  rw [toInt, Int.bmod_def]
  omega

theorem toLong_eq_self {x : ℤ} (h₁ : -2 ^ 63 ≤ x) (h₂ : x < 2 ^ 63) : toLong x = x := by
  rw [toLong, Int.bmod_def]
  omega

theorem toInt_lt (x : ℤ) : toInt x < 2 ^ 31 := by
  rw [toInt, Int.bmod_def]
  omega

/-- A nonnegative value is kept, or loses at least `2 ^ 32`. -/
theorem toInt_eq_or_le {x : ℤ} (hx : 0 ≤ x) :
    (x < 2 ^ 31 ∧ toInt x = x) ∨ (2 ^ 31 ≤ x ∧ toInt x ≤ x - 2 ^ 32) := by
  rw [toInt, Int.bmod_def]
  omega

/-- A value below `2 ^ 32` that is not negative once reduced was not changed. -/
theorem eq_of_natCast_eq_toInt {m n : ℕ} (hm : m < 2 ^ 32) (h : (n : ℤ) = toInt m) : m = n := by
  rw [toInt, Int.bmod_def] at h
  omega

/-- Reducing the first factor of a product changes nothing once the product is reduced. -/
theorem toInt_toInt_mul (x y : ℤ) : toInt (toInt x * y) = toInt (x * y) :=
  Int.bmod_mul_bmod

/-- Reducing a term of a sum changes nothing once the sum is reduced. -/
theorem toInt_toInt_add (x y : ℤ) : toInt (toInt x + y) = toInt (x + y) :=
  Int.bmod_add_bmod

theorem toInt_toInt_sub (x y : ℤ) : toInt (toInt x - y) = toInt (x - y) :=
  Int.bmod_sub_bmod

theorem toInt_eq_zero_iff {x : ℤ} : toInt x = 0 ↔ (2 ^ 32 : ℤ) ∣ x := by
  rw [toInt, Int.bmod_def]
  omega

end Java
