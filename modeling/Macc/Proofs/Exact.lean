import Mathlib.Algebra.Order.Field.Rat
import Macc.Scalar

/-!
# Exact arithmetic

Statements about the shape of a reduction are statements about rationals, where
the operations of an evaluation are the field operations and nothing is rounded.
The lemmas below say so, one for each operation, so that the proofs about
monotone and bounded reductions never look into the instance again.
-/

namespace Macc.Scalar

@[simp] theorem zero_rat : (Scalar.zero : Rat) = 0 := rfl

@[simp] theorem half_rat : (Scalar.half : Rat) = 1 / 2 := rfl

@[simp] theorem one_rat : (Scalar.one : Rat) = 1 := rfl

@[simp] theorem lt_rat (a b : Rat) : Scalar.lt a b = decide (a < b) := rfl

@[simp] theorem eq_rat (a b : Rat) : Scalar.eq a b = decide (a = b) := rfl

@[simp] theorem isNaN_rat (a : Rat) : Scalar.isNaN a = false := rfl

@[simp] theorem ofInt_rat (n : Int) : (Scalar.ofInt n : Except Failure Rat) = .ok n := rfl

@[simp] theorem ltInt_rat (n : Int) (q : Rat) : Scalar.ltInt n q = decide ((n : Rat) < q) := rfl

@[simp] theorem pow_rat (q : Rat) (n : Nat) : Scalar.pow q n = .ok (q ^ n) := rfl

@[simp]
theorem larger_rat (a b : Rat) : Scalar.larger a b = max a b := by
  rw [larger, lt_rat, max_def']
  by_cases h : a < b
  · simp [h, not_le.2 h]
  · simp [h, not_lt.1 h]

@[simp]
theorem smaller_rat (a b : Rat) : Scalar.smaller a b = min a b := by
  rw [smaller, lt_rat, min_def]
  by_cases h : b < a
  · simp [h, not_le.2 h]
  · simp [h, not_lt.1 h]

/-- A quotient of rationals has a value whenever the divisor is not zero. -/
theorem quotient_rat {a b : Rat} (hb : b ≠ 0) : Scalar.quotient a b = .ok (a / b) := by
  simp [quotient, hb]

theorem quotient_rat_zero (a : Rat) : Scalar.quotient a 0 = .error .divisionByZero := by
  simp [quotient]

end Macc.Scalar
