/- The rational numbers that binary64 numbers and JSON numbers stand for. -/
import Mathlib.Algebra.Order.Field.Power
import Mathlib.Algebra.Order.Ring.Rat
import SwiftModel.Json.Value

namespace SwiftModel

def Magnitude.value (a : Magnitude) : ℚ := a.mantissa * 2 ^ a.exponent

def Binary64.value (x : Binary64) : ℚ :=
  if x.negative then -x.magnitude.value else x.magnitude.value

def Number.value : Number → ℚ
  | .integer n => n
  | .double x => x.value

theorem Magnitude.value_nonneg (a : Magnitude) : 0 ≤ a.value := by
  have step : (0 : ℚ) < 2 ^ a.exponent := zpow_pos two_pos a.exponent
  exact mul_nonneg (Nat.cast_nonneg a.mantissa) step.le

theorem Magnitude.value_eq_zero_iff (a : Magnitude) : a.value = 0 ↔ a.isZero = true := by
  have step : (2 : ℚ) ^ a.exponent ≠ 0 := (zpow_pos two_pos a.exponent).ne'
  rw [value, mul_eq_zero, or_iff_left step, Nat.cast_eq_zero, isZero, beq_iff_eq]

/-- Both zeros are zero, so the sign decides only for the other numbers. -/
theorem Binary64.isNonnegative_iff (x : Binary64) : x.isNonnegative = true ↔ 0 ≤ x.value := by
  have magnitude := x.magnitude.value_nonneg
  rw [isNonnegative, value]
  cases x.negative with
  | false => simpa using magnitude
  | true =>
      have zero : x.magnitude.value = 0 ↔ x.magnitude.isZero = true :=
        x.magnitude.value_eq_zero_iff
      simp only [Bool.not_true, Bool.false_or, if_true, neg_nonneg]
      rw [← zero]
      exact ⟨fun h => h.le, fun h => le_antisymm h magnitude⟩

theorem Number.isNonnegative_iff (n : Number) : n.isNonnegative = true ↔ 0 ≤ n.value := by
  cases n with
  | integer n => simp [isNonnegative, value]
  | double x => exact x.isNonnegative_iff

end SwiftModel
