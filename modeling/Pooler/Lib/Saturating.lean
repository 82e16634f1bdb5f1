import Mathlib

/-! Saturating arithmetic below a cap: what fixed-width `saturating_add`,
`saturating_sub` and `saturating_mul` compute on values in range. -/

namespace Pooler.Lib

def satAdd (cap a b : ℕ) : ℕ := min cap (a + b)

def satMul (cap a b : ℕ) : ℕ := min cap (a * b)

theorem satAdd_le_cap (cap a b : ℕ) : satAdd cap a b ≤ cap := Nat.min_le_left _ _

theorem satAdd_eq_add {cap a b : ℕ} (h : a + b ≤ cap) : satAdd cap a b = a + b := min_eq_right h

/-- A saturated sum below the cap is the true sum. -/
theorem satAdd_eq_add_of_lt {cap a b : ℕ} (h : satAdd cap a b < cap) : satAdd cap a b = a + b := by
  unfold satAdd at *; omega

/-- Below a bound that the cap exceeds, saturation does not show. -/
theorem satAdd_le_iff {cap a b bound : ℕ} (h : bound < cap) : satAdd cap a b ≤ bound ↔ a + b ≤ bound := by
  unfold satAdd; omega

end Pooler.Lib
