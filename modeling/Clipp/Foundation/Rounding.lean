import Mathlib.Data.Rat.Floor
import Mathlib.Algebra.Order.Round
import Mathlib.Tactic.FieldSimp

namespace Foundation

variable {a b n w : Nat}

theorem round_div_of_odd (odd : b % 2 = 1) : round ((a : ℚ) / (b : ℚ)) = (((a + b / 2) / b : Nat) : ℤ) := by
  have nonzero : (b : ℚ) ≠ 0 := by
    have positive : 0 < b := by omega
    exact_mod_cast positive.ne'
  have doubled : (a : ℚ) / b + 1 / 2 = ((2 * a + b : Nat) : ℚ) / ((2 * b : Nat) : ℚ) := by
    push_cast
    field_simp
  have halved : (2 * a + b) / (2 * b) = (a + b / 2) / b := by
    rw [← Nat.div_div_eq_div_mul]
    congr 1
    omega
  rw [round_eq, doubled, Rat.floor_natCast_div_natCast, ← halved]
  norm_cast

theorem wrapped_div_lt (positive : 0 < b) (divisor : b ≤ w) (wraps : w ≤ n) : n % w / b < n / b := by
  have lost : n % w + w ≤ n := by
    have split := Nat.div_add_mod n w
    have rounds : w * 1 ≤ w * (n / w) := Nat.mul_le_mul_left w (Nat.div_pos wraps (by omega))
    omega
  have less : n % w + b ≤ n := by omega
  calc n % w / b < (n % w + b) / b := by rw [Nat.add_div_right _ positive]; omega
    _ ≤ n / b := Nat.div_le_div_right less

end Foundation
