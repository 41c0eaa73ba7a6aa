import Mathlib.Algebra.Order.Ring.Int
import Mathlib.Data.Nat.Log

/-! Whole numbers in double precision: a significand of 53 bits, rounded to the nearest and to
the even one of two. Only the values that a conversion or a rounding up leaves whole are
described. -/
namespace Doubles

/-- The whole number that a double holds for this one. -/
def nearest (n : ℕ) : ℕ :=
  if n < 2 ^ 53 then n
  else
    let ulp := 2 ^ (n.log2 - 52)
    let q := n / ulp
    let r := n % ulp
    (if 2 * r < ulp ∨ (2 * r = ulp ∧ q % 2 = 0) then q else q + 1) * ulp

/-- A quotient of two numbers below `2 ^ 64`, rounded to a double and then up to a whole number.
It is taken in units of `2 ^ -129`, whose last bit stands for all that is below. -/
def ceilQuotient (a b : ℕ) : ℕ :=
  let units := 2 * (a * 2 ^ 128 / b) + if a * 2 ^ 128 % b = 0 then 0 else 1
  (nearest units + (2 ^ 129 - 1)) / 2 ^ 129

theorem nearest_of_lt {n : ℕ} (h : n < 2 ^ 53) : nearest n = n := if_pos h

/-- Rounding does not lead below a number that a double holds exactly. -/
theorem le_nearest {m n : ℕ} (hm : m ≤ 2 ^ 53) (hmn : m ≤ n) : m ≤ nearest n := by
  rw [nearest]
  split
  · exact hmn
  · next hlarge =>
    have hlog : 53 ≤ n.log2 := (Nat.le_log2 (by omega)).mpr (by omega)
    have hself : 2 ^ n.log2 ≤ n := Nat.log2_self_le (by omega)
    have hulp : 2 ≤ 2 ^ (n.log2 - 52) := Nat.le_self_pow (by omega) 2
    have hq : 2 ^ 52 ≤ n / 2 ^ (n.log2 - 52) := by
      rw [Nat.le_div_iff_mul_le (by omega), ← Nat.pow_add]
      rwa [show 52 + (n.log2 - 52) = n.log2 by omega]
    have hproduct : 2 ^ 53 ≤ n / 2 ^ (n.log2 - 52) * 2 ^ (n.log2 - 52) :=
      calc 2 ^ 53 = 2 ^ 52 * 2 := Nat.pow_succ 2 52
        _ ≤ _ := Nat.mul_le_mul hq hulp
    dsimp only
    refine hm.trans (hproduct.trans (Nat.mul_le_mul_right _ ?_))
    split <;> omega

end Doubles
