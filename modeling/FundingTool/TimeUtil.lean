import FundingTool.Models
import FundingTool.Rounding

/-!
# Milliseconds through floats (`infra/time_util.py`)

`from_ms` and `to_ms` go through a float.  Here a double is the rational it stands for, and an
operation on doubles rounds its exact result to 53 binary digits; nothing in these functions
comes near an overflow.

`millis_exact` says where the rounding does not show, and `Models` computes with whole
numbers: up to the year 2242, but for a stretch behind every power of two seconds.  The last of
these stretches ended in November 2004; the next begins in January 2038, and there `to_ms` is a
millisecond early (`toMs_fromMs_2038`).
-/

namespace FundingTool.TimeUtil

open FundingTool.Rounding

/-! ## 1. The functions -/

/-- The double nearest to a number. -/
def double (x : ℚ) : ℚ := roundTo 2 53 (-1074) x

/-- `int(x)` -/
def trunc (x : ℚ) : ℤ := if 0 ≤ x then ⌊x⌋ else ⌈x⌉

/-- `datetime.fromtimestamp(t, tz=UTC)`: the whole seconds, and what is left of them to the
    nearest microsecond. -/
def fromTimestamp (t : ℚ) : ℤ :=
  trunc t * 1000000 + halfEven (double ((t - trunc t) * 1000000))

/-- `dt.timestamp()`, which is `(dt - epoch).total_seconds()`. -/
def timestamp (dt : ℤ) : ℚ := double (dt / 1000000)

def fromMs (ms : ℤ) : ℤ := fromTimestamp (double (ms / 1000))

def toMs (dt : ℤ) : ℤ := trunc (double (timestamp dt * 1000))

/-- `datetime.min`, and the end of the year 9999. -/
def minTime : ℤ := -62135596800000000

def endTime : ℤ := 253402300800000000

/-- `from_ms`; `none` where it raises `ValueError` or `OverflowError`, outside of the years of a
    `datetime`.  No proof is to compute with the float by unfolding it. -/
@[irreducible] def fromMs? (ms : ℤ) : Option ℤ :=
  if minTime ≤ fromMs ms ∧ fromMs ms < endTime then some (fromMs ms) else none

example : toMs (fromMs 1767225600007) = 1767225600007 := by decide +kernel

/-! ## 2. Doubles -/

theorem two_zpow (k : ℕ) (j : ℤ) : ((2 : ℕ) : ℚ) ^ ((k : ℤ) + j) = 2 ^ k * 2 ^ j := by
  rw [zpow_add₀ (by norm_num), zpow_natCast]
  rfl

theorem abs_sub_double_le {x : ℚ} {k : ℕ} (h : |x| < 2 ^ (k + 1)) :
    |x - double x| ≤ 2 ^ k / 2 ^ 53 := by
  have hhigh : |x| < ((2 : ℕ) : ℚ) ^ ((k : ℤ) + 1) := by
    rw [two_zpow, zpow_one, ← pow_succ]
    exact h
  have hle : |x - roundTo 2 53 (-1074) x| ≤ ((2 : ℕ) : ℚ) ^ ((k : ℤ) - (53 : ℕ) + 1) / 2 :=
    abs_sub_roundTo_le (by decide) hhigh (by omega)
  have hunit : ((2 : ℕ) : ℚ) ^ ((k : ℤ) - (53 : ℕ) + 1) / 2 = 2 ^ k / 2 ^ 53 := by
    rw [sub_add, sub_eq_add_neg, two_zpow]
    norm_num
    ring
  exact hunit ▸ hle

theorem double_eq {x : ℚ} {k : ℕ} {m : ℤ} (hlow : 2 ^ k ≤ |x|) (hhigh : |x| < 2 ^ (k + 1))
    (h : |x - m * (2 ^ k / 2 ^ 52)| < 2 ^ k / 2 ^ 53) : double x = m * (2 ^ k / 2 ^ 52) := by
  have hunit : ((2 : ℕ) : ℚ) ^ ((k : ℤ) - (53 : ℕ) + 1) = 2 ^ k / 2 ^ 52 := by
    rw [sub_add, sub_eq_add_neg, two_zpow]
    norm_num
    ring
  have hlow' : ((2 : ℕ) : ℚ) ^ (k : ℤ) ≤ |x| := by
    rw [zpow_natCast]
    exact hlow
  have hhigh' : |x| < ((2 : ℕ) : ℚ) ^ ((k : ℤ) + 1) := by
    rw [two_zpow, zpow_one, ← pow_succ]
    exact hhigh
  rw [← hunit]
  apply roundTo_eq (by decide) hlow' hhigh' (by omega)
  rw [hunit]
  calc |x - m * (2 ^ k / 2 ^ 52)| < 2 ^ k / 2 ^ 53 := h
    _ = 2 ^ k / 2 ^ 52 / 2 := by ring

theorem double_neg (x : ℚ) : double (-x) = -double x := roundTo_neg 2 53 (-1074) x

theorem trunc_neg (x : ℚ) : trunc (-x) = -trunc x := by
  unfold trunc
  rcases lt_trichotomy x 0 with hx | rfl | hx
  · rw [if_pos (by linarith), if_neg (by linarith), Int.floor_neg]
  · simp
  · rw [if_neg (by linarith), if_pos (by linarith), Int.ceil_neg]

theorem abs_sub_trunc_lt (x : ℚ) : |x - trunc x| < 1 := by
  unfold trunc
  by_cases hx : 0 ≤ x
  · rw [if_pos hx, abs_lt]
    constructor <;> linarith [Int.floor_le x, Int.lt_floor_add_one x]
  · rw [if_neg hx, abs_lt]
    constructor <;> linarith [Int.le_ceil x, Int.ceil_lt_add_one x]

theorem trunc_eq {x : ℚ} {n : ℤ} (hn : 0 ≤ n) (hlow : n ≤ x) (hhigh : x < n + 1) :
    trunc x = n := by
  have hx : 0 ≤ x := le_trans (Int.cast_nonneg hn) hlow
  rw [trunc, if_pos hx, Int.floor_eq_iff]
  exact ⟨hlow, hhigh⟩

/-! ## 3. `from_ms` -/

/-- A float that is within half a microsecond of a datetime is read as that datetime. -/
theorem fromTimestamp_eq {t : ℚ} {dt : ℤ} (h : |(dt : ℚ) / 1000000 - t| ≤ 2 ^ 32 / 2 ^ 53) :
    fromTimestamp t = dt := by
  have hrest : |(t - trunc t) * 1000000| < 2 ^ (19 + 1) := by
    rw [abs_mul]
    norm_num
    linarith [abs_sub_trunc_lt t]
  have hrounded := abs_sub_double_le hrest
  have hnear : halfEven (double ((t - trunc t) * 1000000)) = dt - trunc t * 1000000 := by
    apply eq_halfEven
    left
    rw [abs_le] at h hrounded
    rw [abs_lt]
    push_cast
    constructor <;> linarith [h.1, h.2, hrounded.1, hrounded.2]
  rw [fromTimestamp, hnear]
  ring

/-- **`from_ms` is exact** up to the year 2242. -/
theorem fromMs_eq {ms : ℤ} (h : |ms| < 2 ^ 33 * 1000) : fromMs ms = FundingTool.fromMs ms := by
  have habs : |(ms : ℚ) / 1000| < 2 ^ (32 + 1) := by
    have hcast : (|ms| : ℚ) < 2 ^ 33 * 1000 := by exact_mod_cast h
    rw [abs_div, abs_of_pos (by norm_num : (0 : ℚ) < 1000)]
    linarith
  have herror := abs_sub_double_le habs
  apply fromTimestamp_eq
  have hsame : ((FundingTool.fromMs ms : ℤ) : ℚ) / 1000000 = (ms : ℚ) / 1000 := by
    unfold FundingTool.fromMs
    push_cast
    ring
  rw [hsame]
  exact herror

theorem fromMs_of_some {ms dt : ℤ} (h : fromMs? ms = some dt) : fromMs ms = dt := by
  unfold fromMs? at h
  split at h
  · exact Option.some.inj h
  · cases h

/-- Up to the year 2242 every millisecond is the time of a `datetime`. -/
theorem fromMs?_eq {ms : ℤ} (h : |ms| < 2 ^ 33 * 1000) :
    fromMs? ms = some (FundingTool.fromMs ms) := by
  have hrange : minTime ≤ FundingTool.fromMs ms ∧ FundingTool.fromMs ms < endTime := by
    rw [abs_lt] at h
    unfold minTime endTime FundingTool.fromMs
    omega
  unfold fromMs?
  rw [fromMs_eq h]
  exact if_pos hrange

/-! ## 4. `to_ms` -/

section

variable {dt : ℤ} {k : ℕ}

/-- The two roundings of `to_ms` move the number of milliseconds by less than half a unit in
    the last place each. -/
theorem toMs_of_pos (hk : k ≤ 32) (hlow : 1024000 * 2 ^ k < dt) (hhigh : dt < 2000000 * 2 ^ k) :
    toMs dt = FundingTool.toMs dt := by
  have hpow : (1 : ℚ) ≤ 2 ^ k ∧ (2 : ℚ) ^ k ≤ 2 ^ 32 :=
    ⟨one_le_pow₀ (by norm_num), pow_le_pow_right₀ (by norm_num) hk⟩
  have hlow' : (1024000 : ℚ) * 2 ^ k + 1 ≤ dt := by exact_mod_cast hlow
  have hhigh' : (dt : ℚ) < 2000000 * 2 ^ k := by exact_mod_cast hhigh
  have hdt : (0 : ℚ) < dt := by linarith [hpow.1]
  -- the seconds
  have hseconds : |(dt : ℚ) / 1000000 - timestamp dt| ≤ 2 ^ k / 2 ^ 53 := by
    apply abs_sub_double_le
    rw [abs_of_pos (by linarith), pow_succ]
    linarith
  rw [abs_le] at hseconds
  -- the milliseconds, before they are rounded
  have habs : |timestamp dt * 1000| = timestamp dt * 1000 := abs_of_pos (by linarith [hpow.1])
  have hrange : 2 ^ (k + 10) ≤ |timestamp dt * 1000| ∧
      |timestamp dt * 1000| < 2 ^ (k + 10 + 1) := by
    have hnext : (2 : ℚ) ^ (k + 10 + 1) = 2048 * 2 ^ k := by ring
    rw [habs, hnext, pow_add]
    constructor <;> linarith [hpow.1, hpow.2]
  obtain ⟨n, r, hn, hr, rfl⟩ : ∃ n r : ℤ, 0 ≤ n ∧ (0 ≤ r ∧ r < 1000) ∧ dt = 1000 * n + r :=
    ⟨dt / 1000, dt % 1000, by omega, by omega, by omega⟩
  push_cast at *
  have hquotient : FundingTool.toMs (1000 * n + r) = n := by
    rw [FundingTool.toMs, Int.tdiv_eq_ediv_of_nonneg (by omega)]
    omega
  rw [hquotient]
  by_cases hzero : r = 0
  · -- a whole number of milliseconds is found again
    have hscale : ((n * 2 ^ (42 - k) : ℤ) : ℚ) * (2 ^ (k + 10) / 2 ^ 52) = n := by
      have hsplit : (2 : ℚ) ^ (42 - k) * 2 ^ (k + 10) = 2 ^ 52 := by
        rw [← pow_add]
        congr 1
        omega
      push_cast
      rw [mul_assoc, mul_div_assoc', hsplit]
      ring
    have hround : double (timestamp (1000 * n + r) * 1000) = n := by
      rw [double_eq (m := n * 2 ^ (42 - k)) hrange.1 hrange.2 ?_, hscale]
      rw [hscale, abs_lt, pow_add]
      subst hzero
      push_cast at *
      constructor <;> linarith [hpow.1, hseconds.1, hseconds.2]
    rw [toMs, hround]
    exact trunc_eq hn (le_refl _) (by linarith)
  · -- others are at least a microsecond away from the next
    have hround := abs_sub_double_le hrange.2
    rw [abs_le, pow_add] at hround
    have hfirst : (1 : ℚ) ≤ r := by exact_mod_cast (by omega : 1 ≤ r)
    have hlast : (r : ℚ) ≤ 999 := by exact_mod_cast (by omega : r ≤ 999)
    apply trunc_eq hn
    · linarith [hpow.2, hseconds.1, hseconds.2, hround.1, hround.2]
    · linarith [hpow.2, hseconds.1, hseconds.2, hround.1, hround.2]

theorem toMs_neg (dt : ℤ) : toMs (-dt) = -toMs dt := by
  rw [toMs, timestamp, Int.cast_neg, neg_div, double_neg, neg_mul, double_neg, trunc_neg]
  rfl

theorem trunc_mono {x y : ℚ} (h : x ≤ y) : trunc x ≤ trunc y := by
  unfold trunc
  by_cases hx : 0 ≤ x
  · rw [if_pos hx, if_pos (le_trans hx h)]
    exact Int.floor_le_floor h
  · rw [if_neg hx]
    by_cases hy : 0 ≤ y
    · rw [if_pos hy]
      have hceil : ⌈x⌉ ≤ 0 := Int.ceil_le.mpr (by push_cast; linarith)
      exact le_trans hceil (Int.floor_nonneg.mpr hy)
    · rw [if_neg hy]
      exact Int.ceil_le_ceil h

/-- **`to_ms` keeps the order**, rounded as it is. -/
theorem toMs_mono {dt dt' : ℤ} (h : dt ≤ dt') : toMs dt ≤ toMs dt' := by
  have hdouble : ∀ {x y : ℚ}, x ≤ y → double x ≤ double y := roundTo_mono (by decide) (by decide)
  have hcast : (dt : ℚ) ≤ dt' := Int.cast_le.mpr h
  have hseconds : timestamp dt ≤ timestamp dt' := hdouble (by linarith)
  exact trunc_mono (hdouble (by linarith))

/-- **`to_ms` is exact** away from the powers of two. -/
theorem toMs_eq (hk : k ≤ 32) (hlow : 1024000 * 2 ^ k < |dt|) (hhigh : |dt| < 2000000 * 2 ^ k) :
    toMs dt = FundingTool.toMs dt := by
  rcases abs_cases dt with ⟨habs, -⟩ | ⟨habs, -⟩
  · rw [habs] at hlow hhigh
    exact toMs_of_pos hk hlow hhigh
  · rw [habs] at hlow hhigh
    have hneg : FundingTool.toMs dt = -FundingTool.toMs (-dt) := by
      rw [FundingTool.toMs, FundingTool.toMs, Int.neg_tdiv, neg_neg]
    rw [hneg, ← toMs_of_pos hk hlow hhigh, toMs_neg, neg_neg]

end

/-- **The milliseconds are exact**: between 1.024 and 2 times a power of two seconds, before or
    after the epoch, the floats compute what the whole numbers of `Models` compute. -/
theorem millis_exact {k : ℕ} (hk : k ≤ 32) :
    (∀ dt : ℤ, 1024000 * 2 ^ k < |dt| → |dt| < 2000000 * 2 ^ k →
      toMs dt = FundingTool.toMs dt) ∧
    ∀ ms : ℤ, 1024 * 2 ^ k < |ms| → |ms| < 2000 * 2 ^ k →
      fromMs ms = FundingTool.fromMs ms ∧ toMs (fromMs ms) = ms := by
  refine ⟨fun dt hlow hhigh => toMs_eq hk hlow hhigh, ?_⟩
  intro ms hlow hhigh
  have hpow : (2 : ℤ) ^ k ≤ 2 ^ 32 := pow_le_pow_right₀ (by norm_num) hk
  have hfrom : fromMs ms = FundingTool.fromMs ms := fromMs_eq (by linarith)
  have habs : |FundingTool.fromMs ms| = |ms| * 1000 := by
    rw [FundingTool.fromMs, abs_mul]
    norm_num
  refine ⟨hfrom, ?_⟩
  rw [hfrom, toMs_eq hk (by rw [habs]; linarith) (by rw [habs]; linarith), toMs_fromMs]

/-- A settlement in January 2026; `k = 30` is from November 2004 to January 2038. -/
theorem millis_exact_2026 : toMs (fromMs 1767225600007) = 1767225600007 :=
  ((millis_exact (k := 30) (by decide)).2 1767225600007 (by decide) (by decide)).2

/-- Two milliseconds into the next stretch, one is lost. -/
theorem toMs_fromMs_2038 : toMs (fromMs 2147483648002) = 2147483648001 := by decide +kernel

end FundingTool.TimeUtil
