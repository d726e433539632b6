import Mathlib.Init

/-!
# The proleptic Gregorian calendar

Days are numbered as `date.toordinal` does: the first of January of the year 1 is day 1.
`ofOrdinal` follows `datetime._ord2ymd`; `ordinal_ofOrdinal` says that the date it gives is
the one of that number, so that a day lies in one month only (`month_unique`).
-/

namespace FundingTool.Calendar

/-! ## 1. Years and months -/

def isLeap (y : Int) : Bool := y % 4 == 0 && (y % 100 != 0 || y % 400 == 0)

/-- Days before the first of January. -/
def daysBeforeYear (y : Int) : Int :=
  (y - 1) * 365 + (y - 1) / 4 - (y - 1) / 100 + (y - 1) / 400

/-- Days in a year before the first of the month, from 1 to 13. -/
def daysBeforeMonth (leap : Bool) (month : Nat) : Nat :=
  [0, 0, 31, 59, 90, 120, 151, 181, 212, 243, 273, 304, 334, 365].getD month 0 +
    if leap && decide (2 < month) then 1 else 0

/-- A day, from 1, of a month. -/
structure Date where
  year : Int
  month : Nat
  day : Nat
deriving DecidableEq, Repr

/-- A day that the month has. -/
def Date.Valid (d : Date) : Prop :=
  1 ≤ d.month ∧ d.month ≤ 12 ∧ 1 ≤ d.day ∧
    daysBeforeMonth (isLeap d.year) d.month + d.day ≤
      daysBeforeMonth (isLeap d.year) (d.month + 1)

/-- `_ymd2ord` -/
def Date.ordinal (d : Date) : Int :=
  daysBeforeYear d.year + daysBeforeMonth (isLeap d.year) d.month + d.day

/-! ## 2. From days to dates -/

/-- The month and the day of the `n`-th day of a year, from 0: the estimate is never too
    small, and at most one too large. -/
def monthDay (leap : Bool) (n : Nat) : Nat × Nat :=
  let month := (n + 50) / 32
  if daysBeforeMonth leap month > n then
    (month - 1, n - daysBeforeMonth leap (month - 1) + 1)
  else (month, n - daysBeforeMonth leap month + 1)

/-- `_ord2ymd` -/
def ofOrdinal (ordinal : Int) : Date :=
  let n := ordinal - 1
  let n400 := n / 146097
  let n := n % 146097
  let n100 := n / 36524
  let n := n % 36524
  let n4 := n / 1461
  let n := n % 1461
  let n1 := n / 365
  let n := n % 365
  let year := n400 * 400 + 1 + n100 * 100 + n4 * 4 + n1
  if n1 = 4 ∨ n100 = 4 then ⟨year - 1, 12, 31⟩
  else
    let leap := n1 == 3 && (n4 != 24 || n100 == 3)
    let (month, day) := monthDay leap n.toNat
    ⟨year, month, day⟩

theorem monthDay_spec (leap : Bool) {n : Nat} (h : n < 365 + if leap then 1 else 0) :
    1 ≤ (monthDay leap n).1 ∧ (monthDay leap n).1 ≤ 12 ∧ 1 ≤ (monthDay leap n).2 ∧
      daysBeforeMonth leap (monthDay leap n).1 + (monthDay leap n).2 = n + 1 ∧
      n + 1 ≤ daysBeforeMonth leap ((monthDay leap n).1 + 1) := by
  have hall : ∀ leap : Bool, ∀ n < 366, n < 365 + (if leap then 1 else 0) →
      1 ≤ (monthDay leap n).1 ∧ (monthDay leap n).1 ≤ 12 ∧ 1 ≤ (monthDay leap n).2 ∧
        daysBeforeMonth leap (monthDay leap n).1 + (monthDay leap n).2 = n + 1 ∧
        n + 1 ≤ daysBeforeMonth leap ((monthDay leap n).1 + 1) := by
    decide +kernel
  refine hall leap n ?_ h
  rcases leap with _ | _
  · exact Nat.lt_succ_of_lt h
  · exact h

/-- The cycles of 400, 100 and 4 years that make up a year. -/
theorem year_of_cycles {a b c d : Int} (hb : 0 ≤ b ∧ b ≤ 3) (hc : 0 ≤ c ∧ c ≤ 24)
    (hd : 0 ≤ d ∧ d ≤ 3) :
    daysBeforeYear (a * 400 + 1 + b * 100 + c * 4 + d) =
        a * 146097 + b * 36524 + c * 1461 + d * 365 ∧
      isLeap (a * 400 + 1 + b * 100 + c * 4 + d) = (d == 3 && (c != 24 || b == 3)) := by
  constructor
  · unfold daysBeforeYear
    omega
  · unfold isLeap
    rw [Bool.eq_iff_iff]
    simp only [Bool.and_eq_true, Bool.or_eq_true, beq_iff_eq, bne_iff_ne]
    omega

/-- **The date of a day** is a date, and has the day's number. -/
theorem ofOrdinal_spec (n : Int) : (ofOrdinal n).Valid ∧ (ofOrdinal n).ordinal = n := by
  unfold ofOrdinal
  simp only
  generalize ha : (n - 1) / 146097 = a
  generalize hr : (n - 1) % 146097 = r
  generalize hb : r / 36524 = b
  generalize hs : r % 36524 = s
  generalize hc : s / 1461 = c
  generalize ht : s % 1461 = t
  generalize hd : t / 365 = d
  generalize hu : t % 365 = u
  by_cases hlast : d = 4 ∨ b = 4
  · -- the last day of a cycle of 4 or of 400 years, in a leap year
    rw [if_pos hlast]
    obtain ⟨b', c', hb', hc', hyear, hn⟩ : ∃ b' c' : Int, (0 ≤ b' ∧ b' ≤ 3) ∧
        (0 ≤ c' ∧ c' ≤ 24) ∧
        a * 400 + 1 + b * 100 + c * 4 + d - 1 = a * 400 + 1 + b' * 100 + c' * 4 + 3 ∧
        (n = a * 146097 + b' * 36524 + c' * 1461 + 3 * 365 + 366 ∧ (c' ≠ 24 ∨ b' = 3)) := by
      rcases hlast with hd4 | hb4
      · exact ⟨b, c, by omega, by omega, by omega, by omega, by omega⟩
      · exact ⟨3, 24, by omega, by omega, by omega, by omega, by omega⟩
    obtain ⟨hdays, hleap⟩ := @year_of_cycles a b' c' 3 hb' hc' (by omega)
    have hleap' : isLeap (a * 400 + 1 + b' * 100 + c' * 4 + 3) = true := by
      rw [hleap]
      simp only [beq_self_eq_true, Bool.true_and, Bool.or_eq_true, bne_iff_ne, beq_iff_eq]
      exact hn.2
    rw [hyear]
    constructor
    · unfold Date.Valid
      simp only [hleap']
      decide
    · unfold Date.ordinal
      simp only [hdays, hleap']
      rw [hn.1]
      show _ + ((335 : Nat) : Int) + ((31 : Nat) : Int) = _
      omega
  · rw [if_neg hlast]
    obtain ⟨hdays, hleap⟩ := @year_of_cycles a b c d (by omega) (by omega) (by omega)
    obtain ⟨hfirst, hlastm, hday, hsum, hnext⟩ :=
      @monthDay_spec (d == 3 && (c != 24 || b == 3)) u.toNat (by split <;> omega)
    constructor
    · refine ⟨hfirst, hlastm, hday, ?_⟩
      simp only [hleap]
      omega
    · unfold Date.ordinal
      simp only [hdays, hleap]
      omega

/-! ## 3. One month for every day -/

theorem daysBeforeYear_succ (y : Int) :
    daysBeforeYear (y + 1) = daysBeforeYear y + 365 + if isLeap y then 1 else 0 := by
  have hleap : isLeap y = true ↔ y % 4 = 0 ∧ (y % 100 ≠ 0 ∨ y % 400 = 0) := by
    unfold isLeap
    simp only [Bool.and_eq_true, Bool.or_eq_true, beq_iff_eq, bne_iff_ne]
  unfold daysBeforeYear
  by_cases h : isLeap y = true
  · rw [if_pos h]
    have hmod := hleap.mp h
    omega
  · rw [if_neg h]
    rw [hleap] at h
    omega

theorem daysBeforeYear_mono {y y' : Int} (h : y ≤ y') : daysBeforeYear y ≤ daysBeforeYear y' := by
  unfold daysBeforeYear
  omega

theorem daysBeforeMonth_mono (leap : Bool) {m m' : Nat} (h : m ≤ m') (hm : m' ≤ 13) :
    daysBeforeMonth leap m ≤ daysBeforeMonth leap m' := by
  have hall : ∀ leap : Bool, ∀ m' < 14, ∀ m < 14, m ≤ m' →
      daysBeforeMonth leap m ≤ daysBeforeMonth leap m' := by
    decide +kernel
  exact hall leap m' (by omega) m (by omega) h

theorem Date.Valid.within {d : Date} (h : d.Valid) :
    daysBeforeYear d.year < d.ordinal ∧ d.ordinal ≤ daysBeforeYear (d.year + 1) := by
  obtain ⟨hfirst, hlast, hday, hnext⟩ := h
  have hend := @daysBeforeMonth_mono (isLeap d.year) (d.month + 1) 13 (by omega) (Nat.le_refl 13)
  rw [daysBeforeYear_succ]
  unfold Date.ordinal
  constructor
  · omega
  · rcases hleap : isLeap d.year with _ | _
    · have hyear : daysBeforeMonth false 13 = 365 := rfl
      rw [hleap] at hend hnext
      rw [if_neg Bool.false_ne_true]
      omega
    · have hyear : daysBeforeMonth true 13 = 366 := rfl
      rw [hleap] at hend hnext
      rw [if_pos rfl]
      omega

/-- **A day lies in one month only.** -/
theorem month_unique {d d' : Date} (h : d.Valid) (h' : d'.Valid) (heq : d.ordinal = d'.ordinal) :
    d.year = d'.year ∧ d.month = d'.month := by
  have hyear : d.year = d'.year := by
    obtain ⟨hlow, hhigh⟩ := h.within
    obtain ⟨hlow', hhigh'⟩ := h'.within
    rcases Int.lt_trichotomy d.year d'.year with hlt | hsame | hgt
    · have hmono := @daysBeforeYear_mono (d.year + 1) d'.year hlt
      omega
    · exact hsame
    · have hmono := @daysBeforeYear_mono (d'.year + 1) d.year hgt
      omega
  refine ⟨hyear, ?_⟩
  obtain ⟨hfirst, hlast, hday, hnext⟩ := h
  obtain ⟨hfirst', hlast', hday', hnext'⟩ := h'
  unfold Date.ordinal at heq
  rw [hyear] at heq hnext
  rcases Nat.lt_trichotomy d.month d'.month with hlt | hsame | hgt
  · have hmono := @daysBeforeMonth_mono (isLeap d'.year) (d.month + 1) d'.month hlt (by omega)
    omega
  · exact hsame
  · have hmono := @daysBeforeMonth_mono (isLeap d'.year) (d'.month + 1) d.month hgt (by omega)
    omega

end FundingTool.Calendar
