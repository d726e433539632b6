import FundingTool.DecimalArithmetic
import FundingTool.DecimalText

/-!
# Decimals without exponents

`format(d, "f")` never writes an exponent: a positive one is written as zeros.  So the text has
the value of the decimal but not always its exponent; `fixed` is the decimal that it has, and
`ofText_formatF` says so.  To write that decimal once more gives the same text.
-/

namespace FundingTool.Decimal

/-! ## 1. `format(d, "f")` -/

def formatF : Decimal → String
  | .finite negative coefficient exponent =>
      -- A zero is rescaled first.
      let shown := if coefficient = 0 ∧ 0 < exponent then 0 else exponent
      let digits := Nat.toDigits 10 coefficient
      String.ofList (signText negative ++ pointed digits (shown + digits.length))
  | d => str d

/-- The decimal with the digits that are written. -/
def fixed : Decimal → Decimal
  | .finite negative coefficient exponent =>
      if exponent ≤ 0 then .finite negative coefficient exponent
      else .finite negative (coefficient * 10 ^ exponent.toNat) 0
  | d => d

example : formatF (.finite true 15 2) = "-1500" := by decide +kernel
example : formatF (.finite false 12 (-9)) = "0.000000012" := by decide +kernel

theorem fixed_of_nonpos {negative : Bool} {coefficient : Nat} {exponent : Int}
    (h : exponent ≤ 0) :
    fixed (.finite negative coefficient exponent) = .finite negative coefficient exponent :=
  if_pos h

@[simp] theorem fixed_fixed (d : Decimal) : fixed (fixed d) = fixed d := by
  cases d with
  | infinity negative => rfl
  | nan signaling => rfl
  | finite negative coefficient exponent =>
      by_cases h : exponent ≤ 0
      · rw [fixed_of_nonpos h, fixed_of_nonpos h]
      · simp [fixed, h]

/-- **The value stays.** -/
@[simp] theorem ratio?_fixed (d : Decimal) : (fixed d).ratio? = d.ratio? := by
  cases d with
  | infinity negative => rfl
  | nan signaling => rfl
  | finite negative coefficient exponent =>
      by_cases h : exponent ≤ 0
      · rw [fixed_of_nonpos h]
      · have hpow : (10 : Rat) ^ exponent = 10 ^ exponent.toNat := by
          rw [← zpow_natCast, Int.toNat_of_nonneg (by omega)]
        simp only [fixed, h, if_false, ratio?, value, hpow, zpow_zero, mul_one]
        cases negative <;> simp

/-! ## 2. The text of what is written -/

/-- Zeros behind the digits of a number. -/
theorem toDigits_mul_pow {n : Nat} (hn : 0 < n) (k : Nat) :
    Nat.toDigits 10 (n * 10 ^ k) = Nat.toDigits 10 n ++ List.replicate k '0' := by
  induction k with
  | zero => simp
  | succ k ih =>
      have hpos : 0 < n * 10 ^ k := Nat.mul_pos hn (Nat.pow_pos (by decide))
      have hzero : Nat.toDigits 10 0 = ['0'] := Nat.toDigits_zero 10
      have hstep := Nat.toDigits_append_toDigits (b := 10) (d := 0) (by decide) hpos (by decide)
      rw [ih, hzero, List.append_assoc, ← List.replicate_succ'] at hstep
      rw [hstep]
      congr 1
      ring

/-- A point behind all digits is not written. -/
theorem pointed_behind {digits : List Char} (hne : digits ≠ []) {exponent : Int}
    (h : 0 ≤ exponent) :
    pointed digits (exponent + digits.length) =
      digits ++ List.replicate exponent.toNat '0' := by
  have hlength : 0 < digits.length := List.length_pos_iff.mpr hne
  have hpos : ¬ exponent + digits.length ≤ 0 := by omega
  have hbehind : (digits.length : Int) ≤ exponent + digits.length := by omega
  rw [pointed, if_neg hpos, if_pos hbehind, Int.add_sub_cancel]

theorem formatF_fixed (d : Decimal) : formatF (fixed d) = formatF d := by
  cases d with
  | infinity negative => rfl
  | nan signaling => rfl
  | finite negative coefficient exponent =>
      by_cases h : exponent ≤ 0
      · rw [fixed_of_nonpos h]
      have hpos : 0 < exponent := by omega
      rcases Nat.eq_zero_or_pos coefficient with rfl | hcoefficient
      · simp [fixed, formatF, h, hpos]
      · have hne : coefficient ≠ 0 := by omega
        simp only [fixed, formatF, h, if_false, hne, false_and, lt_irrefl, and_false,
          pointed_behind Nat.toDigits_ne_nil hpos.le,
          pointed_behind Nat.toDigits_ne_nil (Int.le_refl 0)]
        simp [toDigits_mul_pow hcoefficient]

/-- The parts of the text of a number whose exponent is not positive. -/
theorem fixed_parts (coefficient : Nat) {exponent : Int} (h : exponent ≤ 0) :
    ∃ intPart fraction fracPart,
      pointed (Nat.toDigits 10 coefficient)
          (exponent + (Nat.toDigits 10 coefficient).length) = intPart ++ fraction ∧
        (∀ c ∈ intPart, c.isDigit = true) ∧ intPart ≠ [] ∧ FractionText fracPart fraction ∧
        Nat.ofDigitChars 10 (intPart ++ fracPart) 0 = coefficient ∧
        0 - (fracPart.length : Int) = exponent := by
  have hplace : exponent + (Nat.toDigits 10 coefficient).length ≤
      (Nat.toDigits 10 coefficient).length := by omega
  obtain ⟨intPart, fraction, fracPart, hpointed, hint, hne, hfraction, hvalue, hcount⟩ :=
    pointed_parts isDigit_toDigits Nat.toDigits_ne_nil hplace
  rw [Nat.ofDigitChars_ten_toDigits] at hvalue
  exact ⟨intPart, fraction, fracPart, hpointed, hint, hne, hfraction, hvalue, by omega⟩

theorem isNumeric_fraction {fracPart fraction : List Char} (h : FractionText fracPart fraction) :
    ∀ c ∈ fraction, isNumeric c = true := by
  intro c hc
  rcases h with ⟨rfl, -⟩ | ⟨rfl, hfrac⟩
  · cases hc
  · rcases List.mem_cons.mp hc with rfl | hc
    · rfl
    · simp [isNumeric, hfrac c hc]

/-- **What is written is read** as the decimal with the same digits. -/
theorem ofText_formatF (d : Decimal) : ofText (formatF d) = some (fixed d) := by
  rw [← formatF_fixed]
  generalize hfixed : fixed d = d'
  have hsame : fixed d' = d' := by rw [← hfixed, fixed_fixed]
  cases d' with
  | infinity negative => exact ofText_str (.infinity negative)
  | nan signaling => exact ofText_str (.nan signaling)
  | finite negative coefficient exponent =>
      have hexponent : exponent ≤ 0 := by
        by_contra hpos
        simp only [fixed, if_neg hpos, Decimal.finite.injEq] at hsame
        omega
      obtain ⟨intPart, fraction, fracPart, hpointed, hint, hne, hfraction, hvalue, hcount⟩ :=
        fixed_parts coefficient hexponent
      have hnumeric : ∀ c ∈ signText negative ++ (intPart ++ fraction), isNumeric c = true := by
        intro c hc
        simp only [List.mem_append] at hc
        rcases hc with hc | hc | hc
        · cases negative with
          | true => exact List.mem_singleton.mp hc ▸ rfl
          | false => cases hc
        · simp [isNumeric, hint c hc]
        · exact isNumeric_fraction hfraction c hc
      have hplain := strip_plain fun c hc => plain_of_isNumeric (hnumeric c hc)
      have hnumber := readNumber_text negative hint hne hfraction (.inl ⟨rfl, rfl⟩)
      obtain ⟨first, rest, rfl⟩ := List.exists_cons_of_ne_nil hne
      have hsigned : readSigned (signText negative ++ (first :: rest ++ fraction)) =
          (negative, first :: rest ++ fraction) :=
        readSigned_sign negative (hint first List.mem_cons_self)
      have hshown : ¬ (coefficient = 0 ∧ 0 < exponent) := by omega
      rw [List.append_nil, hvalue, hcount] at hnumber
      simp only [ofText, formatF, if_neg hshown, hpointed, hplain, hsigned, hnumber]
      rfl

end FundingTool.Decimal
