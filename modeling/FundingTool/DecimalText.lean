import FundingTool.Models

/-!
# Decimals as text

`str` is `Decimal.__str__`, `ofText` the constructor of `Decimal` from a text: digits with an
optional point and an optional exponent, or the name of a special value.  The constructor is
told here of ASCII digits only, and drops what a NaN carries.

`ofText_str` says that a decimal is read back from its text.
-/

namespace FundingTool.Decimal

/-! ## 1. `Decimal.__str__` -/

def signText (negative : Bool) : List Char := if negative then ['-'] else []

/-- `"%+d" % n` -/
def signedText (n : Int) : List Char :=
  (if n < 0 then '-' else '+') :: Nat.toDigits 10 n.natAbs

/-- The digits, with a point after the first `dotplace` of them. -/
def pointed (digits : List Char) (dotplace : Int) : List Char :=
  if dotplace ≤ 0 then '0' :: '.' :: (List.replicate (-dotplace).toNat '0' ++ digits)
  else if digits.length ≤ dotplace then
    digits ++ List.replicate (dotplace - digits.length).toNat '0'
  else digits.take dotplace.toNat ++ '.' :: digits.drop dotplace.toNat

/-- The text of a finite number: without an exponent where the point is not too far off. -/
def finiteText (negative : Bool) (coefficient : Nat) (exponent : Int) : List Char :=
  let digits := Nat.toDigits 10 coefficient
  let leftdigits := exponent + digits.length
  let dotplace := if exponent ≤ 0 ∧ -6 < leftdigits then leftdigits else 1
  signText negative ++ pointed digits dotplace ++
    if leftdigits = dotplace then [] else 'E' :: signedText (leftdigits - dotplace)

def str : Decimal → String
  | .finite negative coefficient exponent =>
      String.ofList (finiteText negative coefficient exponent)
  | .infinity negative => if negative then "-Infinity" else "Infinity"
  | .nan signaling => if signaling then "sNaN" else "NaN"

example : str (.finite false 5000 (-1)) = "500.0" := by decide +kernel
example : str (.finite true 12 (-9)) = "-1.2E-8" := by decide +kernel

/-! ## 2. `Decimal(text)` -/

/-- An optional sign. -/
def readSigned : List Char → Bool × List Char
  | '-' :: rest => (true, rest)
  | '+' :: rest => (false, rest)
  | rest => (false, rest)

/-- `[-+]?\d+` -/
def readInt (text : List Char) : Option Int :=
  let (negative, digits) := readSigned text
  if digits = [] ∨ digits.all Char.isDigit = false then none
  else
    let n : Int := Nat.ofDigitChars 10 digits 0
    some (if negative then -n else n)

/-- `(E(?P<exp>[-+]?\d+))?` -/
def readExponent : List Char → Option Int
  | [] => some 0
  | c :: rest => if c = 'E' ∨ c = 'e' then readInt rest else none

/-- `(\.(?P<frac>\d*))?`, and what follows. -/
def readFraction : List Char → List Char × List Char
  | '.' :: rest => (rest.takeWhile Char.isDigit, rest.dropWhile Char.isDigit)
  | rest => ([], rest)

/-- A number without its sign. -/
def readNumber (negative : Bool) (text : List Char) : Option Decimal :=
  let intPart := text.takeWhile Char.isDigit
  let (fracPart, rest) := readFraction (text.dropWhile Char.isDigit)
  if intPart = [] ∧ fracPart = [] then none
  else (readExponent rest).map fun exponent =>
    .finite negative (Nat.ofDigitChars 10 (intPart ++ fracPart) 0) (exponent - fracPart.length)

/-- The name of a special value. -/
def readSpecial (negative : Bool) (text : List Char) : Option Decimal :=
  let name := (text.takeWhile fun c => !c.isDigit).map Char.toLower
  let diagnostic := text.dropWhile fun c => !c.isDigit
  if (name = "inf".toList ∨ name = "infinity".toList) ∧ diagnostic = [] then
    some (.infinity negative)
  else if name = "nan".toList ∧ diagnostic.all Char.isDigit then some (.nan false)
  else if name = "snan".toList ∧ diagnostic.all Char.isDigit then some (.nan true)
  else none

/-- `Decimal(text)`; `none` where it raises `InvalidOperation`. -/
def ofText (text : String) : Option Decimal :=
  let (negative, rest) := readSigned ((strip text).toList.filter (· ≠ '_'))
  (readNumber negative rest).or (readSpecial negative rest)

example : ofText "1_000.50" = some (.finite false 100050 (-2)) := by decide +kernel

/-! ## 3. Reading a number -/

theorem readSigned_of_digit {c : Char} {rest : List Char} (hc : c.isDigit = true) :
    readSigned (c :: rest) = (false, c :: rest) := by
  unfold readSigned
  split
  · next heq =>
      cases heq
      cases hc
  · next heq =>
      cases heq
      cases hc
  · rfl

theorem readSigned_sign (negative : Bool) {c : Char} {rest : List Char} (hc : c.isDigit = true) :
    readSigned (signText negative ++ c :: rest) = (negative, c :: rest) := by
  cases negative with
  | true => rfl
  | false => exact readSigned_of_digit hc

theorem isDigit_toDigits {n : Nat} : ∀ c ∈ Nat.toDigits 10 n, c.isDigit = true :=
  fun _ hc => Nat.isDigit_of_mem_toDigits (by decide) (by decide) hc

theorem readInt_signedText (n : Int) : readInt (signedText n) = some n := by
  have hsigned : readSigned (signedText n) = (decide (n < 0), Nat.toDigits 10 n.natAbs) := by
    unfold signedText
    by_cases hn : n < 0
    · rw [if_pos hn, decide_eq_true hn]
      rfl
    · rw [if_neg hn, decide_eq_false hn]
      rfl
  have hdigits : ¬ (Nat.toDigits 10 n.natAbs = [] ∨
      (Nat.toDigits 10 n.natAbs).all Char.isDigit = false) := by
    rintro (hnil | hall)
    · exact Nat.toDigits_ne_nil hnil
    · rw [List.all_eq_true.mpr isDigit_toDigits] at hall
      cases hall
  unfold readInt
  rw [hsigned]
  simp only
  rw [if_neg hdigits, Nat.ofDigitChars_ten_toDigits, Option.some.injEq]
  by_cases hn : n < 0
  · rw [if_pos (decide_eq_true hn)]
    omega
  · rw [if_neg (by simpa using hn)]
    omega

/-- Digits, then what does not begin with one. -/
theorem span_digits {digits rest : List Char} (hdigits : ∀ c ∈ digits, c.isDigit = true)
    (hrest : ∀ c cs, rest = c :: cs → c.isDigit = false) :
    (digits ++ rest).takeWhile Char.isDigit = digits ∧
      (digits ++ rest).dropWhile Char.isDigit = rest := by
  rw [List.takeWhile_append_of_pos hdigits, List.dropWhile_append_of_pos hdigits]
  rcases rest with _ | ⟨c, cs⟩
  · exact ⟨List.append_nil _, rfl⟩
  · have hc := hrest c cs rfl
    rw [List.takeWhile_cons, List.dropWhile_cons, hc]
    exact ⟨List.append_nil _, rfl⟩

/-- The exponent as it is written: not at all, or with its sign. -/
def ExponentText (exponent : Int) (text : List Char) : Prop :=
  text = [] ∧ exponent = 0 ∨ text = 'E' :: signedText exponent

/-- The digits behind the point as they are written. -/
def FractionText (fracPart text : List Char) : Prop :=
  text = [] ∧ fracPart = [] ∨ text = '.' :: fracPart ∧ ∀ c ∈ fracPart, c.isDigit = true

theorem readExponent_text {exponent : Int} {text : List Char} (h : ExponentText exponent text) :
    readExponent text = some exponent := by
  rcases h with ⟨rfl, rfl⟩ | rfl
  · rfl
  · rw [readExponent, if_pos (.inl rfl), readInt_signedText]

theorem ExponentText.head {exponent : Int} {text : List Char} (h : ExponentText exponent text) :
    ∀ c cs, text = c :: cs → c = 'E' := by
  rintro c cs rfl
  rcases h with ⟨hnil, -⟩ | hcons
  · cases hnil
  · exact (List.cons.inj hcons).1

theorem readFraction_text {fracPart fraction exponentPart : List Char} {exponent : Int}
    (hfraction : FractionText fracPart fraction) (hexponent : ExponentText exponent exponentPart) :
    readFraction (fraction ++ exponentPart) = (fracPart, exponentPart) := by
  rcases hfraction with ⟨rfl, rfl⟩ | ⟨rfl, hdigits⟩
  · rcases hexponent with ⟨rfl, -⟩ | rfl <;> rfl
  · obtain ⟨htake, hdrop⟩ := @span_digits fracPart exponentPart hdigits fun c cs hcs => by
      rw [hexponent.head c cs hcs]
      rfl
    rw [List.cons_append, readFraction, htake, hdrop]

/-- **A number is read** from its parts. -/
theorem readNumber_text (negative : Bool) {intPart fracPart fraction exponentPart : List Char}
    {exponent : Int} (hint : ∀ c ∈ intPart, c.isDigit = true) (hne : intPart ≠ [])
    (hfraction : FractionText fracPart fraction) (hexponent : ExponentText exponent exponentPart) :
    readNumber negative (intPart ++ (fraction ++ exponentPart)) =
      some (.finite negative (Nat.ofDigitChars 10 (intPart ++ fracPart) 0)
        (exponent - fracPart.length)) := by
  have hhead : ∀ c cs, fraction ++ exponentPart = c :: cs → c.isDigit = false := by
    intro c cs hcs
    rcases hfraction with ⟨rfl, -⟩ | ⟨rfl, -⟩
    · rw [hexponent.head c cs hcs]
      rfl
    · rw [← (List.cons.inj hcs).1]
      rfl
  obtain ⟨htake, hdrop⟩ := span_digits hint hhead
  unfold readNumber
  rw [htake, hdrop, readFraction_text hfraction hexponent]
  simp only
  rw [if_neg fun h => hne h.1, readExponent_text hexponent]
  rfl

/-! ## 4. The text of a number -/

theorem pointed_parts {digits : List Char} (hdigits : ∀ c ∈ digits, c.isDigit = true)
    (hne : digits ≠ []) {dotplace : Int} (h : dotplace ≤ digits.length) :
    ∃ intPart fraction fracPart, pointed digits dotplace = intPart ++ fraction ∧
      (∀ c ∈ intPart, c.isDigit = true) ∧ intPart ≠ [] ∧ FractionText fracPart fraction ∧
      Nat.ofDigitChars 10 (intPart ++ fracPart) 0 = Nat.ofDigitChars 10 digits 0 ∧
      (fracPart.length : Int) = digits.length - dotplace := by
  unfold pointed
  by_cases hlow : dotplace ≤ 0
  · -- zeros before the digits
    rw [if_pos hlow]
    refine ⟨['0'], _, List.replicate (-dotplace).toNat '0' ++ digits, rfl,
      List.forall_mem_singleton.mpr rfl, List.cons_ne_nil _ _, .inr ⟨rfl, ?_⟩, ?_, ?_⟩
    · intro c hc
      rcases List.mem_append.mp hc with hzero | hc
      · rw [List.eq_of_mem_replicate hzero]
        rfl
      · exact hdigits c hc
    · rw [Nat.ofDigitChars_append, Nat.ofDigitChars_append]
      congr 1
      exact Nat.ofDigitChars_replicate_zero
    · rw [List.length_append, List.length_replicate]
      omega
  · rw [if_neg hlow]
    by_cases hall : (digits.length : Int) ≤ dotplace
    · rw [if_pos hall]
      have hzero : (dotplace - digits.length).toNat = 0 := by omega
      refine ⟨digits, [], [], ?_, hdigits, hne, .inl ⟨rfl, rfl⟩, by rw [List.append_nil], ?_⟩
      · rw [hzero, List.replicate_zero]
      · rw [List.length_nil]
        omega
    · rw [if_neg hall]
      refine ⟨digits.take dotplace.toNat, _, digits.drop dotplace.toNat, rfl, ?_, ?_,
        .inr ⟨rfl, ?_⟩, by rw [List.take_append_drop], ?_⟩
      · exact fun c hc => hdigits c (List.mem_of_mem_take hc)
      · rw [Ne, List.take_eq_nil_iff]
        rintro (hzero | hnil)
        · omega
        · exact hne hnil
      · exact fun c hc => hdigits c (List.mem_of_mem_drop hc)
      · rw [List.length_drop]
        omega

/-- The parts of the text of a finite number, and what they say. -/
theorem finiteText_parts (negative : Bool) (coefficient : Nat) (exponent : Int) :
    ∃ intPart fracPart fraction exponentPart written,
      finiteText negative coefficient exponent =
        signText negative ++ (intPart ++ (fraction ++ exponentPart)) ∧
      (∀ c ∈ intPart, c.isDigit = true) ∧ intPart ≠ [] ∧ FractionText fracPart fraction ∧
      ExponentText written exponentPart ∧
      Nat.ofDigitChars 10 (intPart ++ fracPart) 0 = coefficient ∧
      written - fracPart.length = exponent := by
  have hlength : 0 < (Nat.toDigits 10 coefficient).length := Nat.length_toDigits_pos
  simp only [finiteText]
  generalize hleft : exponent + ((Nat.toDigits 10 coefficient).length : Int) = leftdigits
  generalize hplace : (if exponent ≤ 0 ∧ -6 < leftdigits then leftdigits else 1) = dotplace
  have hle : dotplace ≤ (Nat.toDigits 10 coefficient).length := by
    rw [← hplace]
    by_cases hnear : exponent ≤ 0 ∧ -6 < leftdigits
    · rw [if_pos hnear]
      omega
    · rw [if_neg hnear]
      omega
  obtain ⟨intPart, fraction, fracPart, hpointed, hint, hne, hfraction, hvalue, hcount⟩ :=
    pointed_parts isDigit_toDigits Nat.toDigits_ne_nil hle
  rw [Nat.ofDigitChars_ten_toDigits] at hvalue
  refine ⟨intPart, fracPart, fraction,
    if leftdigits = dotplace then [] else 'E' :: signedText (leftdigits - dotplace),
    leftdigits - dotplace, ?_, hint, hne, hfraction, ?_, hvalue, by omega⟩
  · simp only [hpointed, List.append_assoc]
  · by_cases hsame : leftdigits = dotplace
    · rw [if_pos hsame]
      exact .inl ⟨rfl, by omega⟩
    · rw [if_neg hsame]
      exact .inr rfl

/-- What the text of a finite number is made of. -/
def isNumeric (c : Char) : Bool := c.isDigit || c = '.' || c = 'E' || c = '+' || c = '-'

theorem plain_of_isNumeric {c : Char} (h : isNumeric c = true) :
    isPySpace c = false ∧ c ≠ '_' := by
  simp only [isNumeric, Bool.or_eq_true, decide_eq_true_eq] at h
  rcases h with (((hdigit | rfl) | rfl) | rfl) | rfl
  · obtain ⟨hlow, hhigh⟩ := Char.isDigit_iff_toNat.mp hdigit
    have hlow' : 48 ≤ c.toNat := hlow
    have hhigh' : c.toNat ≤ 57 := hhigh
    constructor
    · simp only [isPySpace, Bool.or_eq_false_iff, Bool.and_eq_false_imp, decide_eq_true_eq,
        decide_eq_false_iff_not, beq_eq_false_iff_ne]
      omega
    · rintro rfl
      exact absurd hhigh' (by decide)
  all_goals decide

theorem isNumeric_finiteText (negative : Bool) (coefficient : Nat) (exponent : Int) :
    ∀ c ∈ finiteText negative coefficient exponent, isNumeric c = true := by
  obtain ⟨intPart, fracPart, fraction, exponentPart, written, htext, hint, -, hfraction,
    hexponent, -⟩ := finiteText_parts negative coefficient exponent
  have hdigit : ∀ c : Char, c.isDigit = true → isNumeric c = true := by
    intro c hc
    simp only [isNumeric, hc, Bool.true_or]
  intro c hc
  rw [htext] at hc
  rcases List.mem_append.mp hc with hc | hc
  · cases negative with
    | true => exact List.mem_singleton.mp hc ▸ rfl
    | false => cases hc
  rcases List.mem_append.mp hc with hc | hc
  · exact hdigit c (hint c hc)
  rcases List.mem_append.mp hc with hc | hc
  · rcases hfraction with ⟨rfl, -⟩ | ⟨rfl, hfrac⟩
    · cases hc
    · rcases List.mem_cons.mp hc with rfl | hc
      · rfl
      · exact hdigit c (hfrac c hc)
  · rcases hexponent with ⟨rfl, -⟩ | rfl
    · cases hc
    · rcases List.mem_cons.mp hc with rfl | hc
      · rfl
      rcases List.mem_cons.mp hc with hsign | hc
      · by_cases hneg : written < 0
        · rw [hsign, if_pos hneg]
          rfl
        · rw [hsign, if_neg hneg]
          rfl
      · exact hdigit c (isDigit_toDigits c hc)

/-! ## 5. The round trip -/

theorem dropWhile_plain {text : List Char} (h : ∀ c ∈ text, isPySpace c = false) :
    text.dropWhile isPySpace = text := by
  rcases text with _ | ⟨c, cs⟩
  · rfl
  · rw [List.dropWhile_cons, h c List.mem_cons_self]
    rfl

/-- A text without blanks and underscores is read as it is. -/
theorem strip_plain {text : List Char} (h : ∀ c ∈ text, isPySpace c = false ∧ c ≠ '_') :
    (strip (String.ofList text)).toList.filter (· ≠ '_') = text := by
  have hspace : ∀ c ∈ text, isPySpace c = false := fun c hc => (h c hc).1
  have hreverse : ∀ c ∈ text.reverse, isPySpace c = false :=
    fun c hc => hspace c (List.mem_reverse.mp hc)
  rw [strip, String.toList_ofList, String.toList_ofList, dropWhile_plain hspace,
    dropWhile_plain hreverse, List.reverse_reverse, List.filter_eq_self]
  exact fun c hc => decide_eq_true (h c hc).2

/-- **A decimal is read back from its text.** -/
theorem ofText_str (d : Decimal) : ofText (str d) = some d := by
  cases d with
  | infinity negative => cases negative <;> decide +kernel
  | nan signaling => cases signaling <;> decide +kernel
  | finite negative coefficient exponent =>
      obtain ⟨intPart, fracPart, fraction, exponentPart, written, htext, hint, hne, hfraction,
        hexponent, hvalue, hwritten⟩ := finiteText_parts negative coefficient exponent
      have hplain := strip_plain fun c hc =>
        plain_of_isNumeric (isNumeric_finiteText negative coefficient exponent c hc)
      have hnumber := readNumber_text negative hint hne hfraction hexponent
      obtain ⟨first, rest, rfl⟩ := List.exists_cons_of_ne_nil hne
      have hsigned : readSigned (signText negative ++ (first :: rest ++ (fraction ++
          exponentPart))) = (negative, first :: rest ++ (fraction ++ exponentPart)) :=
        readSigned_sign negative (hint first List.mem_cons_self)
      rw [ofText, str, hplain, htext, hsigned]
      simp only
      rw [hnumber, hvalue, hwritten]
      rfl

end FundingTool.Decimal
