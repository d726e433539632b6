import FundingTool.Lockstep
import FundingTool.Models
import FundingTool.Rounding

/-!
# Decimal arithmetic (the default context of `decimal`)

Twenty-eight digits, rounded half to even, adjusted exponents from -999999 to 999999;
invalid operations, divisions by zero and overflows are trapped.  An operation computes an
exact result and passes it to `finish`, which rounds it and chooses the exponent it is
written with.
-/

namespace FundingTool.Decimal

open Rounding

/-! ## 1. The context -/

/-- `context.prec` -/
def prec : Nat := 28

/-- `context.Emax` -/
def emax : Int := 999999

/-- `context.Etiny()`, which is `Emin - prec + 1`. -/
def etiny : Int := -1000026

/-- The number that is written with sign, coefficient and exponent. -/
def value (negative : Bool) (coefficient : Nat) (exponent : Int) : Rat :=
  (if negative then -(coefficient : Rat) else coefficient) * 10 ^ exponent

/-- An exact result as it is rounded in the context, were there no greatest exponent. -/
def contextRound (x : Rat) : Rat := roundTo 10 prec etiny x

/-- The rounded result does not exceed the greatest exponent. -/
def Fits (x : Rat) : Prop := Int.log 10 |contextRound x| ≤ emax

instance (x : Rat) : Decidable (Fits x) := inferInstanceAs (Decidable (_ ≤ _))

/-! ## 2. Finishing a result -/

/-- `while exp < ideal_exp and coeff % 10 == 0`; a coefficient has at most `fuel` digits. -/
def stripZeros (ideal : Int) : Nat → Nat → Int → Nat × Int
  | 0, c, e => (c, e)
  | fuel + 1, c, e =>
      if e < ideal ∧ c % 10 = 0 then stripZeros ideal fuel (c / 10) (e + 1) else (c, e)

/-- A rounded result that is not zero: an exact one is written with the exponent nearest
    to the ideal one, an inexact one with all digits. -/
def represent (ideal : Int) (x : Rat) : Decimal :=
  let e := quantum 10 prec etiny x
  let c := (halfEven (x / 10 ^ e)).natAbs
  let negative := decide (x < 0)
  if c = 10 ^ prec then .finite negative (10 ^ (prec - 1)) (e + 1)
  else if contextRound x = x then
    let (c, e) := stripZeros ideal prec c e
    .finite negative c e
  else .finite negative c e

/-- `ans._fix(context)` of an exact result, with the sign it has as a zero. -/
def finish (negativeZero : Bool) (ideal : Int) (x : Rat) : Except Signal Decimal :=
  if x = 0 then .ok (.finite negativeZero 0 (min (max ideal etiny) emax))
  else if Fits x then .ok (represent ideal x)
  else .error .overflow

/-! ## 3. Operations -/

def add : Decimal → Decimal → Except Signal Decimal
  | .nan true, _ | _, .nan true => .error .invalidOperation
  | .nan false, _ | _, .nan false => .ok (.nan false)
  | .infinity s, .infinity t =>
      if s = t then .ok (.infinity s) else .error .invalidOperation
  | .infinity s, .finite _ _ _ | .finite _ _ _, .infinity s => .ok (.infinity s)
  | .finite s c e, .finite t d f => finish (s && t) (min e f) (value s c e + value t d f)

def mul : Decimal → Decimal → Except Signal Decimal
  | .nan true, _ | _, .nan true => .error .invalidOperation
  | .nan false, _ | _, .nan false => .ok (.nan false)
  | .infinity s, .infinity t => .ok (.infinity (s ^^ t))
  | .infinity s, .finite t c _ | .finite t c _, .infinity s =>
      if c = 0 then .error .invalidOperation else .ok (.infinity (s ^^ t))
  | .finite s c e, .finite t d f => finish (s ^^ t) (e + f) (value s c e * value t d f)

def div : Decimal → Decimal → Except Signal Decimal
  | .nan true, _ | _, .nan true => .error .invalidOperation
  | .nan false, _ | _, .nan false => .ok (.nan false)
  | .infinity _, .infinity _ => .error .invalidOperation
  | .infinity s, .finite t _ _ => .ok (.infinity (s ^^ t))
  | .finite s _ _, .infinity t => .ok (.finite (s ^^ t) 0 etiny)
  | .finite s c e, .finite t d f =>
      if d = 0 then .error (if c = 0 then .invalidOperation else .divisionByZero)
      else finish (s ^^ t) (e - f) (value s c e / value t d f)

/-- A literal or an integer, converted exactly. -/
def lit (c e : Int) : Decimal := .finite (decide (c < 0)) c.natAbs e

/-- `d.as_integer_ratio()`, where it does not raise. -/
def ratio? : Decimal → Option Rat
  | .finite s c e => some (value s c e)
  | _ => none

/-- `Decimal(statistics.mean([x, *xs]))`: the exact mean of finite numbers, rounded once;
    otherwise only the others are added up. -/
def mean (x : Decimal) (xs : List Decimal) : Except Signal Decimal :=
  match (x :: xs).mapM ratio? with
  | some ratios => finish false 0 (ratios.sum / (xs.length + 1))
  | none => do
      let total ← ((x :: xs).filter fun d => d.ratio?.isNone).foldlM add (lit 0 0)
      div total (lit (xs.length + 1) 0)

/-- `x <= 0` -/
def leZero : Decimal → Except Signal Bool
  | .nan _ => .error .invalidOperation
  | .infinity s => .ok s
  | .finite s c _ => .ok (s || decide (c = 0))

/-- `bool(x)` -/
def truthy : Decimal → Bool
  | .finite _ c _ => decide (c ≠ 0)
  | _ => true

example : div (lit 1 0) (lit 3 0) = .ok (.finite false 3333333333333333333333333333 (-28)) := by
  decide +kernel

example : div (lit 24 1) (lit 16 0) = .ok (lit 15 0) := by
  decide +kernel

/-! ## 4. Values -/

/-- The number a decimal stands for. -/
def Denotes (d : Decimal) (x : Rat) : Prop := d.ratio? = some x

/-- Rounding of exact results, as the operations do it. -/
def contextRounding (x : Rat) : Except Signal Rat :=
  if Fits x then .ok (contextRound x) else .error .overflow

theorem Denotes.finite {d : Decimal} {x : Rat} (h : Denotes d x) :
    ∃ s c e, d = .finite s c e ∧ value s c e = x := by
  cases d with
  | finite s c e => exact ⟨s, c, e, rfl, Option.some.inj h⟩
  | infinity s => cases h
  | nan s => cases h

theorem contextRounding_neg (x : Rat) : contextRounding (-x) = (contextRounding x).map (- ·) := by
  have hfits : Fits (-x) ↔ Fits x := by
    rw [Fits, Fits, contextRound, abs_roundTo_neg]
    rfl
  rw [contextRounding, contextRounding]
  by_cases h : Fits x
  · rw [if_pos h, if_pos (hfits.mpr h), contextRound, roundTo_neg]
    rfl
  · rw [if_neg h, if_neg (hfits.not.mpr h)]
    rfl

end FundingTool.Decimal
