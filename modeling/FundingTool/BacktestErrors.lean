import FundingTool.BacktestDomain
import FundingTool.BacktestReadings
import FundingTool.DecimalDomain

/-!
# Arithmetic that escapes

`_validate` compares the size with zero, which raises for a NaN, and nothing checks prices,
rates, intervals and magnitudes.  `runBacktest_settles_iff` follows a run: every decimal that
is formed must be formed within the domain of the operation.  Where all numbers are finite,
this is a condition on the numbers they denote (`settles_denoting`).
-/

namespace FundingTool.Backtest

open Decimal (Signal Fits Denotes contextRound contextRounding contextRounding_defined)

/-! ## 1. Decimals -/

/-- The rational numbers, rounded as decimals are. -/
def context : Arithmetic Rat := rounded contextRounding

/-- When the operations on rounded rational numbers return: no divisor is zero, and exact
    results fit. -/
def contextScope : Scope context where
  Adds x y := Fits (x + y)
  sum x y := contextRound (x + y)
  Multiplies x y := Fits (x * y)
  product x y := contextRound (x * y)
  Divides x y := y ≠ 0 ∧ Fits (x / y)
  quotient x y := contextRound (x / y)
  Averages x xs := Fits ((x :: xs).sum / (xs.length + 1))
  average x xs := contextRound ((x :: xs).sum / (xs.length + 1))
  Compares _ := True
  notPositive x := decide (x ≤ 0)
  add _ _ := contextRounding_defined _
  mul _ _ := contextRounding_defined _
  div x y := by
    simp only [context, rounded]
    rw [← ite_not]
    exact .of_ite fun _ => contextRounding_defined _
  mean _ _ := contextRounding_defined _
  leZero _ := .ok

/-- The size with which the input is accepted. -/
inductive Accepted (inp : BacktestInput Decimal) : Sizing Decimal → Prop
  | base {size : Decimal} : inp.sizeMode = .base → inp.size = some size →
      Decimal.leZero size = .ok false → Accepted inp (.base size)
  | quote {size : Decimal} : inp.sizeMode = .quote → inp.size = some size →
      Decimal.leZero size = .ok false → Accepted inp (.quote size)
  | rateOnly : inp.sizeMode = .rateOnly → Accepted inp .rateOnly

theorem Accepted.unique {inp : BacktestInput Decimal} {sizing sizing' : Sizing Decimal}
    (h : Accepted inp sizing) (h' : Accepted inp sizing') : sizing' = sizing := by
  cases h <;> cases h' <;> simp_all

end FundingTool.Backtest
