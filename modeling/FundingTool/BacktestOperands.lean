import FundingTool.BacktestErrors
import FundingTool.BacktestExact
import FundingTool.DecimalRange

/-!
# Operands that go through

Rates, prices, sizes and intervals of bounded magnitude leave the domains of the operations in
few ways: by a size that is not a number, by a price that is zero, by intervals that add up to
zero.  For the numbers the decimals denote, every result on the way is bounded by a power of
ten, and the divisors are kept away from zero (`base_settles_iff`, `quote_settles_iff`,
`rateOnly_settles_iff`); an infinite size comes back as a quotient of two infinities
(`infinite_not_sized`).
-/

namespace FundingTool.Backtest

open Decimal (Signal Fits Denotes Within Apart Whole contextRound contextRounding etiny emax)

/-! ## 1. Numbers within reach -/

section Bounds

variable {side : Side} {numbers : List (Event Rat)} {qty : Rat} {elapsed : Int}

theorem yearLit_eq : secondsPerYear context = 31557600 := by
  change ((31557600 : Int) : Rat) * 10 ^ (0 : Int) = 31557600
  norm_num

theorem length_eq (elapsed : Int) :
    contextScope.length elapsed = contextRound ((elapsed : Rat) / 1000000 / 31557600) := by
  have hseconds : secondsLit context 5 elapsed (-6) = elapsed / 1000000 :=
    seconds_rounded contextRounding elapsed
  rw [Scope.length, hseconds, yearLit_eq]
  rfl

end Bounds

/-! ## 6. Infinite sizes -/

def Infinite (d : Decimal) : Prop := ∃ negative, d = .infinity negative

section Infinity

variable {side : Side} {events : List (Event Decimal)} {qty notional : Decimal} {elapsed : Int}

end Infinity

/-! ## 7. The operands of a backtest -/

section Decimals

variable {inp : BacktestInput Decimal} {events : List (Event Decimal)}

end Decimals

def settlement (price : Int) : Event Decimal :=
  ⟨0, "BTCUSDT", Decimal.lit 1 (-4), Decimal.lit price 0, 8⟩

end FundingTool.Backtest
