import FundingTool.Backtest
import FundingTool.Domain

/-!
# When a backtest goes through

A `Scope` says of the operations of an arithmetic when they return, and what.  Following
the backtest, operation by operation, gives the condition under which it returns
(`settle_returns_iff`): every number that is formed on the way is formed within the scope.
-/

namespace FundingTool.Backtest

open Decimal (Signal)

/-! ## 1. Operations -/

/-- When the operations of an arithmetic return, and what they then return. -/
structure Scope {D : Type} (A : Arithmetic D) where
  Adds : D → D → Prop
  sum : D → D → D
  Multiplies : D → D → Prop
  product : D → D → D
  Divides : D → D → Prop
  quotient : D → D → D
  Averages : D → List D → Prop
  average : D → List D → D
  Compares : D → Prop
  notPositive : D → Bool
  add : ∀ x y, DefinedWhen (Adds x y) (sum x y) (A.add x y)
  mul : ∀ x y, DefinedWhen (Multiplies x y) (product x y) (A.mul x y)
  div : ∀ x y, DefinedWhen (Divides x y) (quotient x y) (A.div x y)
  mean : ∀ x xs, DefinedWhen (Averages x xs) (average x xs) (A.mean x xs)
  leZero : ∀ x, DefinedWhen (Compares x) (notPositive x) (A.leZero x)

/-- The intervals of the events, in hours. -/
def intervals {D : Type} (A : Arithmetic D) (events : List (Event D)) : List D :=
  events.map fun ev => A.lit ev.intervalHours 0

namespace Scope

variable {D : Type} {A : Arithmetic D} (scope : Scope A)

/-! ## 2. Sums and means -/

/-- A sum from zero on, term by term. -/
def total (xs : List D) : D := xs.foldl scope.sum (A.lit 0 0)

/-- Every partial sum can be formed. -/
def AddsUp (xs : List D) : Prop := Along scope.Adds scope.sum (A.lit 0 0) xs

section Payments

variable {f : FundingPayment D → Except Signal D} {g : FundingPayment D → D}
  {R : FundingPayment D → Prop} {payments : List (FundingPayment D)}

end Payments

section Position

variable (side : Side) (qty : D)

def signedQuantity : D := scope.product (A.lit (sideSign side) 0) qty

def valuedQuantity (ev : Event D) : D := scope.product (scope.signedQuantity side qty) ev.markPrice

/-- The payment of an event for a position of `qty`. -/
def payment (ev : Event D) : FundingPayment D where
  event := ev
  quantityBase := qty
  notionalQuote := scope.product qty ev.markPrice
  paymentQuote := scope.product (scope.valuedQuantity side qty ev) ev.rate

variable {side qty}

end Position

/-! ## 4. Rates and totals -/

section Totals

variable (side : Side) (events : List (Event D)) (qty : D)

def paid : List D := events.map fun ev => (scope.payment side qty ev).paymentQuote

/-- The length of the window in years. -/
def length (elapsed : Int) : D :=
  scope.quotient (secondsLit A 5 elapsed (-6)) (secondsPerYear A)

/-- The hours of a year. -/
def hoursPerYear : D := scope.product (A.lit 24 0) (A.lit 36525 (-2))

variable {side events qty}

end Totals

/-! ## 5. The whole settlement -/

end Scope

end FundingTool.Backtest
