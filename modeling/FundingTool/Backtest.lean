import FundingTool.DecimalArithmetic
import Mathlib.Algebra.Order.Field.Rat

/-!
# The backtest (`core/backtest.py`)

`run_backtest` is written over an `Arithmetic`, so that one definition is read in
several: `decimal` are the numbers of the source, `rounded rnd` the rational numbers with
a rounding after every operation, `exact` those without one.

An operation answers with a `Signal` where the context of the source traps one.
-/

namespace FundingTool.Backtest

open Decimal (Signal)

/-! ## 1. Arithmetic -/

/-- The operations `run_backtest` performs on its numbers. -/
structure Arithmetic (D : Type) where
  /-- A literal or an integer: coefficient and power of ten, never rounded. -/
  lit : Int → Int → D
  add : D → D → Except Signal D
  mul : D → D → Except Signal D
  div : D → D → Except Signal D
  /-- `Decimal(statistics.mean([x, *xs]))` -/
  mean : D → List D → Except Signal D
  /-- `x <= 0` -/
  leZero : D → Except Signal Bool
  /-- `bool(x)` -/
  truthy : D → Bool

/-- Rational numbers, every result of an operation passed through `rnd`. -/
def rounded (rnd : Rat → Except Signal Rat) : Arithmetic Rat where
  lit c e := c * 10 ^ e
  add x y := rnd (x + y)
  mul x y := rnd (x * y)
  div x y :=
    if y = 0 then .error (if x = 0 then .invalidOperation else .divisionByZero) else rnd (x / y)
  mean x xs := rnd ((x :: xs).sum / (xs.length + 1))
  leZero x := .ok (decide (x ≤ 0))
  truthy x := decide (x ≠ 0)

/-- Exact rational arithmetic. -/
def exact : Arithmetic Rat := rounded .ok

/-! ## 2. Inputs and results -/

/-- A `datetime`: an instant, or a reading of a wall clock without a timezone. -/
inductive DateTime where
  | aware (instant : Int)
  | naive (wall : Int)
deriving DecidableEq, Repr

inductive Side where
  | long
  | short
deriving DecidableEq, Repr

inductive SizeMode where
  | base
  | quote
  | rateOnly
deriving DecidableEq, Repr

/-- `FundingEvent`, over the numbers of an arithmetic. -/
structure Event (D : Type) where
  timestamp : Int
  symbol : String
  rate : D
  markPrice : D
  intervalHours : Int
deriving DecidableEq, Repr

structure BacktestInput (D : Type) where
  symbol : String
  side : Side
  start : DateTime
  stop : DateTime
  sizeMode : SizeMode
  size : Option D
deriving DecidableEq, Repr

structure FundingPayment (D : Type) where
  event : Event D
  quantityBase : D
  notionalQuote : D
  paymentQuote : D
deriving DecidableEq, Repr

structure BacktestResult (D : Type) where
  input : BacktestInput D
  payments : List (FundingPayment D)
  totalQuote : Option D
  totalBase : Option D
  cumulativeRatePct : D
  apr : D
  eventCount : Nat
  avgRate : D
deriving DecidableEq, Repr

/-- The `ValidationError`s of `_validate`, with the data of their messages. -/
inductive Invalid where
  /-- `start and end must be timezone-aware` -/
  | notAware
  /-- `start ({inp.start}) must be before end ({inp.end})` -/
  | notBefore (start stop : Int)
  /-- `size must be positive for {inp.size_mode} mode` -/
  | sizeNotPositive (mode : SizeMode)
deriving DecidableEq, Repr

inductive BacktestError where
  | validation (reason : Invalid)
  /-- What `fetch_funding_rates` raises. -/
  | exchange (e : FundingToolError)
  /-- `decimal.InvalidOperation`, `decimal.DivisionByZero` or `decimal.Overflow` -/
  | arithmetic (signal : Signal)
deriving DecidableEq, Repr

/-! ## 3. `_validate` -/

/-- A size mode with the size it requires. -/
inductive Sizing (D : Type) where
  | base (size : D)
  | quote (size : D)
  | rateOnly
deriving DecidableEq, Repr

variable {D : Type} (A : Arithmetic D)

/-- `inp.end - inp.start` in microseconds, where `_validate` accepts the two. -/
def validateTimes : DateTime → DateTime → Except BacktestError Int
  | .aware start, .aware stop =>
      if start < stop then .ok (stop - start) else .error (.validation (.notBefore start stop))
  | _, _ => .error (.validation .notAware)

def validateSize (mode : SizeMode) : Option D → Except BacktestError D
  | none => .error (.validation (.sizeNotPositive mode))
  | some size =>
      match A.leZero size with
      | .error signal => .error (.arithmetic signal)
      | .ok true => .error (.validation (.sizeNotPositive mode))
      | .ok false => .ok size

def validateSizing (inp : BacktestInput D) : Except BacktestError (Sizing D) :=
  match inp.sizeMode with
  | .base => (validateSize A .base inp.size).map .base
  | .quote => (validateSize A .quote inp.size).map .quote
  | .rateOnly => .ok .rateOnly

/-! ## 4. Payments -/

/-- `_SECONDS_PER_YEAR` -/
def secondsPerYear : D := A.lit 31557600 0

/-- Positive funding rate: LONG pays SHORT. -/
def sideSign : Side → Int
  | .long => -1
  | .short => 1

def quantityForEvent (sizing : Sizing D) (first : Event D) : Except Signal D :=
  match sizing with
  | .base size => .ok size
  | .quote size => A.div size first.markPrice
  | .rateOnly => .ok (A.lit 1 0)

/-- The body of the loop over the events; `first` is `events[0]`. -/
def paymentFor (side : Side) (sizing : Sizing D) (first ev : Event D) :
    Except Signal (FundingPayment D) := do
  let qty ← quantityForEvent A sizing first
  let notional ← A.mul qty ev.markPrice
  let signed ← A.mul (A.lit (sideSign side) 0) qty
  let valued ← A.mul signed ev.markPrice
  let payment ← A.mul valued ev.rate
  pure ⟨ev, qty, notional, payment⟩

def paymentsOf (side : Side) (sizing : Sizing D) :
    List (Event D) → Except Signal (List (FundingPayment D))
  | [] => pure []
  | first :: rest => (first :: rest).mapM (paymentFor A side sizing first)

/-! ## 5. Totals -/

/-- `sum((f(p) for p in payments), Decimal("0"))` -/
def sumOf (f : FundingPayment D → Except Signal D) (payments : List (FundingPayment D)) :
    Except Signal D :=
  payments.foldlM (fun acc p => do
    let x ← f p
    A.add acc x) (A.lit 0 0)

/-- `Decimal(mean([f(p) for p in payments])) if payments else Decimal("0")` -/
def meanOf (f : FundingPayment D → Except Signal D) : List (FundingPayment D) → Except Signal D
  | [] => pure (A.lit 0 0)
  | p :: ps => do
      let x ← f p
      let xs ← ps.mapM f
      A.mean x xs

/-- `side_sign_dec * p.event.rate` -/
def signedRate (side : Side) (p : FundingPayment D) : Except Signal D :=
  A.mul (A.lit (sideSign side) 0) p.event.rate

def cumulativeRatePct (side : Side) (payments : List (FundingPayment D)) : Except Signal D := do
  let total ← sumOf A (signedRate A side) payments
  A.mul total (A.lit 100 0)

/-- `Decimal(str(x))` of a float of whole microseconds: the zeros at the end are dropped,
    down to one decimal place. -/
def secondsLit : Nat → Int → Int → D
  | 0, c, e => A.lit c e
  | fuel + 1, c, e => if c % 10 = 0 then secondsLit fuel (c / 10) (e + 1) else A.lit c e

def elapsedYears (elapsed : Int) : Except Signal D :=
  A.div (secondsLit A 5 elapsed (-6)) (secondsPerYear A)

/-- `total_quote`, `total_base` and `apr`. -/
structure Totals (D : Type) where
  totalQuote : Option D
  totalBase : Option D
  apr : D
deriving DecidableEq, Repr

def rateOnlyTotals (payments : List (FundingPayment D)) (elapsed : Int) (avgRate : D) :
    Except Signal (Totals D) := do
  let _ ← elapsedYears A elapsed
  if payments.isEmpty then pure ⟨none, none, A.lit 0 0⟩
  else do
    let weightedIph ← meanOf A (fun p => pure (A.lit p.event.intervalHours 0)) payments
    let hoursPerYear ← A.mul (A.lit 24 0) (A.lit 36525 (-2))
    let intervalsPerYear ← A.div hoursPerYear weightedIph
    let apr ← A.mul avgRate intervalsPerYear
    pure ⟨none, none, apr⟩

/-- `avgNotional` is the mean of the notionals in BASE mode, the size in QUOTE mode. -/
def sizedTotals (avgNotional : List (FundingPayment D) → Except Signal D)
    (payments : List (FundingPayment D)) (elapsed : Int) : Except Signal (Totals D) := do
  let totalQuote ← sumOf A (fun p => pure p.paymentQuote) payments
  let totalBase ← sumOf A (fun p => A.div p.paymentQuote p.event.markPrice) payments
  let years ← elapsedYears A elapsed
  if payments.isEmpty then pure ⟨some totalQuote, some totalBase, A.lit 0 0⟩
  else do
    let notional ← avgNotional payments
    if A.truthy notional then do
      let notPositive ← A.leZero years
      if notPositive then pure ⟨some totalQuote, some totalBase, A.lit 0 0⟩
      else do
        let ratio ← A.div totalQuote notional
        let apr ← A.div ratio years
        pure ⟨some totalQuote, some totalBase, apr⟩
    else pure ⟨some totalQuote, some totalBase, A.lit 0 0⟩

def totalsOf (sizing : Sizing D) (payments : List (FundingPayment D)) (elapsed : Int)
    (avgRate : D) : Except Signal (Totals D) :=
  match sizing with
  | .base _ => sizedTotals A (meanOf A fun p => pure p.notionalQuote) payments elapsed
  | .quote size => sizedTotals A (fun _ => pure size) payments elapsed
  | .rateOnly => rateOnlyTotals A payments elapsed avgRate

/-! ## 6. `run_backtest` -/

/-- What `run_backtest` computes from the events of an accepted input. -/
def settle (inp : BacktestInput D) (sizing : Sizing D) (elapsed : Int) (events : List (Event D)) :
    Except Signal (BacktestResult D) := do
  let payments ← paymentsOf A inp.side sizing events
  let cumulative ← cumulativeRatePct A inp.side payments
  let avgRate ← meanOf A (signedRate A inp.side) payments
  let totals ← totalsOf A sizing payments elapsed avgRate
  pure
    { input := inp
      payments := payments
      totalQuote := totals.totalQuote
      totalBase := totals.totalBase
      cumulativeRatePct := cumulative
      apr := totals.apr
      eventCount := payments.length
      avgRate := avgRate }

/-- The exchange answers with these events. -/
def serving (events : List (Event D)) :
    String → DateTime → DateTime → Except FundingToolError (List (Event D)) :=
  fun _ _ _ => .ok events

/-- `exchange` is `fetch_funding_rates`. -/
def runBacktest (exchange : String → DateTime → DateTime → Except FundingToolError (List (Event D)))
    (inp : BacktestInput D) : Except BacktestError (BacktestResult D) := do
  let elapsed ← validateTimes inp.start inp.stop
  let sizing ← validateSizing A inp
  let events ← (exchange inp.symbol inp.start inp.stop).mapError .exchange
  (settle A inp sizing elapsed events).mapError .arithmetic

end FundingTool.Backtest
