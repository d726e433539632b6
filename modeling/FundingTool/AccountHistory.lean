import FundingTool.Backtest
import FundingTool.Calendar
import FundingTool.Interaction
import FundingTool.OrderedDict
import FundingTool.WebErrors

/-!
# The account history (`core/account.py`)

`run_account_history` validates its range, asks the exchange for the income records and folds
them into a total and two dictionaries.  Like `run_backtest` it is written over an
`Arithmetic`; what it asks of the exchange is an operation.
-/

namespace FundingTool.AccountHistory

open FundingTool.Backtest FundingTool.Interaction
open Decimal (Signal)

/-! ## 1. Months -/

/-- Microseconds of a day. -/
def dayLength : Int := 86400000000

/-- `toordinal()` of the first of January 1970. -/
def epochOrdinal : Int := 719163

/-- The date of an instant in UTC. -/
def dateOf (instant : Int) : Calendar.Date :=
  Calendar.ofOrdinal (epochOrdinal + instant / dayLength)

def digit (n : Nat) : Char := Char.ofNat ('0'.toNat + n % 10)

/-- `strftime("%Y-%m")` of a date -/
def yearMonth (d : Calendar.Date) : String :=
  let y := d.year.toNat
  String.ofList [digit (y / 1000), digit (y / 100), digit (y / 10), digit y, '-',
    digit (d.month / 10), digit d.month]

/-- `timestamp.strftime("%Y-%m")` of a timestamp in UTC. -/
def monthKey (instant : Int) : String := yearMonth (dateOf instant)

example : monthKey 1769904000000000 = "2026-02" := by decide +kernel

/-! ## 2. Records and results -/

/-- `IncomeRecord`, over the numbers of an arithmetic. -/
structure Income (D : Type) where
  timestamp : Int
  symbol : String
  amountUsdt : D
  tranId : String
deriving DecidableEq, Repr

/-- `HistoryResult` -/
structure HistoryResult (D : Type) where
  start : DateTime
  stop : DateTime
  records : List (Income D)
  total : D
  bySymbol : OrderedDict String D
  byMonth : OrderedDict String D

/-- What the services ask of the exchange. -/
inductive ExchangeOp
  | fetchFundingRates (symbol : String) (start stop : DateTime)
  | fetchFundingIncome (credentials : ApiCredentials) (start stop : DateTime)
      (symbol : Option String)
deriving DecidableEq, Repr

/-- The records, or the exception raised. -/
def ExchangeOp.Resp (D : Type) : ExchangeOp → Type
  | .fetchFundingRates _ _ _ => Except BaseException (List (Event D))
  | .fetchFundingIncome _ _ _ _ => Except BaseException (List (Income D))

abbrev Service (D α : Type) := Prog ExchangeOp (ExchangeOp.Resp D) BaseException α

/-! ## 3. Exceptions -/

/-- `str(start)` of a `datetime`. -/
abbrev Printer := DateTime → String

/-- The `ValidationError`s of the two services. -/
def validationError (print : Printer) : Invalid → BaseException
  | .notAware => .core (.validation "start and end must be timezone-aware")
  | .notBefore start stop =>
      .core (.validation ("start (" ++ print (.aware start) ++ ") must be before end (" ++
        print (.aware stop) ++ ")"))
  | .sizeNotPositive mode =>
      .core (.validation ("size must be positive for " ++
        (match mode with | .base => "BASE" | .quote => "QUOTE" | .rateOnly => "RATE_ONLY") ++
        " mode"))

/-- The exceptions of `decimal`. -/
def signalled : Signal → BaseException
  | .invalidOperation => .other "InvalidOperation" ""
  | .divisionByZero => .other "DivisionByZero" ""
  | .overflow => .other "Overflow" ""

/-! ## 4. `run_account_history` -/

/-- `_validate` -/
def validate : DateTime → DateTime → Except Invalid Unit
  | .aware start, .aware stop => if start < stop then .ok () else .error (.notBefore start stop)
  | _, _ => .error .notAware

variable {D : Type} (A : Arithmetic D)

/-- `d[key] += amount`, on a `defaultdict` of zeros. -/
def addAt (d : OrderedDict String D) (key : String) (amount : D) :
    Except Signal (OrderedDict String D) := do
  let value ← A.add ((d.get? key).getD (A.lit 0 0)) amount
  pure (d.set key value)

/-- `total`, `by_symbol` and `by_month`. -/
structure Totals (D : Type) where
  total : D
  bySymbol : OrderedDict String D
  byMonth : OrderedDict String D

/-- The body of the loop. -/
def addRecord (acc : Totals D) (r : Income D) : Except Signal (Totals D) := do
  let total ← A.add acc.total r.amountUsdt
  let bySymbol ← addAt A acc.bySymbol r.symbol r.amountUsdt
  let byMonth ← addAt A acc.byMonth (monthKey r.timestamp) r.amountUsdt
  pure ⟨total, bySymbol, byMonth⟩

def aggregate (records : List (Income D)) : Except Signal (Totals D) :=
  records.foldlM (addRecord A) ⟨A.lit 0 0, .empty, .empty⟩

def runAccountHistory (print : Printer) (creds : ApiCredentials) (start stop : DateTime)
    (symbol : Option String) : Service D (HistoryResult D) := do
  let _ ← Prog.ofExcept ((validate start stop).mapError (validationError print))
  let answer ← Prog.call (.fetchFundingIncome creds start stop symbol) .ret
  let records ← Prog.ofExcept answer
  let totals ← Prog.ofExcept ((aggregate A records).mapError signalled)
  pure ⟨start, stop, records, totals.total, totals.bySymbol, totals.byMonth⟩

/-! ## 5. What an exchange is asked -/

/-- An exchange, by its answers. -/
abbrev Exchange (D : Type) := (o : ExchangeOp) → o.Resp D

/-- The exchange answers, and what it was asked is kept. -/
def ask (o : ExchangeOp) (exchange : Exchange D) (asked : List ExchangeOp) :
    List ExchangeOp × o.Resp D :=
  (asked ++ [o], exchange o)

/-- An exchange whose account has these records. -/
def paying (records : List (Income D)) : Exchange D
  | .fetchFundingRates _ _ _ => .ok []
  | .fetchFundingIncome _ _ _ _ => .ok records

end FundingTool.AccountHistory
