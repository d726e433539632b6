import FundingTool.AccountHistory
import FundingTool.TaskManager

/-!
# Time ranges of requests (`web/routes/backtest.py`, `web/routes/history.py`)

Both routes begin with the length of the range, before the services look at the two
datetimes.  A backtest is answered at once; a history is run as a task, whose failure the
client reads later.

What the exchange and the store answer is given; what the exchange is asked is kept.
-/

namespace FundingTool.RangeRoutes

open FundingTool.Backtest FundingTool.Interaction FundingTool.AccountHistory
open Decimal (Signal)

/-! ## 1. Requests and exceptions -/

structure BacktestRequest (D : Type) where
  symbol : String
  side : Side
  start : DateTime
  stop : DateTime
  sizeMode : SizeMode
  size : Option D
deriving DecidableEq, Repr

structure HistoryRequest where
  accountName : String
  start : DateTime
  stop : DateTime
  symbol : Option String
deriving DecidableEq, Repr

structure BacktestResponse (D : Type) where
  eventCount : Nat
  totalQuote : Option D
  totalBase : Option D
  cumulativeRatePct : D
  avgRatePct : D
  annualizedPct : D
  payments : List (FundingPayment D)
deriving DecidableEq, Repr

/-- What leaves a route: an `HTTPException` with its detail, or any other exception. -/
inductive RouteException
  | http (e : WebError)
  | raised (e : BaseException)
deriving DecidableEq, Repr

/-- The error of the response, by the handlers of `create_app`. -/
def RouteException.reply (errorId : String) : RouteException → WebError
  | .http e => e
  | .raised e => mapCoreException errorId e

/-- `except asyncio.TimeoutError` -/
def isTimeout : BaseException → Bool
  | .other "TimeoutError" _ => true
  | _ => false

/-- `except KeyError` -/
def isKeyError : BaseException → Bool
  | .other "KeyError" _ => true
  | _ => false

/-! ## 2. The length of a range -/

/-- `end - start` -/
def subtract : DateTime → DateTime → Except BaseException Int
  | .aware stop, .aware start => .ok (stop - start)
  | .naive stop, .naive start => .ok (stop - start)
  | _, _ => .error (.other "TypeError" "can't subtract offset-naive and offset-aware datetimes")

def rangeTooLarge (maxRangeDays : Nat) : WebError :=
  ⟨.rangeTooLarge, 400, "查询时间范围超过 " ++ toString maxRangeDays ++ " 天上限", none, none⟩

/-- What both routes begin with. -/
def checkRange (maxRangeDays : Nat) (start stop : DateTime) : Except RouteException Unit :=
  match subtract stop start with
  | .error e => .error (.raised e)
  | .ok span =>
      if span > maxRangeDays * dayLength then .error (.http (rangeTooLarge maxRangeDays))
      else .ok ()

/-! ## 3. `POST /api/backtest` -/

def backtestMaxRangeDays : Nat := 730

def networkTimeout : WebError := ⟨.networkError, 502, "查询超时", none, none⟩

variable {D : Type} (A : Arithmetic D) (print : Printer)

def exceptionOf : BacktestError → BaseException
  | .validation reason => validationError print reason
  | .exchange e => .core e
  | .arithmetic signal => signalled signal

/-- `run_backtest`, with what it asks of the exchange. -/
def runBacktestService (inp : BacktestInput D) : Service D (BacktestResult D) := do
  let elapsed ← Prog.ofExcept ((validateTimes inp.start inp.stop).mapError (exceptionOf print))
  let sizing ← Prog.ofExcept ((validateSizing A inp).mapError (exceptionOf print))
  let answer ← Prog.call (.fetchFundingRates inp.symbol inp.start inp.stop) .ret
  let events ← Prog.ofExcept answer
  Prog.ofExcept ((settle A inp sizing elapsed events).mapError signalled)

def toBacktestResponse (r : BacktestResult D) : Except Signal (BacktestResponse D) := do
  let avgRatePct ← A.mul r.avgRate (A.lit 100 0)
  let annualizedPct ← A.mul r.apr (A.lit 100 0)
  pure ⟨r.eventCount, r.totalQuote, r.totalBase, r.cumulativeRatePct, avgRatePct, annualizedPct,
    r.payments⟩

/-- `backtest` -/
def backtest (exchange : Exchange D) (body : BacktestRequest D) :
    List ExchangeOp × Except RouteException (BacktestResponse D) :=
  match checkRange backtestMaxRangeDays body.start body.stop with
  | .error e => ([], .error e)
  | .ok () =>
      let inp : BacktestInput D :=
        ⟨body.symbol, body.side, body.start, body.stop, body.sizeMode, body.size⟩
      match (runBacktestService A print inp).run ask exchange [] with
      | (asked, .error e) =>
          (asked, .error (if isTimeout e then .http networkTimeout else .raised e))
      | (asked, .ok result) =>
          (asked, (toBacktestResponse A result).mapError fun signal => .raised (signalled signal))

/-! ## 4. `POST /api/history` -/

def historyMaxRangeDays : Nat := 1095

def accountMissing : WebError :=
  ⟨.validationError, 404, "账户不存在", some "account_name", none⟩

/-- `submit_history` up to the task, for which it returns the credentials. -/
def submitHistory (getCredentials : String → Except BaseException ApiCredentials)
    (body : HistoryRequest) : Except RouteException ApiCredentials :=
  match checkRange historyMaxRangeDays body.start body.stop with
  | .error e => .error e
  | .ok () =>
      match getCredentials body.accountName with
      | .error e => .error (if isKeyError e then .http accountMissing else .raised e)
      | .ok creds => .ok creds

/-- `_job` -/
def job (exchange : Exchange D) (creds : ApiCredentials) (body : HistoryRequest) :
    List ExchangeOp × JobEnd (HistoryResult D) :=
  match (runAccountHistory A print creds body.start body.stop body.symbol).run ask exchange [] with
  | (asked, .error e) => (asked, .raised e)
  | (asked, .ok result) => (asked, .returned (some result))

/-- A submission, and the status entry once its task has ended. -/
def history (exchange : Exchange D)
    (getCredentials : String → Except BaseException ApiCredentials) (errorId : String)
    (created : Int) (body : HistoryRequest) :
    List ExchangeOp × Except RouteException (Snapshot (HistoryResult D)) :=
  match submitHistory getCredentials body with
  | .error e => ([], .error e)
  | .ok creds =>
      ((job A print exchange creds body).1, .ok (TaskManager.record errorId
        ⟨.running, none, none, none, created⟩ (job A print exchange creds body).2))

/-! ## 5. The backtest service -/

/-- An exchange whose funding rates are those of a function. -/
def rating (fetch : String → DateTime → DateTime → Except FundingToolError (List (Event D))) :
    Exchange D
  | .fetchFundingRates symbol start stop => (fetch symbol start stop).mapError .core
  | .fetchFundingIncome _ _ _ _ => .ok []

/-- **The service is the backtest**, and asks the exchange once at most. -/
theorem run_backtestService
    (fetch : String → DateTime → DateTime → Except FundingToolError (List (Event D)))
    (inp : BacktestInput D) :
    ((runBacktestService A print inp).run ask (rating fetch) []).2 =
        (runBacktest A fetch inp).mapError (exceptionOf print) ∧
      ((runBacktestService A print inp).run ask (rating fetch) []).1.length ≤ 1 := by
  unfold runBacktestService runBacktest
  rcases validateTimes inp.start inp.stop with e | elapsed
  · exact ⟨rfl, Nat.zero_le 1⟩
  · rcases hsizing : validateSizing A inp with e | sizing
    · exact ⟨rfl, Nat.zero_le 1⟩
    · simp only [Except.mapError, Prog.ofExcept, Prog.ret_bind, Prog.call_bind, Prog.run_call, ask,
        rating]
      rcases fetch inp.symbol inp.start inp.stop with e | events
      · exact ⟨rfl, Nat.le_refl 1⟩
      · rcases hsettle : settle A inp sizing elapsed events with signal | result
        · simp only [Prog.ret_bind, hsettle, Prog.run_raise]
          exact ⟨by simp [bind, Except.bind, hsettle, exceptionOf], Nat.le_refl 1⟩
        · simp only [Prog.ret_bind, hsettle, Prog.run_ret]
          exact ⟨by simp [bind, Except.bind, hsettle], Nat.le_refl 1⟩

end FundingTool.RangeRoutes
