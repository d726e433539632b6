import FundingTool.FundingIncomeDelivery
import FundingTool.HttpClient
import FundingTool.Layers

/-!
# Signed calls (`core/exchanges/binance_usdm.py`)

The exchange talks to `HttpClient` in calls of `get_json` and reads the local clock
between them; over HTTP each call is the retry loop.  `verify_credentials` is written over
these calls; `_iter_income_pages` is interpreted in them.

`int` is Python's `int` on JSON values and `readItems` reads the records of a page; both
are parameters.
-/

namespace FundingTool.Http

open FundingTool.Interaction

/-! ## 1. Calls -/

inductive CallOp where
  /-- `http.get_json(path, headers=headers)` -/
  | getJson (request : Request)
  /-- `int(datetime.now(UTC).timestamp() * 1000)` -/
  | localMs
deriving DecidableEq

def CallOp.Resp : CallOp → Type
  | .getJson _ => Except HttpError Json
  | .localMs => Int

abbrev Calls := Prog CallOp CallOp.Resp HttpError

def fetch (request : Request) : Calls Json := .call (.getJson request) fun r => Prog.ofExcept r

/-- A call inside a `try`. -/
def tryFetch (request : Request) : Calls (Except HttpError Json) :=
  .call (.getJson request) fun r => .ret r

def readClock : Calls Int := .call .localMs fun r => .ret r

/-- What a call does over HTTP. -/
def carryOut (float : String → Option Delay) (client : HttpClient) : (o : CallOp) → Async o.Resp
  | .getJson request => (getJson float client request).attempt
  | .localMs => localMs

def overHttp {α : Type} (float : String → Option Delay) (client : HttpClient) (p : Calls α) :
    Async α :=
  p.interpret (carryOut float client) id

/-- A request whose query string ends in its signature. -/
def signedRequest (credentials : ApiCredentials) (path : String) (params : List (String × Param)) :
    Request :=
  ⟨path, params, some credentials⟩

/-! ## 2. `verify_credentials` -/

/-- `bool(value)` -/
def Json.truthy : Json → Bool
  | .null => false
  | .bool b => b
  | .int n => decide (n ≠ 0)
  | .float (.finite _ coefficient _) => decide (coefficient ≠ 0)
  | .float _ => true
  | .str s => decide (s ≠ "")
  | .arr items => !items.isEmpty
  | .obj fields => !fields.isEmpty

/-- `bool(restrictions.get(key, False))` -/
def flag (restrictions : List (String × Json)) (key : String) : Bool :=
  ((restrictions.lookup key).map Json.truthy).getD false

/-- `isinstance(e, ExchangeError)` -/
def isExchangeError : HttpError → Bool
  | .tool (.exchange _) => true
  | .tool (.missingMarkPrice _ _) => true
  | _ => false

/-- `int(server["serverTime"])` -/
def serverTime (int : Json → Option Int) : Json → Option Int
  | .obj fields => (fields.lookup "serverTime").bind int
  | _ => none

variable (int : Json → Option Int)

def computeTimeOffset : Calls Int := do
  let server ← fetch ⟨"/fapi/v1/time", [], none⟩
  let now ← readClock
  match serverTime int server with
  | some ms => pure (ms - now)
  | none => .raise .malformed

/-- The parameters of the calls that read the account. -/
def accountParams (timestamp : Int) : List (String × Param) :=
  [("timestamp", .number timestamp), ("recvWindow", .number 5000)]

/-- The report of a key that can read, before its flags are known. -/
def readOnlyReport : PermissionReport where
  readOk := true
  tradingEnabled := none
  withdrawalsEnabled := none
  spotTradingEnabled := none

def reportOf (restrictions : List (String × Json)) : PermissionReport where
  readOk := true
  tradingEnabled := some (flag restrictions "enableFutures" || flag restrictions "enableMargin")
  withdrawalsEnabled := some (flag restrictions "enableWithdrawals")
  spotTradingEnabled := some (flag restrictions "enableSpotAndMarginTrading")

/-- 1. `/fapi/v3/balance`, required. -/
def fetchBalance (credentials : ApiCredentials) (timeOffsetMs : Int) : Calls Json := do
  let now ← readClock
  fetch (signedRequest credentials "/fapi/v3/balance" (accountParams (now + timeOffsetMs)))

/-- 2. `/sapi/v1/account/apiRestrictions`, whatever it comes to. -/
def tryRestrictions (credentials : ApiCredentials) (timeOffsetMs : Int) :
    Calls (Except HttpError Json) := do
  let now ← readClock
  tryFetch (signedRequest credentials "/sapi/v1/account/apiRestrictions"
    (accountParams (now + timeOffsetMs)))

/-- `except ExchangeError`, and what is made of the body. -/
def readRestrictions : Except HttpError Json → Except HttpError PermissionReport
  | .error e => if isExchangeError e then .ok readOnlyReport else .error e
  | .ok (.obj restrictions) => .ok (reportOf restrictions)
  | .ok _ => .ok readOnlyReport

def verifyCredentials (credentials : ApiCredentials) : Calls PermissionReport := do
  let timeOffsetMs ← computeTimeOffset int
  let _ ← fetchBalance credentials timeOffsetMs
  let restrictions ← tryRestrictions credentials timeOffsetMs
  Prog.ofExcept (readRestrictions restrictions)

/-! ## 3. `_iter_income_pages` -/

open FundingIncome (IncomeOp IncomeItem IncomeRequest)

/-- The query of a page; the signature does not depend on a passphrase. -/
def incomeQuery (request : IncomeRequest) : Request :=
  signedRequest ⟨request.apiKey, request.apiSecret, none⟩ "/fapi/v1/income"
    ([("incomeType", .text request.incomeType), ("startTime", .number request.startTime),
      ("endTime", .number request.endTime), ("limit", .number request.limit),
      ("timestamp", .number request.timestamp), ("recvWindow", .number request.recvWindow)] ++
      (request.symbol.map fun symbol => ("symbol", Param.text symbol)).toList)

/-- An error of the tool is handed to the program; any other ends it. -/
def toolErrors {α : Type} (read : Json → Option α) :
    Except HttpError Json → Calls (Except FundingToolError α)
  | .ok json =>
      match read json with
      | some a => pure (.ok a)
      | none => .raise .malformed
  | .error (.tool e) => pure (.error e)
  | .error e => .raise e

/-- The operations of the income loop as calls. -/
def incomeCall (readItems : Json → Option (List IncomeItem)) : (o : IncomeOp) → Calls o.Resp
  | .serverTime => do
      let server ← tryFetch ⟨"/fapi/v1/time", [], none⟩
      toolErrors (serverTime int) server
  | .localMs => readClock
  | .income request => do
      let batch ← tryFetch (incomeQuery request)
      toolErrors readItems batch

/-- `_iter_income_pages`, with any bound on the number of its requests. -/
def incomeCalls (readItems : Json → Option (List IncomeItem)) (budget : Int → Int → Nat)
    (credentials : ApiCredentials) (start stop timeOffsetMs : Int) (symbol : Option String) :
    Calls (List IncomeRecord) :=
  (FundingIncome.iterIncomePagesWithin budget credentials start stop timeOffsetMs symbol).interpret
    (incomeCall int readItems) .tool

/-! ## 4. Running calls -/

variable {int} {float : String → Option Delay} {client : HttpClient} {wire : Wire}

theorem overHttp_bind {α β : Type} (p : Calls α) (f : α → Calls β) :
    overHttp float client (p >>= f) =
      overHttp float client p >>= fun a => overHttp float client (f a) :=
  Prog.interpret_bind _ _ p f

theorem run_carryOut_getJson (request : Request) (w : World) :
    (carryOut float client (.getJson request)).run perform wire w =
      (((getJson float client request).run perform wire w).1,
        .ok ((getJson float client request).run perform wire w).2) :=
  Prog.run_attempt perform wire (getJson float client request) w

/-- A call inside a `try` returns what the retry loop comes to. -/
theorem run_tryFetch (request : Request) (w : World) :
    (overHttp float client (tryFetch request)).run perform wire w =
      (((getJson float client request).run perform wire w).1,
        .ok ((getJson float client request).run perform wire w).2) :=
  Prog.run_interpret_call (run_carryOut_getJson request w)

/-- The clock is read without delay. -/
theorem run_readClock_bind {α : Type} (f : Int → Calls α) (w : World) :
    (overHttp float client (readClock >>= f)).run perform wire w =
      (overHttp float client (f ⌊w.now * 1000⌋)).run perform wire w := rfl

end FundingTool.Http
