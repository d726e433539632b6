import FundingTool.BinanceUsdm

/-!
# Account history (`core/exchanges/binance_usdm.py`, `fetch_funding_income`)

The window `[start, end)` is cut into seven-day windows; each is read in pages of 1000
through the cursor `last time + 1`, and a record is kept unless its `tran_id` has been
seen.  The exchange is an `IncomeHistory`: finitely many records in ascending order of
time, ties in a fixed order.
-/

namespace FundingTool.FundingIncome

open FundingTool.Interaction FundingTool.CursorPaging

/-! ## 1. What the exchange serves -/

/-- The JSON value under `tranId`. -/
inductive TranId where
  | number (n : Int)
  | text (s : String)
deriving DecidableEq, Repr

/-- `str(item["tranId"])` -/
def TranId.str : TranId → String
  | .number n => toString n
  | .text s => s

/-- An item of `/fapi/v1/income`. -/
structure IncomeItem where
  time : Int
  symbol : Option String
  income : Decimal
  tranId : TranId
deriving DecidableEq, Repr

/-- The funding-fee records of an account.  Ids are distinct as they print: the exchange
    sends either numbers or texts. -/
structure IncomeHistory where
  items : List IncomeItem
  ascending : Ascending IncomeItem.time items
  distinct : (items.map fun item => item.tranId.str).Nodup

/-- The records of one symbol, or all of them. -/
def IncomeHistory.select (history : IncomeHistory) (symbol : Option String) : List IncomeItem :=
  history.items.filter fun item => decide (symbol = none ∨ item.symbol = symbol)

/-! ## 2. Operations -/

/-- A signed request.  The signature is determined by the parameters and the secret. -/
structure IncomeRequest where
  apiKey : String
  apiSecret : String
  incomeType : String
  startTime : Int
  endTime : Int
  limit : Nat
  timestamp : Int
  recvWindow : Nat
  symbol : Option String
deriving DecidableEq, Repr

inductive IncomeOp where
  /-- `/fapi/v1/time` -/
  | serverTime
  /-- `int(datetime.now(UTC).timestamp() * 1000)` -/
  | localMs
  | income (request : IncomeRequest)

def IncomeOp.Resp : IncomeOp → Type
  | .serverTime => Except FundingToolError Int
  | .localMs => Int
  | .income _ => Except FundingToolError (List IncomeItem)

abbrev Income := Prog IncomeOp IncomeOp.Resp FundingToolError

def getServerTime : Income Int := .call .serverTime fun r => Prog.ofExcept r

def localMs : Income Int := .call .localMs fun r => .ret r

def getIncome (request : IncomeRequest) : Income (List IncomeItem) :=
  .call (.income request) fun r => Prog.ofExcept r

/-! ## 3. One window -/

def computeTimeOffset : Income Int := do
  let server ← getServerTime
  let localTime ← localMs
  pure (server - localTime)

/-- The request for the page at a cursor. -/
def incomePage (credentials : ApiCredentials) (endMs timeOffsetMs : Int)
    (symbol : Option String) (cursorMs : Int) : Income (List IncomeItem) := do
  let now ← localMs
  getIncome
    { apiKey := credentials.apiKey
      apiSecret := credentials.apiSecret
      incomeType := "FUNDING_FEE"
      startTime := cursorMs
      endTime := endMs
      limit := 1000
      timestamp := now + timeOffsetMs
      recvWindow := 5000
      symbol := symbol }

def toRecord (item : IncomeItem) : IncomeRecord where
  timestamp := fromMs item.time
  symbol := item.symbol.getD ""
  amountUsdt := item.income
  tranId := item.tranId.str

def iterIncomePages (credentials : ApiCredentials) (start stop timeOffsetMs : Int)
    (symbol : Option String) : Income (List IncomeRecord) := do
  let items ← pages (incomePage credentials (toMs stop) timeOffsetMs symbol) IncomeItem.time 1000
    (fun _ => true) .unbounded (BinanceUsdm.pageBudget start stop) (toMs start)
  pure (items.map toRecord)

/-! ## 4. All windows -/

/-- `timedelta(days=7)` -/
def sevenDays : Int := hours 168

/-- The body of the inner loop: `records` and `seen_tran_ids` after one more record. -/
def addRecord (acc : List IncomeRecord × List String) (rec : IncomeRecord) :
    List IncomeRecord × List String :=
  if rec.tranId ∈ acc.2 then acc else (acc.1 ++ [rec], rec.tranId :: acc.2)

/-- The loop over the windows. -/
def incomeWindows (credentials : ApiCredentials) (timeOffsetMs stop : Int)
    (symbol : Option String) :
    Nat → Int → List IncomeRecord × List String → Income (List IncomeRecord)
  | 0, windowStart, acc => if windowStart < stop then .raise .unbounded else pure acc.1
  | fuel + 1, windowStart, acc =>
      if windowStart < stop then do
        let windowEnd := min (windowStart + sevenDays) stop
        let recs ← iterIncomePages credentials windowStart windowEnd timeOffsetMs symbol
        incomeWindows credentials timeOffsetMs stop symbol fuel windowEnd
          (recs.foldl addRecord acc)
      else pure acc.1

/-- Windows enough for a range. -/
def windowBudget (start stop : Int) : Nat := ((stop - start) / sevenDays).toNat + 1

/-- `records.sort(key=lambda r: r.timestamp)` -/
def sortRecords (records : List IncomeRecord) : List IncomeRecord :=
  records.insertionSort fun a b => a.timestamp ≤ b.timestamp

def fetchFundingIncome (credentials : ApiCredentials) (start stop : Int)
    (symbol : Option String) : Income (List IncomeRecord) := do
  let timeOffsetMs ← computeTimeOffset
  let records ← incomeWindows credentials timeOffsetMs stop symbol (windowBudget start stop) start
    ([], [])
  pure (sortRecords records)

/-! ## 5. Performing an operation -/

/-- The clocks of a run: the server's, and the local one at its successive readings. -/
structure Clocks where
  serverTime : Int
  localTime : Nat → Int

/-- The exchange answers from its history; the state counts readings of the local clock. -/
def perform (history : IncomeHistory) : (o : IncomeOp) → Clocks → Nat → Nat × o.Resp
  | .serverTime, clocks, n => (n, .ok clocks.serverTime)
  | .localMs, clocks, n => (n + 1, clocks.localTime n)
  | .income request, _, n =>
      (n, .ok (answer IncomeItem.time request.limit (history.select request.symbol)
        request.startTime request.endTime))

end FundingTool.FundingIncome
