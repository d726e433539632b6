import FundingTool.CursorPaging
import FundingTool.RateCache
import Mathlib.Order.Bounds.Basic

/-!
# Funding rates of the exchange (`core/exchanges/binance_usdm.py`)

`fetch_funding_rates` and the functions it calls, as interaction programs.  What a call
asks of its surroundings are the HTTP requests, the in-memory interval cache and the
SQLite cache; every such operation is one step, and everything between two of them is
pure.  `put` commits row by row, since the connection is in autocommit mode.

The exchange is a `Market`: a fixed history per symbol, served in pages.  A request may
also fail with any error of the HTTP client.
-/

namespace FundingTool.BinanceUsdm

open FundingTool.Interaction FundingTool.CursorPaging

/-! ## 1. What the exchange serves -/

/-- One entry of `symbols` in `/fapi/v1/exchangeInfo`, as far as `_get_interval` reads it. -/
structure SymbolInfo where
  symbol : Option String
  fundingIntervalHours : Option Int
deriving DecidableEq, Repr

/-- The body of `/fapi/v1/exchangeInfo`: the list under `symbols` when the body is an
    object, each entry an object or something else. -/
abbrev ExchangeInfo := Option (List (Option SymbolInfo))

/-- A row of `/fapi/v1/fundingRate`. -/
structure RateRow where
  fundingTime : Int
  fundingRate : Decimal
deriving DecidableEq, Repr

/-- A row of `/fapi/v1/markPriceKlines`: `row[0]` and `row[1]`. -/
structure Kline where
  openTime : Int
  openPrice : Decimal
deriving DecidableEq, Repr

/-- The loop of `_get_interval` over the symbols of an answer. -/
def intervalIn (symbol : String) : List (Option SymbolInfo) → Option Int
  | [] => none
  | none :: rest => intervalIn symbol rest
  | some entry :: rest =>
      if entry.symbol = some symbol then some (entry.fundingIntervalHours.getD 8)
      else intervalIn symbol rest

/-- The interval the exchange reports for a symbol. -/
def reportedInterval (info : ExchangeInfo) (symbol : String) : Option Int :=
  intervalIn symbol (info.getD [])

/-- A fixed exchange history.  Times are distinct and rows are kept in ascending order;
    a reported interval is a positive number of hours. -/
structure Market where
  info : ExchangeInfo
  rates : String → List RateRow
  klines : String → Int → List Kline
  rates_ascending : ∀ symbol, StrictlyAscending RateRow.fundingTime (rates symbol)
  klines_ascending : ∀ symbol interval,
    StrictlyAscending Kline.openTime (klines symbol interval)
  interval_pos : ∀ symbol interval, reportedInterval info symbol = some interval →
    0 < interval

/-- The market of one listed symbol. -/
def Market.single (listed : String) (interval : Int) (history : List RateRow)
    (series : List Kline) (hrates : StrictlyAscending RateRow.fundingTime history)
    (hklines : StrictlyAscending Kline.openTime series) (hpos : 0 < interval) : Market where
  info := some [some ⟨some listed, some interval⟩]
  rates symbol := if symbol = listed then history else []
  klines symbol h := if symbol = listed ∧ h = interval then series else []
  rates_ascending symbol := by
    by_cases h : symbol = listed
    · rw [if_pos h]; exact hrates
    · rw [if_neg h]; exact List.Pairwise.nil
  klines_ascending symbol h := by
    by_cases h' : symbol = listed ∧ h = interval
    · rw [if_pos h']; exact hklines
    · rw [if_neg h']; exact List.Pairwise.nil
  interval_pos symbol h hreported := by
    by_cases h' : listed = symbol
    · simp only [reportedInterval, Option.getD_some, intervalIn, h', if_true,
        Option.some.injEq] at hreported
      omega
    · simp only [reportedInterval, Option.getD_some, intervalIn, Option.some.injEq, h', if_false,
        reduceCtorEq] at hreported

theorem eightHours_pos : (0 : Int) < 8 := by decide

/-! ## 2. Operations -/

inductive FetchOp where
  /-- `self._interval_cache.get(symbol)` -/
  | intervalCached (symbol : String)
  /-- `self._interval_cache[symbol] = interval` -/
  | cacheInterval (symbol : String) (interval : Int)
  | exchangeInfo
  | fundingRate (symbol : String) (startTime endTime : Int) (limit : Nat)
  | markPriceKlines (symbol : String) (interval startTime endTime : Int) (limit : Nat)
  | cacheGet (exchange symbol : String) (start stop : Int)
  /-- One row of `put`. -/
  | cacheInsert (exchange symbol : String) (event : FundingEvent)
  | cacheClear (symbol : Option String)

def FetchOp.Resp : FetchOp → Type
  | .intervalCached _ => Option Int
  | .cacheInterval _ _ => Unit
  | .exchangeInfo => Except FundingToolError ExchangeInfo
  | .fundingRate .. => Except FundingToolError (List RateRow)
  | .markPriceKlines .. => Except FundingToolError (List Kline)
  | .cacheGet .. => List FundingEvent
  | .cacheInsert .. => Unit
  | .cacheClear _ => Nat

/-- The operations that wait for the network; a call can be cancelled at these only. -/
def FetchOp.isRequest : FetchOp → Bool
  | .exchangeInfo | .fundingRate .. | .markPriceKlines .. => true
  | _ => false

abbrev Fetch := Prog FetchOp FetchOp.Resp FundingToolError

def intervalCached (symbol : String) : Fetch (Option Int) :=
  .call (.intervalCached symbol) fun r => .ret r

def cacheInterval (symbol : String) (interval : Int) : Fetch Unit :=
  .call (.cacheInterval symbol interval) fun r => .ret r

def getExchangeInfo : Fetch ExchangeInfo := .call .exchangeInfo fun r => Prog.ofExcept r

def getFundingRate (symbol : String) (startTime endTime : Int) (limit : Nat) :
    Fetch (List RateRow) :=
  .call (.fundingRate symbol startTime endTime limit) fun r => Prog.ofExcept r

def getMarkPriceKlines (symbol : String) (interval startTime endTime : Int) (limit : Nat) :
    Fetch (List Kline) :=
  .call (.markPriceKlines symbol interval startTime endTime limit) fun r => Prog.ofExcept r

def cacheGet (exchange symbol : String) (start stop : Int) : Fetch (List FundingEvent) :=
  .call (.cacheGet exchange symbol start stop) fun r => .ret r

/-- `SqliteFundingRateCache.put`: the rows in order, one statement each. -/
def put (exchange symbol : String) : List FundingEvent → Fetch Unit
  | [] => pure ()
  | event :: rest => .call (.cacheInsert exchange symbol event) fun _ => put exchange symbol rest

/-- `SqliteFundingRateCache.missing_ranges` -/
def missingRanges (exchange symbol : String) (start stop : Int) : Fetch (List (Int × Int)) := do
  let cached ← cacheGet exchange symbol start stop
  pure (RateTable.gapsOf start stop cached)

/-! ## 3. `_get_interval` and the two page loops -/

/-- `BinanceUsdmExchange.name` -/
def exchangeName : String := "binance_usdm"

def getInterval (symbol : String) : Fetch Int := do
  match ← intervalCached symbol with
  | some interval => pure interval
  | none => do
      let info ← getExchangeInfo
      match intervalIn symbol (info.getD []) with
      | some interval => do
          cacheInterval symbol interval
          pure interval
      | none => .raise (.unknownSymbol symbol)

/-- Requests enough for a page at every millisecond of a range. -/
def pageBudget (start stop : Int) : Nat := (toMs stop + 1 - toMs start).toNat + 1

def fetchRatePages (symbol : String) (start stop : Int) : Fetch (List RateRow) :=
  pages (fun cursorMs => getFundingRate symbol cursorMs (toMs stop) 1000)
    RateRow.fundingTime 1000 (fun cursorMs => decide (cursorMs ≤ toMs stop)) .unbounded
    (pageBudget start stop) (toMs start)

/-- `result[int(row[0])] = Decimal(str(row[1]))` for the rows of every page. -/
def klineDict (rows : List Kline) : OrderedDict Int Decimal :=
  rows.foldl (fun result row => result.set row.openTime row.openPrice) OrderedDict.empty

def fetchKlines (symbol : String) (start stop intervalH : Int) :
    Fetch (OrderedDict Int Decimal) := do
  let rows ← pages (fun cursorMs => getMarkPriceKlines symbol intervalH cursorMs (toMs stop) 1500)
    Kline.openTime 1500 (fun cursorMs => decide (cursorMs ≤ toMs stop)) .unbounded
    (pageBudget start stop) (toMs start)
  pure (klineDict rows)

/-! ## 4. `_merge` -/

/-- `bisect.bisect_right(a, x)` on a sorted list. -/
def bisectRight (a : List Int) (x : Int) : Nat := (a.takeWhile fun t => decide (t ≤ x)).length

/-- The mark price `_merge` joins to a funding time. -/
def markAt (klines : OrderedDict Int Decimal) (toleranceMs ft : Int) : Option Decimal :=
  match klines.get? ft with
  | some mark => some mark
  | none =>
      let klineTimes := klines.keys.insertionSort (· ≤ ·)
      match bisectRight klineTimes ft with
      | 0 => none
      | idx + 1 =>
          match klineTimes[idx]? with
          | some t => if ft - t ≤ toleranceMs then klines.get? t else none
          | none => none

def eventOf (symbol : String) (intervalH : Int) (r : RateRow) (mark : Decimal) :
    FundingEvent where
  timestamp := fromMs r.fundingTime
  symbol := symbol
  rate := r.fundingRate
  markPrice := mark
  intervalHours := intervalH

def merge (symbol : String) (klines : OrderedDict Int Decimal) (intervalH : Int) :
    List RateRow → Except FundingToolError (List FundingEvent)
  | [] => .ok []
  | r :: rest =>
      match markAt klines (intervalH * 3600000) r.fundingTime with
      | none => .error (.missingMarkPrice (fromMs r.fundingTime) symbol)
      | some mark =>
          match merge symbol klines intervalH rest with
          | .error e => .error e
          | .ok events => .ok (eventOf symbol intervalH r mark :: events)

/-! ## 5. `fetch_funding_rates` -/

/-- The body of the loop over the gaps. -/
def fillGap (symbol : String) (interval : Int) (gap : Int × Int) : Fetch Unit := do
  let rates ← fetchRatePages symbol gap.1 gap.2
  if rates.isEmpty then pure ()
  else do
    let klines ← fetchKlines symbol gap.1 gap.2 interval
    let events ← Prog.ofExcept (merge symbol klines interval rates)
    put exchangeName symbol events

def fillGaps (symbol : String) (interval : Int) : List (Int × Int) → Fetch Unit
  | [] => pure ()
  | gap :: rest => do
      fillGap symbol interval gap
      fillGaps symbol interval rest

def fetchFundingRates (symbol : String) (start stop : Int) : Fetch (List FundingEvent) := do
  let interval ← getInterval symbol
  let gaps ← missingRanges exchangeName symbol start stop
  fillGaps symbol interval gaps
  cacheGet exchangeName symbol start stop

/-- `cache clear` -/
def clearCache (symbol : Option String) : Fetch Nat := .call (.cacheClear symbol) fun r => .ret r

/-! ## 6. Performing an operation -/

/-- The exchange object's interval cache and the cache file. -/
structure FetchState where
  intervalCache : OrderedDict String Int
  table : RateTable

def FetchState.empty : FetchState := ⟨OrderedDict.empty, OrderedDict.empty⟩

/-- An operation on the caches, or a request that the exchange answers from its history
    unless `fault` says with which error it fails. -/
def perform (m : Market) : (o : FetchOp) → (fault : Option FundingToolError) → FetchState →
    FetchState × o.Resp
  | .intervalCached symbol, _, s => (s, s.intervalCache.get? symbol)
  | .cacheInterval symbol interval, _, s =>
      ({ s with intervalCache := s.intervalCache.set symbol interval }, ())
  | .exchangeInfo, none, s => (s, .ok m.info)
  | .fundingRate symbol startTime endTime limit, none, s =>
      (s, .ok (answer RateRow.fundingTime limit (m.rates symbol) startTime endTime))
  | .markPriceKlines symbol interval startTime endTime limit, none, s =>
      (s, .ok (answer Kline.openTime limit (m.klines symbol interval) startTime endTime))
  | .exchangeInfo, some e, s => (s, .error e)
  | .fundingRate .., some e, s => (s, .error e)
  | .markPriceKlines .., some e, s => (s, .error e)
  | .cacheGet exchange symbol start stop, _, s => (s, s.table.get exchange symbol start stop)
  | .cacheInsert exchange symbol event, _, s =>
      ({ s with table := s.table.insertOrReplace exchange symbol event }, ())
  | .cacheClear symbol, _, s =>
      ({ s with table := s.table.clear symbol }, s.table.clearCount symbol)

/-- A call running alone against an exchange that answers every request. -/
abbrev runAlone (m : Market) (p : Fetch α) (s : FetchState) :
    FetchState × Except FundingToolError α :=
  p.run (perform m) none s

end FundingTool.BinanceUsdm
