import FundingTool.FetchSpecs
import FundingTool.FundingIncomeDelivery
import FundingTool.PagingRequests

/-!
# The three page loops (`core/exchanges/binance_usdm.py`)

`_fetch_rate_pages`, `_fetch_klines` and `_iter_income_pages` over any budget of requests; the
loops of the source have none, and are those of all budgets together.

Over an exchange that answers from a history, the first two end and return exactly what lies in
their range (`pages_exact`).  Over an exchange that may answer anything, they ask for nothing
past the end of the range, but a full page whose last row is earlier than the cursor takes them
back, and they may go on for ever (`repeated_page_asks_forever`).
-/

namespace FundingTool.PageLoops

open FundingTool.Interaction FundingTool.CursorPaging FundingTool.BinanceUsdm
open FundingTool.FundingIncome (IncomeOp IncomeItem)

/-! ## 1. The loops -/

def fetchRatePagesWithin (budget : Nat) (symbol : String) (start stop : Int) :
    Fetch (List RateRow) :=
  pages (fun cursorMs => getFundingRate symbol cursorMs (toMs stop) 1000)
    RateRow.fundingTime 1000 (fun cursorMs => decide (cursorMs ≤ toMs stop)) .unbounded
    budget (toMs start)

def fetchKlinesWithin (budget : Nat) (symbol : String) (start stop intervalH : Int) :
    Fetch (OrderedDict Int Decimal) := do
  let rows ← pages (fun cursorMs => getMarkPriceKlines symbol intervalH cursorMs (toMs stop) 1500)
    Kline.openTime 1500 (fun cursorMs => decide (cursorMs ≤ toMs stop)) .unbounded
    budget (toMs start)
  pure (klineDict rows)

/-- The loops of the model are those of one budget. -/
theorem within_pageBudget (symbol : String) (start stop intervalH : Int) :
    fetchRatePages symbol start stop =
        fetchRatePagesWithin (pageBudget start stop) symbol start stop ∧
      fetchKlines symbol start stop intervalH =
        fetchKlinesWithin (pageBudget start stop) symbol start stop intervalH :=
  ⟨rfl, rfl⟩

/-! ## 2. Over a history -/

section

variable (m : Market) (symbol : String) (intervalH start stop : Int)

theorem budget_enough (extra : Nat) :
    (toMs stop + 1 - toMs start).toNat < pageBudget start stop + extra :=
  Nat.lt_add_right extra (pageBudget_enough start stop)

/-- **Cursor pagination is exact.**  With the budget of the model or any larger one, the loops
    return; the rates are the rows of the closed range in their order, and the klines the map
    of the times in the range to the prices.  The bounds of the range are exact milliseconds,
    as those of the source are from November 2004 to January 2038 (`TimeUtil`). -/
theorem pages_exact (extra : Nat) (s : FetchState) :
    runAlone m (fetchRatePagesWithin (pageBudget start stop + extra) symbol start stop) s =
        (s, .ok ((m.rates symbol).filter fun r =>
          decide (toMs start ≤ r.fundingTime ∧ r.fundingTime ≤ toMs stop))) ∧
      ∃ klines, runAlone m
          (fetchKlinesWithin (pageBudget start stop + extra) symbol start stop intervalH) s =
            (s, .ok klines) ∧
        ∀ t price, klines.get? t = some price ↔
          ∃ k ∈ m.klines symbol intervalH, (toMs start ≤ k.openTime ∧ k.openTime ≤ toMs stop) ∧
            k.openTime = t ∧ k.openPrice = price := by
  constructor
  · exact run_pages_still (fun _ => rfl) (collect_eq_window (m.rates_ascending symbol) (by decide)
      (fun _ h => by simpa using h) (budget_enough start stop extra))
  · have hrun := @run_pages_still _ _ FundingToolError _ _ _
      (fun cursorMs => getMarkPriceKlines symbol intervalH cursorMs (toMs stop) 1500) _
      Kline.openTime 1500 (fun cursorMs => decide (cursorMs ≤ toMs stop)) .unbounded
      (BinanceUsdm.perform m) none s (fun _ => rfl) _ _ _
      (collect_eq_window (m.klines_ascending symbol intervalH) (by decide)
        (fun _ h => by simpa using h) (budget_enough start stop extra))
    refine ⟨klineDict (klinesIn m symbol intervalH start stop), ?_, ?_⟩
    · rw [runAlone, fetchKlinesWithin, Prog.run_bind_ok hrun]
      rfl
    · intro t price
      have hasc := (m.klines_ascending symbol intervalH).window (toMs start) (toMs stop)
      rw [klinesIn, klineDict_get? hasc]
      simp only [mem_window, and_assoc]

end

/-! ## 3. What is asked of the exchange -/

/-- The `startTime` of a request for a page. -/
def startTime : FetchOp → Option Int
  | .fundingRate _ startTime _ _ => some startTime
  | .markPriceKlines _ _ startTime _ _ => some startTime
  | _ => none

def incomeStartTime : IncomeOp → Option Int
  | .income request => some request.startTime
  | _ => none

section

variable (server : Source FetchOp FetchOp.Resp) (symbol : String) (intervalH start stop : Int)
  (budget : Nat)

/-- The cursors `_fetch_rate_pages` sends within a budget of requests. -/
def rateCursors : List Int :=
  ((fetchRatePagesWithin budget symbol start stop).run (ask server) () []).1.filterMap startTime

/-- The cursors `_fetch_klines` sends. -/
def klineCursors : List Int :=
  ((fetchKlinesWithin budget symbol start stop intervalH).run (ask server) () []).1.filterMap
    startTime

end

/-- The cursors `_iter_income_pages` sends. -/
def incomeCursors (server : Source IncomeOp IncomeOp.Resp) (credentials : ApiCredentials)
    (start stop timeOffsetMs : Int) (symbol : Option String) (budget : Nat) : List Int :=
  ((FundingIncome.iterIncomePagesWithin (fun _ _ => budget) credentials start stop timeOffsetMs
    symbol).run (ask server) () []).1.filterMap incomeStartTime

/-- Every iteration that goes on increases the cursor. -/
def Progresses (cursors : Nat → List Int) : Prop :=
  ∀ budget, (cursors budget).Pairwise (· < ·)

/-- No more requests than these, whatever the budget. -/
def AtMost (n : Nat) (cursors : Nat → List Int) : Prop :=
  ∀ budget, (cursors budget).length ≤ n

/-- Nothing is asked for past the end of the window. -/
def StopsAfter (endMs : Int) (cursors : Nat → List Int) : Prop :=
  ∀ budget, ∀ cursor ∈ cursors budget, cursor ≤ endMs

/-- A full page ends no earlier than the `startTime` asked for. -/
structure HonoursStart (server : Source FetchOp FetchOp.Resp) : Prop where
  rates : ∀ sent symbol startTime endTime limit batch last,
    server sent (.fundingRate symbol startTime endTime limit) = .ok batch →
    batch.getLast? = some last → limit ≤ batch.length → startTime ≤ last.fundingTime
  klines : ∀ sent symbol interval startTime endTime limit batch last,
    server sent (.markPriceKlines symbol interval startTime endTime limit) = .ok batch →
    batch.getLast? = some last → limit ≤ batch.length → startTime ≤ last.openTime

/-- A full page ends between the `startTime` and the `endTime` asked for. -/
def HonoursRange (server : Source IncomeOp IncomeOp.Resp) : Prop :=
  ∀ sent request batch last, server sent (.income request) = .ok batch →
    batch.getLast? = some last → request.limit ≤ batch.length →
    request.startTime ≤ last.time ∧ last.time ≤ request.endTime

/-! ## 4. One page -/

section

variable (server : Source FetchOp FetchOp.Resp) (symbol : String) (intervalH endMs : Int)
  (sent : List FetchOp) (cursorMs : Int)

/-- The page of rates at a cursor, and what has been asked by then. -/
def ratePage : List FetchOp × Except FundingToolError (List RateRow) :=
  ask server (.fundingRate symbol cursorMs endMs 1000) () sent

def klinePage : List FetchOp × Except FundingToolError (List Kline) :=
  ask server (.markPriceKlines symbol intervalH cursorMs endMs 1500) () sent

theorem run_getFundingRate :
    (getFundingRate symbol cursorMs endMs 1000).run (ask server) () sent =
      ratePage server symbol endMs sent cursorMs := by
  rw [getFundingRate, Prog.run_call]
  exact Prog.run_ofExcept _ _ _ _

theorem run_getMarkPriceKlines :
    (getMarkPriceKlines symbol intervalH cursorMs endMs 1500).run (ask server) () sent =
      klinePage server symbol intervalH endMs sent cursorMs := by
  rw [getMarkPriceKlines, Prog.run_call]
  exact Prog.run_ofExcept _ _ _ _

end

section

variable (server : Source IncomeOp IncomeOp.Resp) (credentials : ApiCredentials)
  (endMs timeOffsetMs : Int) (symbol : Option String) (sent : List IncomeOp) (cursorMs : Int)

/-- The request for the page at a cursor, once the clock has been read. -/
def incomeRequest : FundingIncome.IncomeRequest where
  apiKey := credentials.apiKey
  apiSecret := credentials.apiSecret
  incomeType := "FUNDING_FEE"
  startTime := cursorMs
  endTime := endMs
  limit := 1000
  timestamp := (show Int from server sent .localMs) + timeOffsetMs
  recvWindow := 5000
  symbol := symbol

def incomePage : List IncomeOp × Except FundingToolError (List IncomeItem) :=
  ask server (.income (incomeRequest server credentials endMs timeOffsetMs symbol sent cursorMs))
    () (sent ++ [.localMs])

theorem run_incomePage :
    (FundingIncome.incomePage credentials endMs timeOffsetMs symbol cursorMs).run (ask server) ()
        sent =
      incomePage server credentials endMs timeOffsetMs symbol sent cursorMs := by
  have hread : (FundingIncome.incomePage credentials endMs timeOffsetMs symbol cursorMs).run
        (ask server) () sent =
      (FundingIncome.getIncome (incomeRequest server credentials endMs timeOffsetMs symbol sent
        cursorMs)).run (ask server) () (sent ++ [.localMs]) := rfl
  rw [hread, FundingIncome.getIncome, Prog.run_call]
  exact Prog.run_ofExcept _ _ _ _

end

/-! ## 5. The cursors are those of the loops -/

theorem rateCursors_eq (server : Source FetchOp FetchOp.Resp) (symbol : String)
    (start stop : Int) (budget : Nat) :
    rateCursors server symbol start stop budget =
      asked (ratePage server symbol (toMs stop)) RateRow.fundingTime 1000
        (fun cursorMs => decide (cursorMs ≤ toMs stop)) budget (toMs start) [] := by
  refine run_pages_asked ?_ ?_ budget (toMs start) []
  · intro cursor sent
    exact run_getFundingRate server symbol (toMs stop) sent cursor
  · intro cursor sent
    exact List.filterMap_append

theorem klineCursors_eq (server : Source FetchOp FetchOp.Resp) (symbol : String)
    (intervalH start stop : Int) (budget : Nat) :
    klineCursors server symbol intervalH start stop budget =
      asked (klinePage server symbol intervalH (toMs stop)) Kline.openTime 1500
        (fun cursorMs => decide (cursorMs ≤ toMs stop)) budget (toMs start) [] := by
  rw [klineCursors, fetchKlinesWithin, Prog.run_bind_pure]
  refine run_pages_asked ?_ ?_ budget (toMs start) []
  · intro cursor sent
    exact run_getMarkPriceKlines server symbol intervalH (toMs stop) sent cursor
  · intro cursor sent
    exact List.filterMap_append

theorem incomeCursors_eq (server : Source IncomeOp IncomeOp.Resp) (credentials : ApiCredentials)
    (start stop timeOffsetMs : Int) (symbol : Option String) (budget : Nat) :
    incomeCursors server credentials start stop timeOffsetMs symbol budget =
      asked (incomePage server credentials (toMs stop) timeOffsetMs symbol) IncomeItem.time 1000
        (fun _ => true) budget (toMs start) [] := by
  rw [incomeCursors, FundingIncome.iterIncomePagesWithin, Prog.run_bind_pure]
  refine run_pages_asked ?_ ?_ budget (toMs start) []
  · intro cursor sent
    exact run_incomePage server credentials (toMs stop) timeOffsetMs symbol sent cursor
  · intro cursor sent
    rw [incomePage, ask, List.filterMap_append, List.filterMap_append]
    exact congrArg (· ++ _) (List.append_nil _)

/-! ## 6. Any answers -/

section

variable {Err σ ρ : Type} {page : σ → Int → σ × Except Err (List ρ)} {time : ρ → Int}
  {limit : Nat} {more : Int → Bool} {cursors : Nat → List Int} {startMs endMs : Int} {s : σ}

theorem progresses_of_advances
    (hcursors : ∀ budget, cursors budget = asked page time limit more budget startMs s)
    (hadvances : Advances page time limit) : Progresses cursors := by
  intro budget
  rw [hcursors]
  exact (asked_ascending hadvances more budget startMs s).1

/-- The test of a loop over a window. -/
theorem stopsAfter_of_window
    (hcursors : ∀ budget, cursors budget =
      asked page time limit (fun cursorMs => decide (cursorMs ≤ endMs)) budget startMs s) :
    StopsAfter endMs cursors := by
  intro budget cursor hcursor
  rw [hcursors] at hcursor
  exact of_decide_eq_true (more_of_mem_asked cursor hcursor)

theorem atMost_of_window
    (hcursors : ∀ budget, cursors budget =
      asked page time limit (fun cursorMs => decide (cursorMs ≤ endMs)) budget startMs s)
    (hadvances : Advances page time limit) :
    AtMost (endMs + 1 - startMs).toNat cursors := by
  intro budget
  rw [hcursors]
  exact asked_length_le hadvances (fun _ hmore => of_decide_eq_true hmore) budget startMs s

end

section

variable (server : Source FetchOp FetchOp.Resp) (symbol : String) (intervalH start stop : Int)

theorem rates_stop : StopsAfter (toMs stop) (rateCursors server symbol start stop) :=
  stopsAfter_of_window (rateCursors_eq server symbol start stop)

theorem klines_stop :
    StopsAfter (toMs stop) (klineCursors server symbol intervalH start stop) :=
  stopsAfter_of_window (klineCursors_eq server symbol intervalH start stop)

variable {server} (h : HonoursStart server)

include h

theorem advances_rates (endMs : Int) :
    Advances (ratePage server symbol endMs) RateRow.fundingTime 1000 := by
  intro sent cursor next hnext
  obtain ⟨batch, last, hanswer, hlast, hfull, rfl⟩ := nextCursor_eq_some_iff.mp hnext
  exact Int.lt_add_one_of_le (h.rates _ _ _ _ _ _ _ hanswer hlast hfull)

theorem advances_klines (endMs : Int) :
    Advances (klinePage server symbol intervalH endMs) Kline.openTime 1500 := by
  intro sent cursor next hnext
  obtain ⟨batch, last, hanswer, hlast, hfull, rfl⟩ := nextCursor_eq_some_iff.mp hnext
  exact Int.lt_add_one_of_le (h.klines _ _ _ _ _ _ _ _ hanswer hlast hfull)

theorem rates_end : Progresses (rateCursors server symbol start stop) ∧
    AtMost (toMs stop + 1 - toMs start).toNat (rateCursors server symbol start stop) := by
  have hcursors := rateCursors_eq server symbol start stop
  have hadvances := advances_rates symbol h (toMs stop)
  exact ⟨progresses_of_advances hcursors hadvances, atMost_of_window hcursors hadvances⟩

theorem klines_end : Progresses (klineCursors server symbol intervalH start stop) ∧
    AtMost (toMs stop + 1 - toMs start).toNat
      (klineCursors server symbol intervalH start stop) := by
  have hcursors := klineCursors_eq server symbol intervalH start stop
  have hadvances := advances_klines symbol intervalH h (toMs stop)
  exact ⟨progresses_of_advances hcursors hadvances, atMost_of_window hcursors hadvances⟩

end

section

variable {server : Source IncomeOp IncomeOp.Resp} (h : HonoursRange server)
  (credentials : ApiCredentials) (start stop timeOffsetMs : Int) (symbol : Option String)

include h

/-- A full page of the income leads forward, and no further than behind the window. -/
theorem income_next {endMs : Int} {sent : List IncomeOp} {cursor next : Int}
    (hnext : nextCursor IncomeItem.time 1000
      (incomePage server credentials endMs timeOffsetMs symbol sent cursor).2 = some next) :
    cursor < next ∧ next ≤ endMs + 1 := by
  obtain ⟨batch, last, hanswer, hlast, hfull, rfl⟩ := nextCursor_eq_some_iff.mp hnext
  obtain ⟨hlow, hhigh⟩ := h _ _ batch last hanswer hlast hfull
  exact ⟨Int.lt_add_one_of_le hlow, Int.add_le_add_right hhigh 1⟩

theorem income_ends :
    Progresses (incomeCursors server credentials start stop timeOffsetMs symbol) ∧
      AtMost ((toMs stop + 1 - toMs start).toNat + 1)
        (incomeCursors server credentials start stop timeOffsetMs symbol) := by
  have hadvances : Advances (incomePage server credentials (toMs stop) timeOffsetMs symbol)
      IncomeItem.time 1000 :=
    fun _ _ _ hnext => (income_next h credentials timeOffsetMs symbol hnext).1
  constructor
  · exact progresses_of_advances
      (incomeCursors_eq server credentials start stop timeOffsetMs symbol) hadvances
  · intro budget
    rw [incomeCursors_eq]
    exact asked_length_le_succ hadvances
      (fun _ _ _ hnext => (income_next h credentials timeOffsetMs symbol hnext).2) budget _ _

end

/-- **The page loops against any server.**  `_fetch_rate_pages` and `_fetch_klines` ask for
    nothing past the end of the window; and where no full page ends before the `startTime` asked
    for, nor, for the income, after the `endTime`, every iteration that goes on increases the
    cursor, and each loop asks once for every millisecond of the window at most.  These are
    exact, as those of the source are from November 2004 to January 2038 (`TimeUtil`). -/
theorem page_loops_end (symbol : String) (intervalH start stop : Int)
    (credentials : ApiCredentials) (timeOffsetMs : Int) (filter : Option String) :
    (∀ server : Source FetchOp FetchOp.Resp,
      StopsAfter (toMs stop) (rateCursors server symbol start stop) ∧
      StopsAfter (toMs stop) (klineCursors server symbol intervalH start stop) ∧
      (HonoursStart server →
        (Progresses (rateCursors server symbol start stop) ∧
          AtMost (toMs stop + 1 - toMs start).toNat (rateCursors server symbol start stop)) ∧
        Progresses (klineCursors server symbol intervalH start stop) ∧
          AtMost (toMs stop + 1 - toMs start).toNat
            (klineCursors server symbol intervalH start stop))) ∧
    (∀ server : Source IncomeOp IncomeOp.Resp, HonoursRange server →
      Progresses (incomeCursors server credentials start stop timeOffsetMs filter) ∧
      AtMost ((toMs stop + 1 - toMs start).toNat + 1)
        (incomeCursors server credentials start stop timeOffsetMs filter)) := by
  constructor
  · intro server
    refine ⟨rates_stop server symbol start stop, klines_stop server symbol intervalH start stop, ?_⟩
    intro h
    exact ⟨rates_end symbol start stop h, klines_end symbol intervalH start stop h⟩
  · intro server h
    exact income_ends h credentials start stop timeOffsetMs filter

/-! ## 7. Servers -/

/-- The exchange that answers from a history. -/
def marketServer (m : Market) : Source FetchOp FetchOp.Resp :=
  fun _ o => (BinanceUsdm.perform m o none FetchState.empty).2

/-- The last row of a page lies in the range asked for. -/
theorem last_of_answer {ρ : Type} {time : ρ → Int} {limit : Nat} {rows : List ρ} {lo hi : Int}
    {last : ρ} (h : (answer time limit rows lo hi).getLast? = some last) :
    lo ≤ time last ∧ time last ≤ hi := by
  have hmem : last ∈ answer time limit rows lo hi := List.mem_of_getLast? h
  exact (mem_window.mp (List.mem_of_mem_take hmem)).2

theorem marketServer_honours (m : Market) : HonoursStart (marketServer m) where
  rates _ _ _ _ _ _ _ hanswer hlast _ := by
    cases hanswer
    exact (last_of_answer hlast).1
  klines _ _ _ _ _ _ _ _ hanswer hlast _ := by
    cases hanswer
    exact (last_of_answer hlast).1

/-- An account with a history, and clocks that stand still. -/
def historyServer (history : FundingIncome.IncomeHistory) : Source IncomeOp IncomeOp.Resp :=
  fun _ o => (FundingIncome.perform history o ⟨0, fun _ => 0⟩ 0).2

theorem historyServer_honours (history : FundingIncome.IncomeHistory) :
    HonoursRange (historyServer history) := by
  intro _ request batch last hanswer hlast _
  cases hanswer
  exact last_of_answer hlast

/-- A market of one symbol with a row at the epoch. -/
def oneRow : Market :=
  Market.single "BTCUSDT" 8 [⟨0, .finite false 1 (-4)⟩] [⟨0, .finite false 5 4⟩]
    (by decide) (by decide) eightHours_pos

theorem page_loops_end_oneRow :
    AtMost 3 (rateCursors (marketServer oneRow) "BTCUSDT" 0 2000) ∧
      AtMost 4 (incomeCursors (historyServer ⟨[], .nil, .nil⟩) ⟨"key", "secret", none⟩ 0 2000 0
        none) := by
  obtain ⟨hfetch, hincome⟩ := page_loops_end "BTCUSDT" 8 0 2000 ⟨"key", "secret", none⟩ 0 none
  exact ⟨((hfetch _).2.2 (marketServer_honours oneRow)).1.2,
    (hincome _ (historyServer_honours _)).2⟩

/-- The same thousand rows at the epoch, whatever is asked for. -/
def repeating : Source FetchOp FetchOp.Resp
  | _, .fundingRate .. => .ok (List.replicate 1000 ⟨0, .finite false 1 (-4)⟩)
  | _, .markPriceKlines .. => .ok []
  | _, .exchangeInfo => .ok none
  | _, .intervalCached _ => none
  | _, .cacheInterval .. => ()
  | _, .cacheGet .. => []
  | _, .cacheInsert .. => ()
  | _, .cacheClear _ => (0 : Nat)

/-- A thousand items at the `startTime` asked for, past the end of the window too. -/
def unending : Source IncomeOp IncomeOp.Resp
  | _, .serverTime => .ok 0
  | _, .localMs => (0 : Int)
  | _, .income request =>
      .ok (List.replicate 1000 ⟨request.startTime, none, .finite false 1 0, .number 0⟩)

/-- **A page repeated for ever is asked for for ever.**  In a window of two milliseconds the
    cursor goes from 0 to 1 and stays there; and `_iter_income_pages` goes on behind its
    window. -/
theorem repeated_page_asks_forever :
    (∀ budget, (rateCursors repeating "BTCUSDT" 0 1000 budget).length = budget) ∧
      ¬ Progresses (rateCursors repeating "BTCUSDT" 0 1000) ∧
      (∀ budget, (incomeCursors unending ⟨"key", "secret", none⟩ 0 1000 0 none budget).length =
        budget) ∧
      ¬ StopsAfter (toMs 1000) (incomeCursors unending ⟨"key", "secret", none⟩ 0 1000 0 none) := by
  have hrepeat : ∀ sent cursor, nextCursor RateRow.fundingTime 1000
      (ratePage repeating "BTCUSDT" (toMs 1000) sent cursor).2 = some 1 := by
    intro sent cursor
    exact nextCursor_eq_some_iff.mpr ⟨_, ⟨0, .finite false 1 (-4)⟩, rfl,
      List.getLast?_replicate, by rw [List.length_replicate], rfl⟩
  have hunending : ∀ sent cursor, nextCursor IncomeItem.time 1000
      (incomePage unending ⟨"key", "secret", none⟩ (toMs 1000) 0 none sent cursor).2 =
        some (cursor + 1) := by
    intro sent cursor
    exact nextCursor_eq_some_iff.mpr ⟨_, ⟨cursor, none, .finite false 1 0, .number 0⟩, rfl,
      List.getLast?_replicate, by rw [List.length_replicate], rfl⟩
  have hthree : rateCursors repeating "BTCUSDT" 0 1000 3 = [0, 1, 1] := by
    rw [rateCursors_eq]
    simp only [asked, hrepeat]
    decide
  have hpast : incomeCursors unending ⟨"key", "secret", none⟩ 0 1000 0 none 3 = [0, 1, 2] := by
    rw [incomeCursors_eq]
    simp only [asked, hunending]
    decide
  refine ⟨?_, ?_, ?_, ?_⟩
  · intro budget
    rw [rateCursors_eq]
    refine @asked_endless _ _ _ _ _ _ _ (· ≤ 1) (fun _ => decide_eq_true) ?_ budget _ [] (by decide)
    exact fun sent cursor _ => ⟨1, hrepeat sent cursor, Int.le_refl 1⟩
  · intro hprogresses
    have hsorted := hprogresses 3
    rw [hthree] at hsorted
    exact absurd hsorted (by decide)
  · intro budget
    rw [incomeCursors_eq]
    refine @asked_endless _ _ _ _ _ _ _ (fun _ => True) (fun _ _ => rfl) ?_ budget _ [] trivial
    exact fun sent cursor _ => ⟨cursor + 1, hunending sent cursor, trivial⟩
  · intro hstops
    have hlast := hstops 3 2 (by rw [hpast]; decide)
    exact absurd hlast (by decide)

end FundingTool.PageLoops
