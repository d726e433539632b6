import FundingTool.FetchSpecs

/-!
# Soundness of the funding-rate cache

Any number of `fetch_funding_rates` calls and `clear` calls run at once, each stopped at
any request by an HTTP error or a cancellation.  What survives every interleaving:

  * the interval cache agrees with the exchange;
  * every cached row is a funding event of its symbol with the true rate, and its price is
    the open of the latest kline of the whole series, at most one interval older.

A row is thereby a function of the exchange history and of its key alone, whichever
window loaded it.
-/

namespace FundingTool.BinanceUsdm

open FundingTool.TransitionSystem FundingTool.Interaction FundingTool.CursorPaging

/-! ## 1. Genuine rows -/

/-- The columns cached for `ms` describe a funding event of the exchange. -/
structure Genuine (m : Market) (symbol : String) (ms : Int) (row : CachedRate) : Prop where
  event : ∃ r ∈ m.rates symbol, r.fundingTime = ms ∧ r.fundingRate = row.rate
  interval : reportedInterval m.info symbol = some row.intervalH
  price : ∃ k, IsFloorKline (m.klines symbol row.intervalH) ms k ∧
    ms - k.openTime ≤ row.intervalH * 3600000 ∧ k.openPrice = row.markPrice

/-- **A genuine row is determined by its key.** -/
theorem Genuine.unique {m : Market} {symbol : String} {ms : Int} {row row' : CachedRate}
    (h : Genuine m symbol ms row) (h' : Genuine m symbol ms row') : row = row' := by
  obtain ⟨⟨r, hr, htime, hrate⟩, hinterval, k, hk, -, hprice⟩ := h
  obtain ⟨⟨r', hr', htime', hrate'⟩, hinterval', k', hk', -, hprice'⟩ := h'
  have hsame : row.intervalH = row'.intervalH := by
    rw [hinterval, Option.some.injEq] at hinterval'
    exact hinterval'
  have hrow : r = r' := by
    have hnodup : ((m.rates symbol).map RateRow.fundingTime).Nodup :=
      List.pairwise_map.mpr (List.Pairwise.imp (fun hlt => ne_of_lt hlt) (m.rates_ascending symbol))
    exact List.inj_on_of_nodup_map hnodup hr hr' (htime.trans htime'.symm)
  rw [← hsame] at hk'
  have hkline : k = k' := hk.unique (m.klines_ascending symbol row.intervalH) hk'
  refine CachedRate.ext ?_ ?_ hsame
  · rw [← hrate, ← hrate', hrow]
  · rw [← hprice, ← hprice', hkline]

/-- What `_merge` builds from the rows and the klines of one gap is genuine. -/
theorem genuine_of_merge {m : Market} {symbol : String} {interval start stop : Int}
    (hinterval : reportedInterval m.info symbol = some interval) {events : List FundingEvent}
    (hmerge : merge symbol (klineDict (klinesIn m symbol interval start stop)) interval
      (ratesIn m symbol start stop) = .ok events) {ev : FundingEvent} (hev : ev ∈ events) :
    Genuine m symbol (toMs ev.timestamp) ⟨ev.rate, ev.markPrice, ev.intervalHours⟩ := by
  have hpos := m.interval_pos symbol interval hinterval
  obtain ⟨r, hr, mark, hmark, rfl⟩ := (mem_of_merge_ok hmerge).mp hev
  obtain ⟨hmem, hlo, hhi⟩ := mem_ratesIn.mp hr
  obtain ⟨k, hfloor, -, hwithin, hprice⟩ :=
    (markAt_klinesIn (by omega) ⟨hlo, hhi⟩).mp hmark
  simp only [eventOf, toMs_fromMs]
  exact ⟨⟨r, hmem, rfl, rfl⟩, hinterval, k, hfloor, hwithin, hprice⟩

/-! ## 2. The invariant and one step -/

structure CacheSound (m : Market) (s : FetchState) : Prop where
  intervals : ∀ symbol interval, s.intervalCache.get? symbol = some interval →
    reportedInterval m.info symbol = some interval
  rows : ∀ exchange symbol ms row, s.table.get? (exchange, symbol, ms) = some row →
    exchange = exchangeName ∧ Genuine m symbol ms row

theorem cacheSound_empty (m : Market) : CacheSound m .empty := by
  refine ⟨?_, ?_⟩
  · intro symbol interval h; cases h
  · intro exchange symbol ms row h; cases h

/-- What an operation may write. -/
def WritesSound (m : Market) : FetchOp → Prop
  | .cacheInterval symbol interval => reportedInterval m.info symbol = some interval
  | .cacheInsert exchange symbol ev => exchange = exchangeName ∧
      Genuine m symbol (toMs ev.timestamp) ⟨ev.rate, ev.markPrice, ev.intervalHours⟩
  | _ => True

theorem rows_clear {table : RateTable} {symbol : Option String}
    {key : String × String × Int} {row : CachedRate}
    (h : (table.clear symbol).get? key = some row) : table.get? key = some row := by
  rw [OrderedDict.get?_eq_some_iff] at h ⊢
  cases symbol with
  | none => cases h
  | some symbol =>
      rw [RateTable.clear] at h
      by_cases hempty : symbol = ""
      · rw [if_pos hempty] at h; cases h
      · rw [if_neg hempty] at h
        exact (OrderedDict.mem_filter.mp h).1

/-- Every operation that writes what it may keeps the invariant. -/
theorem perform_cacheSound {m : Market} {o : FetchOp} {fault : Option FundingToolError}
    {s : FetchState} (h : CacheSound m s) (hwrites : WritesSound m o) :
    CacheSound m (perform m o fault s).1 := by
  cases o with
  | intervalCached symbol => exact h
  | exchangeInfo => cases fault <;> exact h
  | fundingRate => cases fault <;> exact h
  | markPriceKlines => cases fault <;> exact h
  | cacheGet => exact h
  | cacheInterval symbol interval =>
      refine ⟨?_, h.rows⟩
      intro symbol' interval' hget
      simp only [perform, OrderedDict.get?_set] at hget
      by_cases hsame : symbol' = symbol
      · rw [if_pos hsame, Option.some.injEq] at hget
        rw [hsame, ← hget]
        exact hwrites
      · rw [if_neg hsame] at hget
        exact h.intervals symbol' interval' hget
  | cacheInsert exchange symbol ev =>
      refine ⟨h.intervals, ?_⟩
      intro exchange' symbol' ms row hget
      simp only [perform, RateTable.insertOrReplace, OrderedDict.get?_set] at hget
      by_cases hsame : (exchange', symbol', ms) = (exchange, symbol, toMs ev.timestamp)
      · rw [if_pos hsame, Option.some.injEq] at hget
        simp only [Prod.mk.injEq] at hsame
        obtain ⟨rfl, rfl, rfl⟩ := hsame
        rw [← hget]
        exact hwrites
      · rw [if_neg hsame] at hget
        exact h.rows exchange' symbol' ms row hget
  | cacheClear symbol =>
      refine ⟨h.intervals, ?_⟩
      intro exchange' symbol' ms row hget
      exact h.rows exchange' symbol' ms row (rows_clear hget)

/-! ## 3. The functions of the fetch path -/

section Functions

variable {m : Market} {Guard : FetchState → FetchOp → Option FundingToolError → Prop}

theorem intervalCached_safe (symbol : String) :
    (intervalCached symbol).Safe (perform m) (CacheSound m) Guard
      fun cached => ∀ interval, cached = some interval →
        reportedInterval m.info symbol = some interval :=
  fun _ _ hinv _ => ⟨hinv, hinv.intervals symbol⟩

theorem getExchangeInfo_safe :
    getExchangeInfo.Safe (perform m) (CacheSound m) Guard fun info => info = m.info := by
  intro s fault hinv _
  cases fault with
  | none => exact ⟨hinv, rfl⟩
  | some e => exact ⟨hinv, trivial⟩

theorem getInterval_safe (symbol : String) :
    (getInterval symbol).Safe (perform m) (CacheSound m) Guard
      fun interval => reportedInterval m.info symbol = some interval := by
  apply Prog.Safe.bind (intervalCached_safe symbol)
  intro cached hcached
  rcases cached with _ | interval
  · apply Prog.Safe.bind getExchangeInfo_safe
    rintro info rfl
    rcases hin : intervalIn symbol (m.info.getD []) with _ | interval
    · trivial
    · intro s fault hinv _
      exact ⟨perform_cacheSound hinv hin, hin⟩
  · exact hcached interval rfl

theorem missingRanges_safe (symbol : String) (start stop : Int) :
    (missingRanges exchangeName symbol start stop).Safe (perform m) (CacheSound m) Guard
      fun _ => True :=
  fun _ _ hinv _ => ⟨hinv, trivial⟩

theorem put_safe {exchange symbol : String} {events : List FundingEvent}
    (h : ∀ ev ∈ events, WritesSound m (.cacheInsert exchange symbol ev)) :
    (put exchange symbol events).Safe (perform m) (CacheSound m) Guard fun _ => True := by
  induction events with
  | nil => trivial
  | cons ev rest ih =>
      intro s fault hinv _
      exact ⟨perform_cacheSound hinv (h ev List.mem_cons_self),
        ih fun ev' hev' => h ev' (List.mem_cons_of_mem _ hev')⟩

theorem fillGap_safe {symbol : String} {interval : Int}
    (hinterval : reportedInterval m.info symbol = some interval) (gap : Int × Int) :
    (fillGap symbol interval gap).Safe (perform m) (CacheSound m) Guard fun _ => True := by
  apply Prog.Safe.bind (fetchRatePages_safe symbol gap.1 gap.2)
  rintro rates rfl
  by_cases hempty : (ratesIn m symbol gap.1 gap.2).isEmpty
  · rw [if_pos hempty]; trivial
  · rw [if_neg hempty]
    apply Prog.Safe.bind (fetchKlines_safe symbol gap.1 gap.2 interval)
    rintro klines rfl
    apply Prog.Safe.bind (Prog.Safe.ofExcept fun _ h => h)
    intro events hmerge
    exact put_safe fun ev hev => ⟨rfl, genuine_of_merge hinterval hmerge hev⟩

theorem fillGaps_safe {symbol : String} {interval : Int}
    (hinterval : reportedInterval m.info symbol = some interval) (gaps : List (Int × Int)) :
    (fillGaps symbol interval gaps).Safe (perform m) (CacheSound m) Guard fun _ => True := by
  induction gaps with
  | nil => trivial
  | cons gap rest ih => exact Prog.Safe.bind (fillGap_safe hinterval gap) fun _ _ => ih

/-- What a list answered for a window is made of. -/
structure AnswerSound (m : Market) (symbol : String) (start stop : Int)
    (events : List FundingEvent) : Prop where
  ascending : events.Pairwise fun a b => a.timestamp < b.timestamp
  nodup : events.Nodup
  inWindow : ∀ ev ∈ events, toMs start ≤ toMs ev.timestamp ∧ toMs ev.timestamp ≤ toMs stop
  genuine : ∀ ev ∈ events, ev.symbol = symbol ∧
    Genuine m symbol (toMs ev.timestamp) ⟨ev.rate, ev.markPrice, ev.intervalHours⟩

theorem answerSound_get {s : FetchState} (h : CacheSound m s) (symbol : String)
    (start stop : Int) :
    AnswerSound m symbol start stop (s.table.get exchangeName symbol start stop) := by
  have hasc := RateTable.get_pairwise s.table exchangeName symbol start stop
  refine ⟨hasc, hasc.imp ?_, ?_, ?_⟩
  · rintro a b hlt rfl
    exact absurd hlt (lt_irrefl _)
  · intro ev hev
    obtain ⟨ms, row, -, hlo, hhi, rfl⟩ := RateTable.mem_get.mp hev
    simp only [RateTable.toEvent, toMs_fromMs]
    exact ⟨hlo, hhi⟩
  · intro ev hev
    obtain ⟨ms, row, hget, -, -, rfl⟩ := RateTable.mem_get.mp hev
    simp only [RateTable.toEvent, toMs_fromMs]
    exact ⟨trivial, (h.rows _ _ _ _ hget).2⟩

theorem fetchFundingRates_safe (symbol : String) (start stop : Int) :
    (fetchFundingRates symbol start stop).Safe (perform m) (CacheSound m) Guard
      (AnswerSound m symbol start stop) := by
  apply Prog.Safe.bind (getInterval_safe symbol)
  intro interval hinterval
  apply Prog.Safe.bind (missingRanges_safe symbol start stop)
  intro gaps _
  apply Prog.Safe.bind (fillGaps_safe hinterval gaps)
  intro _ _ s fault hinv _
  exact ⟨hinv, answerSound_get hinv symbol start stop⟩

theorem clearCache_safe (symbol : Option String) :
    (clearCache symbol).Safe (perform m) (CacheSound m) Guard fun _ => True :=
  fun _ _ hinv _ => ⟨perform_cacheSound hinv trivial, trivial⟩

end Functions

/-! ## 4. Concurrent calls -/

inductive CacheCall
  | fetch (symbol : String) (start stop : Int)
  | clear (symbol : Option String)
deriving DecidableEq

inductive CacheAnswer
  | rates (events : List FundingEvent)
  | cleared (rowcount : Nat)
deriving DecidableEq

def CacheCall.program : CacheCall → Fetch CacheAnswer
  | .fetch symbol start stop => do
      let events ← fetchFundingRates symbol start stop
      pure (.rates events)
  | .clear symbol => do
      let rowcount ← clearCache symbol
      pure (.cleared rowcount)

/-- The calls of one exchange object over its cache file: an error of the HTTP client
    answers a request, a cancellation stops a call at one. -/
def cacheMachine (m : Market) :
    Machine FetchOp FetchOp.Resp FundingToolError CacheAnswer FetchState
      (Option FundingToolError) CacheCall where
  exec := perform m
  program := CacheCall.program
  interruptible := FetchOp.isRequest

/-- The pools reached from an empty cache by any interleaving of any calls. -/
abbrev CacheReachable (m : Market)
    (p : Pool FetchOp FetchOp.Resp FundingToolError CacheAnswer FetchState CacheCall) : Prop :=
  (cacheMachine m).Reachable Machine.AnyChoice .empty p

/-- What a call that has returned promises. -/
def CacheCall.Promise (m : Market) : CacheCall → CacheAnswer → Prop
  | .fetch symbol start stop, .rates events => AnswerSound m symbol start stop events
  | .fetch .., .cleared _ => False
  | .clear _, _ => True

theorem program_safe (m : Market) (call : CacheCall) :
    (call.program).Safe (perform m) (CacheSound m) (Machine.AnyChoice call)
      (call.Promise m) := by
  cases call with
  | fetch symbol start stop =>
      exact Prog.Safe.bind (fetchFundingRates_safe symbol start stop) fun _ h => h
  | clear symbol => exact Prog.Safe.bind (clearCache_safe symbol) fun _ _ => trivial

/-- **Soundness of the cache.**  After any interleaving of calls every cached row is
    genuine, it is the row any other run would cache under its key, and every list a call
    has returned is strictly ascending, free of duplicates, inside its window and genuine.
    That a time is read back as it was stored holds of the floats of the source from November
    2004 to January 2038 (`TimeUtil`). -/
theorem cache_sound {m : Market}
    {p : Pool FetchOp FetchOp.Resp FundingToolError CacheAnswer FetchState CacheCall}
    (h : CacheReachable m p) :
    (∀ exchange symbol ms row, p.state.table.get? (exchange, symbol, ms) = some row →
      exchange = exchangeName ∧ Genuine m symbol ms row ∧
        ∀ p', CacheReachable m p' → ∀ row',
          p'.state.table.get? (exchange, symbol, ms) = some row' → row' = row) ∧
    (∀ i symbol start stop events,
      p.answer i = some (.fetch symbol start stop, .rates events) →
        AnswerSound m symbol start stop events) := by
  have hsafe := program_safe m
  have hinv := (Machine.Reachable.sound hsafe (cacheSound_empty m) h).1
  refine ⟨?_, ?_⟩
  · intro exchange symbol ms row hget
    obtain ⟨hname, hgenuine⟩ := hinv.rows exchange symbol ms row hget
    refine ⟨hname, hgenuine, ?_⟩
    intro p' h' row' hget'
    have hinv' := (Machine.Reachable.sound hsafe (cacheSound_empty m) h').1
    exact (hinv'.rows exchange symbol ms row' hget').2.unique hgenuine
  · intro i symbol start stop events hanswer
    exact Machine.Reachable.returned hsafe (cacheSound_empty m) h hanswer

/-- Three settlements on an eight-hour grid, the first and the last a few milliseconds late. -/
def driftingMarket : Market :=
  Market.single "BTCUSDT" 8
    [⟨1767225600007, .finite false 1 (-4)⟩, ⟨1767254400000, .finite false 2 (-4)⟩,
      ⟨1767283200003, .finite true 1 (-4)⟩]
    [⟨1767225600000, .finite false 87000 0⟩, ⟨1767254400000, .finite false 88000 0⟩,
      ⟨1767283200000, .finite false 89000 0⟩]
    (by decide) (by decide) eightHours_pos

/-- Two reads at once, the first cancelled at its kline request, and a clear after the
    second has cached one of its rows. -/
def overlappingReads : List (PoolAct CacheCall (Option FundingToolError) FundingToolError) :=
  [.spawn (.fetch "BTCUSDT" 1767225600000000 1767283200000000),
    .spawn (.fetch "BTCUSDT" 1767250000000000 1767290000000000)] ++
  List.replicate 5 (.advance 0 none) ++ List.replicate 5 (.advance 1 none) ++
  [.abort 0 .cancelled, .spawn (.clear none), .advance 2 none] ++
  List.replicate 2 (.advance 1 none)

theorem cache_sound_overlappingReads :
    AnswerSound driftingMarket "BTCUSDT" 1767250000000000 1767290000000000
      [⟨1767283200003000, "BTCUSDT", .finite true 1 (-4), .finite false 89000 0, 8⟩] :=
  (cache_sound (m := driftingMarket)
    (play_get_reaches overlappingReads (by decide +kernel))).2 1 _ _ _ _
    (by decide +kernel)

end FundingTool.BinanceUsdm
