import FundingTool.RateCacheSoundness

/-!
# A fetch running alone

Against an exchange that answers every request a call has one of two outcomes.  Either
every funding event of every reported gap finds its kline inside that gap, and the call
adds exactly the events of the gaps to the table, or some event does not, and the call
fails with a missing mark price.
-/

namespace FundingTool.BinanceUsdm

open FundingTool.Interaction FundingTool.CursorPaging

variable {m : Market}

/-! ## 1. The rows a call adds -/

/-- The table holds a row for the funding time `ms`. -/
def Cached (table : RateTable) (symbol : String) (ms : Int) : Prop :=
  ∃ row, table.get? (exchangeName, symbol, ms) = some row

theorem cached_insertOrReplace {table : RateTable} {symbol : String} {ev : FundingEvent} {ms : Int} :
    Cached (table.insertOrReplace exchangeName symbol ev) symbol ms ↔
      Cached table symbol ms ∨ toMs ev.timestamp = ms := by
  simp only [Cached, RateTable.insertOrReplace, OrderedDict.get?_set, Prod.mk.injEq, true_and]
  by_cases h : ms = toMs ev.timestamp
  · simp [h]
  · simp [h, Ne.symm h]

theorem put_run (m : Market) (symbol : String) (events : List FundingEvent) (s : FetchState) :
    ∃ s', runAlone m (put exchangeName symbol events) s = (s', .ok ()) ∧
      ∀ ms, Cached s'.table symbol ms ↔
        Cached s.table symbol ms ∨ ∃ ev ∈ events, toMs ev.timestamp = ms := by
  induction events generalizing s with
  | nil => exact ⟨s, rfl, by simp⟩
  | cons ev rest ih =>
      obtain ⟨s', hrun, hrows⟩ :=
        ih { s with table := s.table.insertOrReplace exchangeName symbol ev }
      refine ⟨s', hrun, ?_⟩
      intro ms
      rw [hrows, cached_insertOrReplace, or_assoc]
      simp only [List.mem_cons, exists_eq_or_imp]

/-- Every funding event of the gap has its floor kline inside the gap and in tolerance. -/
def Joined (m : Market) (symbol : String) (interval : Int) (gap : Int × Int) : Prop :=
  ∀ r ∈ ratesIn m symbol gap.1 gap.2, ∃ k,
    IsFloorKline (m.klines symbol interval) r.fundingTime k ∧ toMs gap.1 ≤ k.openTime ∧
      r.fundingTime - k.openTime ≤ interval * 3600000

theorem markAt_of_gap {symbol : String} {interval : Int} (hpos : 0 < interval) {gap : Int × Int} {r : RateRow}
    (hr : r ∈ ratesIn m symbol gap.1 gap.2) :
    (∃ mark, markAt (klineDict (klinesIn m symbol interval gap.1 gap.2)) (interval * 3600000)
      r.fundingTime = some mark) ↔
    ∃ k, IsFloorKline (m.klines symbol interval) r.fundingTime k ∧ toMs gap.1 ≤ k.openTime ∧
      r.fundingTime - k.openTime ≤ interval * 3600000 := by
  obtain ⟨-, hlo, hhi⟩ := mem_ratesIn.mp hr
  constructor
  · rintro ⟨mark, hmark⟩
    obtain ⟨k, hfloor, hopen, hwithin, -⟩ := (markAt_klinesIn (by omega) ⟨hlo, hhi⟩).mp hmark
    exact ⟨k, hfloor, hopen, hwithin⟩
  · rintro ⟨k, hfloor, hopen, hwithin⟩
    exact ⟨k.openPrice,
      (markAt_klinesIn (by omega) ⟨hlo, hhi⟩).mpr ⟨k, hfloor, hopen, hwithin, rfl⟩⟩

/-- The times of the events `_merge` builds are those of the rows it was given. -/
theorem times_of_merge {symbol : String} {klines : OrderedDict Int Decimal} {interval : Int}
    {rates : List RateRow} {events : List FundingEvent}
    (hmerge : merge symbol klines interval rates = .ok events)
    (hall : ∀ r ∈ rates, ∃ mark, markAt klines (interval * 3600000) r.fundingTime = some mark)
    (ms : Int) : (∃ ev ∈ events, toMs ev.timestamp = ms) ↔ ∃ r ∈ rates, r.fundingTime = ms := by
  constructor
  · rintro ⟨ev, hev, rfl⟩
    obtain ⟨r, hr, mark, -, rfl⟩ := (mem_of_merge_ok hmerge).mp hev
    exact ⟨r, hr, by simp [eventOf]⟩
  · rintro ⟨r, hr, rfl⟩
    obtain ⟨mark, hmark⟩ := hall r hr
    exact ⟨eventOf symbol interval r mark, (mem_of_merge_ok hmerge).mpr ⟨r, hr, mark, hmark, rfl⟩,
      by simp [eventOf]⟩

theorem fillGap_run (m : Market) (symbol : String) {interval : Int} (hpos : 0 < interval)
    (gap : Int × Int) (s : FetchState) :
    (Joined m symbol interval gap ∧
      ∃ s', runAlone m (fillGap symbol interval gap) s = (s', .ok ()) ∧
        ∀ ms, Cached s'.table symbol ms ↔ Cached s.table symbol ms ∨
          ∃ r ∈ ratesIn m symbol gap.1 gap.2, r.fundingTime = ms) ∨
    (¬ Joined m symbol interval gap ∧
      ∃ ts, runAlone m (fillGap symbol interval gap) s =
        (s, .error (.missingMarkPrice ts symbol))) := by
  unfold runAlone fillGap
  rw [Prog.run_bind_ok (fetchRatePages_run symbol gap.1 gap.2 s)]
  by_cases hempty : (ratesIn m symbol gap.1 gap.2).isEmpty
  · left
    rw [if_pos hempty]
    rw [List.isEmpty_iff] at hempty
    refine ⟨?_, s, rfl, ?_⟩
    · intro r hr
      rw [hempty] at hr
      cases hr
    · intro ms
      simp [hempty]
  · rw [if_neg hempty, Prog.run_bind_ok (fetchKlines_run symbol gap.1 gap.2 interval s)]
    rcases merge_cases symbol (klineDict (klinesIn m symbol interval gap.1 gap.2)) interval
      (ratesIn m symbol gap.1 gap.2) with ⟨events, hok, hall⟩ | ⟨r, hr, hnone, herr⟩
    · left
      refine ⟨fun r hr => (markAt_of_gap hpos hr).mp (hall r hr), ?_⟩
      obtain ⟨s', hrun, hrows⟩ := put_run m symbol events s
      refine ⟨s', ?_, ?_⟩
      · rw [hok]
        exact hrun
      · intro ms
        rw [hrows, times_of_merge hok hall]
    · right
      refine ⟨?_, fromMs r.fundingTime, ?_⟩
      · intro hjoined
        obtain ⟨mark, hmark⟩ := (markAt_of_gap hpos hr).mpr (hjoined r hr)
        rw [hnone] at hmark
        cases hmark
      · rw [herr]
        rfl

theorem fillGaps_run (m : Market) (symbol : String) {interval : Int} (hpos : 0 < interval)
    (gaps : List (Int × Int)) (s : FetchState) :
    ((∀ gap ∈ gaps, Joined m symbol interval gap) ∧
      ∃ s', runAlone m (fillGaps symbol interval gaps) s = (s', .ok ()) ∧
        ∀ ms, Cached s'.table symbol ms ↔ Cached s.table symbol ms ∨
          ∃ gap ∈ gaps, ∃ r ∈ ratesIn m symbol gap.1 gap.2, r.fundingTime = ms) ∨
    ((∃ gap ∈ gaps, ¬ Joined m symbol interval gap) ∧
      ∃ s' ts, runAlone m (fillGaps symbol interval gaps) s =
        (s', .error (.missingMarkPrice ts symbol))) := by
  induction gaps generalizing s with
  | nil => exact Or.inl ⟨by simp, s, rfl, by simp⟩
  | cons gap rest ih =>
      rcases fillGap_run m symbol hpos gap s with
        ⟨hjoined, s₁, hrun₁, hrows₁⟩ | ⟨hnot, ts, hrun₁⟩
      · rcases ih s₁ with ⟨hall, s₂, hrun₂, hrows₂⟩ | ⟨⟨bad, hbad, hnot⟩, s₂, ts, hrun₂⟩
        · refine Or.inl ⟨?_, s₂, ?_, ?_⟩
          · exact List.forall_mem_cons.mpr ⟨hjoined, hall⟩
          · rw [runAlone, fillGaps, Prog.run_bind_ok hrun₁]
            exact hrun₂
          · intro ms
            rw [hrows₂, hrows₁, or_assoc]
            simp only [List.mem_cons, exists_eq_or_imp]
        · refine Or.inr ⟨⟨bad, List.mem_cons_of_mem _ hbad, hnot⟩, s₂, ts, ?_⟩
          rw [runAlone, fillGaps, Prog.run_bind_ok hrun₁]
          exact hrun₂
      · refine Or.inr ⟨⟨gap, List.mem_cons_self, hnot⟩, s, ts, ?_⟩
        rw [runAlone, fillGaps, Prog.run_bind_error hrun₁]

/-! ## 2. The whole call -/

theorem getExchangeInfo_run (s : FetchState) :
    getExchangeInfo.run (perform m) none s = (s, .ok m.info) := rfl

theorem getInterval_run {s : FetchState} (h : CacheSound m s) (symbol : String) :
    (∃ interval s', reportedInterval m.info symbol = some interval ∧ s'.table = s.table ∧
      runAlone m (getInterval symbol) s = (s', .ok interval)) ∨
    (reportedInterval m.info symbol = none ∧
      runAlone m (getInterval symbol) s = (s, .error (.unknownSymbol symbol))) := by
  rcases hcached : s.intervalCache.get? symbol with _ | interval
  · rcases hin : intervalIn symbol (m.info.getD []) with _ | interval
    · refine Or.inr ⟨hin, ?_⟩
      simp only [runAlone, getInterval, intervalCached, Prog.call_bind, Prog.ret_bind,
        Prog.run_call, perform, hcached]
      rw [Prog.run_bind_ok (getExchangeInfo_run s), hin]
      rfl
    · refine Or.inl ⟨interval, { s with intervalCache := s.intervalCache.set symbol interval },
        hin, rfl, ?_⟩
      simp only [runAlone, getInterval, intervalCached, Prog.call_bind, Prog.ret_bind,
        Prog.run_call, perform, hcached]
      rw [Prog.run_bind_ok (getExchangeInfo_run s), hin]
      rfl
  · refine Or.inl ⟨interval, s, h.intervals symbol interval hcached, rfl, ?_⟩
    simp only [runAlone, getInterval, intervalCached, Prog.call_bind, Prog.ret_bind,
      Prog.run_call, perform, hcached, Prog.pure_eq, Prog.run_ret]

/-- The gaps a call fills from a state. -/
def gapsFrom (s : FetchState) (symbol : String) (start stop : Int) : List (Int × Int) :=
  s.table.missingRanges exchangeName symbol start stop

/-- **The two outcomes of a call** for a listed symbol. -/
theorem fetchFundingRates_run {s : FetchState} (h : CacheSound m s) {symbol : String} {interval : Int}
    (hinterval : reportedInterval m.info symbol = some interval) (start stop : Int) :
    ((∀ gap ∈ gapsFrom s symbol start stop, Joined m symbol interval gap) ∧
      ∃ s', runAlone m (fetchFundingRates symbol start stop) s =
          (s', .ok (s'.table.get exchangeName symbol start stop)) ∧
        ∀ ms, Cached s'.table symbol ms ↔ Cached s.table symbol ms ∨
          ∃ gap ∈ gapsFrom s symbol start stop, ∃ r ∈ ratesIn m symbol gap.1 gap.2,
            r.fundingTime = ms) ∨
    ((∃ gap ∈ gapsFrom s symbol start stop, ¬ Joined m symbol interval gap) ∧
      ∃ s' ts, runAlone m (fetchFundingRates symbol start stop) s =
        (s', .error (.missingMarkPrice ts symbol))) := by
  rcases getInterval_run h symbol with
    ⟨interval', s₁, hreported, htable, hrun⟩ | ⟨hnone, -⟩
  · rw [hinterval, Option.some.injEq] at hreported
    subst hreported
    have hgaps : runAlone m (fetchFundingRates symbol start stop) s =
        runAlone m (fillGaps symbol interval (gapsFrom s symbol start stop) >>= fun _ =>
          cacheGet exchangeName symbol start stop) s₁ := by
      rw [runAlone, fetchFundingRates, Prog.run_bind_ok hrun, gapsFrom, ← htable]
      rfl
    have hpos := m.interval_pos symbol interval hinterval
    rcases fillGaps_run m symbol hpos (gapsFrom s symbol start stop) s₁ with
      ⟨hall, s₂, hfill, hrows⟩ | ⟨hbad, s₂, ts, hfill⟩
    · refine Or.inl ⟨hall, s₂, ?_, ?_⟩
      · rw [hgaps, runAlone, Prog.run_bind_ok hfill]
        rfl
      · intro ms
        rw [hrows, htable]
    · refine Or.inr ⟨hbad, s₂, ts, ?_⟩
      rw [hgaps, runAlone, Prog.run_bind_error hfill]
  · rw [hinterval] at hnone
    cases hnone

theorem fetchFundingRates_unlisted {s : FetchState} (h : CacheSound m s) {symbol : String}
    (hnone : reportedInterval m.info symbol = none) (start stop : Int) :
    runAlone m (fetchFundingRates symbol start stop) s = (s, .error (.unknownSymbol symbol)) := by
  rcases getInterval_run h symbol with ⟨interval, s₁, hreported, -⟩ | ⟨-, hrun⟩
  · rw [hnone] at hreported
    cases hreported
  · rw [runAlone, fetchFundingRates, Prog.run_bind_error hrun]

/-- A call that returns has read its list from the table it leaves. -/
theorem fetchFundingRates_ok {s s' : FetchState} (h : CacheSound m s) {symbol : String}
    {start stop : Int} {events : List FundingEvent}
    (hrun : runAlone m (fetchFundingRates symbol start stop) s = (s', .ok events)) :
    ∃ interval, reportedInterval m.info symbol = some interval ∧
      (∀ gap ∈ gapsFrom s symbol start stop, Joined m symbol interval gap) ∧
      events = s'.table.get exchangeName symbol start stop ∧
      ∀ ms, Cached s'.table symbol ms ↔ Cached s.table symbol ms ∨
        ∃ gap ∈ gapsFrom s symbol start stop, ∃ r ∈ ratesIn m symbol gap.1 gap.2,
          r.fundingTime = ms := by
  rcases hinterval : reportedInterval m.info symbol with _ | interval
  · rw [fetchFundingRates_unlisted h hinterval, Prod.mk.injEq] at hrun
    cases hrun.2
  · rcases fetchFundingRates_run h hinterval start stop with
      ⟨hall, s₁, hrun₁, hrows⟩ | ⟨-, s₁, ts, hrun₁⟩
    · rw [hrun₁, Prod.mk.injEq, Except.ok.injEq] at hrun
      obtain ⟨rfl, rfl⟩ := hrun
      exact ⟨interval, rfl, hall, rfl, hrows⟩
    · rw [hrun₁, Prod.mk.injEq] at hrun
      cases hrun.2

end FundingTool.BinanceUsdm
