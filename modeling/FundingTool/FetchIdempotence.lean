import FundingTool.FetchFills
import FundingTool.RateCacheRefill

/-!
# Fetching a window again

A call that finds some of the gaps of its window filled computes other gaps than the call that
filled them, but it adds no other rows than filling the rest of the old ones: what it refetches
it puts as it was.  So a second call changes nothing, and where the events of the window are at
most one and a half intervals apart it asks the exchange for no rates.
-/

namespace FundingTool.BinanceUsdm

open FundingTool.Interaction FundingTool.CursorPaging

variable {m : Market} {symbol : String} {interval : Int}

/-! ## 1. A call alone -/

/-- With a kline at every event a call that nothing disturbs returns. -/
theorem fetchFundingRates_alone (hklines : OpensWithKline m symbol interval)
    (hinterval : reportedInterval m.info symbol = some interval) {s : FetchState}
    (h : Agrees m symbol interval s) (start stop : Int) :
    ∃ s', runAlone m (fetchFundingRates symbol start stop) s =
        (s', .ok (s'.table.get exchangeName symbol start stop)) ∧
      Agrees m symbol interval s' ∧
      Added m symbol interval (gapsFrom s symbol start stop) s.table s'.table := by
  have hpos := m.interval_pos symbol interval hinterval
  have hreturns : ∃ s' events,
      runAlone m (fetchFundingRates symbol start stop) s = (s', .ok events) := by
    rcases getInterval_runWith hinterval h (fun _ => none) with ⟨s₁, hfirst, -⟩ | ⟨e, hfault, -⟩
    · rw [← Prog.run_eq_runWith] at hfirst
      rcases fillGaps_run m symbol hpos (gapsFrom s₁ symbol start stop) s₁ with
        ⟨-, s₂, hfill, -⟩ | ⟨⟨gap, -, hnot⟩, -⟩
      · refine ⟨s₂, s₂.table.get exchangeName symbol start stop, ?_⟩
        rw [runAlone, fetchFundingRates, Prog.run_bind_ok hfirst]
        change (fillGaps symbol interval (gapsFrom s₁ symbol start stop) >>= fun _ =>
          cacheGet exchangeName symbol start stop).run (perform m) none s₁ = _
        rw [Prog.run_bind_ok hfill]
        rfl
      · exact absurd (joined_of_opensWithKline hklines hpos gap) hnot
    · cases hfault
  obtain ⟨s', events, hreturns⟩ := hreturns
  rw [runAlone, Prog.run_eq_runWith] at hreturns ⊢
  rcases fetchFundingRates_runWith hklines hinterval h start stop (fun _ => none) with
    ⟨s₁, hrun, hagrees, hadded⟩ | ⟨done, s₁, e, hrun, -⟩
  · exact ⟨s₁, hrun, hagrees, hadded⟩
  · rw [hreturns, Prod.mk.injEq] at hrun
    cases hrun.2

/-! ## 2. A window with some of its gaps filled -/

theorem Agrees.windowed {s : FetchState} (h : Agrees m symbol interval s) (start stop : Int) :
    RateTable.Windowed start stop interval (s.table.get exchangeName symbol start stop) where
  ascending := RateTable.get_pairwise _ _ _ _ _
  onMs := by
    intro ev hev
    obtain ⟨ms, row, -, -, -, rfl⟩ := RateTable.mem_get.mp hev
    simp [RateTable.toEvent]
  inside := by
    intro ev hev
    obtain ⟨ms, row, -, hlo, hhi, rfl⟩ := RateTable.mem_get.mp hev
    simp only [RateTable.toEvent, toMs_fromMs]
    exact ⟨hlo, hhi⟩
  interval_eq := by
    intro ev hev
    obtain ⟨ms, row, hget, -, -, rfl⟩ := RateTable.mem_get.mp hev
    exact h.interval_eq ms row hget

theorem Added.refilled {s s' : FetchState} (h : Agrees m symbol interval s)
    (h' : Agrees m symbol interval s') {start stop : Int} {gaps : List (Int × Int)}
    (hadded : Added m symbol interval gaps s.table s'.table)
    (hreported : ∀ gap ∈ gaps, gap ∈ gapsFrom s symbol start stop) :
    RateTable.Refilled start stop interval gaps (s.table.get exchangeName symbol start stop)
      (s'.table.get exchangeName symbol start stop) where
  before := h.windowed start stop
  after := h'.windowed start stop
  reported := hreported
  kept := by
    intro ev hev
    obtain ⟨ms, row, hget, hlo, hhi, rfl⟩ := RateTable.mem_get.mp hev
    exact RateTable.mem_get.mpr ⟨ms, row, hadded.get?_of_get? hget, hlo, hhi, rfl⟩
  added := by
    intro ev hev
    obtain ⟨ms, row, hget, hlo, hhi, rfl⟩ := RateTable.mem_get.mp hev
    rcases (hadded _ _).mp hget with hold | ⟨gap, hgap, ms', hin, hkey, -⟩
    · exact Or.inl (RateTable.mem_get.mpr ⟨ms, row, hold, hlo, hhi, rfl⟩)
    · simp only [Prod.mk.injEq, true_and] at hkey
      subst hkey
      simp only [RateTable.toEvent, toMs_fromMs]
      exact Or.inr ⟨gap, hgap, hin⟩

/-- An event that is not cached lies in a gap after some gaps have been filled exactly when it
    lay in one before. -/
theorem inGap_iff_of_added {s s' : FetchState} (h : Agrees m symbol interval s)
    (h' : Agrees m symbol interval s') (hpos : 0 < interval) {start stop : Int}
    {gaps : List (Int × Int)} (hadded : Added m symbol interval gaps s.table s'.table)
    (hreported : ∀ gap ∈ gaps, gap ∈ gapsFrom s symbol start stop) {ms : Int} {row : CachedRate}
    (hrow : EventRow m symbol interval ms row) (hnew : ¬ Cached s'.table symbol ms) :
    (∃ gap ∈ gapsFrom s' symbol start stop, RateTable.InGap gap ms) ↔
      ∃ gap ∈ gapsFrom s symbol start stop, RateTable.InGap gap ms := by
  have hrefilled := hadded.refilled h h' hreported
  have hout : ∀ gap ∈ gaps, ¬ RateTable.InGap gap ms := by
    intro gap hgap hin
    exact hnew ⟨row, (hadded _ _).mpr (Or.inr ⟨gap, hgap, ms, hin, rfl, hrow⟩)⟩
  have hnew' : ∀ ev ∈ s'.table.get exchangeName symbol start stop, ev.timestamp ≠ fromMs ms :=
    fun ev hev htime => hnew ((mem_get_iff_cached _ _ _ _ _).mp ⟨ev, hev, htime⟩).1
  constructor
  · rintro ⟨gap, hgap, hin⟩
    obtain ⟨hlo, hhi⟩ := hrefilled.after.inWindow_of_inGap hpos hgap hin
    exact (hrefilled.inGap_refilled_iff hpos hlo hhi hout hnew').mp ⟨gap, hgap, hin⟩
  · rintro ⟨gap, hgap, hin⟩
    obtain ⟨hlo, hhi⟩ := hrefilled.before.inWindow_of_inGap hpos hgap hin
    exact (hrefilled.inGap_refilled_iff hpos hlo hhi hout hnew').mpr ⟨gap, hgap, hin⟩

/-- **Filling in two goes**: some gaps first and then the gaps there are, or all gaps at once. -/
theorem refill_eq {s s₁ s₂ s' : FetchState} (h : Agrees m symbol interval s)
    (h₁ : Agrees m symbol interval s₁) (hpos : 0 < interval) {start stop : Int}
    {done : List (Int × Int)} (hdone : Added m symbol interval done s.table s₁.table)
    (hreported : ∀ gap ∈ done, gap ∈ gapsFrom s symbol start stop)
    (hrest : Added m symbol interval (gapsFrom s₁ symbol start stop) s₁.table s₂.table)
    (hall : Added m symbol interval (gapsFrom s symbol start stop) s.table s'.table) :
    ∀ key, s₂.table.get? key = s'.table.get? key := by
  have hsame : ∀ {key row}, s₁.table.get? key = some row → s'.table.get? key = some row := by
    intro key row hget
    rcases (hdone _ _).mp hget with hold | ⟨gap, hgap, ms, hin, hkey, hrow⟩
    · exact hall.get?_of_get? hold
    · exact (hall _ _).mpr (Or.inr ⟨gap, hreported gap hgap, ms, hin, hkey, hrow⟩)
  intro key
  apply Option.ext
  intro row
  constructor
  · intro hget
    rcases (hrest _ _).mp hget with hold | ⟨gap, hgap, ms, hin, rfl, hrow⟩
    · exact hsame hold
    · by_cases hcached : Cached s₁.table symbol ms
      · obtain ⟨row', hget'⟩ := hcached
        rw [← h₁.rows ms row' row hget' hrow]
        exact hsame hget'
      · obtain ⟨gap', hgap', hin'⟩ := (inGap_iff_of_added h h₁ hpos hdone hreported hrow
          hcached).mp ⟨gap, hgap, hin⟩
        exact (hall _ _).mpr (Or.inr ⟨gap', hgap', ms, hin', rfl, hrow⟩)
  · intro hget
    rcases (hall _ _).mp hget with hold | ⟨gap, hgap, ms, hin, rfl, hrow⟩
    · exact hrest.get?_of_get? (hdone.get?_of_get? hold)
    · by_cases hcached : Cached s₁.table symbol ms
      · obtain ⟨row', hget'⟩ := hcached
        rw [← h₁.rows ms row' row hget' hrow]
        exact hrest.get?_of_get? hget'
      · obtain ⟨gap', hgap', hin'⟩ := (inGap_iff_of_added h h₁ hpos hdone hreported hrow
          hcached).mpr ⟨gap, hgap, hin⟩
        exact (hrest _ _).mpr (Or.inr ⟨gap', hgap', ms, hin', rfl, hrow⟩)

theorem get_eq_of_get?_eq {table table' : RateTable} (h : ∀ key, table.get? key = table'.get? key)
    (exchange symbol : String) (start stop : Int) :
    table.get exchange symbol start stop = table'.get exchange symbol start stop := by
  apply RateTable.get_congr
  intro ms row _ _
  rw [h]

/-! ## 3. Fetching again -/

/-- Consecutive funding events of the window are at most one and a half intervals apart, and
    its ends no further from the first and the last of them; there is one at least. -/
structure Dense (m : Market) (symbol : String) (interval start stop : Int) : Prop where
  leading : ∃ r ∈ ratesIn m symbol start stop,
    2 * (fromMs r.fundingTime - start) ≤ 3 * hours interval
  interior : ∀ r ∈ ratesIn m symbol start stop, ∀ r' ∈ ratesIn m symbol start stop,
    r.fundingTime < r'.fundingTime →
    (∀ q ∈ ratesIn m symbol start stop,
      q.fundingTime ≤ r.fundingTime ∨ r'.fundingTime ≤ q.fundingTime) →
    2 * (r'.fundingTime - r.fundingTime) ≤ 3 * (interval * 3600000)
  trailing : ∃ r ∈ ratesIn m symbol start stop,
    2 * (stop - fromMs r.fundingTime) ≤ 3 * hours interval

/-- A window with nothing cached, filled: the events of the exchange are cached. -/
theorem mem_get_of_filled {s s₁ : FetchState} (h₁ : Agrees m symbol interval s₁)
    (hklines : OpensWithKline m symbol interval) {start stop : Int}
    (hempty : s.table.get exchangeName symbol start stop = [])
    (hfilled : Added m symbol interval (gapsFrom s symbol start stop) s.table s₁.table) :
    (∀ ev ∈ s₁.table.get exchangeName symbol start stop,
      ev.intervalHours = interval ∧
        ∃ r ∈ ratesIn m symbol start stop, ev.timestamp = fromMs r.fundingTime) ∧
    ∀ r ∈ ratesIn m symbol start stop, ∃ ev ∈ s₁.table.get exchangeName symbol start stop,
      ev.timestamp = fromMs r.fundingTime := by
  have hgaps : gapsFrom s symbol start stop = [(start, stop)] := by
    rw [gapsFrom, RateTable.missingRanges, hempty]
    rfl
  constructor
  · intro ev hev
    refine ⟨(h₁.windowed start stop).interval_eq ev hev, ?_⟩
    obtain ⟨ms, row, hget, hlo, hhi, rfl⟩ := RateTable.mem_get.mp hev
    rcases (hfilled _ _).mp hget with hold | ⟨gap, -, ms', -, hkey, r, hr, -, -, rfl, -⟩
    · have hmem := RateTable.mem_get.mpr ⟨ms, row, hold, hlo, hhi, rfl⟩
      rw [hempty] at hmem
      cases hmem
    · simp only [Prod.mk.injEq, true_and] at hkey
      exact ⟨r, mem_ratesIn.mpr ⟨hr, by omega, by omega⟩, by rw [RateTable.toEvent, hkey]⟩
  · intro r hr
    obtain ⟨hmem, hlo, hhi⟩ := mem_ratesIn.mp hr
    obtain ⟨k, hk, hopen⟩ := hklines r hmem
    have hrow : EventRow m symbol interval r.fundingTime ⟨r.fundingRate, k.openPrice, interval⟩ :=
      ⟨r, hmem, k, hk, rfl, hopen, rfl⟩
    have hput : s₁.table.get? (exchangeName, symbol, r.fundingTime) =
        some ⟨r.fundingRate, k.openPrice, interval⟩ := by
      apply (hfilled _ _).mpr
      rw [hgaps]
      exact Or.inr ⟨(start, stop), List.mem_singleton.mpr rfl, r.fundingTime, ⟨hlo, hhi⟩, rfl, hrow⟩
    exact (mem_get_iff_cached _ _ _ _ _).mpr ⟨⟨_, hput⟩, hlo, hhi⟩

/-- Where the events are dense, a window filled at once has no gap left. -/
theorem gapsFrom_of_dense {s s₁ : FetchState} (h₁ : Agrees m symbol interval s₁)
    (hklines : OpensWithKline m symbol interval) {start stop : Int}
    (hdense : Dense m symbol interval start stop)
    (hempty : s.table.get exchangeName symbol start stop = [])
    (hfilled : Added m symbol interval (gapsFrom s symbol start stop) s.table s₁.table) :
    gapsFrom s₁ symbol start stop = [] := by
  obtain ⟨hevents, hrates⟩ := mem_get_of_filled h₁ hklines hempty hfilled
  have htolerance : ∀ ev ∈ s₁.table.get exchangeName symbol start stop,
      RateTable.tolerance ev = hours interval * 3 / 2 := by
    intro ev hev
    rw [RateTable.tolerance, (hevents ev hev).1]
  obtain ⟨r₀, hr₀, hnear⟩ := hdense.leading
  obtain ⟨r₁, hr₁, hnear'⟩ := hdense.trailing
  obtain ⟨ev₀, hev₀, htime₀⟩ := hrates r₀ hr₀
  obtain ⟨ev₁, hev₁, htime₁⟩ := hrates r₁ hr₁
  apply RateTable.gapsOf_eq_nil (RateTable.get_pairwise _ _ _ _ _) (List.ne_nil_of_mem hev₀)
  · intro first hfirst
    have hle := hfirst.2 ev₀ hev₀
    rw [htolerance first hfirst.1]
    omega
  · intro prev nxt hadj
    obtain ⟨-, r, hr, htime⟩ := hevents prev hadj.1
    obtain ⟨-, r', hr', htime'⟩ := hevents nxt hadj.2.1
    have hlt : r.fundingTime < r'.fundingTime := by
      have := hadj.2.2.1
      rw [htime, htime', fromMs_lt_fromMs] at this
      exact this
    have hshort := hdense.interior r hr r' hr' hlt ?_
    · rw [htolerance prev hadj.1, htime, htime']
      simp only [fromMs, hours]
      omega
    · intro q hq
      obtain ⟨ev, hev, hqtime⟩ := hrates q hq
      have hside := hadj.2.2.2 ev hev
      rw [hqtime, htime, htime', fromMs_le_fromMs, fromMs_le_fromMs] at hside
      exact hside
  · intro last hlast
    have hle := hlast.2 ev₁ hev₁
    rw [htolerance last hlast.1]
    omega

theorem ops_of_gapsFrom_nil (hinterval : reportedInterval m.info symbol = some interval)
    {s : FetchState} {start stop : Int} (hgaps : gapsFrom s symbol start stop = []) :
    ∀ o ∈ (fetchFundingRates symbol start stop).ops (perform m) none s,
      ∀ symbol' startTime endTime limit, o ≠ .fundingRate symbol' startTime endTime limit := by
  have hnil : RateTable.gapsOf start stop (s.table.get exchangeName symbol start stop) = [] := hgaps
  have hin : intervalIn symbol (m.info.getD []) = some interval := hinterval
  rcases hcached : s.intervalCache.get? symbol with _ | cached
  · simp only [fetchFundingRates, getInterval, intervalCached, getExchangeInfo, cacheInterval,
      missingRanges, cacheGet, Prog.call_bind, Prog.ret_bind, Prog.pure_eq, Prog.ops,
      Prog.ofExcept, perform, hcached, hin, hnil, fillGaps]
    simp
  · simp only [fetchFundingRates, getInterval, intervalCached, missingRanges, cacheGet,
      Prog.call_bind, Prog.ret_bind, Prog.pure_eq, Prog.ops, perform, hcached, hnil, fillGaps]
    simp

/-- **Fetching again changes nothing**: the second call returns the same list and leaves every
    row as it is.  Where the first one found nothing cached and the events are dense, the
    second asks for no rates.  Milliseconds are exact: November 2004 to January 2038
    (`TimeUtil`). -/
theorem fetchFundingRates_again (hklines : OpensWithKline m symbol interval)
    (hinterval : reportedInterval m.info symbol = some interval) {s s₁ : FetchState}
    (h : Agrees m symbol interval s) {start stop : Int} {events : List FundingEvent}
    (hrun : runAlone m (fetchFundingRates symbol start stop) s = (s₁, .ok events)) :
    (∃ s₂, runAlone m (fetchFundingRates symbol start stop) s₁ = (s₂, .ok events) ∧
      ∀ key, s₂.table.get? key = s₁.table.get? key) ∧
    (Dense m symbol interval start stop →
      s.table.get exchangeName symbol start stop = [] →
      ∀ o ∈ (fetchFundingRates symbol start stop).ops (perform m) none s₁,
        ∀ symbol' startTime endTime limit,
          o ≠ .fundingRate symbol' startTime endTime limit) := by
  have hpos := m.interval_pos symbol interval hinterval
  obtain ⟨s₁', hfirst, hagrees, hfilled⟩ :=
    fetchFundingRates_alone hklines hinterval h start stop
  rw [hrun, Prod.mk.injEq, Except.ok.injEq] at hfirst
  obtain ⟨rfl, rfl⟩ := hfirst
  constructor
  · obtain ⟨s₂, hsecond, -, hrest⟩ :=
      fetchFundingRates_alone hklines hinterval hagrees start stop
    have hsame := refill_eq h hagrees hpos hfilled (fun _ hgap => hgap) hrest hfilled
    refine ⟨s₂, ?_, hsame⟩
    rw [hsecond, get_eq_of_get?_eq hsame]
  · intro hdense hempty
    exact ops_of_gapsFrom_nil hinterval (gapsFrom_of_dense hagrees hklines hdense hempty hfilled)

/-- Three settlements about eight hours apart, each with a kline that opens with it. -/
def exactMarket : Market :=
  Market.single "BTCUSDT" 8
    [⟨1767225600007, .finite false 3 (-4)⟩, ⟨1767254400000, .finite false 1 (-4)⟩,
      ⟨1767283200003, .finite true 2 (-4)⟩]
    [⟨1767225600007, .finite false 91000 0⟩, ⟨1767254400000, .finite false 92000 0⟩,
      ⟨1767283200003, .finite false 90000 0⟩]
    (by decide) (by decide) eightHours_pos

theorem fetchFundingRates_again_exact :
    ∃ s₁ events,
      runAlone exactMarket (fetchFundingRates "BTCUSDT" 1767225600000000 1767290000000000)
        .empty = (s₁, .ok events) ∧ events.length = 3 ∧
      (∃ s₂, runAlone exactMarket (fetchFundingRates "BTCUSDT" 1767225600000000
        1767290000000000) s₁ = (s₂, .ok events)) ∧
      ∀ o ∈ (fetchFundingRates "BTCUSDT" 1767225600000000 1767290000000000).ops
        (perform exactMarket) none s₁, ∀ symbol' startTime endTime limit,
          o ≠ .fundingRate symbol' startTime endTime limit := by
  have hklines : OpensWithKline exactMarket "BTCUSDT" 8 := by decide +kernel
  have hagain := fetchFundingRates_again hklines rfl ((cacheSound_empty exactMarket).agrees rfl)
    (Prod.ext rfl rfl : runAlone exactMarket
      (fetchFundingRates "BTCUSDT" 1767225600000000 1767290000000000) .empty = (_, .ok _))
  obtain ⟨⟨s₂, hsecond, -⟩, hquiet⟩ := hagain
  refine ⟨_, _, Prod.ext rfl rfl, ?_, ⟨s₂, hsecond⟩, hquiet ?_ rfl⟩
  · decide +kernel
  · exact ⟨by decide +kernel, by decide +kernel, by decide +kernel⟩

end FundingTool.BinanceUsdm
