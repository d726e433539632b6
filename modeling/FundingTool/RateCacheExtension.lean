import FundingTool.FetchRuns

/-!
# When a warm cache can be extended

The klines of a gap are asked for with the start of the gap, and a gap behind a cached
event starts one interval after that event, its drift included.  The kline a later event
needs may open before that.

Whatever calls have filled the cache, a call that an empty cache would answer fails with
a missing mark price exactly when some gap behind a cached event holds a funding event
and no kline that opens in the gap up to that event.
-/

namespace FundingTool.BinanceUsdm

open FundingTool.TransitionSystem FundingTool.Interaction FundingTool.CursorPaging

variable {m : Market} {symbol : String}

/-! ## 1. Gaps that hold their klines -/

/-- Every funding event of the range has a kline of the range at or before it. -/
def HasKlines (m : Market) (symbol : String) (interval start stop : Int) : Prop :=
  ∀ r ∈ ratesIn m symbol start stop,
    ∃ k ∈ m.klines symbol interval, toMs start ≤ k.openTime ∧ k.openTime ≤ r.fundingTime

instance (interval start stop : Int) : Decidable (HasKlines m symbol interval start stop) :=
  inferInstanceAs (Decidable (∀ _ ∈ _, _))

/-- Every gap behind a cached event of the window holds the klines of its events. -/
def GapsHaveKlines (m : Market) (symbol : String) (stop : Int) (cached : List FundingEvent) :
    Prop :=
  ∀ prev ∈ cached,
    (∀ nxt ∈ cached, RateTable.Adjacent cached prev nxt →
      RateTable.tolerance prev < nxt.timestamp - prev.timestamp →
      HasKlines m symbol prev.intervalHours (prev.timestamp + hours prev.intervalHours)
        nxt.timestamp) ∧
    (RateTable.IsLast cached prev → RateTable.tolerance prev < stop - prev.timestamp →
      HasKlines m symbol prev.intervalHours (prev.timestamp + hours prev.intervalHours) stop)

instance (stop : Int) (cached : List FundingEvent) :
    Decidable (GapsHaveKlines m symbol stop cached) :=
  inferInstanceAs (Decidable (∀ _ ∈ _, _))

theorem Joined.hasKlines {interval start stop : Int}
    (h : Joined m symbol interval (start, stop)) : HasKlines m symbol interval start stop := by
  intro r hr
  obtain ⟨k, hfloor, hopen, -⟩ := h r hr
  exact ⟨k, hfloor.1, hopen, hfloor.2.1⟩

/-- A part of a joined range is joined when it holds its klines: the floor of an event is
    no earlier than any of them. -/
theorem Joined.restrict {interval start stop start' stop' : Int}
    (h : Joined m symbol interval (start, stop)) (hstart : toMs start ≤ toMs start')
    (hstop : toMs stop' ≤ toMs stop) (hklines : HasKlines m symbol interval start' stop') :
    Joined m symbol interval (start', stop') := by
  intro r hr
  obtain ⟨hmem, hlo, hhi⟩ := mem_ratesIn.mp hr
  obtain ⟨k, hfloor, -, hwithin⟩ := h r (mem_ratesIn.mpr ⟨hmem, le_trans hstart hlo, le_trans hhi hstop⟩)
  obtain ⟨k', hk', hopen, hle⟩ := hklines r hr
  refine ⟨k, hfloor, ?_, hwithin⟩
  exact le_trans hopen (hfloor.2.2 k' hk' hle)

theorem Joined.initial {interval start stop stop' : Int}
    (h : Joined m symbol interval (start, stop)) (hstop : toMs stop' ≤ toMs stop) :
    Joined m symbol interval (start, stop') := by
  intro r hr
  obtain ⟨hmem, hlo, hhi⟩ := mem_ratesIn.mp hr
  exact h r (mem_ratesIn.mpr ⟨hmem, hlo, le_trans hhi hstop⟩)

/-! ## 2. A warm cache -/

/-- Where an empty cache answers, all gaps are joined exactly when those behind a cached
    event hold their klines. -/
theorem joined_iff_gapsHaveKlines {s : FetchState} (h : CacheSound m s) {interval : Int}
    (hinterval : reportedInterval m.info symbol = some interval) {start stop : Int}
    (hwindow : Joined m symbol interval (start, stop)) :
    (∀ gap ∈ gapsFrom s symbol start stop, Joined m symbol interval gap) ↔
      GapsHaveKlines m symbol stop (s.table.get exchangeName symbol start stop) := by
  have hasc := RateTable.get_pairwise s.table exchangeName symbol start stop
  have hanswer := answerSound_get h symbol start stop
  have hsame : ∀ ev ∈ s.table.get exchangeName symbol start stop,
      ev.intervalHours = interval := by
    intro ev hev
    have hreported := (hanswer.genuine ev hev).2.interval
    rw [hinterval, Option.some.injEq] at hreported
    exact hreported.symm
  constructor
  · intro hall prev hprev
    rw [hsame prev hprev]
    refine ⟨?_, ?_⟩
    · intro nxt _ hadj htol
      apply Joined.hasKlines
      apply hall
      exact (RateTable.mem_gapsOf hasc).mpr (Or.inr (Or.inr (Or.inl
        ⟨prev, nxt, hadj, htol, by rw [hsame prev hprev]⟩)))
    · intro hlast htol
      apply Joined.hasKlines
      apply hall
      exact (RateTable.mem_gapsOf hasc).mpr (Or.inr (Or.inr (Or.inr
        ⟨prev, hlast, htol, by rw [hsame prev hprev]⟩)))
  · intro hklines gap hgap
    have hlater : ∀ ev ∈ s.table.get exchangeName symbol start stop,
        toMs start ≤ toMs (ev.timestamp + hours ev.intervalHours) := by
      intro ev hev
      have hpos := m.interval_pos symbol interval hinterval
      have hlo := (hanswer.inWindow ev hev).1
      have hle : ev.timestamp ≤ ev.timestamp + hours ev.intervalHours := by
        rw [hsame ev hev, hours]
        omega
      exact le_trans hlo (toMs_mono hle)
    rcases (RateTable.mem_gapsOf hasc).mp hgap with ⟨-, rfl⟩ | ⟨first, hfirst, -, rfl⟩ |
      ⟨prev, nxt, hadj, htol, rfl⟩ | ⟨last, hlast, htol, rfl⟩
    · exact hwindow
    · exact hwindow.initial (hanswer.inWindow first hfirst.1).2
    · apply hwindow.restrict (hlater prev hadj.1) (hanswer.inWindow nxt hadj.2.1).2
      rw [← hsame prev hadj.1]
      exact (hklines prev hadj.1).1 nxt hadj.2.1 hadj htol
    · apply hwindow.restrict (hlater last hlast.1) (le_refl _)
      rw [← hsame last hlast.1]
      exact (hklines last hlast.1).2 hlast htol

/-- **When a warm cache can be extended.**  Let any calls, interleaved and aborted in any
    way, have filled the cache, and let the call succeed on an empty one.  It raises no
    missing mark price exactly when every gap behind a cached event of the window holds
    the klines of its funding events.  Times are exact milliseconds, which the floats of the
    source are from November 2004 to January 2038 (`TimeUtil`). -/
theorem fetchFundingRates_extends_iff
    {p : Pool FetchOp FetchOp.Resp FundingToolError CacheAnswer FetchState CacheCall}
    (h : CacheReachable m p) {start stop : Int}
    (hempty : ∃ s₀ events₀,
      runAlone m (fetchFundingRates symbol start stop) .empty = (s₀, .ok events₀)) :
    (∀ timestamp symbol', (runAlone m (fetchFundingRates symbol start stop) p.state).2 ≠
      .error (.missingMarkPrice timestamp symbol')) ↔
    GapsHaveKlines m symbol stop (p.state.table.get exchangeName symbol start stop) := by
  have hsound := (Machine.Reachable.sound (program_safe m) (cacheSound_empty m) h).1
  obtain ⟨s₀, events₀, hrun₀⟩ := hempty
  obtain ⟨interval, hinterval, hjoined₀, -⟩ := fetchFundingRates_ok (cacheSound_empty m) hrun₀
  have hwindow : Joined m symbol interval (start, stop) :=
    hjoined₀ (start, stop) (List.mem_singleton.mpr rfl)
  rw [← joined_iff_gapsHaveKlines hsound hinterval hwindow]
  rcases fetchFundingRates_run hsound hinterval start stop with
    ⟨hall, s', hrun, -⟩ | ⟨⟨bad, hbad, hnot⟩, s', ts, hrun⟩
  · rw [hrun]
    exact iff_of_true (by simp) hall
  · rw [hrun]
    refine iff_of_false ?_ ?_
    · intro hnever
      exact hnever ts symbol rfl
    · intro hall
      exact hnot (hall bad hbad)

/-- The second settlement, which came on time, is read and cached. -/
def readSecond : List (PoolAct CacheCall (Option FundingToolError) FundingToolError) :=
  .spawn (.fetch "BTCUSDT" 1767254400000000 1767258000000000) :: List.replicate 8 (.advance 0 none)

theorem fetchFundingRates_extends_iff_onTime :
    ∃ p, CacheReachable driftingMarket p ∧
      ∀ timestamp symbol', (runAlone driftingMarket
        (fetchFundingRates "BTCUSDT" 1767254400000000 1767311999000000) p.state).2 ≠
        .error (.missingMarkPrice timestamp symbol') := by
  have hreach : CacheReachable driftingMarket _ := play_get_reaches readSecond (by decide +kernel)
  refine ⟨_, hreach, (fetchFundingRates_extends_iff hreach ⟨_, _, rfl⟩).mpr ?_⟩
  decide +kernel

/-- Two settlements on an eight-hour grid, seven and thirteen milliseconds late. -/
def lateMarket : Market :=
  Market.single "BTCUSDT" 8
    [⟨1767225600007, .finite false 1 (-4)⟩, ⟨1767254400013, .finite false 2 (-4)⟩]
    [⟨1767225600000, .finite false 87000 0⟩, ⟨1767254400000, .finite false 88000 0⟩]
    (by decide) (by decide) eightHours_pos

/-- The first settlement is read and cached. -/
def readFirst : List (PoolAct CacheCall (Option FundingToolError) FundingToolError) :=
  .spawn (.fetch "BTCUSDT" 1767225600000000 1767240000000000) :: List.replicate 8 (.advance 0 none)

/-- **A warm cache fails.**  Every settlement has a kline at most thirteen milliseconds
    older, and an empty cache answers; with the first settlement cached the gap starts
    seven milliseconds after the kline of the second. -/
theorem fetchFundingRates_spurious_failure :
    (∀ r ∈ lateMarket.rates "BTCUSDT", ∃ k ∈ lateMarket.klines "BTCUSDT" 8,
      k.openTime ≤ r.fundingTime ∧ r.fundingTime - k.openTime ≤ 13) ∧
    (∃ events₀, (runAlone lateMarket
      (fetchFundingRates "BTCUSDT" 1767225600000000 1767283199999000) .empty).2 = .ok events₀) ∧
    ∃ p, CacheReachable lateMarket p ∧
      (runAlone lateMarket
        (fetchFundingRates "BTCUSDT" 1767225600000000 1767283199999000) p.state).2 =
        .error (.missingMarkPrice 1767254400013000 "BTCUSDT") := by
  refine ⟨by decide +kernel, ⟨_, rfl⟩, _, play_get_reaches readFirst (by decide +kernel), ?_⟩
  decide +kernel

end FundingTool.BinanceUsdm
