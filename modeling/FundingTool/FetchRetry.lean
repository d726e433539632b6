import FundingTool.FetchIdempotence

/-!
# Retrying a failed fetch

A call stopped by an error or a cancellation leaves the gaps filled that it had finished, and a
later call of the same window does the rest: what both do is what one call would have done.

This needs rows that agree with the exchange.  The gap before the first cached event ends with
that event, which is fetched again and replaced.  If it was cached when another interval was
reported, its row changes, and with it the gap behind it: then the retry answers otherwise than
one call would have.
-/

namespace FundingTool.BinanceUsdm

open FundingTool.Interaction FundingTool.CursorPaging

variable {m : Market} {symbol : String} {interval : Int}

/-- **Retrying is harmless.**  When a call stops, the rows that were there are unchanged, and
    new are those of all events of the gaps it had finished.  A later call that returns gives
    the list, and leaves the rows, of one undisturbed call.  Milliseconds are exact: November
    2004 to January 2038 (`TimeUtil`). -/
theorem fetchFundingRates_retry (hklines : OpensWithKline m symbol interval)
    (hinterval : reportedInterval m.info symbol = some interval) {s s₁ : FetchState}
    (h : Agrees m symbol interval s) {start stop : Int} {cs : Nat → Option FundingToolError}
    {e : FundingToolError}
    (hfail : (fetchFundingRates symbol start stop).runWith (perform m) cs s = (s₁, .error e)) :
    (∀ key row, s.table.get? key = some row → s₁.table.get? key = some row) ∧
    (∃ n, (∀ k, Finishes m symbol start stop cs s k ↔ k < n) ∧
      Added m symbol interval ((gapsFrom s symbol start stop).take n) s.table s₁.table) ∧
    ∀ cs' s₂ events,
      (fetchFundingRates symbol start stop).runWith (perform m) cs' s₁ = (s₂, .ok events) →
      ∃ s', runAlone m (fetchFundingRates symbol start stop) s = (s', .ok events) ∧
        ∀ key, s₂.table.get? key = s'.table.get? key := by
  have hpos := m.interval_pos symbol interval hinterval
  rcases fetchFundingRates_runWith hklines hinterval h start stop cs with
    ⟨s', hrun, -⟩ | ⟨n, s', e', hrun, hagrees, hdone, hfinished⟩
  · rw [hfail, Prod.mk.injEq] at hrun
    cases hrun.2
  · rw [hfail, Prod.mk.injEq, Except.error.injEq] at hrun
    obtain ⟨rfl, rfl⟩ := hrun
    refine ⟨fun _ _ hget => hdone.get?_of_get? hget, ⟨n, hfinished, hdone⟩, ?_⟩
    intro cs' s₂ events hretry
    rcases fetchFundingRates_runWith hklines hinterval hagrees start stop cs' with
      ⟨s₂', hrun, -, hrest⟩ | ⟨_, s₂', e', hrun, _⟩
    · rw [hretry, Prod.mk.injEq, Except.ok.injEq] at hrun
      obtain ⟨rfl, rfl⟩ := hrun
      obtain ⟨s', honce, -, hall⟩ := fetchFundingRates_alone hklines hinterval h start stop
      have hsame := refill_eq h hagrees hpos hdone
        (fun _ hgap => List.mem_of_mem_take hgap) hrest hall
      refine ⟨s', ?_, hsame⟩
      rw [honce, get_eq_of_get?_eq hsame]
    · rw [hretry, Prod.mk.injEq] at hrun
      cases hrun.2

/-- The second settlement, read from an empty cache. -/
def secondCached : FetchState :=
  (runAlone exactMarket (fetchFundingRates "BTCUSDT" 1767254400000000 1767258000000000) .empty).1

/-- Only the operation `n` is disturbed: the call is cancelled there. -/
def cancelledAt (n : Nat) : Nat → Option FundingToolError :=
  fun i => if i = n then some .cancelled else none

/-- Cancelled in the second gap of the window, and retried. -/
theorem fetchFundingRates_retry_cancelled :
    ∃ s₁ s₂ events,
      (fetchFundingRates "BTCUSDT" 1767207600000000 1767301200000000).runWith
        (perform exactMarket) (cancelledAt 6) secondCached = (s₁, .error .cancelled) ∧
      (s₁.table.get exchangeName "BTCUSDT" 1767207600000000 1767301200000000).length = 2 ∧
      (fetchFundingRates "BTCUSDT" 1767207600000000 1767301200000000).runWith
        (perform exactMarket) (fun _ => none) s₁ = (s₂, .ok events) ∧
      events.length = 3 ∧
      ∃ s', runAlone exactMarket (fetchFundingRates "BTCUSDT" 1767207600000000
        1767301200000000) secondCached = (s', .ok events) := by
  have hklines : OpensWithKline exactMarket "BTCUSDT" 8 := by decide +kernel
  have hagrees : Agrees exactMarket "BTCUSDT" 8 secondCached :=
    (fetchFundingRates_cacheSound (cacheSound_empty exactMarket) _ _ _).agrees rfl
  have hretry := fetchFundingRates_retry hklines rfl hagrees (Prod.ext rfl rfl :
    (fetchFundingRates "BTCUSDT" 1767207600000000 1767301200000000).runWith
      (perform exactMarket) (cancelledAt 6) secondCached = (_, .error .cancelled))
  obtain ⟨s', honce, -⟩ := hretry.2.2 (fun _ => none) _ _ (Prod.ext rfl rfl)
  refine ⟨_, _, _, Prod.ext rfl rfl, ?_, Prod.ext rfl rfl, ?_, s', honce⟩
  · decide +kernel
  · decide +kernel

/-- Settlements every four hours, each with a kline that opens with it. -/
def fourHourMarket : Market :=
  Market.single "BTCUSDT" 4
    [⟨1767225600000, .finite false 1 (-4)⟩, ⟨1767240000000, .finite false 2 (-4)⟩,
      ⟨1767254400000, .finite false 3 (-4)⟩, ⟨1767268800000, .finite false 4 (-4)⟩,
      ⟨1767283200000, .finite false 5 (-4)⟩, ⟨1767297600000, .finite false 6 (-4)⟩]
    [⟨1767225600000, .finite false 87000 0⟩, ⟨1767240000000, .finite false 88000 0⟩,
      ⟨1767254400000, .finite false 89000 0⟩, ⟨1767268800000, .finite false 90000 0⟩,
      ⟨1767283200000, .finite false 91000 0⟩, ⟨1767297600000, .finite false 92000 0⟩]
    (by decide) (by decide) (by decide)

/-- The fifth settlement, cached when eight hours were reported. -/
def eightHourRow : FetchState where
  intervalCache := OrderedDict.empty
  table := RateTable.insertOrReplace OrderedDict.empty exchangeName "BTCUSDT"
    ⟨1767283200000000, "BTCUSDT", .finite false 5 (-4), .finite false 91000 0, 8⟩

/-- **A row changes, and the retry gives another list.** -/
theorem fetchFundingRates_retry_other_interval :
    OpensWithKline fourHourMarket "BTCUSDT" 4 ∧
    reportedInterval fourHourMarket.info "BTCUSDT" = some 4 ∧
    ∃ s₁,
      (fetchFundingRates "BTCUSDT" 1767225600000000 1767398400000000).runWith
        (perform fourHourMarket) (cancelledAt 11) eightHourRow = (s₁, .error .cancelled) ∧
      eightHourRow.table.get? (exchangeName, "BTCUSDT", 1767283200000) =
        some ⟨.finite false 5 (-4), .finite false 91000 0, 8⟩ ∧
      s₁.table.get? (exchangeName, "BTCUSDT", 1767283200000) =
        some ⟨.finite false 5 (-4), .finite false 91000 0, 4⟩ ∧
      ∃ events₂ events',
        (runAlone fourHourMarket (fetchFundingRates "BTCUSDT" 1767225600000000
          1767398400000000) s₁).2 = .ok events₂ ∧
        (runAlone fourHourMarket (fetchFundingRates "BTCUSDT" 1767225600000000
          1767398400000000) eightHourRow).2 = .ok events' ∧
        events₂.length = 6 ∧ events'.length = 5 := by
  refine ⟨by decide +kernel, rfl, _, Prod.ext rfl ?_, by decide +kernel, ?_, _, _, rfl, rfl, ?_, ?_⟩
  · decide +kernel
  · decide +kernel
  · decide +kernel
  · decide +kernel

end FundingTool.BinanceUsdm
