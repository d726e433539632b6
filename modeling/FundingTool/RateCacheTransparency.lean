import FundingTool.FetchRuns

/-!
# When the cache is transparent

`missing_ranges` is to report a gap around every funding event of the window that is not
cached.  It passes some over: an event in a stretch of at most one and a half intervals,
and an event less than one interval after the cached event before it, since the gap
starts one interval after that event, its drift included.  `Overlooked` says where such
an event lies.

After any sequence of successful calls, a call is transparent exactly when no funding
event of its window that is not cached is overlooked.
-/

namespace FundingTool

/-! ## 1. Times no gap covers -/

namespace RateTable

/-- The gap computation passes over the time `t`. -/
def Overlooked (cached : List FundingEvent) (start stop t : Int) : Prop :=
  (∃ first ∈ cached, IsFirst cached first ∧ t < first.timestamp ∧
    first.timestamp - start ≤ tolerance first) ∨
  (∃ prev ∈ cached, ∃ nxt ∈ cached, Adjacent cached prev nxt ∧ prev.timestamp < t ∧
    t < nxt.timestamp ∧ (nxt.timestamp - prev.timestamp ≤ tolerance prev ∨
      t < prev.timestamp + hours prev.intervalHours)) ∨
  (∃ last ∈ cached, IsLast cached last ∧ last.timestamp < t ∧
    (stop - last.timestamp ≤ tolerance last ∨ t < last.timestamp + hours last.intervalHours))

instance (cached : List FundingEvent) (start stop t : Int) :
    Decidable (Overlooked cached start stop t) :=
  inferInstanceAs (Decidable (_ ∨ _ ∨ _))

/-- The millisecond `ms` lies in a gap, as the requests for the gap see it. -/
def InGap (gap : Int × Int) (ms : Int) : Prop := toMs gap.1 ≤ ms ∧ ms ≤ toMs gap.2

variable {cached : List FundingEvent} {start stop ms t : Int}

/-- Cached times are whole milliseconds. -/
def OnMs (cached : List FundingEvent) : Prop :=
  ∀ ev ∈ cached, ev.timestamp = fromMs (toMs ev.timestamp)

theorem le_toMs_iff {ev : FundingEvent} (hms : OnMs cached) (hev : ev ∈ cached) :
    ms ≤ toMs ev.timestamp ↔ fromMs ms ≤ ev.timestamp := by
  rw [hms ev hev, toMs_fromMs, fromMs_le_fromMs]

theorem toMs_add_hours_le_iff {ev : FundingEvent} (hms : OnMs cached) (hev : ev ∈ cached)
    (h : Int) : toMs (ev.timestamp + hours h) ≤ ms ↔ ev.timestamp + hours h ≤ fromMs ms := by
  rw [hms ev hev, toMs_fromMs_add_hours]
  simp only [fromMs, hours]
  omega

theorem Adjacent.unique (hasc : cached.Pairwise fun a b => a.timestamp < b.timestamp)
    {prev nxt prev' nxt' : FundingEvent} {t : Int} (h : Adjacent cached prev nxt)
    (h' : Adjacent cached prev' nxt') (ht : prev.timestamp < t ∧ t < nxt.timestamp)
    (ht' : prev'.timestamp < t ∧ t < nxt'.timestamp) : prev = prev' ∧ nxt = nxt' := by
  have hp := h.2.2.2 prev' h'.1
  have hn := h.2.2.2 nxt' h'.2.1
  have hp' := h'.2.2.2 prev h.1
  have hn' := h'.2.2.2 nxt h.2.1
  exact ⟨eq_of_timestamp hasc h.1 h'.1 (by omega), eq_of_timestamp hasc h.2.1 h'.2.1 (by omega)⟩

/-- Where a time that is not cached lies when it lies in a gap. -/
theorem inGap_cases (hasc : cached.Pairwise fun a b => a.timestamp < b.timestamp)
    (hms : OnMs cached) (hnew : ∀ ev ∈ cached, ev.timestamp ≠ fromMs ms) {gap : Int × Int}
    (hgap : gap ∈ gapsOf start stop cached) (hin : InGap gap ms) :
    (cached = [] ∧ gap = (start, stop)) ∨
      (∃ first, IsFirst cached first ∧ tolerance first < first.timestamp - start ∧
        fromMs ms < first.timestamp ∧ gap = (start, first.timestamp)) ∨
      (∃ prev nxt, Adjacent cached prev nxt ∧
        tolerance prev < nxt.timestamp - prev.timestamp ∧
        prev.timestamp + hours prev.intervalHours ≤ fromMs ms ∧ fromMs ms < nxt.timestamp ∧
        gap = (prev.timestamp + hours prev.intervalHours, nxt.timestamp)) ∨
      ∃ last, IsLast cached last ∧ tolerance last < stop - last.timestamp ∧
        last.timestamp + hours last.intervalHours ≤ fromMs ms ∧
        gap = (last.timestamp + hours last.intervalHours, stop) := by
  rcases (mem_gapsOf hasc).mp hgap with hnil | ⟨first, hfirst, htol, rfl⟩ |
    ⟨prev, nxt, hadj, htol, rfl⟩ | ⟨last, hlast, htol, rfl⟩
  · exact Or.inl hnil
  · have hle := (le_toMs_iff hms hfirst.1).mp hin.2
    exact Or.inr (Or.inl ⟨first, hfirst, htol,
      lt_of_le_of_ne hle (Ne.symm (hnew first hfirst.1)), rfl⟩)
  · have hle := (le_toMs_iff hms hadj.2.1).mp hin.2
    have hge := (toMs_add_hours_le_iff hms hadj.1 _).mp hin.1
    exact Or.inr (Or.inr (Or.inl ⟨prev, nxt, hadj, htol, hge,
      lt_of_le_of_ne hle (Ne.symm (hnew nxt hadj.2.1)), rfl⟩))
  · have hge := (toMs_add_hours_le_iff hms hlast.1 _).mp hin.1
    exact Or.inr (Or.inr (Or.inr ⟨last, hlast, htol, hge, rfl⟩))

theorem overlooked_before_iff {first : FundingEvent} (hfirst : IsFirst cached first)
    (hasc : cached.Pairwise fun a b => a.timestamp < b.timestamp) (hlt : t < first.timestamp) :
    Overlooked cached start stop t ↔ first.timestamp - start ≤ tolerance first := by
  constructor
  · rintro (⟨first', -, hfirst', -, hshort⟩ | ⟨prev, hprev, -, -, -, hgt, -⟩ |
      ⟨last, hlast, -, hgt, -⟩)
    · have heq : first = first' := eq_of_timestamp hasc hfirst.1 hfirst'.1
        (le_antisymm (hfirst.2 _ hfirst'.1) (hfirst'.2 _ hfirst.1))
      rw [heq]
      exact hshort
    · have := hfirst.2 prev hprev
      omega
    · have := hfirst.2 last hlast
      omega
  · exact fun hshort => Or.inl ⟨first, hfirst.1, hfirst, hlt, hshort⟩

theorem overlooked_between_iff {prev nxt : FundingEvent} (hadj : Adjacent cached prev nxt)
    (hasc : cached.Pairwise fun a b => a.timestamp < b.timestamp) (hgt : prev.timestamp < t)
    (hlt : t < nxt.timestamp) : Overlooked cached start stop t ↔
      nxt.timestamp - prev.timestamp ≤ tolerance prev ∨
        t < prev.timestamp + hours prev.intervalHours := by
  constructor
  · rintro (⟨first, -, hfirst, hbefore, -⟩ | ⟨prev', -, nxt', -, hadj', hgt', hlt', hpassed⟩ |
      ⟨last, -, hlast, hafter, -⟩)
    · have := hfirst.2 prev hadj.1
      omega
    · obtain ⟨rfl, rfl⟩ := hadj.unique hasc hadj' ⟨hgt, hlt⟩ ⟨hgt', hlt'⟩
      exact hpassed
    · have := hlast.2 nxt hadj.2.1
      omega
  · exact fun hpassed =>
      Or.inr (Or.inl ⟨prev, hadj.1, nxt, hadj.2.1, hadj, hgt, hlt, hpassed⟩)

theorem overlooked_after_iff {last : FundingEvent} (hlast : IsLast cached last)
    (hasc : cached.Pairwise fun a b => a.timestamp < b.timestamp) (hgt : last.timestamp < t) :
    Overlooked cached start stop t ↔
      stop - last.timestamp ≤ tolerance last ∨ t < last.timestamp + hours last.intervalHours := by
  constructor
  · rintro (⟨first, hmem, -, hlt, -⟩ | ⟨-, -, nxt, hnxt, -, -, hlt, -⟩ |
      ⟨last', -, hlast', -, hpassed⟩)
    · have := hlast.2 first hmem
      omega
    · have := hlast.2 nxt hnxt
      omega
    · have heq : last = last' := eq_of_timestamp hasc hlast.1 hlast'.1
        (le_antisymm (hlast'.2 _ hlast.1) (hlast.2 _ hlast'.1))
      rw [heq]
      exact hpassed
  · exact fun hpassed => Or.inr (Or.inr ⟨last, hlast.1, hlast, hgt, hpassed⟩)

/-- **A time of the window that is not cached lies in a gap, or it is overlooked.** -/
theorem inGap_iff_not_overlooked
    (hasc : cached.Pairwise fun a b => a.timestamp < b.timestamp) (hms : OnMs cached)
    (hpos : ∀ ev ∈ cached, 0 < ev.intervalHours) (hlo : toMs start ≤ ms) (hhi : ms ≤ toMs stop)
    (hnew : ∀ ev ∈ cached, ev.timestamp ≠ fromMs ms) :
    (∃ gap ∈ gapsOf start stop cached, InGap gap ms) ↔
      ¬ Overlooked cached start stop (fromMs ms) := by
  have hlater : ∀ ev ∈ cached, ev.timestamp + hours ev.intervalHours ≤ fromMs ms →
      ev.timestamp < fromMs ms := by
    intro ev hev hge
    have hev_pos := hpos ev hev
    simp only [hours] at hge
    omega
  constructor
  · rintro ⟨gap, hgap, hin⟩
    rcases inGap_cases hasc hms hnew hgap hin with ⟨rfl, -⟩ | ⟨first, hfirst, htol, hlt, -⟩ |
      ⟨prev, nxt, hadj, htol, hge, hlt, -⟩ | ⟨last, hlast, htol, hge, -⟩
    · simp [Overlooked]
    · rw [overlooked_before_iff hfirst hasc hlt]
      omega
    · rw [overlooked_between_iff hadj hasc (hlater prev hadj.1 hge) hlt]
      omega
    · rw [overlooked_after_iff hlast hasc (hlater last hlast.1 hge)]
      omega
  · intro hover
    by_cases hne : cached = []
    · exact ⟨(start, stop), (mem_gapsOf hasc).mpr (Or.inl ⟨hne, rfl⟩), hlo, hhi⟩
    · rcases locate hasc hne hnew with ⟨first, hfirst, hlt⟩ | ⟨prev, nxt, hadj, hgt, hlt⟩ |
        ⟨last, hlast, hgt⟩
      · rw [overlooked_before_iff hfirst hasc hlt, not_le] at hover
        exact ⟨(start, first.timestamp),
          (mem_gapsOf hasc).mpr (Or.inr (Or.inl ⟨first, hfirst, hover, rfl⟩)), hlo,
          (le_toMs_iff hms hfirst.1).mpr (le_of_lt hlt)⟩
      · rw [overlooked_between_iff hadj hasc hgt hlt, not_or, not_le, not_lt] at hover
        exact ⟨_, (mem_gapsOf hasc).mpr (Or.inr (Or.inr (Or.inl ⟨prev, nxt, hadj, hover.1, rfl⟩))),
          (toMs_add_hours_le_iff hms hadj.1 _).mpr hover.2,
          (le_toMs_iff hms hadj.2.1).mpr (le_of_lt hlt)⟩
      · rw [overlooked_after_iff hlast hasc hgt, not_or, not_le, not_lt] at hover
        exact ⟨_, (mem_gapsOf hasc).mpr (Or.inr (Or.inr (Or.inr ⟨last, hlast, hover.1, rfl⟩))),
          (toMs_add_hours_le_iff hms hlast.1 _).mpr hover.2, hhi⟩

end RateTable

/-! ## 2. Transparency of a call -/

namespace BinanceUsdm

open FundingTool.TransitionSystem FundingTool.Interaction FundingTool.CursorPaging

/-- A call made on its own, when it succeeds. -/
def succeed (m : Market) (s : FetchState) (call : CacheCall) : Option FetchState :=
  match runAlone m call.program s with
  | (s', .ok _) => some s'
  | (_, .error _) => none

theorem succeed_cacheSound {m : Market} {s s' : FetchState} {call : CacheCall}
    (h : CacheSound m s) (hstep : succeed m s call = some s') : CacheSound m s' := by
  have hsound := ((program_safe m call).run (c := none) (fun _ _ _ => trivial) h).1
  unfold succeed at hstep
  rcases hrun : runAlone m call.program s with ⟨s₁, e | a⟩
  · rw [hrun] at hstep
    cases hstep
  · rw [hrun, Option.some.injEq] at hstep
    rw [runAlone] at hrun
    rw [hrun] at hsound
    rw [← hstep]
    exact hsound

theorem succeeded_cacheSound {m : Market} {s : FetchState}
    (h : Reaches (succeed m) Unguarded .empty s) : CacheSound m s :=
  h.invariant (cacheSound_empty m) fun _ _ _ hinv _ hstep => succeed_cacheSound hinv hstep

theorem fetchFundingRates_cacheSound {m : Market} {s : FetchState} (h : CacheSound m s)
    (symbol : String) (start stop : Int) :
    CacheSound m (runAlone m (fetchFundingRates symbol start stop) s).1 :=
  (Prog.Safe.run (@fetchFundingRates_safe m (fun _ _ _ => True) symbol start stop)
    (fun _ _ _ => trivial) h).1

/-- Every funding event of the window is in the list. -/
def Complete (m : Market) (symbol : String) (start stop : Int) (events : List FundingEvent) :
    Prop :=
  ∀ r ∈ ratesIn m symbol start stop, ∃ ev ∈ events, ev.timestamp = fromMs r.fundingTime

theorem mem_get_iff_cached (table : RateTable) (symbol : String) (start stop ms : Int) :
    (∃ ev ∈ table.get exchangeName symbol start stop, ev.timestamp = fromMs ms) ↔
      Cached table symbol ms ∧ toMs start ≤ ms ∧ ms ≤ toMs stop := by
  constructor
  · rintro ⟨ev, hev, htime⟩
    obtain ⟨ms', row, hget, hlo, hhi, rfl⟩ := RateTable.mem_get.mp hev
    rw [RateTable.toEvent, fromMs_inj] at htime
    subst htime
    exact ⟨⟨row, hget⟩, hlo, hhi⟩
  · rintro ⟨⟨row, hget⟩, hlo, hhi⟩
    exact ⟨_, RateTable.mem_get.mpr ⟨ms, row, hget, hlo, hhi, rfl⟩, rfl⟩

theorem get_eq_of_complete {m : Market} {s s' : FetchState} (h : CacheSound m s)
    (h' : CacheSound m s') {symbol : String} {start stop : Int}
    (hall : Complete m symbol start stop (s.table.get exchangeName symbol start stop))
    (hall' : Complete m symbol start stop (s'.table.get exchangeName symbol start stop)) :
    s.table.get exchangeName symbol start stop = s'.table.get exchangeName symbol start stop := by
  have hhalf : ∀ {s₁ s₂ : FetchState}, CacheSound m s₁ → CacheSound m s₂ →
      Complete m symbol start stop (s₂.table.get exchangeName symbol start stop) →
      ∀ {ms row}, toMs start ≤ ms → ms ≤ toMs stop →
        s₁.table.get? (exchangeName, symbol, ms) = some row →
        s₂.table.get? (exchangeName, symbol, ms) = some row := by
    intro s₁ s₂ h₁ h₂ hall₂ ms row hlo hhi hget
    have hgenuine := (h₁.rows _ _ _ _ hget).2
    obtain ⟨r, hr, htime, -⟩ := hgenuine.event
    obtain ⟨⟨row', hget'⟩, -⟩ :=
      (mem_get_iff_cached _ _ _ _ _).mp (hall₂ r (mem_ratesIn.mpr ⟨hr, by omega, by omega⟩))
    rw [htime] at hget'
    rw [hget', (h₂.rows _ _ _ _ hget').2.unique hgenuine]
  apply RateTable.get_congr
  intro ms row hlo hhi
  exact ⟨hhalf h h' hall' hlo hhi, hhalf h' h hall hlo hhi⟩

/-- What the gap computation needs to know of the cached events of a window. -/
theorem cached_facts {m : Market} {s : FetchState} (h : CacheSound m s) (symbol : String)
    (start stop : Int) :
    RateTable.OnMs (s.table.get exchangeName symbol start stop) ∧
      ∀ ev ∈ s.table.get exchangeName symbol start stop,
        reportedInterval m.info symbol = some ev.intervalHours ∧ 0 < ev.intervalHours := by
  refine ⟨?_, ?_⟩
  · intro ev hev
    obtain ⟨ms, row, -, -, -, rfl⟩ := RateTable.mem_get.mp hev
    simp [RateTable.toEvent]
  · intro ev hev
    have hinterval := ((answerSound_get h symbol start stop).genuine ev hev).2.interval
    exact ⟨hinterval, m.interval_pos symbol _ hinterval⟩

/-- A successful call returns every event of its window that was cached or lies in a gap. -/
theorem complete_iff_inGap {m : Market} {s s' : FetchState} (h : CacheSound m s)
    {symbol : String} {start stop : Int} {events : List FundingEvent}
    (hrun : runAlone m (fetchFundingRates symbol start stop) s = (s', .ok events)) :
    Complete m symbol start stop events ↔
      ∀ r ∈ ratesIn m symbol start stop,
        (∀ ev ∈ s.table.get exchangeName symbol start stop,
          ev.timestamp ≠ fromMs r.fundingTime) →
        ∃ gap ∈ gapsFrom s symbol start stop, RateTable.InGap gap r.fundingTime := by
  obtain ⟨interval, -, -, rfl, hrows⟩ := fetchFundingRates_ok h hrun
  apply forall_congr'
  intro r
  apply forall_congr'
  intro hr
  obtain ⟨hmem, hlo, hhi⟩ := mem_ratesIn.mp hr
  have hold : (∀ ev ∈ s.table.get exchangeName symbol start stop,
      ev.timestamp ≠ fromMs r.fundingTime) ↔ ¬ Cached s.table symbol r.fundingTime := by
    have hsome := mem_get_iff_cached s.table symbol start stop r.fundingTime
    rw [and_iff_left ⟨hlo, hhi⟩] at hsome
    rw [← hsome]
    simp only [not_exists, not_and, ne_eq]
  have hnew : (∃ gap ∈ gapsFrom s symbol start stop, ∃ r' ∈ ratesIn m symbol gap.1 gap.2,
      r'.fundingTime = r.fundingTime) ↔
      ∃ gap ∈ gapsFrom s symbol start stop, RateTable.InGap gap r.fundingTime := by
    constructor
    · rintro ⟨gap, hgap, r', hr', htime⟩
      rw [← htime]
      exact ⟨gap, hgap, (mem_ratesIn.mp hr').2⟩
    · rintro ⟨gap, hgap, hin⟩
      exact ⟨gap, hgap, r, mem_ratesIn.mpr ⟨hmem, hin⟩, rfl⟩
  rw [mem_get_iff_cached, hrows, hold, ← hnew]
  constructor
  · rintro ⟨hcached | hgap, -⟩ hnot
    · exact absurd hcached hnot
    · exact hgap
  · intro himp
    refine ⟨?_, hlo, hhi⟩
    by_cases hcached : Cached s.table symbol r.fundingTime
    · exact Or.inl hcached
    · exact Or.inr (himp hcached)

theorem complete_of_empty {m : Market} {symbol : String} {start stop : Int} {s' : FetchState}
    {events : List FundingEvent}
    (hrun : runAlone m (fetchFundingRates symbol start stop) .empty = (s', .ok events)) :
    Complete m symbol start stop events := by
  rw [complete_iff_inGap (cacheSound_empty m) hrun]
  intro r hr _
  exact ⟨(start, stop), List.mem_singleton.mpr rfl, (mem_ratesIn.mp hr).2⟩

/-- **When a call is transparent.**  After any successful calls and clears, a successful
    call returns every event of its window, and the list an empty cache gives, exactly when
    no event of the window that is not cached is overlooked.  Times are whole milliseconds, as
    the floats of the source are from November 2004 to January 2038 (`TimeUtil`). -/
theorem fetchFundingRates_transparent_iff {m : Market} {s s' : FetchState}
    (h : Reaches (succeed m) Unguarded .empty s) {symbol : String} {start stop : Int}
    {events : List FundingEvent}
    (hrun : runAlone m (fetchFundingRates symbol start stop) s = (s', .ok events)) :
    (Complete m symbol start stop events ∧
      ∀ s₀ events₀, runAlone m (fetchFundingRates symbol start stop) .empty = (s₀, .ok events₀) →
        events = events₀) ↔
    ∀ r ∈ ratesIn m symbol start stop,
      (∀ ev ∈ s.table.get exchangeName symbol start stop,
        ev.timestamp ≠ fromMs r.fundingTime) →
      ¬ RateTable.Overlooked (s.table.get exchangeName symbol start stop) start stop
        (fromMs r.fundingTime) := by
  have hsound := succeeded_cacheSound h
  obtain ⟨hms, hinterval⟩ := cached_facts hsound symbol start stop
  have hcomplete : Complete m symbol start stop events ↔
      ∀ r ∈ ratesIn m symbol start stop,
        (∀ ev ∈ s.table.get exchangeName symbol start stop,
          ev.timestamp ≠ fromMs r.fundingTime) →
        ¬ RateTable.Overlooked (s.table.get exchangeName symbol start stop) start stop
          (fromMs r.fundingTime) := by
    rw [complete_iff_inGap hsound hrun]
    apply forall_congr'
    intro r
    apply forall_congr'
    intro hr
    apply forall_congr'
    intro hnew
    obtain ⟨-, hlo, hhi⟩ := mem_ratesIn.mp hr
    exact RateTable.inGap_iff_not_overlooked (RateTable.get_pairwise _ _ _ _ _) hms
      (fun ev hev => (hinterval ev hev).2) hlo hhi hnew
  rw [← hcomplete, and_iff_left_iff_imp]
  intro hall s₀ events₀ hrun₀
  have hall₀ := complete_of_empty hrun₀
  have hsound' := fetchFundingRates_cacheSound hsound symbol start stop
  have hsound₀ := fetchFundingRates_cacheSound (cacheSound_empty m) symbol start stop
  rw [hrun] at hsound'
  rw [hrun₀] at hsound₀
  obtain ⟨-, -, -, rfl, -⟩ := fetchFundingRates_ok hsound hrun
  obtain ⟨-, -, -, rfl, -⟩ := fetchFundingRates_ok (cacheSound_empty m) hrun₀
  exact get_eq_of_complete hsound' hsound₀ hall hall₀

/-- Two settlements cached, the window extended to the third. -/
theorem fetchFundingRates_transparent_iff_extended :
    Complete driftingMarket "BTCUSDT" 1767225600000000 1767304800000000
      [⟨1767225600007000, "BTCUSDT", .finite false 1 (-4), .finite false 87000 0, 8⟩,
        ⟨1767254400000000, "BTCUSDT", .finite false 2 (-4), .finite false 88000 0, 8⟩,
        ⟨1767283200003000, "BTCUSDT", .finite true 1 (-4), .finite false 89000 0, 8⟩] := by
  have hreach : Reaches (succeed driftingMarket) Unguarded .empty _ :=
    play_get_reaches [.fetch "BTCUSDT" 1767225600000000 1767258000000000] (by decide +kernel)
  refine ((fetchFundingRates_transparent_iff hreach (Prod.ext rfl ?_)).mpr ?_).1
  · decide +kernel
  · decide +kernel

/-- The times of a history are one interval apart from `base` on, each up to `drift`
    milliseconds late. -/
def OnGrid (base interval drift : Int) (times : List Int) : Prop :=
  ∀ p ∈ times.zipIdx, base + p.2 * (interval * 3600000) ≤ p.1 ∧
    p.1 ≤ base + p.2 * (interval * 3600000) + drift

instance (base interval drift : Int) (times : List Int) :
    Decidable (OnGrid base interval drift times) :=
  inferInstanceAs (Decidable (∀ _ ∈ _, _))

/-- **An event is lost.**  Settlements every eight hours, the first seven milliseconds late.
    Reading the first hour caches the first of them; the gap the next call asks for starts
    seven milliseconds after the second. -/
theorem fetchFundingRates_loses_event :
    OnGrid 1767225600000 8 7 ((driftingMarket.rates "BTCUSDT").map RateRow.fundingTime) ∧
    OnGrid 1767225600000 8 0 ((driftingMarket.klines "BTCUSDT" 8).map Kline.openTime) ∧
    ∃ s events, Reaches (succeed driftingMarket) Unguarded .empty s ∧
      (runAlone driftingMarket (fetchFundingRates "BTCUSDT" 1767225600000000 1767297600000000)
        s).2 = .ok events ∧
      (∃ r ∈ ratesIn driftingMarket "BTCUSDT" 1767225600000000 1767297600000000,
        ∀ ev ∈ events, ev.timestamp ≠ fromMs r.fundingTime) ∧
      (∃ events₀, (runAlone driftingMarket
        (fetchFundingRates "BTCUSDT" 1767225600000000 1767297600000000) .empty).2 = .ok events₀ ∧
        events ≠ events₀) := by
  refine ⟨by decide +kernel, by decide +kernel, _,
    [⟨1767225600007000, "BTCUSDT", .finite false 1 (-4), .finite false 87000 0, 8⟩,
      ⟨1767283200003000, "BTCUSDT", .finite true 1 (-4), .finite false 89000 0, 8⟩],
    play_get_reaches [.fetch "BTCUSDT" 1767225600000000 1767229200000000] (by decide +kernel),
    by decide +kernel, by decide +kernel,
    [⟨1767225600007000, "BTCUSDT", .finite false 1 (-4), .finite false 87000 0, 8⟩,
      ⟨1767254400000000, "BTCUSDT", .finite false 2 (-4), .finite false 88000 0, 8⟩,
      ⟨1767283200003000, "BTCUSDT", .finite true 1 (-4), .finite false 89000 0, 8⟩],
    by decide +kernel, by decide⟩

end BinanceUsdm

end FundingTool
