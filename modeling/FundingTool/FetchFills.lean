import FundingTool.RateCacheTransparency
import FundingTool.Schedules

/-!
# A fetch under disturbances

Any request of a call may fail with an error of the HTTP client, or with the cancellation that
stops the call there; a schedule says which.  A gap is then either filled, its events put as a
whole, or left as it was, and the call stops.  So what a call leaves behind is the complete
event sets of the gaps before the one it stopped in.

Every funding event has a kline that opens with it, and the rows that are cached agree with the
exchange: then a row that is put again is the row that was there.
-/

namespace FundingTool.BinanceUsdm

open FundingTool.Interaction FundingTool.CursorPaging

variable {m : Market} {symbol : String} {interval : Int}

/-! ## 1. The rows of the exchange -/

/-- Every funding event has a kline that opens with it. -/
def OpensWithKline (m : Market) (symbol : String) (interval : Int) : Prop :=
  ∀ r ∈ m.rates symbol, ∃ k ∈ m.klines symbol interval, k.openTime = r.fundingTime

instance : Decidable (OpensWithKline m symbol interval) :=
  inferInstanceAs (Decidable (∀ _ ∈ _, _))

/-- The columns of the funding event at `ms`, its price the open of the kline there. -/
def EventRow (m : Market) (symbol : String) (interval ms : Int) (row : CachedRate) : Prop :=
  ∃ r ∈ m.rates symbol, ∃ k ∈ m.klines symbol interval,
    r.fundingTime = ms ∧ k.openTime = ms ∧ row = ⟨r.fundingRate, k.openPrice, interval⟩

theorem isFloorKline_of_exact {k : Kline} {ms : Int} (hk : k ∈ m.klines symbol interval)
    (hopen : k.openTime = ms) : IsFloorKline (m.klines symbol interval) ms k :=
  ⟨hk, le_of_eq hopen, fun _ _ hle => by rw [hopen]; exact hle⟩

theorem EventRow.genuine {ms : Int} {row : CachedRate}
    (hinterval : reportedInterval m.info symbol = some interval)
    (h : EventRow m symbol interval ms row) : Genuine m symbol ms row := by
  obtain ⟨r, hr, k, hk, htime, hopen, rfl⟩ := h
  have hpos := m.interval_pos symbol interval hinterval
  refine ⟨⟨r, hr, htime, rfl⟩, hinterval, k, isFloorKline_of_exact hk hopen, ?_, rfl⟩
  simp only
  omega

/-- With a kline at every event no gap lacks a mark price. -/
theorem joined_of_opensWithKline (hklines : OpensWithKline m symbol interval)
    (hpos : 0 < interval) (gap : Int × Int) : Joined m symbol interval gap := by
  intro r hr
  obtain ⟨hmem, hlo, -⟩ := mem_ratesIn.mp hr
  obtain ⟨k, hk, hopen⟩ := hklines r hmem
  refine ⟨k, isFloorKline_of_exact hk hopen, ?_, ?_⟩
  · rw [hopen]
    exact hlo
  · rw [hopen]
    omega

/-- What `_merge` builds from the rows and klines of a gap: the rows of its events. -/
theorem eventRow_of_merge (hklines : OpensWithKline m symbol interval) (hpos : 0 < interval)
    {gap : Int × Int} {events : List FundingEvent}
    (hmerge : merge symbol (klineDict (klinesIn m symbol interval gap.1 gap.2)) interval
      (ratesIn m symbol gap.1 gap.2) = .ok events) {ms : Int} {row : CachedRate} :
    (∃ ev ∈ events, toMs ev.timestamp = ms ∧ row = ⟨ev.rate, ev.markPrice, ev.intervalHours⟩) ↔
      RateTable.InGap gap ms ∧ EventRow m symbol interval ms row := by
  have hmark : ∀ r ∈ ratesIn m symbol gap.1 gap.2, ∀ k ∈ m.klines symbol interval,
      k.openTime = r.fundingTime → ∀ mark,
        markAt (klineDict (klinesIn m symbol interval gap.1 gap.2)) (interval * 3600000)
          r.fundingTime = some mark ↔ k.openPrice = mark := by
    intro r hr k hk hopen mark
    obtain ⟨-, hlo, hhi⟩ := mem_ratesIn.mp hr
    have hfloor := isFloorKline_of_exact hk hopen
    rw [markAt_klinesIn (by omega) ⟨hlo, hhi⟩]
    constructor
    · rintro ⟨k', hfloor', -, -, rfl⟩
      rw [hfloor.unique (m.klines_ascending symbol interval) hfloor']
    · rintro rfl
      exact ⟨k, hfloor, by omega, by omega, rfl⟩
  constructor
  · rintro ⟨ev, hev, rfl, rfl⟩
    obtain ⟨r, hr, mark, hprice, rfl⟩ := (mem_of_merge_ok hmerge).mp hev
    obtain ⟨hmem, hlo, hhi⟩ := mem_ratesIn.mp hr
    obtain ⟨k, hk, hopen⟩ := hklines r hmem
    simp only [eventOf, toMs_fromMs]
    rw [← (hmark r hr k hk hopen mark).mp hprice]
    exact ⟨⟨hlo, hhi⟩, r, hmem, k, hk, rfl, hopen, rfl⟩
  · rintro ⟨hin, r, hmem, k, hk, rfl, hopen, rfl⟩
    have hr : r ∈ ratesIn m symbol gap.1 gap.2 := mem_ratesIn.mpr ⟨hmem, hin⟩
    refine ⟨eventOf symbol interval r k.openPrice, ?_, by simp [eventOf], by simp [eventOf]⟩
    exact (mem_of_merge_ok hmerge).mpr
      ⟨r, hr, k.openPrice, (hmark r hr k hk hopen _).mpr rfl, rfl⟩

/-! ## 2. Caches that agree with the exchange -/

/-- What is cached for the symbol agrees with the exchange: rows carry the reported interval,
    and the row of a funding event is its row. -/
structure Agrees (m : Market) (symbol : String) (interval : Int) (s : FetchState) : Prop where
  intervals : ∀ cached, s.intervalCache.get? symbol = some cached → cached = interval
  interval_eq : ∀ ms row, s.table.get? (exchangeName, symbol, ms) = some row →
    row.intervalH = interval
  rows : ∀ ms row row', s.table.get? (exchangeName, symbol, ms) = some row →
    EventRow m symbol interval ms row' → row = row'

/-- Whatever calls have filled a cache, it agrees with the exchange. -/
theorem CacheSound.agrees {s : FetchState} (h : CacheSound m s)
    (hinterval : reportedInterval m.info symbol = some interval) :
    Agrees m symbol interval s where
  intervals := by
    intro cached hcached
    have hreported := h.intervals symbol cached hcached
    rw [hinterval, Option.some.injEq] at hreported
    exact hreported.symm
  interval_eq := by
    intro ms row hget
    have hreported := (h.rows _ _ _ _ hget).2.interval
    rw [hinterval, Option.some.injEq] at hreported
    exact hreported.symm
  rows := by
    intro ms row row' hget hrow
    exact (h.rows _ _ _ _ hget).2.unique (hrow.genuine hinterval)

/-- `table'` is `table` with the rows of all events of the gaps. -/
def Added (m : Market) (symbol : String) (interval : Int) (gaps : List (Int × Int))
    (table table' : RateTable) : Prop :=
  ∀ key row, table'.get? key = some row ↔ table.get? key = some row ∨
    ∃ gap ∈ gaps, ∃ ms, RateTable.InGap gap ms ∧ key = (exchangeName, symbol, ms) ∧
      EventRow m symbol interval ms row

theorem Added.refl (table : RateTable) : Added m symbol interval [] table table := by
  intro key row
  simp

theorem Added.append {gaps gaps' : List (Int × Int)} {table table' table'' : RateTable}
    (h : Added m symbol interval gaps table table')
    (h' : Added m symbol interval gaps' table' table'') :
    Added m symbol interval (gaps ++ gaps') table table'' := by
  intro key row
  rw [h', h, or_assoc]
  simp only [List.mem_append, or_and_right, exists_or]

theorem Added.get?_of_get? {gaps : List (Int × Int)} {table table' : RateTable}
    (h : Added m symbol interval gaps table table') {key : String × String × Int}
    {row : CachedRate} (hget : table.get? key = some row) : table'.get? key = some row :=
  (h key row).mpr (Or.inl hget)

theorem Agrees.added {s s' : FetchState} {gaps : List (Int × Int)}
    (h : Agrees m symbol interval s) (hinterval : reportedInterval m.info symbol = some interval)
    (hadded : Added m symbol interval gaps s.table s'.table)
    (hcache : ∀ cached, s'.intervalCache.get? symbol = some cached → cached = interval) :
    Agrees m symbol interval s' where
  intervals := hcache
  interval_eq := by
    intro ms row hget
    rcases (hadded _ _).mp hget with hold | ⟨gap, -, ms', -, hkey, hrow⟩
    · exact h.interval_eq ms row hold
    · obtain ⟨r, -, k, -, -, -, rfl⟩ := hrow
      rfl
  rows := by
    intro ms row row' hget hrow'
    rcases (hadded _ _).mp hget with hold | ⟨gap, -, ms', -, hkey, hrow⟩
    · exact h.rows ms row row' hold hrow'
    · simp only [Prod.mk.injEq, true_and] at hkey
      subst hkey
      exact (hrow.genuine hinterval).unique (hrow'.genuine hinterval)

/-! ## 3. Filling gaps -/

/-- Which gaps are named does not matter, only which events lie in them. -/
theorem Added.congr {gaps gaps' : List (Int × Int)} {table table' : RateTable}
    (h : Added m symbol interval gaps table table')
    (hsame : ∀ ms row, EventRow m symbol interval ms row →
      ((∃ gap ∈ gaps, RateTable.InGap gap ms) ↔ ∃ gap ∈ gaps', RateTable.InGap gap ms)) :
    Added m symbol interval gaps' table table' := by
  have hhalf : ∀ {gaps₁ gaps₂ : List (Int × Int)} {key : String × String × Int} {row : CachedRate},
      (∀ ms, EventRow m symbol interval ms row → (∃ gap ∈ gaps₁, RateTable.InGap gap ms) →
        ∃ gap ∈ gaps₂, RateTable.InGap gap ms) →
      (∃ gap ∈ gaps₁, ∃ ms, RateTable.InGap gap ms ∧ key = (exchangeName, symbol, ms) ∧
        EventRow m symbol interval ms row) →
      ∃ gap ∈ gaps₂, ∃ ms, RateTable.InGap gap ms ∧ key = (exchangeName, symbol, ms) ∧
        EventRow m symbol interval ms row := by
    rintro gaps₁ gaps₂ key row himp ⟨gap, hgap, ms, hin, hkey, hrow⟩
    obtain ⟨gap', hgap', hin'⟩ := himp ms hrow ⟨gap, hgap, hin⟩
    exact ⟨gap', hgap', ms, hin', hkey, hrow⟩
  intro key row
  rw [h]
  refine or_congr_right ⟨hhalf fun ms hrow => ?_, hhalf fun ms hrow => ?_⟩
  · exact (hsame ms row hrow).mp
  · exact (hsame ms row hrow).mpr

/-- Putting the row of an event where the cache agrees with the exchange. -/
theorem added_insertOrReplace {s : FetchState} (h : Agrees m symbol interval s)
    (hinterval : reportedInterval m.info symbol = some interval) {ev : FundingEvent}
    (hrow : EventRow m symbol interval (toMs ev.timestamp)
      ⟨ev.rate, ev.markPrice, ev.intervalHours⟩) :
    Added m symbol interval [(ev.timestamp, ev.timestamp)] s.table
      (s.table.insertOrReplace exchangeName symbol ev) := by
  intro key row
  rw [RateTable.insertOrReplace, OrderedDict.get?_set]
  simp only [List.mem_singleton, exists_eq_left, RateTable.InGap]
  by_cases hkey : key = (exchangeName, symbol, toMs ev.timestamp)
  · rw [if_pos hkey, hkey, Option.some.injEq]
    constructor
    · rintro rfl
      exact Or.inr ⟨_, ⟨le_refl _, le_refl _⟩, rfl, hrow⟩
    · rintro (hold | ⟨ms, -, hms, hrow'⟩)
      · exact (h.rows _ _ _ hold hrow).symm
      · simp only [Prod.mk.injEq, true_and] at hms
        subst hms
        exact (hrow.genuine hinterval).unique (hrow'.genuine hinterval)
  · rw [if_neg hkey]
    constructor
    · exact Or.inl
    · rintro (hold | ⟨ms, hin, hms, -⟩)
      · exact hold
      · rw [le_antisymm hin.2 hin.1] at hms
        exact absurd hms hkey

theorem put_runWith (hinterval : reportedInterval m.info symbol = some interval)
    {events : List FundingEvent}
    (hrows : ∀ ev ∈ events, EventRow m symbol interval (toMs ev.timestamp)
      ⟨ev.rate, ev.markPrice, ev.intervalHours⟩) {s : FetchState}
    (h : Agrees m symbol interval s) (cs : Nat → Option FundingToolError) :
    ∃ s', (put exchangeName symbol events).runWith (perform m) cs s = (s', .ok ()) ∧
      s'.intervalCache = s.intervalCache ∧
      Added m symbol interval (events.map fun ev => (ev.timestamp, ev.timestamp)) s.table
        s'.table := by
  induction events generalizing cs s with
  | nil => exact ⟨s, rfl, rfl, Added.refl _⟩
  | cons ev rest ih =>
      have hinserted := added_insertOrReplace h hinterval (hrows ev List.mem_cons_self)
      have hagrees : Agrees m symbol interval
          { s with table := s.table.insertOrReplace exchangeName symbol ev } :=
        h.added hinterval hinserted h.intervals
      obtain ⟨s', hrun, hcache, hadded⟩ :=
        ih (fun ev' hev' => hrows ev' (List.mem_cons_of_mem _ hev')) hagrees fun n => cs (n + 1)
      exact ⟨s', hrun, hcache, hinserted.append hadded⟩

theorem added_of_isEmpty {gap : Int × Int} (hempty : (ratesIn m symbol gap.1 gap.2).isEmpty)
    (table : RateTable) : Added m symbol interval [gap] table table := by
  apply (Added.refl table).congr
  rintro ms row ⟨r, hr, k, -, rfl, -, -⟩
  refine iff_of_false (by simp) ?_
  rintro ⟨gap', hgap, hin⟩
  rw [List.mem_singleton.mp hgap] at hin
  rw [List.isEmpty_iff] at hempty
  have hmem : r ∈ ratesIn m symbol gap.1 gap.2 := mem_ratesIn.mpr ⟨hr, hin⟩
  rw [hempty] at hmem
  cases hmem

theorem merge_of_opensWithKline (hklines : OpensWithKline m symbol interval)
    (hpos : 0 < interval) (gap : Int × Int) :
    ∃ events, merge symbol (klineDict (klinesIn m symbol interval gap.1 gap.2)) interval
      (ratesIn m symbol gap.1 gap.2) = .ok events := by
  rcases merge_cases symbol (klineDict (klinesIn m symbol interval gap.1 gap.2)) interval
    (ratesIn m symbol gap.1 gap.2) with ⟨events, hok, -⟩ | ⟨r, hr, hnone, -⟩
  · exact ⟨events, hok⟩
  · obtain ⟨mark, hmark⟩ :=
      (markAt_of_gap hpos hr).mpr (joined_of_opensWithKline hklines hpos gap r hr)
    rw [hnone] at hmark
    cases hmark

/-- The events `_merge` builds are all those of the gap. -/
theorem Added.of_merge (hklines : OpensWithKline m symbol interval) (hpos : 0 < interval)
    {gap : Int × Int} {events : List FundingEvent}
    (hmerge : merge symbol (klineDict (klinesIn m symbol interval gap.1 gap.2)) interval
      (ratesIn m symbol gap.1 gap.2) = .ok events) {table table' : RateTable}
    (h : Added m symbol interval (events.map fun ev => (ev.timestamp, ev.timestamp)) table
      table') : Added m symbol interval [gap] table table' := by
  apply h.congr
  intro ms row hrow
  simp only [List.mem_singleton, exists_eq_left]
  constructor
  · rintro ⟨point, hpoint, hin⟩
    obtain ⟨ev, hev, rfl⟩ := List.mem_map.mp hpoint
    rw [← le_antisymm hin.1 hin.2]
    exact ((eventRow_of_merge hklines hpos hmerge).mp ⟨ev, hev, rfl, rfl⟩).1
  · intro hin
    obtain ⟨ev, hev, htime, -⟩ := (eventRow_of_merge hklines hpos hmerge).mpr ⟨hin, hrow⟩
    exact ⟨_, List.mem_map.mpr ⟨ev, hev, rfl⟩, le_of_eq htime, ge_of_eq htime⟩

/-- **A gap is filled or left as it was.** -/
theorem fillGap_runWith (hklines : OpensWithKline m symbol interval)
    (hinterval : reportedInterval m.info symbol = some interval) {s : FetchState}
    (h : Agrees m symbol interval s) (gap : Int × Int) (cs : Nat → Option FundingToolError) :
    (∃ s', (fillGap symbol interval gap).runWith (perform m) cs s = (s', .ok ()) ∧
      s'.intervalCache = s.intervalCache ∧
      Added m symbol interval [gap] s.table s'.table) ∨
    ∃ e, (fillGap symbol interval gap).runWith (perform m) cs s = (s, .error e) := by
  have hpos := m.interval_pos symbol interval hinterval
  have hpages : (fetchRatePages symbol gap.1 gap.2).Safe (perform m) (fun s' => s' = s)
      (fun _ _ _ => True) _ := fetchRatePages_safe symbol gap.1 gap.2
  have hopens : (fetchKlines symbol gap.1 gap.2 interval).Safe (perform m) (fun s' => s' = s)
      (fun _ _ _ => True) _ := fetchKlines_safe symbol gap.1 gap.2 interval
  unfold fillGap
  rcases hpages.runWith_bind (fun _ _ _ _ => trivial) rfl _ with
    ⟨_, _, cs₁, rfl, rfl, hrun⟩ | ⟨_, e, rfl, hrun⟩
  · rw [hrun]
    by_cases hempty : (ratesIn m symbol gap.1 gap.2).isEmpty
    · rw [if_pos hempty]
      exact Or.inl ⟨_, rfl, rfl, added_of_isEmpty hempty _⟩
    · rw [if_neg hempty]
      rcases hopens.runWith_bind (fun _ _ _ _ => trivial) rfl _ with
        ⟨_, _, cs₂, rfl, rfl, hrun⟩ | ⟨_, e, rfl, hrun⟩
      · obtain ⟨events, hmerge⟩ := merge_of_opensWithKline hklines hpos gap
        have hrows : ∀ ev ∈ events, EventRow m symbol interval (toMs ev.timestamp)
            ⟨ev.rate, ev.markPrice, ev.intervalHours⟩ := fun ev hev =>
          ((eventRow_of_merge hklines hpos hmerge).mp ⟨ev, hev, rfl, rfl⟩).2
        obtain ⟨s', hput, hcache, hadded⟩ := put_runWith hinterval hrows h cs₂
        rw [hrun, hmerge]
        exact Or.inl ⟨s', hput, hcache, hadded.of_merge hklines hpos hmerge⟩
      · exact Or.inr ⟨e, hrun⟩
  · exact Or.inr ⟨e, hrun⟩

/-- **Gaps are filled up to the one the call stops in**: those before it are the ones that
    would have been filled without the others. -/
theorem fillGaps_runWith (hklines : OpensWithKline m symbol interval)
    (hinterval : reportedInterval m.info symbol = some interval) (gaps : List (Int × Int))
    {s : FetchState} (h : Agrees m symbol interval s) (cs : Nat → Option FundingToolError) :
    (∃ s', (fillGaps symbol interval gaps).runWith (perform m) cs s = (s', .ok ()) ∧
      s'.intervalCache = s.intervalCache ∧ Added m symbol interval gaps s.table s'.table) ∨
    ∃ n s' e, (fillGaps symbol interval gaps).runWith (perform m) cs s = (s', .error e) ∧
      s'.intervalCache = s.intervalCache ∧
      Added m symbol interval (gaps.take n) s.table s'.table ∧
      ∀ k, ((fillGaps symbol interval (gaps.take k)).runWith (perform m) cs s).2 = .ok () ↔
        k ≤ n := by
  induction gaps generalizing cs s with
  | nil => exact Or.inl ⟨s, rfl, rfl, Added.refl _⟩
  | cons gap rest ih =>
      rcases fillGap_runWith hklines hinterval h gap cs with
        ⟨s₁, hfill, hcache₁, hadded₁⟩ | ⟨e, hbad⟩
      · have hagrees : Agrees m symbol interval s₁ :=
          h.added hinterval hadded₁ (by rw [hcache₁]; exact h.intervals)
        obtain ⟨cs₁, hbind⟩ := Prog.runWith_bind_ok hfill
        have hrun : ∀ gaps, (fillGaps symbol interval (gap :: gaps)).runWith (perform m) cs s =
            (fillGaps symbol interval gaps).runWith (perform m) cs₁ s₁ :=
          fun gaps => hbind Unit fun _ => fillGaps symbol interval gaps
        rcases ih hagrees cs₁ with ⟨s₂, hrest, hcache₂, hadded₂⟩ |
          ⟨n, s₂, e, hrest, hcache₂, hadded₂, hfinished⟩
        · exact Or.inl ⟨s₂, (hrun rest).trans hrest, hcache₂.trans hcache₁,
            hadded₁.append hadded₂⟩
        · refine Or.inr ⟨n + 1, s₂, e, (hrun rest).trans hrest, hcache₂.trans hcache₁,
            hadded₁.append hadded₂, ?_⟩
          intro k
          cases k with
          | zero => exact iff_of_true rfl (Nat.zero_le _)
          | succ k => rw [List.take_succ_cons, hrun, hfinished, Nat.add_le_add_iff_right]
      · have hfails : ∀ gaps, (fillGaps symbol interval (gap :: gaps)).runWith (perform m) cs s =
            (s, .error e) := fun gaps => Prog.runWith_bind_error hbad _
        refine Or.inr ⟨0, s, e, hfails rest, rfl, Added.refl _, ?_⟩
        intro k
        cases k with
        | zero => exact iff_of_true rfl (Nat.le_refl _)
        | succ k =>
            rw [List.take_succ_cons, hfails]
            exact iff_of_false (by simp) (Nat.not_succ_le_zero k)

/-! ## 4. The whole call -/

/-- The interval is at hand, or the request for it fails and nothing has happened. -/
theorem getInterval_runWith (hinterval : reportedInterval m.info symbol = some interval)
    {s : FetchState} (h : Agrees m symbol interval s) (cs : Nat → Option FundingToolError) :
    (∃ s', (getInterval symbol).runWith (perform m) cs s = (s', .ok interval) ∧
      s'.table = s.table ∧ s'.intervalCache.get? symbol = some interval) ∨
    ∃ e, cs 1 = some e ∧ (getInterval symbol).runWith (perform m) cs s = (s, .error e) := by
  rcases hcached : s.intervalCache.get? symbol with _ | cached
  · rcases hfault : cs 1 with _ | e
    · refine Or.inl ⟨{ s with intervalCache := s.intervalCache.set symbol interval }, ?_, rfl,
        OrderedDict.get?_set_self _ _ _⟩
      have hin : intervalIn symbol (m.info.getD []) = some interval := hinterval
      simp only [getInterval, intervalCached, getExchangeInfo, Prog.call_bind, Prog.ret_bind,
        Prog.runWith_call, Prog.ofExcept, perform, hcached, hfault, hin]
      rfl
    · refine Or.inr ⟨e, rfl, ?_⟩
      simp only [getInterval, intervalCached, getExchangeInfo, Prog.call_bind, Prog.ret_bind,
        Prog.runWith_call, perform, hcached, hfault]
      rfl
  · rw [h.intervals cached hcached] at hcached
    refine Or.inl ⟨s, ?_, rfl, hcached⟩
    simp only [getInterval, intervalCached, Prog.call_bind, Prog.ret_bind, Prog.runWith_call,
      perform, hcached]
    rfl

/-- The call up to the gap with the index `k`. -/
def fillThrough (symbol : String) (start stop : Int) (k : Nat) : Fetch Unit := do
  let interval ← getInterval symbol
  let gaps ← missingRanges exchangeName symbol start stop
  fillGaps symbol interval (gaps.take (k + 1))

/-- Under this schedule the call finishes the gap with the index `k`. -/
def Finishes (m : Market) (symbol : String) (start stop : Int)
    (cs : Nat → Option FundingToolError) (s : FetchState) (k : Nat) : Prop :=
  ((fillThrough symbol start stop k).runWith (perform m) cs s).2 = .ok ()

/-- **A disturbed call** returns the list it reads from the table with all its gaps filled, or
    stops with the gaps filled that it had finished, its first ones. -/
theorem fetchFundingRates_runWith (hklines : OpensWithKline m symbol interval)
    (hinterval : reportedInterval m.info symbol = some interval) {s : FetchState}
    (h : Agrees m symbol interval s) (start stop : Int) (cs : Nat → Option FundingToolError) :
    (∃ s', (fetchFundingRates symbol start stop).runWith (perform m) cs s =
        (s', .ok (s'.table.get exchangeName symbol start stop)) ∧
      Agrees m symbol interval s' ∧
      Added m symbol interval (gapsFrom s symbol start stop) s.table s'.table) ∨
    ∃ n s' e, (fetchFundingRates symbol start stop).runWith (perform m) cs s =
        (s', .error e) ∧
      Agrees m symbol interval s' ∧
      Added m symbol interval ((gapsFrom s symbol start stop).take n) s.table s'.table ∧
      ∀ k, Finishes m symbol start stop cs s k ↔ k < n := by
  unfold fetchFundingRates Finishes fillThrough
  rcases getInterval_runWith hinterval h cs with ⟨s₁, hfirst, htable, hcache⟩ | ⟨e, -, hfirst⟩
  · have hagrees : Agrees m symbol interval s₁ := by
      refine h.added hinterval (by rw [htable]; exact Added.refl _) ?_
      intro cached hcached
      rw [hcache, Option.some.injEq] at hcached
      exact hcached.symm
    have hgaps : gapsFrom s symbol start stop = gapsFrom s₁ symbol start stop := by
      rw [gapsFrom, gapsFrom, htable]
    obtain ⟨cs₁, hbind⟩ := Prog.runWith_bind_ok hfirst
    have hwindow : ∀ (β : Type) (f : List (Int × Int) → Fetch β),
        (missingRanges exchangeName symbol start stop >>= f).runWith (perform m) cs₁ s₁ =
          (f (gapsFrom s₁ symbol start stop)).runWith (perform m) (fun n => cs₁ (n + 1)) s₁ :=
      fun _ _ => rfl
    simp only [hbind, hwindow]
    rw [hgaps, ← htable]
    rcases fillGaps_runWith hklines hinterval (gapsFrom s₁ symbol start stop) hagrees
      (fun n => cs₁ (n + 1)) with ⟨s₂, hfill, hcache₂, hadded⟩ |
      ⟨n, s₂, e, hfill, hcache₂, hadded, hfinished⟩
    · obtain ⟨cs₂, hread⟩ := Prog.runWith_bind_ok hfill
      exact Or.inl ⟨s₂, hread _ _,
        hagrees.added hinterval hadded (by rw [hcache₂]; exact hagrees.intervals), hadded⟩
    · refine Or.inr ⟨n, s₂, e, Prog.runWith_bind_error hfill _,
        hagrees.added hinterval hadded (by rw [hcache₂]; exact hagrees.intervals), hadded, ?_⟩
      exact fun k => hfinished (k + 1)
  · refine Or.inr ⟨0, s, e, Prog.runWith_bind_error hfirst _, h, Added.refl _, ?_⟩
    intro k
    rw [Prog.runWith_bind_error hfirst]
    exact iff_of_false (by simp) (Nat.not_lt_zero k)

end FundingTool.BinanceUsdm
