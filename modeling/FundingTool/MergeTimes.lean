import FundingTool.FetchSpecs
import FundingTool.TimeUtil

/-!
# `_merge` and the years of a `datetime`

The time of an event, and the time in the text of a missing price, are made by `from_ms`.  That
goes through a float, and `datetime.fromtimestamp` raises outside of the years 1 to 9999.  `merge`
of `BinanceUsdm` is about the times between, where `from_ms` is exact (`merge_eq`); here `_merge`
takes any time.

`merge_joins_or_fails`: of rows with times that `from_ms` accepts it joins every one or raises
`ExchangeError`; a row with another time ends it.
-/

namespace FundingTool.MergeTimes

open FundingTool.TimeUtil (fromMs? fromMs_of_some fromMs?_eq)
open FundingTool.BinanceUsdm (RateRow klineDict markAt eventOf markAt_eq_none_iff
  markAt_eq_some_iff)

/-! ## 1. `_merge` -/

inductive MergeError
  | exchangeError (e : FundingToolError)
  /-- What `from_ms` raises. -/
  | fromTimestamp
deriving DecidableEq, Repr

def merge (symbol : String) (klines : OrderedDict Int Decimal) (intervalH : Int) :
    List RateRow → Except MergeError (List FundingEvent)
  | [] => .ok []
  | r :: rest =>
      match markAt klines (intervalH * 3600000) r.fundingTime with
      | none =>
          -- The text of the error has the time.
          match fromMs? r.fundingTime with
          | none => .error .fromTimestamp
          | some time => .error (.exchangeError (.missingMarkPrice time symbol))
      | some mark =>
          match fromMs? r.fundingTime with
          | none => .error .fromTimestamp
          | some time =>
              match merge symbol klines intervalH rest with
              | .error e => .error e
              | .ok events =>
                  .ok ({ eventOf symbol intervalH r mark with timestamp := time } :: events)

/-! ## 2. Rows that end it -/

variable {symbol : String} {klines : OrderedDict Int Decimal} {intervalH : Int}

/-- No kline opens at the time of the row or within `interval_h` before it. -/
def Unmatched (klines : OrderedDict Int Decimal) (intervalH : Int) (r : RateRow) : Prop :=
  ∀ t ∈ klines.keys, ¬ (r.fundingTime - intervalH * 3600000 ≤ t ∧ t ≤ r.fundingTime)

/-- A row with a time of a `datetime`. -/
def Accepted (r : RateRow) : Prop := ∃ time, fromMs? r.fundingTime = some time

/-- A row that is joined. -/
structure Joinable (klines : OrderedDict Int Decimal) (intervalH : Int) (r : RateRow) : Prop where
  accepted : Accepted r
  matched : ¬ Unmatched klines intervalH r

/-- What is raised at a row that is not joined. -/
def failure (symbol : String) (r : RateRow) : MergeError :=
  match fromMs? r.fundingTime with
  | none => .fromTimestamp
  | some time => .exchangeError (.missingMarkPrice time symbol)

/-- The event of a rate row: its time and rate, and the price of the latest kline at or before
    its time. -/
structure Joins (symbol : String) (klines : OrderedDict Int Decimal) (intervalH : Int)
    (r : RateRow) (ev : FundingEvent) : Prop where
  timestamp : fromMs? r.fundingTime = some ev.timestamp
  /-- Up to the year 2242 that is the very millisecond. -/
  exact : |r.fundingTime| < 2 ^ 33 * 1000 → ev.timestamp = r.fundingTime * 1000
  symbol : ev.symbol = symbol
  rate : ev.rate = r.fundingRate
  intervalHours : ev.intervalHours = intervalH
  markPrice : ∃ t, IsGreatest {t | t ∈ klines.keys ∧ t ≤ r.fundingTime} t ∧
    klines.get? t = some ev.markPrice

theorem joins_of_markAt (h : 0 ≤ intervalH) {r : RateRow} {mark : Decimal} {time : Int}
    (hmark : markAt klines (intervalH * 3600000) r.fundingTime = some mark)
    (htime : fromMs? r.fundingTime = some time) :
    Joins symbol klines intervalH r { eventOf symbol intervalH r mark with timestamp := time } := by
  have htol : 0 ≤ intervalH * 3600000 := Int.mul_nonneg h (by decide)
  obtain ⟨t, hgreatest, -, hget⟩ := (markAt_eq_some_iff htol).mp hmark
  refine ⟨htime, ?_, rfl, rfl, rfl, t, hgreatest, hget⟩
  intro hsmall
  rw [← fromMs_of_some htime, TimeUtil.fromMs_eq hsmall]
  rfl

/-- Rows that can all be joined are, each in its place. -/
theorem merge_of_joinable (h : 0 ≤ intervalH) {rates : List RateRow}
    (hrates : ∀ r ∈ rates, Joinable klines intervalH r) :
    ∃ events, merge symbol klines intervalH rates = .ok events ∧
      List.Forall₂ (Joins symbol klines intervalH) rates events := by
  have htol : 0 ≤ intervalH * 3600000 := Int.mul_nonneg h (by decide)
  induction rates with
  | nil => exact ⟨[], rfl, .nil⟩
  | cons r rest ih =>
      obtain ⟨⟨⟨time, htime⟩, hmatched⟩, hrest⟩ := List.forall_mem_cons.mp hrates
      obtain ⟨events, hok, hjoins⟩ := ih hrest
      rcases hmark : markAt klines (intervalH * 3600000) r.fundingTime with _ | mark
      · exact absurd ((markAt_eq_none_iff htol).mp hmark) hmatched
      · exact ⟨_, by simp only [merge, hmark, htime, hok],
          .cons (joins_of_markAt h hmark htime) hjoins⟩

/-- The first row that cannot be joined ends it. -/
theorem merge_of_not_joinable (h : 0 ≤ intervalH) {before after : List RateRow} {r : RateRow}
    (hbefore : ∀ r' ∈ before, Joinable klines intervalH r') (hr : ¬ Joinable klines intervalH r) :
    merge symbol klines intervalH (before ++ r :: after) = .error (failure symbol r) := by
  have htol : 0 ≤ intervalH * 3600000 := Int.mul_nonneg h (by decide)
  induction before with
  | nil =>
      rw [List.nil_append, merge, failure]
      rcases hmark : markAt klines (intervalH * 3600000) r.fundingTime with _ | mark
      · rcases fromMs? r.fundingTime with _ | time <;> rfl
      · rcases htime : fromMs? r.fundingTime with _ | time
        · rfl
        · have hmatched : ¬ Unmatched klines intervalH r := by
            intro hunmatched
            cases hmark.symm.trans ((markAt_eq_none_iff htol).mpr hunmatched)
          exact absurd ⟨⟨time, htime⟩, hmatched⟩ hr
  | cons r' before ih =>
      obtain ⟨⟨⟨time, htime⟩, hmatched⟩, hrest⟩ := List.forall_mem_cons.mp hbefore
      rcases hmark : markAt klines (intervalH * 3600000) r'.fundingTime with _ | mark
      · exact absurd ((markAt_eq_none_iff htol).mp hmark) hmatched
      · rw [List.cons_append, merge]
        simp only [hmark, htime, ih hrest]

/-- Either every row can be joined, or there is a first one that cannot. -/
theorem joinable_or_first (klines : OrderedDict Int Decimal) (intervalH : Int)
    (rates : List RateRow) : (∀ r ∈ rates, Joinable klines intervalH r) ∨
      ∃ before r after, rates = before ++ r :: after ∧
        (∀ r' ∈ before, Joinable klines intervalH r') ∧ ¬ Joinable klines intervalH r := by
  induction rates with
  | nil => exact .inl nofun
  | cons r rest ih =>
      by_cases hr : Joinable klines intervalH r
      · rcases ih with hall | ⟨before, bad, after, rfl, hbefore, hbad⟩
        · exact .inl (List.forall_mem_cons.mpr ⟨hr, hall⟩)
        · exact .inr ⟨r :: before, bad, after, rfl, List.forall_mem_cons.mpr ⟨hr, hbefore⟩, hbad⟩
      · exact .inr ⟨[], r, rest, rfl, nofun, hr⟩

/-! ## 3. Main results -/

/-- **`_merge` joins exactly or fails.**  Rows with times that `from_ms` accepts are all joined, or
    one has no kline; and the first row that is not joined says what is raised. -/
theorem merge_joins_or_fails (symbol : String) (klines : OrderedDict Int Decimal) {intervalH : Int}
    (h : 0 ≤ intervalH) (rates : List RateRow) :
    ((∀ r ∈ rates, Accepted r) →
      ((∃ r ∈ rates, Unmatched klines intervalH r) ↔
        ∃ e, merge symbol klines intervalH rates = .error (.exchangeError e)) ∧
      ((∀ r ∈ rates, ¬ Unmatched klines intervalH r) →
        ∃ events, merge symbol klines intervalH rates = .ok events ∧
          List.Forall₂ (Joins symbol klines intervalH) rates events)) ∧
    ((∃ r ∈ rates, ¬ Accepted r) → ∀ events, merge symbol klines intervalH rates ≠ .ok events) ∧
    ∀ before r after, rates = before ++ r :: after →
      (∀ r' ∈ before, Joinable klines intervalH r') → ¬ Joinable klines intervalH r →
        merge symbol klines intervalH rates = .error (failure symbol r) := by
  refine ⟨?_, ?_, ?_⟩
  · intro haccepted
    have hgood : (∀ r ∈ rates, ¬ Unmatched klines intervalH r) →
        ∀ r ∈ rates, Joinable klines intervalH r :=
      fun hmatched r hr => ⟨haccepted r hr, hmatched r hr⟩
    refine ⟨⟨?_, ?_⟩, fun hmatched => merge_of_joinable h (hgood hmatched)⟩
    · rintro ⟨r, hr, hunmatched⟩
      rcases joinable_or_first klines intervalH rates with
        hall | ⟨before, bad, after, rfl, hbefore, hbad⟩
      · exact absurd hunmatched (hall r hr).matched
      · obtain ⟨time, htime⟩ := haccepted bad (by simp)
        refine ⟨.missingMarkPrice time symbol, ?_⟩
        rw [merge_of_not_joinable h hbefore hbad, failure, htime]
    · rintro ⟨e, he⟩
      by_contra hnone
      obtain ⟨events, hok, -⟩ := @merge_of_joinable symbol _ _ h _
        (hgood fun r hr hunmatched => hnone ⟨r, hr, hunmatched⟩)
      cases hok.symm.trans he
  · rintro ⟨r, hr, hrejected⟩ events hok
    rcases joinable_or_first klines intervalH rates with
      hall | ⟨before, bad, after, rfl, hbefore, hbad⟩
    · exact hrejected (hall r hr).accepted
    · cases hok.symm.trans (merge_of_not_joinable h hbefore hbad)
  · rintro before r after rfl hbefore hr
    exact merge_of_not_joinable h hbefore hr

/-- Up to the year 2242 this is the `merge` of `BinanceUsdm`. -/
theorem merge_eq (symbol : String) (klines : OrderedDict Int Decimal) (intervalH : Int)
    {rates : List RateRow} (h : ∀ r ∈ rates, |r.fundingTime| < 2 ^ 33 * 1000) :
    merge symbol klines intervalH rates =
      (BinanceUsdm.merge symbol klines intervalH rates).mapError .exchangeError := by
  induction rates with
  | nil => rfl
  | cons r rest ih =>
      obtain ⟨hr, hrest⟩ := List.forall_mem_cons.mp h
      rw [merge, BinanceUsdm.merge, fromMs?_eq hr]
      rcases markAt klines (intervalH * 3600000) r.fundingTime with _ | mark
      · rfl
      · simp only [ih hrest]
        rcases BinanceUsdm.merge symbol klines intervalH rest with e | events <;> rfl

/-! ## 4. A time beyond the year 9999 -/

/-- The year is 33658. -/
def lateRow : RateRow := ⟨1000000000000000, .finite false 1 (-4)⟩

theorem fromMs?_lateRow : fromMs? lateRow.fundingTime = none := by decide +kernel

theorem lateRow_not_joinable (klines : OrderedDict Int Decimal) (intervalH : Int) :
    ¬ Joinable klines intervalH lateRow := by
  rintro ⟨⟨time, htime⟩, -⟩
  cases fromMs?_lateRow.symm.trans htime

/-- `ValueError` leaves `_merge` although the row has its kline, and where no kline is there for
    it. -/
theorem merge_late :
    (¬ Unmatched (klineDict [⟨1000000000000000, .finite false 5 4⟩]) 8 lateRow ∧
      merge "BTCUSDT" (klineDict [⟨1000000000000000, .finite false 5 4⟩]) 8 [lateRow] =
        .error .fromTimestamp) ∧
    Unmatched (klineDict []) 8 lateRow ∧
      merge "BTCUSDT" (klineDict []) 8 [lateRow] = .error .fromTimestamp := by
  have hlate : ∀ klines, merge "BTCUSDT" klines 8 [lateRow] = .error .fromTimestamp := by
    intro klines
    have hfails := @merge_of_not_joinable "BTCUSDT" klines 8 (by decide) [] [] lateRow nofun
      (lateRow_not_joinable klines 8)
    rw [failure, fromMs?_lateRow] at hfails
    exact hfails
  exact ⟨⟨fun hfar => hfar 1000000000000000 (by decide) (by decide), hlate _⟩,
    fun _ ht => (by cases ht), hlate _⟩

/-- A row an hour after the only kline, with a tolerance of an hour, and one that is too late. -/
theorem merge_joins_or_fails_boundary :
    (∃ events, merge "BTCUSDT" (klineDict [⟨0, .finite false 5 4⟩]) 1
        [⟨3600000, .finite false 1 (-4)⟩] = .ok events ∧
      List.Forall₂ (Joins "BTCUSDT" (klineDict [⟨0, .finite false 5 4⟩]) 1)
        [⟨3600000, .finite false 1 (-4)⟩] events) ∧
    merge "BTCUSDT" (klineDict [⟨0, .finite false 5 4⟩]) 1
      [⟨3600000, .finite false 1 (-4)⟩, lateRow] = .error .fromTimestamp := by
  have hmatched : ¬ Unmatched (klineDict [⟨0, .finite false 5 4⟩]) 1
      ⟨3600000, .finite false 1 (-4)⟩ := fun hfar => hfar 0 (by decide) (by decide)
  have hsmall : |(3600000 : Int)| < 2 ^ 33 * 1000 := by decide
  have haccepted : Accepted ⟨3600000, .finite false 1 (-4)⟩ := ⟨_, fromMs?_eq hsmall⟩
  constructor
  · have hjoins := merge_joins_or_fails "BTCUSDT" (klineDict [⟨0, .finite false 5 4⟩])
      (by decide : (0 : Int) ≤ 1) [⟨3600000, .finite false 1 (-4)⟩]
    exact (hjoins.1 (List.forall_mem_singleton.mpr haccepted)).2
      (List.forall_mem_singleton.mpr hmatched)
  · have hfails := merge_joins_or_fails "BTCUSDT" (klineDict [⟨0, .finite false 5 4⟩])
      (by decide : (0 : Int) ≤ 1) [⟨3600000, .finite false 1 (-4)⟩, lateRow]
    have hlate := hfails.2.2 [⟨3600000, .finite false 1 (-4)⟩] lateRow [] rfl
      (List.forall_mem_singleton.mpr ⟨haccepted, hmatched⟩) (lateRow_not_joinable _ 1)
    rw [failure, fromMs?_lateRow] at hlate
    exact hlate

end FundingTool.MergeTimes
