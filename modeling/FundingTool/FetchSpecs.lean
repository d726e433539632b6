import FundingTool.BinanceUsdm

/-!
# What each function of the fetch path does

One specification per function, used by every result about `fetch_funding_rates`:
the two page loops return exactly the rows of their range, `_merge` joins a rate row
with the kline that is the greatest at or before it *among the klines of the gap*, and
that kline is then the greatest of the whole series.
-/

namespace FundingTool.BinanceUsdm

open FundingTool.Interaction FundingTool.CursorPaging

/-! ## 1. The page loops -/

section Pages

variable {m : Market} {Inv : FetchState → Prop}
  {Guard : FetchState → FetchOp → Option FundingToolError → Prop}

/-- The rate rows of a closed range of datetimes. -/
def ratesIn (m : Market) (symbol : String) (start stop : Int) : List RateRow :=
  window RateRow.fundingTime (m.rates symbol) (toMs start) (toMs stop)

/-- The klines that open in a closed range of datetimes. -/
def klinesIn (m : Market) (symbol : String) (interval start stop : Int) : List Kline :=
  window Kline.openTime (m.klines symbol interval) (toMs start) (toMs stop)

theorem mem_ratesIn {symbol : String} {start stop : Int} {r : RateRow} :
    r ∈ ratesIn m symbol start stop ↔
      r ∈ m.rates symbol ∧ toMs start ≤ r.fundingTime ∧ r.fundingTime ≤ toMs stop :=
  mem_window

theorem pageBudget_enough (start stop : Int) :
    (toMs stop + 1 - toMs start).toNat < pageBudget start stop := Nat.lt_succ_self _

theorem fetchRatePages_run (symbol : String) (start stop : Int) (s : FetchState) :
    runAlone m (fetchRatePages symbol start stop) s =
      (s, .ok (ratesIn m symbol start stop)) :=
  run_pages_still (fun _ => rfl) (collect_eq_window (m.rates_ascending symbol) (by decide)
    (fun _ h => by simpa using h) (pageBudget_enough start stop))

theorem fetchRatePages_safe (symbol : String) (start stop : Int) :
    (fetchRatePages symbol start stop).Safe (perform m) Inv Guard
      fun rates => rates = ratesIn m symbol start stop := by
  have hpage : ∀ cursor, (getFundingRate symbol cursor (toMs stop) 1000).Safe (perform m) Inv
      Guard fun batch =>
        batch = answer RateRow.fundingTime 1000 (m.rates symbol) cursor (toMs stop) := by
    intro cursor s fault hinv _
    cases fault with
    | none => exact ⟨hinv, rfl⟩
    | some e => exact ⟨hinv, trivial⟩
  apply (safe_pages hpage _ _).mono
  intro rates hrates
  rw [collect_eq_window (m.rates_ascending symbol) (by decide) (fun _ h => by simpa using h)
    (pageBudget_enough start stop), Option.some.injEq] at hrates
  exact hrates.symm

theorem fetchKlines_run (symbol : String) (start stop interval : Int) (s : FetchState) :
    runAlone m (fetchKlines symbol start stop interval) s =
      (s, .ok (klineDict (klinesIn m symbol interval start stop))) := by
  rw [runAlone, fetchKlines, Prog.run_bind_ok (run_pages_still (fun _ => rfl)
    (collect_eq_window (m.klines_ascending symbol interval) (by decide)
      (fun _ h => by simpa using h) (pageBudget_enough start stop)))]
  rfl

theorem fetchKlines_safe (symbol : String) (start stop interval : Int) :
    (fetchKlines symbol start stop interval).Safe (perform m) Inv Guard
      fun klines => klines = klineDict (klinesIn m symbol interval start stop) := by
  have hpage : ∀ cursor, (getMarkPriceKlines symbol interval cursor (toMs stop) 1500).Safe
      (perform m) Inv Guard fun batch =>
        batch = answer Kline.openTime 1500 (m.klines symbol interval) cursor (toMs stop) := by
    intro cursor s fault hinv _
    cases fault with
    | none => exact ⟨hinv, rfl⟩
    | some e => exact ⟨hinv, trivial⟩
  apply Prog.Safe.bind (safe_pages hpage _ _)
  intro rows hrows
  rw [collect_eq_window (m.klines_ascending symbol interval) (by decide)
    (fun _ h => by simpa using h) (pageBudget_enough start stop), Option.some.injEq] at hrows
  rw [← hrows]
  rfl

end Pages

/-! ## 2. The kline dictionary -/

theorem foldl_set_get? {rows : List Kline} (h : StrictlyAscending Kline.openTime rows)
    (d : OrderedDict Int Decimal) (t : Int) (price : Decimal) :
    (rows.foldl (fun result row => result.set row.openTime row.openPrice) d).get? t = some price ↔
      (∃ row ∈ rows, row.openTime = t ∧ row.openPrice = price) ∨
        (∀ row ∈ rows, row.openTime ≠ t) ∧ d.get? t = some price := by
  induction rows generalizing d with
  | nil => simp
  | cons first rest ih =>
      obtain ⟨hfirst, hrest⟩ := List.pairwise_cons.mp h
      rw [List.foldl_cons, ih hrest, OrderedDict.get?_set]
      by_cases ht : t = first.openTime
      · subst ht
        have hlater : ∀ row ∈ rest, row.openTime ≠ first.openTime :=
          fun row hrow => ne_of_gt (hfirst row hrow)
        have hnone : ¬ ∃ row ∈ rest, row.openTime = first.openTime ∧ row.openPrice = price := by
          rintro ⟨row, hrow, htime, -⟩
          exact hlater row hrow htime
        simp only [hnone, false_or, if_true, Option.some.injEq, List.mem_cons, exists_eq_or_imp,
          forall_eq_or_imp, ne_eq, not_true_eq_false, false_and, or_false, true_and]
        exact ⟨fun hp => hp.2, fun hp => ⟨hlater, hp⟩⟩
      · simp only [if_neg ht, List.mem_cons, exists_eq_or_imp, forall_eq_or_imp, ne_eq,
          Ne.symm ht, false_and, false_or, not_false_eq_true, true_and]

theorem klineDict_get? {rows : List Kline} (h : StrictlyAscending Kline.openTime rows)
    (t : Int) (price : Decimal) : (klineDict rows).get? t = some price ↔
      ∃ row ∈ rows, row.openTime = t ∧ row.openPrice = price := by
  rw [klineDict, foldl_set_get? h]
  simp

theorem mem_klineDict_keys {rows : List Kline} (h : StrictlyAscending Kline.openTime rows)
    (t : Int) : t ∈ (klineDict rows).keys ↔ ∃ row ∈ rows, row.openTime = t := by
  rw [OrderedDict.mem_keys]
  constructor
  · rintro ⟨price, hget⟩
    obtain ⟨row, hrow, htime, -⟩ := (klineDict_get? h t price).mp hget
    exact ⟨row, hrow, htime⟩
  · rintro ⟨row, hrow, htime⟩
    exact ⟨row.openPrice, (klineDict_get? h t _).mpr ⟨row, hrow, htime, rfl⟩⟩

/-! ## 3. The floor lookup -/

/-- `bisect_right` counts the members of a sorted list up to `x`. -/
theorem bisectRight_spec {a : List Int} (h : a.Pairwise (· ≤ ·)) (x : Int) {i : Nat} {t : Int}
    (hi : a[i]? = some t) : t ≤ x ↔ i < bisectRight a x := by
  induction a generalizing i with
  | nil => simp at hi
  | cons first rest ih =>
      obtain ⟨hfirst, hrest⟩ := List.pairwise_cons.mp h
      by_cases hle : first ≤ x
      · simp only [bisectRight, List.takeWhile_cons, hle, decide_true, if_true,
          List.length_cons]
        cases i with
        | zero =>
            simp only [List.getElem?_cons_zero, Option.some.injEq] at hi
            subst hi
            simp [hle]
        | succ i =>
            rw [List.getElem?_cons_succ] at hi
            rw [ih hrest hi, bisectRight]
            omega
      · have hlt : first ≤ t := by
          rcases List.mem_cons.mp (List.mem_of_getElem? hi) with rfl | hmem
          · exact le_refl _
          · exact hfirst t hmem
        simp only [bisectRight, List.takeWhile_cons, hle, decide_false, Bool.false_eq_true,
          if_false, List.length_nil, Nat.not_lt_zero, iff_false]
        omega

theorem bisectRight_le_length (a : List Int) (x : Int) : bisectRight a x ≤ a.length :=
  (List.takeWhile_sublist _).length_le

/-- The entry `bisect_right(a, x) - 1` of a sorted list is its greatest member up to `x`. -/
theorem isGreatest_of_bisectRight {a : List Int} (h : a.Pairwise (· ≤ ·)) {x : Int} {idx : Nat}
    (hidx : bisectRight a x = idx + 1) :
    ∃ t, a[idx]? = some t ∧ IsGreatest {t | t ∈ a ∧ t ≤ x} t := by
  have hlen := bisectRight_le_length a x
  obtain ⟨t, ht⟩ : ∃ t, a[idx]? = some t := ⟨_, List.getElem?_eq_getElem (by omega)⟩
  refine ⟨t, ht, ⟨List.mem_of_getElem? ht, ?_⟩, ?_⟩
  · rw [bisectRight_spec h x ht]
    omega
  · rintro t' ⟨hmem, hle⟩
    obtain ⟨j, hj⟩ := List.mem_iff_getElem?.mp hmem
    rw [bisectRight_spec h x hj] at hle
    obtain ⟨hjlen, rfl⟩ := List.getElem?_eq_some_iff.mp hj
    obtain ⟨hilen, rfl⟩ := List.getElem?_eq_some_iff.mp ht
    rcases Nat.lt_or_eq_of_le (by omega : j ≤ idx) with hlt | rfl
    · exact List.pairwise_iff_getElem.mp h j idx hjlen hilen hlt
    · exact le_refl _

/-- **The price `_merge` joins** is that of the greatest kline time at or before the
    funding time, provided it is within the tolerance. -/
theorem markAt_eq_some_iff {klines : OrderedDict Int Decimal} {tol ft : Int} (htol : 0 ≤ tol)
    {mark : Decimal} : markAt klines tol ft = some mark ↔
      ∃ t, IsGreatest {t | t ∈ klines.keys ∧ t ≤ ft} t ∧ ft - t ≤ tol ∧
        klines.get? t = some mark := by
  have hsorted : (klines.keys.insertionSort (· ≤ ·)).Pairwise (· ≤ ·) :=
    List.pairwise_insertionSort _ _
  unfold markAt
  rcases hexact : klines.get? ft with _ | exactMark
  · rcases hidx : bisectRight (klines.keys.insertionSort (· ≤ ·)) ft with _ | idx
    · -- every kline opens later
      simp only [hidx, reduceCtorEq, false_iff, not_exists, not_and]
      rintro t ⟨⟨hmem, hle⟩, -⟩
      obtain ⟨j, hj⟩ := List.mem_iff_getElem?.mp ((List.mem_insertionSort (· ≤ ·)).mpr hmem)
      rw [bisectRight_spec hsorted ft hj, hidx] at hle
      omega
    · obtain ⟨t, ht, hgreatest⟩ := isGreatest_of_bisectRight hsorted hidx
      simp only [List.mem_insertionSort] at hgreatest
      simp only [hidx, ht, Option.ite_none_right_eq_some]
      constructor
      · rintro ⟨hwithin, hget⟩
        exact ⟨t, hgreatest, hwithin, hget⟩
      · rintro ⟨t', hgreatest', hwithin, hget⟩
        rw [hgreatest.unique hgreatest']
        exact ⟨hwithin, hget⟩
  · have hgreatest : IsGreatest {t | t ∈ klines.keys ∧ t ≤ ft} ft :=
      ⟨⟨OrderedDict.mem_keys.mpr ⟨_, hexact⟩, le_refl _⟩, fun _ h => h.2⟩
    simp only [Option.some.injEq]
    constructor
    · rintro rfl
      exact ⟨ft, hgreatest, by omega, hexact⟩
    · rintro ⟨t, hgreatest', -, hget⟩
      rw [hgreatest'.unique hgreatest, hexact, Option.some.injEq] at hget
      exact hget

theorem exists_latest {klines : OrderedDict Int Decimal} {t ft : Int} (ht : t ∈ klines.keys)
    (hle : t ≤ ft) : ∃ latest, IsGreatest {t | t ∈ klines.keys ∧ t ≤ ft} latest := by
  have hsorted : (klines.keys.insertionSort (· ≤ ·)).Pairwise (· ≤ ·) :=
    List.pairwise_insertionSort _ _
  obtain ⟨j, hj⟩ := List.mem_iff_getElem?.mp ((List.mem_insertionSort (· ≤ ·)).mpr ht)
  have hcount := (bisectRight_spec hsorted ft hj).mp hle
  obtain ⟨latest, -, hlatest⟩ := isGreatest_of_bisectRight hsorted
    (Nat.sub_add_cancel (Nat.one_le_of_lt hcount)).symm
  simp only [List.mem_insertionSort] at hlatest
  exact ⟨latest, hlatest⟩

/-- **No price is found** exactly if no kline opens within the tolerance. -/
theorem markAt_eq_none_iff {klines : OrderedDict Int Decimal} {tol ft : Int} (htol : 0 ≤ tol) :
    markAt klines tol ft = none ↔ ∀ t ∈ klines.keys, ¬ (ft - tol ≤ t ∧ t ≤ ft) := by
  constructor
  · rintro hnone t ht ⟨hlow, hle⟩
    obtain ⟨latest, hlatest⟩ := exists_latest ht hle
    have hnear : t ≤ latest := hlatest.2 ⟨ht, hle⟩
    obtain ⟨mark, hmark⟩ := OrderedDict.mem_keys.mp hlatest.1.1
    have hsome := (markAt_eq_some_iff htol).mpr ⟨latest, hlatest, by omega, hmark⟩
    exact Option.some_ne_none mark (hsome.symm.trans hnone)
  · intro hfar
    rcases hmark : markAt klines tol ft with _ | mark
    · rfl
    · obtain ⟨t, ⟨⟨ht, hle⟩, -⟩, hwithin, -⟩ := (markAt_eq_some_iff htol).mp hmark
      exact absurd ⟨by omega, hle⟩ (hfar t ht)

/-- `k` is the latest kline of a series at or before `ft`. -/
def IsFloorKline (series : List Kline) (ft : Int) (k : Kline) : Prop :=
  k ∈ series ∧ k.openTime ≤ ft ∧ ∀ k' ∈ series, k'.openTime ≤ ft → k'.openTime ≤ k.openTime

/-- In a series with distinct open times the floor is unique. -/
theorem IsFloorKline.unique {series : List Kline} (h : StrictlyAscending Kline.openTime series)
    {ft : Int} {k k' : Kline} (hk : IsFloorKline series ft k) (hk' : IsFloorKline series ft k') :
    k = k' := by
  have htime : k.openTime = k'.openTime :=
    le_antisymm (hk'.2.2 k hk.1 hk.2.1) (hk.2.2 k' hk'.1 hk'.2.1)
  have hnodup : (series.map Kline.openTime).Nodup :=
    List.pairwise_map.mpr (List.Pairwise.imp (fun hlt => ne_of_lt hlt) h)
  exact List.inj_on_of_nodup_map hnodup hk.1 hk'.1 htime

/-- **The gap sees the floor of the whole series or nothing.**  Joining with the klines of
    a gap that contains the funding time gives the latest kline of the whole series, if
    that kline opens inside the gap, and fails otherwise. -/
theorem markAt_klinesIn {m : Market} {symbol : String} {interval start stop tol ft : Int}
    (htol : 0 ≤ tol) (hin : toMs start ≤ ft ∧ ft ≤ toMs stop) {mark : Decimal} :
    markAt (klineDict (klinesIn m symbol interval start stop)) tol ft = some mark ↔
      ∃ k, IsFloorKline (m.klines symbol interval) ft k ∧ toMs start ≤ k.openTime ∧
        ft - k.openTime ≤ tol ∧ k.openPrice = mark := by
  have hasc := (m.klines_ascending symbol interval).window (toMs start) (toMs stop)
  rw [markAt_eq_some_iff htol]
  simp only [klinesIn, klineDict_get? hasc, mem_klineDict_keys hasc, mem_window]
  constructor
  · rintro ⟨t, ⟨⟨-, hle⟩, hmax⟩, hwithin, k, ⟨hk, hlo, -⟩, rfl, rfl⟩
    refine ⟨k, ⟨hk, hle, ?_⟩, hlo, hwithin, rfl⟩
    intro k' hk' hle'
    by_cases hlo' : toMs start ≤ k'.openTime
    · exact hmax ⟨⟨k', ⟨hk', hlo', by omega⟩, rfl⟩, hle'⟩
    · omega
  · rintro ⟨k, ⟨hk, hle, hmax⟩, hlo, hwithin, rfl⟩
    refine ⟨k.openTime, ⟨⟨⟨k, ⟨hk, hlo, by omega⟩, rfl⟩, hle⟩, ?_⟩, hwithin, k,
      ⟨hk, hlo, by omega⟩, rfl, rfl⟩
    rintro t ⟨⟨k', ⟨hk', -, -⟩, rfl⟩, hle'⟩
    exact hmax k' hk' hle'

/-! ## 4. `_merge` -/

variable {symbol : String} {klines : OrderedDict Int Decimal} {intervalH : Int}

theorem mem_of_merge_ok {rates : List RateRow} {events : List FundingEvent}
    (h : merge symbol klines intervalH rates = .ok events) {ev : FundingEvent} :
    ev ∈ events ↔ ∃ r ∈ rates, ∃ mark,
      markAt klines (intervalH * 3600000) r.fundingTime = some mark ∧
        ev = eventOf symbol intervalH r mark := by
  induction rates generalizing events with
  | nil =>
      simp only [merge, Except.ok.injEq] at h
      subst h
      simp
  | cons r rest ih =>
      simp only [merge] at h
      rcases hmark : markAt klines (intervalH * 3600000) r.fundingTime with _ | mark
      · rw [hmark] at h; simp at h
      · rcases hrest : merge symbol klines intervalH rest with e | restEvents
        · rw [hmark, hrest] at h; simp at h
        · rw [hmark, hrest] at h
          simp only [Except.ok.injEq] at h
          subst h
          simp only [List.mem_cons, ih hrest, exists_eq_or_imp, hmark, Option.some.injEq,
            exists_eq_left']

/-- **`_merge` joins every row or fails**: it returns exactly when each rate row finds a
    kline, and otherwise it reports a missing mark price. -/
theorem merge_cases (symbol : String) (klines : OrderedDict Int Decimal) (intervalH : Int)
    (rates : List RateRow) :
    (∃ events, merge symbol klines intervalH rates = .ok events ∧
      ∀ r ∈ rates, ∃ mark, markAt klines (intervalH * 3600000) r.fundingTime = some mark) ∨
    (∃ r ∈ rates, markAt klines (intervalH * 3600000) r.fundingTime = none ∧
      merge symbol klines intervalH rates =
        .error (.missingMarkPrice (fromMs r.fundingTime) symbol)) := by
  induction rates with
  | nil => exact Or.inl ⟨[], rfl, by simp⟩
  | cons r rest ih =>
      rcases hmark : markAt klines (intervalH * 3600000) r.fundingTime with _ | mark
      · exact Or.inr ⟨r, List.mem_cons_self, hmark, by simp [merge, hmark]⟩
      · rcases ih with ⟨events, hok, hall⟩ | ⟨bad, hbad, hnone, herr⟩
        · refine Or.inl ⟨eventOf symbol intervalH r mark :: events, by simp [merge, hmark, hok], ?_⟩
          intro r' hr'
          rcases List.mem_cons.mp hr' with rfl | hr'
          · exact ⟨mark, hmark⟩
          · exact hall r' hr'
        · exact Or.inr ⟨bad, List.mem_cons_of_mem _ hbad, hnone, by simp [merge, hmark, herr]⟩

end FundingTool.BinanceUsdm
