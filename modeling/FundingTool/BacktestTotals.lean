import FundingTool.BacktestMirror

/-!
# Modes, sizes and parts of a backtest

Read off the formulas of the exact backtest:

  * where the price is constant and the window as long as the intervals, all modes
    annualise to the same rate (`apr_of_constant_price`);
  * the result is linear in the size (`runBacktest_scale`);
  * the totals in base and quote currency agree with the accumulated rate, and those of a
    list of events are the sums over its parts (`totals_reconcile`).
-/

namespace FundingTool.Backtest

/-! ## 1. One rate in three modes -/

theorem serving_apply (events : List (Event Rat)) (symbol : String) (start stop : DateTime) :
    serving events symbol start stop = .ok events := rfl

theorem valuedRateSum_of_constant {events : List (Event Rat)} {m : Rat}
    (h : ∀ ev ∈ events, ev.markPrice = m) : valuedRateSum events = m * rateSum events := by
  rw [valuedRateSum, rateSum, ← List.sum_map_mul_left]
  congr 1
  apply List.map_congr_left
  intro ev hev
  rw [h ev hev]

theorem priceSum_of_constant {events : List (Event Rat)} {m : Rat}
    (h : ∀ ev ∈ events, ev.markPrice = m) : priceSum events = events.length * m := by
  rw [priceSum, List.map_congr_left h, List.map_const', List.sum_replicate, nsmul_eq_mul]

theorem entryPrice_of_constant {events : List (Event Rat)} (hne : events ≠ []) {m : Rat}
    (h : ∀ ev ∈ events, ev.markPrice = m) : entryPrice events = m := by
  obtain ⟨first, rest, rfl⟩ := List.exists_cons_of_ne_nil hne
  exact h first List.mem_cons_self

theorem hoursSum_pos {events : List (Event Rat)} (hne : events ≠ [])
    (h : ∀ ev ∈ events, 0 < ev.intervalHours) : 0 < hoursSum events := by
  have hpos : ∀ x ∈ events.map Event.intervalHours, 0 < x := by
    intro x hx
    obtain ⟨ev, hev, rfl⟩ := List.mem_map.mp hx
    exact h ev hev
  exact List.sum_pos _ hpos (by simpa using hne)

theorem years_hours (h : Int) : years (hours h) = h / 8766 := by
  rw [years, hours]
  push_cast
  ring

/-- **All modes annualise alike** where the price is constant and the window is as long as
    the intervals of its events. -/
theorem apr_of_constant_price {inp : BacktestInput Rat} {start stop : Int}
    (hwindow : Window inp start stop)
    (hsize : inp.sizeMode ≠ .rateOnly → ∃ size, inp.size = some size ∧ 0 < size)
    {events : List (Event Rat)} (hne : events ≠ []) {m : Rat} (hm : 0 < m)
    (hprice : ∀ ev ∈ events, ev.markPrice = m) (hhours : ∀ ev ∈ events, 0 < ev.intervalHours)
    (hlength : stop - start = hours (hoursSum events)) :
    ∃ res, runBacktest exact (serving events) inp = .ok res ∧
      res.apr = sign inp.side * rateSum events * 8766 / hoursSum events := by
  have hsum : (0 : Rat) < hoursSum events := Int.cast_pos.mpr (hoursSum_pos hne hhours)
  have hcount : (0 : Rat) < events.length :=
    Nat.cast_pos.mpr (List.length_pos_iff.mpr hne)
  have hzero : ∀ ev ∈ events, ev.markPrice ≠ 0 := by
    intro ev hev
    rw [hprice ev hev]
    exact hm.ne'
  by_cases hmode : inp.sizeMode = .rateOnly
  · have hrun := runBacktest_rateOnly hwindow hmode (serving_apply events _ _ _)
      (Or.inr (hoursSum_pos hne hhours).ne')
    refine ⟨_, hrun, ?_⟩
    simp only [outcome, rateOnlyOutcome]
    field_simp
  · obtain ⟨size, hsome, hpos⟩ := hsize hmode
    have hrun := runBacktest_sized hwindow hmode hsome hpos (serving_apply events _ _ _) hzero
    refine ⟨_, hrun, ?_⟩
    simp only [outcome, sizedOutcome, valuedRateSum_of_constant hprice, hlength, years_hours]
    rcases hcase : inp.sizeMode with _ | _ | _
    · simp only [quantityOf, notionalOf, priceSum_of_constant hprice]
      field_simp
    · simp only [quantityOf, notionalOf, entryPrice_of_constant hne hprice]
      field_simp
    · exact absurd hcase hmode

/-- Half a day at one price: an interval of eight hours, then one of four. -/
def halfDay : List (Event Rat) :=
  [⟨hours 8, "BTCUSDT", 1 / 10000, 100, 8⟩, ⟨hours 12, "BTCUSDT", -1 / 5000, 100, 4⟩]

theorem apr_of_constant_price_halfDay :
    ∃ res, runBacktest exact (serving halfDay)
        ⟨"BTCUSDT", .long, .aware 0, .aware (hours 12), .quote, some 2⟩ = .ok res ∧
      res.apr = sign .long * rateSum halfDay * 8766 / hoursSum halfDay :=
  apr_of_constant_price ⟨rfl, rfl, by decide⟩ (fun _ => ⟨2, rfl, by decide⟩)
    (List.cons_ne_nil _ _) (by decide : (0 : Rat) < 100) (by decide) (by decide) (by decide)

/-! ## 2. Scaling the size -/

/-- Amounts and payments grow with the size, numbers and rates do not. -/
def scaled (c : Rat) : Reading Rat Rat where
  num a b := b = a
  amount a b := b = c * a
  signed a b := b = a
  paid a b := b = c * a

theorem sum_of_scaled {c : Rat} {xs ys : List Rat} (h : List.Forall₂ (fun a b => b = c * a) xs ys) :
    ys.sum = c * xs.sum := by
  induction h with
  | nil => simp
  | cons hab _ ih => rw [List.sum_cons, List.sum_cons, hab, ih, mul_add]

theorem scaled_div {c a b x y : Rat} (hab : b = c * a) (hxy : y = x) (hc : c ≠ 0) :
    Lockstep (fun a b => b = c * a) (exact.div a x) (exact.div b y) := by
  subst hab hxy
  by_cases hzero : y = 0
  · simp only [exact, rounded, if_pos hzero, mul_eq_zero, hc, false_or]
    exact Lockstep.error
  · rw [exact_div hzero, exact_div hzero]
    exact mul_div_assoc c a y

theorem scaled_ratio {c a b x y : Rat} (hab : b = c * a) (hxy : y = c * x) (hc : c ≠ 0) :
    Lockstep (fun a b => b = a) (exact.div a x) (exact.div b y) := by
  subst hab hxy
  apply Lockstep.of_eq
  simp only [exact, rounded, mul_eq_zero, hc, false_or, mul_div_mul_left a x hc]

theorem scaled_respected {c : Rat} (hc : 0 < c) (side : Side) :
    (scaled c).Respected exact exact side side where
  lit _ _ := rfl
  side := rfl
  zero_signed := rfl
  zero_paid := by simp [scaled, exact, rounded]
  mul_num := by rintro a _ x _ rfl rfl; exact Lockstep.of_eq rfl
  mul_amount := by rintro a _ _ _ rfl rfl; exact mul_assoc c a _
  mul_signed := by rintro a _ x _ rfl rfl; exact Lockstep.of_eq rfl
  mul_paid := by rintro a _ _ _ rfl rfl; exact mul_assoc c a _
  sign_amount := by rintro _ _ x _ rfl rfl; exact mul_left_comm _ c x
  add_signed := by rintro a _ x _ rfl rfl; exact Lockstep.of_eq rfl
  add_paid := by rintro a _ x _ rfl rfl; exact (mul_add c a x).symm
  div_num := by rintro a _ x _ rfl rfl; exact Lockstep.of_eq rfl
  div_amount := fun _ _ _ _ hab hxy => scaled_div hab hxy hc.ne'
  div_signed := by rintro a _ x _ rfl rfl; exact Lockstep.of_eq rfl
  div_paid := fun _ _ _ _ hab hxy => scaled_div hab hxy hc.ne'
  paid_per_amount := fun _ _ _ _ hab hxy => scaled_ratio hab hxy hc.ne'
  mean_num := by
    rintro a _ xs ys rfl hxys
    exact Lockstep.of_eq (by rw [eq_of_same hxys])
  mean_amount := by
    rintro a _ xs ys rfl hxys
    change (c * a :: ys).sum / (ys.length + 1) = c * ((a :: xs).sum / (xs.length + 1))
    rw [List.sum_cons, List.sum_cons, sum_of_scaled hxys, hxys.length_eq]
    ring
  mean_signed := by
    rintro a _ xs ys rfl hxys
    exact Lockstep.of_eq (by rw [eq_of_same hxys])
  leZero_num := by rintro a _ rfl; exact Lockstep.ok rfl
  leZero_amount := by
    rintro a _ rfl
    apply Lockstep.ok
    rw [decide_eq_decide]
    rw [← not_lt, ← not_lt, mul_pos_iff_of_pos_left hc]
  truthy_amount := by
    rintro a _ rfl
    simp [exact, rounded, hc.ne']

/-- The result for `c` times the size. -/
def BacktestResult.scale (c : Rat) (res : BacktestResult Rat) : BacktestResult Rat where
  input := { res.input with size := res.input.size.map (c * ·) }
  payments := res.payments.map fun p =>
    { p with
      quantityBase := c * p.quantityBase
      notionalQuote := c * p.notionalQuote
      paymentQuote := c * p.paymentQuote }
  totalQuote := res.totalQuote.map (c * ·)
  totalBase := res.totalBase.map (c * ·)
  cumulativeRatePct := res.cumulativeRatePct
  apr := res.apr
  eventCount := res.eventCount
  avgRate := res.avgRate

theorem scaled_event {c : Rat} {ev ev' : Event Rat} (h : EventRel (scaled c) ev ev') : ev' = ev :=
  mirrored_event ⟨h.timestamp, h.symbol, h.rate, h.markPrice, h.intervalHours⟩

theorem scaled_payments {c : Rat} {ps ps' : List (FundingPayment Rat)}
    (h : List.Forall₂ (PaymentRel (scaled c)) ps ps') :
    ps' = ps.map fun p =>
      { p with
        quantityBase := c * p.quantityBase
        notionalQuote := c * p.notionalQuote
        paymentQuote := c * p.paymentQuote } := by
  induction h with
  | nil => rfl
  | @cons p p' ps ps' hp _ ih =>
      obtain ⟨hevent, hqty, hnotional, hpaid⟩ := hp
      rw [ih, List.map_cons]
      congr 1
      cases p
      cases p'
      simp only [scaled] at *
      rw [scaled_event hevent, hqty, hnotional, hpaid]

theorem scaled_option {c : Rat} {a b : Option Rat} (h : Option.Rel (scaled c).paid a b) :
    b = a.map (c * ·) := by
  cases h with
  | none => rfl
  | some h => rw [show _ = _ from h]; rfl

/-- **Scaling the size** scales quantities, notionals, payments and totals, and nothing
    else. -/
theorem runBacktest_scale {c : Rat} (hc : 0 < c)
    (exchange : String → DateTime → DateTime → Except FundingToolError (List (Event Rat)))
    {inp : BacktestInput Rat} (hmode : inp.sizeMode ≠ .rateOnly) :
    runBacktest exact exchange { inp with size := inp.size.map (c * ·) } =
      (runBacktest exact exchange inp).map (BacktestResult.scale c) := by
  apply Lockstep.eq_map
  have hexchange : Lockstep (List.Forall₂ (EventRel (scaled c)))
      (exchange inp.symbol inp.start inp.stop) (exchange inp.symbol inp.start inp.stop) := by
    rcases exchange inp.symbol inp.start inp.stop with e | events
    · exact Lockstep.error
    · exact List.forall₂_same.mpr fun _ _ => ⟨rfl, rfl, rfl, rfl, rfl⟩
  have hsize : Option.Rel (scaled c).amount inp.size (inp.size.map (c * ·)) := by
    rcases inp.size with _ | size
    · exact .none
    · exact .some rfl
  refine Lockstep.mono ?_ (@runBacktest_related _ _ (scaled c) exact exact inp
    { inp with size := inp.size.map (c * ·) } (scaled_respected hc inp.side)
    (by simp [scaled, exact, rounded]) (fun h => absurd h hmode)
    ⟨rfl, rfl, rfl, rfl, fun _ => hsize⟩ exchange exchange hexchange)
  intro res res' hres
  obtain ⟨⟨hinput, hinput'⟩, hpayments, hquote, hbase, hcumulative, hapr, hcount, havg⟩ := hres
  cases res
  cases res'
  simp only [scaled, BacktestResult.scale] at *
  rw [hinput, hinput', scaled_payments hpayments, scaled_option hquote, scaled_option hbase,
    hcumulative, hapr, hcount, havg]

theorem runBacktest_rates {events : List (Event Rat)} {inp : BacktestInput Rat}
    {res : BacktestResult Rat} (h : runBacktest exact (serving events) inp = .ok res) :
    res.eventCount = events.length ∧
      res.cumulativeRatePct = sign inp.side * rateSum events * 100 ∧
      res.avgRate = sign inp.side * rateSum events / events.length := by
  obtain ⟨elapsed, -, h⟩ := bind_eq_ok h
  obtain ⟨sizing, -, h⟩ := bind_eq_ok h
  obtain ⟨served, hserved, h⟩ := bind_eq_ok h
  obtain rfl : events = served := Except.ok.inj hserved
  exact settle_rates (mapError_eq_ok h)

/-- **Results are linear in the size**, and what is said about the rates depends neither on
    the size nor on the mode. -/
theorem backtest_linear {inp : BacktestInput Rat} {start stop : Int}
    (hwindow : Window inp start stop) (hmode : inp.sizeMode ≠ .rateOnly) {size : Rat}
    (hsize : inp.size = some size) (hpos : 0 < size) {c : Rat} (hc : 0 < c)
    {events : List (Event Rat)} (hprice : ∀ ev ∈ events, 0 < ev.markPrice) :
    ∃ res, runBacktest exact (serving events) inp = .ok res ∧
      runBacktest exact (serving events) { inp with size := some (c * size) } =
        .ok (res.scale c) ∧
      (∀ mode size' res',
        runBacktest exact (serving events) { inp with sizeMode := mode, size := size' } = .ok res' →
        res'.eventCount = res.eventCount ∧ res'.cumulativeRatePct = res.cumulativeRatePct ∧
          res'.avgRate = res.avgRate) ∧
      ∀ size', events = [] ∨ hoursSum events ≠ 0 →
        ∃ res', runBacktest exact (serving events)
          { inp with sizeMode := .rateOnly, size := size' } = .ok res' := by
  have hrun := runBacktest_sized hwindow hmode hsize hpos (serving_apply events _ _ _)
    fun ev hev => (hprice ev hev).ne'
  have hscale := runBacktest_scale hc (serving events) hmode
  rw [hrun, hsize] at hscale
  refine ⟨_, hrun, hscale, ?_, ?_⟩
  · intro mode size' res' hrun'
    obtain ⟨hcount', hcumulative', havg'⟩ := runBacktest_rates hrun'
    obtain ⟨hcount, hcumulative, havg⟩ := runBacktest_rates hrun
    exact ⟨hcount'.trans hcount.symm, hcumulative'.trans hcumulative.symm, havg'.trans havg.symm⟩
  · intro size' hhours
    have hwindow' : Window { inp with sizeMode := .rateOnly, size := size' } start stop :=
      ⟨hwindow.opens, hwindow.closes, hwindow.ordered⟩
    exact ⟨_, runBacktest_rateOnly hwindow' rfl (serving_apply events _ _ _) hhours⟩

theorem backtest_linear_halfDay :
    ∃ res, runBacktest exact (serving halfDay)
        ⟨"BTCUSDT", .long, .aware 0, .aware (hours 12), .quote, some 2⟩ = .ok res ∧
      runBacktest exact (serving halfDay)
        ⟨"BTCUSDT", .long, .aware 0, .aware (hours 12), .quote, some (3 * 2)⟩ =
          .ok (res.scale 3) := by
  obtain ⟨res, hrun, hscaled, -⟩ := @backtest_linear
    ⟨"BTCUSDT", .long, .aware 0, .aware (hours 12), .quote, some 2⟩ _ _ ⟨rfl, rfl, by decide⟩
    (by decide) 2 rfl (by decide) 3 (by decide) halfDay (by decide)
  exact ⟨res, hrun, hscaled⟩

/-! ## 3. Totals -/

theorem rateSum_append (front back : List (Event Rat)) :
    rateSum (front ++ back) = rateSum front + rateSum back := by
  rw [rateSum, List.map_append, List.sum_append]
  rfl

theorem valuedRateSum_append (front back : List (Event Rat)) :
    valuedRateSum (front ++ back) = valuedRateSum front + valuedRateSum back := by
  rw [valuedRateSum, List.map_append, List.sum_append]
  rfl

/-- Count times average of the rates is their sum, also for no events. -/
theorem length_mul_average (events : List (Event Rat)) (x : Rat) :
    events.length * (x * rateSum events / events.length) = x * rateSum events := by
  cases events with
  | nil => simp [rateSum]
  | cons first rest =>
      have : ((first :: rest).length : Rat) ≠ 0 := Nat.cast_ne_zero.mpr (Nat.succ_ne_zero _)
      field_simp

/-- Two backtests of one position, over windows of their own. -/
structure SamePosition (inp inp' : BacktestInput Rat) : Prop where
  side : inp'.side = inp.side
  sizeMode : inp'.sizeMode = inp.sizeMode
  size : inp'.size = inp.size

/-- **The totals reconcile**: the total in base currency with the accumulated rate, the
    total in quote currency with its definition, and in BASE mode the totals of a list of
    events with those of any two parts of it. -/
theorem totals_reconcile {inp : BacktestInput Rat} {start stop : Int}
    (hwindow : Window inp start stop) (hmode : inp.sizeMode ≠ .rateOnly) {size : Rat}
    (hsize : inp.size = some size) (hpos : 0 < size) {events : List (Event Rat)}
    (hprice : ∀ ev ∈ events, ev.markPrice ≠ 0) :
    ∃ res totalQuote totalBase, runBacktest exact (serving events) inp = .ok res ∧
      res.totalQuote = some totalQuote ∧ res.totalBase = some totalBase ∧
      res.payments.map FundingPayment.event = events ∧
      totalQuote = sign inp.side *
        (res.payments.map fun p => p.quantityBase * p.event.markPrice * p.event.rate).sum ∧
      (inp.sizeMode = .base → 100 * totalBase = size * res.cumulativeRatePct) ∧
      (inp.sizeMode = .quote → ∀ first ∈ events.head?,
        100 * totalBase = size / first.markPrice * res.cumulativeRatePct) ∧
      (inp.sizeMode = .base → ∀ front back, events = front ++ back → ∀ inp₁ inp₂ start₁ stop₁
        start₂ stop₂, Window inp₁ start₁ stop₁ → Window inp₂ start₂ stop₂ →
        SamePosition inp inp₁ → SamePosition inp inp₂ →
        ∃ res₁ res₂ quote₁ quote₂ base₁ base₂,
          runBacktest exact (serving front) inp₁ = .ok res₁ ∧
          runBacktest exact (serving back) inp₂ = .ok res₂ ∧
          res₁.totalQuote = some quote₁ ∧ res₂.totalQuote = some quote₂ ∧
          res₁.totalBase = some base₁ ∧ res₂.totalBase = some base₂ ∧
          totalQuote = quote₁ + quote₂ ∧ totalBase = base₁ + base₂ ∧
          res.cumulativeRatePct = res₁.cumulativeRatePct + res₂.cumulativeRatePct ∧
          res.eventCount = res₁.eventCount + res₂.eventCount ∧
          res.eventCount * res.avgRate =
            res₁.eventCount * res₁.avgRate + res₂.eventCount * res₂.avgRate) := by
  have hrun := runBacktest_sized hwindow hmode hsize hpos (serving_apply events _ _ _) hprice
  refine ⟨_, _, _, hrun, rfl, rfl, ?_, ?_, ?_, ?_, ?_⟩
  · simp only [outcome, List.map_map]
    exact List.map_id'' (fun _ => rfl) events
  · simp only [outcome, sum_payments, payment, mul_assoc]
    rw [List.sum_map_mul_left, ← valuedRateSum]
  · intro hbase
    simp only [outcome, hbase, quantityOf]
    ring
  · intro hquote first hfirst
    simp only [outcome, hquote, quantityOf, entryPrice, Option.mem_def.mp hfirst,
      Option.map_some, Option.getD_some]
    ring
  · intro hbase front back hsplit inp₁ inp₂ start₁ stop₁ start₂ stop₂ hwindow₁ hwindow₂ hsame₁
      hsame₂
    have hmode₁ : inp₁.sizeMode = .base := hsame₁.sizeMode.trans hbase
    have hmode₂ : inp₂.sizeMode = .base := hsame₂.sizeMode.trans hbase
    have hrun₁ := runBacktest_sized hwindow₁ (by rw [hmode₁]; decide) (hsame₁.size.trans hsize)
      hpos (serving_apply front _ _ _) fun ev hev => hprice ev (by simp [hsplit, hev])
    have hrun₂ := runBacktest_sized hwindow₂ (by rw [hmode₂]; decide) (hsame₂.size.trans hsize)
      hpos (serving_apply back _ _ _) fun ev hev => hprice ev (by simp [hsplit, hev])
    refine ⟨_, _, _, _, _, _, hrun₁, hrun₂, rfl, rfl, rfl, rfl, ?_, ?_, ?_, ?_, ?_⟩
    · simp only [hsame₁.side, hsame₂.side, hbase, hmode₁, hmode₂, quantityOf]
      rw [hsplit, valuedRateSum_append]
      ring
    · simp only [hsame₁.side, hsame₂.side, hbase, hmode₁, hmode₂, quantityOf]
      rw [hsplit, rateSum_append]
      ring
    · simp only [outcome, hsame₁.side, hsame₂.side]
      rw [hsplit, rateSum_append]
      ring
    · simp only [outcome, hsplit, List.length_append]
    · simp only [outcome, hsame₁.side, hsame₂.side, length_mul_average]
      rw [hsplit, rateSum_append]
      ring

theorem totals_reconcile_halfDay :
    ∃ res totalBase, runBacktest exact (serving halfDay)
        ⟨"BTCUSDT", .short, .aware 0, .aware (hours 12), .base, some 2⟩ = .ok res ∧
      res.totalBase = some totalBase ∧ 100 * totalBase = 2 * res.cumulativeRatePct := by
  obtain ⟨res, _, totalBase, hrun, -, hbase, -, -, hcumulative, -⟩ := @totals_reconcile
    ⟨"BTCUSDT", .short, .aware 0, .aware (hours 12), .base, some 2⟩ _ _ ⟨rfl, rfl, by decide⟩
    (by decide) 2 rfl (by decide) halfDay (by decide)
  exact ⟨res, totalBase, hrun, hbase, hcumulative rfl⟩

end FundingTool.Backtest
