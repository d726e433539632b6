import FundingTool.BacktestReadings
import FundingTool.Domain
import Mathlib.Algebra.BigOperators.Group.List.Basic
import Mathlib.Algebra.BigOperators.Ring.Finset
import Mathlib.Algebra.BigOperators.Ring.List
import Mathlib.Tactic.FieldSimp
import Mathlib.Tactic.Positivity
import Mathlib.Tactic.Linarith

/-!
# The backtest in exact arithmetic

Without rounding the loops of `run_backtest` are sums, and its result is a formula in the
sums over the events of the rates, of price times rate, of the prices and of the hours
(`runBacktest_sized`, `runBacktest_rateOnly`).  What the size modes have in common and how the
totals add up is read off these formulas.
-/

namespace FundingTool.Backtest

open Decimal (Signal)

/-! ## 1. Sums -/

theorem exact_mul (x y : Rat) : exact.mul x y = .ok (x * y) := rfl

theorem exact_div {x y : Rat} (h : y ≠ 0) : exact.div x y = .ok (x / y) := by
  simp only [exact, rounded, if_neg h]

theorem lit_rounded (rnd : Rat → Except Signal Rat) (c : Int) : (rounded rnd).lit c 0 = c := by
  simp [rounded]

theorem exact_lit (c : Int) : exact.lit c 0 = c := lit_rounded .ok c

theorem sumOf_exact {f : FundingPayment Rat → Except Signal Rat} {g : FundingPayment Rat → Rat}
    {payments : List (FundingPayment Rat)} (h : ∀ p ∈ payments, f p = .ok (g p)) :
    sumOf exact f payments = .ok (payments.map g).sum := by
  have hfold : ∀ acc : Rat, payments.foldlM (fun acc p => do
      let x ← f p
      exact.add acc x) acc = .ok (acc + (payments.map g).sum) := by
    induction payments with
    | nil => intro acc; simp [pure, Except.pure]
    | cons p rest ih =>
        intro acc
        rw [List.foldlM_cons, h p List.mem_cons_self]
        have hrest := ih (fun q hq => h q (List.mem_cons_of_mem _ hq)) (acc + g p)
        rw [List.map_cons, List.sum_cons, ← add_assoc, ← hrest]
        rfl
  rw [sumOf, hfold, exact_lit, Int.cast_zero, zero_add]

theorem mapM_exact {α β : Type} {f : α → Except Signal β} {g : α → β} {xs : List α}
    (h : ∀ x ∈ xs, f x = .ok (g x)) : xs.mapM f = .ok (xs.map g) := by
  induction xs with
  | nil => rfl
  | cons x rest ih =>
      rw [List.mapM_cons, h x List.mem_cons_self,
        ih fun y hy => h y (List.mem_cons_of_mem _ hy)]
      rfl

/-- The mean of no numbers is zero, as is `0 / 0`. -/
theorem meanOf_exact {f : FundingPayment Rat → Except Signal Rat} {g : FundingPayment Rat → Rat}
    {payments : List (FundingPayment Rat)} (h : ∀ p ∈ payments, f p = .ok (g p)) :
    meanOf exact f payments = .ok ((payments.map g).sum / payments.length) := by
  cases payments with
  | nil => simp [meanOf, exact_lit, pure, Except.pure]
  | cons p rest =>
      simp only [meanOf]
      rw [h p List.mem_cons_self, mapM_exact fun q hq => h q (List.mem_cons_of_mem _ hq)]
      simp [exact, rounded, bind, Except.bind]

/-! ## 2. The numbers of a backtest -/

variable (side : Side) (events : List (Event Rat))

/-- Sum of the rates. -/
def rateSum : Rat := (events.map Event.rate).sum

/-- Sum of mark price times rate. -/
def valuedRateSum : Rat := (events.map fun ev => ev.markPrice * ev.rate).sum

def priceSum : Rat := (events.map Event.markPrice).sum

def hoursSum : Int := (events.map Event.intervalHours).sum

def sign : Rat := sideSign side

/-- The payment of an event for a position of `qty`. -/
def payment (qty : Rat) (ev : Event Rat) : FundingPayment Rat :=
  ⟨ev, qty, qty * ev.markPrice, sign side * qty * ev.markPrice * ev.rate⟩

/-- The result of a backtest of a position of `qty`. -/
def outcome (inp : BacktestInput Rat) (qty : Rat) (totals : Totals Rat) : BacktestResult Rat where
  input := inp
  payments := events.map (payment inp.side qty)
  totalQuote := totals.totalQuote
  totalBase := totals.totalBase
  cumulativeRatePct := sign inp.side * rateSum events * 100
  apr := totals.apr
  eventCount := events.length
  avgRate := sign inp.side * rateSum events / events.length

/-- The elapsed time in years. -/
def years (elapsed : Int) : Rat := elapsed / 1000000 / 31557600

/-- Totals of a position of `qty` with the given average notional. -/
def sizedOutcome (qty notional : Rat) (elapsed : Int) : Totals Rat where
  totalQuote := some (sign side * qty * valuedRateSum events)
  totalBase := some (sign side * qty * rateSum events)
  apr := sign side * qty * valuedRateSum events / notional / years elapsed

def rateOnlyOutcome : Totals Rat where
  totalQuote := none
  totalBase := none
  apr := sign side * rateSum events / events.length * (8766 / (hoursSum events / events.length))

variable {side events}

theorem sum_payments (qty : Rat) (g : FundingPayment Rat → Rat) :
    ((events.map (payment side qty)).map g).sum =
      (events.map fun ev => g (payment side qty ev)).sum := by
  rw [List.map_map]
  rfl

theorem signedRate_exact (p : FundingPayment Rat) :
    signedRate exact side p = .ok (sign side * p.event.rate) := by
  rw [signedRate, exact_mul, exact_lit, sign]

theorem secondsLit_rounded (rnd : Rat → Except Signal Rat) (fuel : Nat) (c e : Int) :
    secondsLit (rounded rnd) fuel c e = (c : Rat) * 10 ^ e := by
  induction fuel generalizing c e with
  | zero => rfl
  | succ fuel ih =>
      rw [secondsLit]
      by_cases hten : c % 10 = 0
      · rw [if_pos hten, ih, zpow_add_one₀ (by decide)]
        have hc : ((c / 10 * 10 : Int) : Rat) = c := by
          congr 1
          omega
        rw [← hc, Int.cast_mul, Int.cast_ofNat]
        ring
      · rw [if_neg hten]
        rfl

theorem seconds_rounded (rnd : Rat → Except Signal Rat) (elapsed : Int) :
    secondsLit (rounded rnd) 5 elapsed (-6) = elapsed / 1000000 := by
  rw [secondsLit_rounded]
  congr 1

theorem elapsedYears_exact (elapsed : Int) :
    elapsedYears exact elapsed = .ok (years elapsed) := by
  have hyear : secondsPerYear exact = 31557600 := exact_lit 31557600
  have hseconds := seconds_rounded .ok elapsed
  rw [elapsedYears, hyear, exact_div (by decide), exact, hseconds, years]

theorem cumulativeRatePct_exact (qty : Rat) :
    cumulativeRatePct exact side (events.map (payment side qty)) =
      .ok (sign side * rateSum events * 100) := by
  have hsum : sumOf exact (signedRate exact side) (events.map (payment side qty)) =
      .ok (sign side * rateSum events) := by
    rw [sumOf_exact fun p _ => signedRate_exact p, sum_payments, rateSum,
      ← List.sum_map_mul_left]
    rfl
  rw [cumulativeRatePct, hsum, exact_lit]
  rfl

theorem avgRate_exact (qty : Rat) :
    meanOf exact (signedRate exact side) (events.map (payment side qty)) =
      .ok (sign side * rateSum events / events.length) := by
  rw [meanOf_exact fun p _ => signedRate_exact p, sum_payments, List.length_map, rateSum,
    ← List.sum_map_mul_left]
  rfl

/-! ## 3. Payments and totals -/

/-- The quantity `_quantity_for_event` answers for every event. -/
theorem paymentsOf_exact {sizing : Sizing Rat} {qty : Rat}
    (hqty : ∀ first ∈ events.head?, quantityForEvent exact sizing first = .ok qty) :
    paymentsOf exact side sizing events = .ok (events.map (payment side qty)) := by
  cases events with
  | nil => rfl
  | cons first rest =>
      apply mapM_exact
      intro ev _
      rw [paymentFor, hqty first rfl, exact_lit]
      rfl

/-- Whatever the arithmetic, payments are made for the events in turn. -/
theorem paymentsOf_events {D : Type} {A : Arithmetic D} {side : Side} {sizing : Sizing D}
    {events : List (Event D)} {payments : List (FundingPayment D)}
    (h : paymentsOf A side sizing events = .ok payments) :
    payments.map FundingPayment.event = events := by
  have hmapM : ∀ (first : Event D) (xs : List (Event D)) (ys : List (FundingPayment D)),
      xs.mapM (paymentFor A side sizing first) = .ok ys → ys.map FundingPayment.event = xs := by
    intro first xs
    induction xs with
    | nil =>
        intro ys hys
        obtain rfl : [] = ys := Except.ok.inj hys
        rfl
    | cons ev rest ih =>
        intro ys hys
        rw [List.mapM_cons] at hys
        obtain ⟨p, hp, hys⟩ := bind_eq_ok hys
        obtain ⟨ps, hps, hys⟩ := bind_eq_ok hys
        obtain rfl : p :: ps = ys := Except.ok.inj hys
        obtain ⟨qty, -, hp⟩ := bind_eq_ok hp
        obtain ⟨notional, -, hp⟩ := bind_eq_ok hp
        obtain ⟨signed, -, hp⟩ := bind_eq_ok hp
        obtain ⟨valued, -, hp⟩ := bind_eq_ok hp
        obtain ⟨paid, -, hp⟩ := bind_eq_ok hp
        obtain rfl : _ = p := Except.ok.inj hp
        rw [List.map_cons, ih ps hps]
  cases events with
  | nil =>
      obtain rfl : [] = payments := Except.ok.inj h
      rfl
  | cons first rest => exact hmapM first _ payments h

theorem totalQuote_exact (qty : Rat) :
    sumOf exact (fun p => pure p.paymentQuote) (events.map (payment side qty)) =
      .ok (sign side * qty * valuedRateSum events) := by
  have hsum : sumOf exact (fun p => pure p.paymentQuote) (events.map (payment side qty)) =
      .ok ((events.map (payment side qty)).map FundingPayment.paymentQuote).sum :=
    sumOf_exact fun _ _ => rfl
  rw [hsum, sum_payments, valuedRateSum, ← List.sum_map_mul_left]
  simp only [payment, mul_assoc]

/-- Dividing each payment back by its price leaves quantity and rate. -/
theorem totalBase_exact (hprice : ∀ ev ∈ events, ev.markPrice ≠ 0) (qty : Rat) :
    sumOf exact (fun p => exact.div p.paymentQuote p.event.markPrice)
        (events.map (payment side qty)) = .ok (sign side * qty * rateSum events) := by
  have hdiv : ∀ p ∈ events.map (payment side qty),
      exact.div p.paymentQuote p.event.markPrice = .ok (sign side * qty * p.event.rate) := by
    intro p hp
    obtain ⟨ev, hev, rfl⟩ := List.mem_map.mp hp
    have hne := hprice ev hev
    simp only [payment]
    rw [exact_div hne]
    congr 1
    field_simp
  rw [sumOf_exact hdiv, sum_payments, rateSum, ← List.sum_map_mul_left]
  rfl

theorem years_pos {elapsed : Int} (h : 0 < elapsed) : 0 < years elapsed := by
  have : (0 : Rat) < elapsed := Int.cast_pos.mpr h
  rw [years]
  positivity

/-- **Totals in BASE and QUOTE mode.** -/
theorem sizedTotals_exact {avgNotional : List (FundingPayment Rat) → Except Signal Rat}
    {qty notional : Rat} {elapsed : Int} (helapsed : 0 < elapsed)
    (hprice : ∀ ev ∈ events, ev.markPrice ≠ 0)
    (hnotional : avgNotional (events.map (payment side qty)) = .ok notional) :
    sizedTotals exact avgNotional (events.map (payment side qty)) elapsed =
      .ok (sizedOutcome side events qty notional elapsed) := by
  have hyears := years_pos helapsed
  have hzero : exact.lit 0 0 = 0 := exact_lit 0
  rw [sizedTotals, totalQuote_exact, totalBase_exact hprice, elapsedYears_exact, hnotional]
  simp only [ok_bind]
  by_cases hempty : events = []
  · -- no events: everything is zero
    subst hempty
    simp [sizedOutcome, valuedRateSum, hzero, pure, Except.pure]
  · have hne : ¬ (events.map (payment side qty)).isEmpty = true := by
      simpa using hempty
    rw [if_neg hne]
    by_cases hnot : notional = 0
    · -- the average notional vanishes: the rate is given as zero
      have htruthy : exact.truthy notional = false := by simp [exact, rounded, hnot]
      rw [htruthy]
      simp [hzero, sizedOutcome, hnot, pure, Except.pure]
    · have htruthy : exact.truthy notional = true := by simp [exact, rounded, hnot]
      have hle : exact.leZero (years elapsed) = .ok false := by
        simp [exact, rounded, hyears]
      rw [if_pos htruthy, hle, exact_div hnot]
      simp only [ok_bind, Bool.false_eq_true, if_false]
      rw [exact_div (ne_of_gt hyears)]
      rfl

theorem notionals_exact (qty : Rat) :
    meanOf exact (fun p => pure p.notionalQuote) (events.map (payment side qty)) =
      .ok (qty * priceSum events / events.length) := by
  have hmean : meanOf exact (fun p => pure p.notionalQuote) (events.map (payment side qty)) =
      .ok (((events.map (payment side qty)).map FundingPayment.notionalQuote).sum /
        (events.map (payment side qty)).length) := meanOf_exact fun _ _ => rfl
  rw [hmean, sum_payments, List.length_map, priceSum, ← List.sum_map_mul_left]
  rfl

/-- **Totals in RATE_ONLY mode.** -/
theorem rateOnlyTotals_exact (hhours : events = [] ∨ hoursSum events ≠ 0) (qty : Rat)
    (elapsed : Int) :
    rateOnlyTotals exact (events.map (payment side qty)) elapsed
        (sign side * rateSum events / events.length) = .ok (rateOnlyOutcome side events) := by
  have hzero : exact.lit 0 0 = 0 := exact_lit 0
  rw [rateOnlyTotals, elapsedYears_exact]
  simp only [ok_bind]
  by_cases hempty : events = []
  · subst hempty
    simp [rateOnlyOutcome, rateSum, hzero, pure, Except.pure]
  · have hne : ¬ (events.map (payment side qty)).isEmpty = true := by
      simpa using hempty
    have hsum : (hoursSum events : Rat) ≠ 0 :=
      Int.cast_ne_zero.mpr (hhours.resolve_left hempty)
    have hlength : (events.length : Rat) ≠ 0 :=
      Nat.cast_ne_zero.mpr (List.length_pos_iff.mpr hempty).ne'
    have hlit : ∀ p ∈ events.map (payment side qty),
        (pure (exact.lit p.event.intervalHours 0) : Except Signal Rat) =
          .ok (p.event.intervalHours : Rat) := fun p _ => congrArg Except.ok (exact_lit _)
    have hmean : meanOf exact (fun p => pure (exact.lit p.event.intervalHours 0))
        (events.map (payment side qty)) = .ok (hoursSum events / events.length) := by
      rw [meanOf_exact hlit, sum_payments, List.length_map, hoursSum, Int.cast_list_sum,
        List.map_map]
      rfl
    rw [if_neg hne, hmean]
    simp only [ok_bind]
    rw [exact_mul]
    simp only [ok_bind]
    rw [exact_div (div_ne_zero hsum hlength)]
    simp only [ok_bind]
    rw [exact_mul]
    simp only [rateOnlyOutcome, ok_bind, pure, Except.pure]
    norm_num [exact, rounded]

/-! ## 4. The whole run -/

/-- An ordered window of instants. -/
structure Window (inp : BacktestInput Rat) (start stop : Int) : Prop where
  opens : inp.start = .aware start
  closes : inp.stop = .aware stop
  ordered : start < stop

/-- `events[0].mark_price`, where there is one. -/
def entryPrice (events : List (Event Rat)) : Rat := (events.head?.map Event.markPrice).getD 1

/-- The quantity of a position of the given size. -/
def quantityOf (mode : SizeMode) (size : Rat) (events : List (Event Rat)) : Rat :=
  match mode with
  | .base => size
  | .quote => size / entryPrice events
  | .rateOnly => 1

/-- The notional APR is measured against. -/
def notionalOf (mode : SizeMode) (size : Rat) (events : List (Event Rat)) : Rat :=
  match mode with
  | .quote => size
  | _ => size * priceSum events / events.length

theorem runBacktest_of_valid {inp : BacktestInput Rat} {start stop : Int}
    (hwindow : Window inp start stop) {sizing : Sizing Rat}
    (hsizing : validateSizing exact inp = .ok sizing)
    {exchange : String → DateTime → DateTime → Except FundingToolError (List (Event Rat))}
    (hexchange : exchange inp.symbol inp.start inp.stop = .ok events) :
    runBacktest exact exchange inp =
      (settle exact inp sizing (stop - start) events).mapError .arithmetic := by
  rw [runBacktest, hsizing, hexchange, hwindow.opens, hwindow.closes, validateTimes,
    if_pos hwindow.ordered]
  rfl

theorem validateSize_exact (mode : SizeMode) {size : Rat} (hsize : 0 < size) :
    validateSize exact mode (some size) = .ok size := by
  have hle : exact.leZero size = .ok false := by simp [exact, rounded, hsize]
  rw [validateSize, hle]

/-- What is common to all modes: the rates do not depend on the payments. -/
theorem settle_exact {inp : BacktestInput Rat} {sizing : Sizing Rat} {qty : Rat} {elapsed : Int}
    {totals : Totals Rat}
    (hqty : ∀ first ∈ events.head?, quantityForEvent exact sizing first = .ok qty)
    (htotals : totalsOf exact sizing (events.map (payment inp.side qty)) elapsed
      (sign inp.side * rateSum events / events.length) = .ok totals) :
    settle exact inp sizing elapsed events = .ok (outcome events inp qty totals) := by
  rw [settle, paymentsOf_exact hqty]
  simp only [ok_bind]
  rw [cumulativeRatePct_exact, avgRate_exact]
  simp only [ok_bind]
  rw [htotals]
  simp [ok_bind, outcome, pure, Except.pure]

/-- A backtest that returns has counted the events and added up their rates, whatever the
    mode and the size. -/
theorem settle_rates {inp : BacktestInput Rat} {sizing : Sizing Rat} {elapsed : Int}
    {res : BacktestResult Rat} (h : settle exact inp sizing elapsed events = .ok res) :
    res.eventCount = events.length ∧
      res.cumulativeRatePct = sign inp.side * rateSum events * 100 ∧
      res.avgRate = sign inp.side * rateSum events / events.length := by
  obtain ⟨payments, hpayments, h⟩ := bind_eq_ok h
  obtain ⟨cumulative, hcumulative, h⟩ := bind_eq_ok h
  obtain ⟨avgRate, havg, h⟩ := bind_eq_ok h
  obtain ⟨totals, -, h⟩ := bind_eq_ok h
  obtain rfl := Except.ok.inj h
  have hevents := paymentsOf_events hpayments
  have hlength : payments.length = events.length := by rw [← hevents, List.length_map]
  have hsum : (payments.map fun p => sign inp.side * p.event.rate).sum =
      sign inp.side * rateSum events := by
    rw [rateSum, ← hevents, List.map_map, List.sum_map_mul_left]
    rfl
  refine ⟨hlength, ?_, ?_⟩
  · rw [cumulativeRatePct, sumOf_exact fun p _ => signedRate_exact p, ok_bind, exact_lit, hsum]
      at hcumulative
    exact (Except.ok.inj hcumulative).symm
  · rw [meanOf_exact fun p _ => signedRate_exact p, hsum, hlength] at havg
    exact (Except.ok.inj havg).symm

/-- **The result in BASE and QUOTE mode.** -/
theorem runBacktest_sized {inp : BacktestInput Rat} {start stop : Int}
    (hwindow : Window inp start stop) (hmode : inp.sizeMode ≠ .rateOnly) {size : Rat}
    (hsize : inp.size = some size) (hpos : 0 < size)
    {exchange : String → DateTime → DateTime → Except FundingToolError (List (Event Rat))}
    (hexchange : exchange inp.symbol inp.start inp.stop = .ok events)
    (hprice : ∀ ev ∈ events, ev.markPrice ≠ 0) :
    runBacktest exact exchange inp =
      .ok (outcome events inp (quantityOf inp.sizeMode size events)
        (sizedOutcome inp.side events (quantityOf inp.sizeMode size events)
          (notionalOf inp.sizeMode size events) (stop - start))) := by
  have helapsed : 0 < stop - start := sub_pos.mpr hwindow.ordered
  rcases hcase : inp.sizeMode with _ | _ | _
  · have hsizing : validateSizing exact inp = .ok (.base size) := by
      simp only [validateSizing, hcase, hsize, validateSize_exact _ hpos, Except.map]
    rw [runBacktest_of_valid hwindow hsizing hexchange, settle_exact]
    · rfl
    · exact fun _ _ => rfl
    · exact sizedTotals_exact helapsed hprice (notionals_exact size)
  · have hsizing : validateSizing exact inp = .ok (.quote size) := by
      simp only [validateSizing, hcase, hsize, validateSize_exact _ hpos, Except.map]
    rw [runBacktest_of_valid hwindow hsizing hexchange, settle_exact]
    · rfl
    · intro first hfirst
      have hne := hprice first (List.mem_of_mem_head? hfirst)
      rw [quantityForEvent, exact_div hne, quantityOf, entryPrice, Option.mem_def.mp hfirst]
      rfl
    · simp only [totalsOf]
      exact sizedTotals_exact helapsed hprice rfl
  · exact absurd hcase hmode

/-- **The result in RATE_ONLY mode.** -/
theorem runBacktest_rateOnly {inp : BacktestInput Rat} {start stop : Int}
    (hwindow : Window inp start stop) (hmode : inp.sizeMode = .rateOnly)
    {exchange : String → DateTime → DateTime → Except FundingToolError (List (Event Rat))}
    (hexchange : exchange inp.symbol inp.start inp.stop = .ok events)
    (hhours : events = [] ∨ hoursSum events ≠ 0) :
    runBacktest exact exchange inp =
      .ok (outcome events inp 1 (rateOnlyOutcome inp.side events)) := by
  have hsizing : validateSizing exact inp = .ok .rateOnly := by
    rw [validateSizing, hmode]
  rw [runBacktest_of_valid hwindow hsizing hexchange, settle_exact]
  · rfl
  · exact fun _ _ => congrArg Except.ok (by rw [exact_lit, Int.cast_one])
  · exact rateOnlyTotals_exact hhours 1 _

end FundingTool.Backtest
