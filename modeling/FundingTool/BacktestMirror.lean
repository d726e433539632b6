import FundingTool.BacktestExact
import Mathlib.Tactic.Ring

/-!
# LONG and SHORT

Negating what carries the sign of the side, and leaving the rest alone, is a reading of a
backtest, provided that rounding commutes with negation.  So the backtest of the one side
is the backtest of the other with these numbers negated.  In exact arithmetic both of them
return where the input is valid and the prices are positive.
-/

namespace FundingTool.Backtest

open Decimal (Signal)

/-! ## 1. The mirrored reading -/

/-- Rounding treats a number and its negative alike. -/
def Symmetric (rnd : Rat → Except Signal Rat) : Prop := ∀ x, rnd (-x) = (rnd x).map (- ·)

def mirrored : Reading Rat Rat where
  num a b := b = a
  amount a b := b = a
  signed a b := b = -a
  paid a b := b = -a

theorem Symmetric.lockstep {rnd : Rat → Except Signal Rat} (hsym : Symmetric rnd) {x y : Rat}
    (h : y = -x) : Lockstep (fun a b => b = -a) (rnd x) (rnd y) := by
  rw [h]
  exact Lockstep.of_map (hsym x)

theorem eq_of_same {xs ys : List Rat} (h : List.Forall₂ (fun a b => b = a) xs ys) : ys = xs := by
  induction h with
  | nil => rfl
  | cons hab _ ih => rw [hab, ih]

theorem sum_of_negated {xs ys : List Rat} (h : List.Forall₂ (fun a b => b = -a) xs ys) :
    ys.sum = -xs.sum := by
  induction h with
  | nil => simp
  | cons hab _ ih =>
      rw [List.sum_cons, List.sum_cons, hab, ih]
      ring

/-- Division of a negated number: the same divisor is refused, with the same signal. -/
theorem Symmetric.div {rnd : Rat → Except Signal Rat} (hsym : Symmetric rnd) {a b x y : Rat}
    (hab : b = -a) (hxy : y = x) :
    Lockstep (fun a b => b = -a) ((rounded rnd).div a x) ((rounded rnd).div b y) := by
  subst hab hxy
  simp only [rounded, neg_eq_zero]
  by_cases hzero : y = 0
  · rw [if_pos hzero, if_pos hzero]
    exact Lockstep.error
  · rw [if_neg hzero, if_neg hzero]
    exact hsym.lockstep (neg_div y a)

theorem mirrored_respected {rnd : Rat → Except Signal Rat} (hsym : Symmetric rnd) :
    mirrored.Respected (rounded rnd) (rounded rnd) .short .long where
  lit _ _ := rfl
  side := by simp [mirrored, rounded, sideSign]
  zero_signed := by simp [mirrored, rounded]
  zero_paid := by simp [mirrored, rounded]
  mul_num := by rintro a _ x _ rfl rfl; exact Lockstep.of_eq rfl
  mul_amount := by rintro a _ x _ rfl rfl; exact Lockstep.of_eq rfl
  mul_signed := by rintro a _ x _ rfl rfl; exact hsym.lockstep (by ring)
  mul_paid := by rintro a _ x _ rfl rfl; exact hsym.lockstep (by ring)
  sign_amount := by rintro a _ x _ rfl rfl; exact hsym.lockstep (by ring)
  add_signed := by rintro a _ x _ rfl rfl; exact hsym.lockstep (by ring)
  add_paid := by rintro a _ x _ rfl rfl; exact hsym.lockstep (by ring)
  div_num := by rintro a _ x _ rfl rfl; exact Lockstep.of_eq rfl
  div_amount := by rintro a _ x _ rfl rfl; exact Lockstep.of_eq rfl
  div_signed := by rintro a _ x _ rfl rfl; exact hsym.div rfl rfl
  div_paid := by rintro a _ x _ rfl rfl; exact hsym.div rfl rfl
  paid_per_amount := by rintro a _ x _ rfl rfl; exact hsym.div rfl rfl
  mean_num := by
    rintro a _ xs ys rfl hxys
    exact Lockstep.of_eq (by rw [eq_of_same hxys])
  mean_amount := by
    rintro a _ xs ys rfl hxys
    exact Lockstep.of_eq (by rw [eq_of_same hxys])
  mean_signed := by
    rintro a _ xs ys rfl hxys
    apply hsym.lockstep
    rw [List.sum_cons, List.sum_cons, sum_of_negated hxys, hxys.length_eq]
    ring
  leZero_num := by rintro a _ rfl; exact Lockstep.ok rfl
  leZero_amount := by rintro a _ rfl; exact Lockstep.ok rfl
  truthy_amount := by rintro a _ rfl; rfl

/-! ## 2. Mirrored results -/

def FundingPayment.mirror (p : FundingPayment Rat) : FundingPayment Rat :=
  { p with paymentQuote := -p.paymentQuote }

/-- The result of the other side. -/
def BacktestResult.mirror (res : BacktestResult Rat) : BacktestResult Rat where
  input := { res.input with side := .long }
  payments := res.payments.map FundingPayment.mirror
  totalQuote := res.totalQuote.map (- ·)
  totalBase := res.totalBase.map (- ·)
  cumulativeRatePct := -res.cumulativeRatePct
  apr := -res.apr
  eventCount := res.eventCount
  avgRate := -res.avgRate

theorem mirrored_event {ev ev' : Event Rat} (h : EventRel mirrored ev ev') : ev' = ev := by
  obtain ⟨htime, hsymbol, hrate, hprice, hhours⟩ := h
  cases ev
  cases ev'
  simp only [mirrored] at *
  rw [htime, hsymbol, hrate, hprice, hhours]

theorem mirrored_payments {ps ps' : List (FundingPayment Rat)}
    (h : List.Forall₂ (PaymentRel mirrored) ps ps') : ps' = ps.map FundingPayment.mirror := by
  induction h with
  | nil => rfl
  | @cons p p' ps ps' hp _ ih =>
      obtain ⟨hevent, hqty, hnotional, hpaid⟩ := hp
      rw [ih, List.map_cons]
      congr 1
      cases p
      cases p'
      simp only [mirrored, FundingPayment.mirror] at *
      rw [mirrored_event hevent, hqty, hnotional, hpaid]

theorem mirrored_option {a b : Option Rat} (h : Option.Rel mirrored.paid a b) :
    b = a.map (- ·) := by
  cases h with
  | none => rfl
  | some h => rw [show _ = _ from h]; rfl

theorem eventRel_self (events : List (Event Rat)) :
    List.Forall₂ (EventRel mirrored) events events :=
  List.forall₂_same.mpr fun _ _ => ⟨rfl, rfl, rfl, rfl, rfl⟩

/-- The two runs raise the same error, or the one result is the other with what carries a sign
    negated. -/
theorem runBacktest_mirror {rnd : Rat → Except Signal Rat} (hsym : Symmetric rnd)
    (exchange : String → DateTime → DateTime → Except FundingToolError (List (Event Rat)))
    (inp : BacktestInput Rat) :
    runBacktest (rounded rnd) exchange { inp with side := .long } =
      (runBacktest (rounded rnd) exchange { inp with side := .short }).map
        BacktestResult.mirror := by
  apply Lockstep.eq_map
  have hexchange : Lockstep (List.Forall₂ (EventRel mirrored))
      (exchange inp.symbol inp.start inp.stop) (exchange inp.symbol inp.start inp.stop) := by
    rcases exchange inp.symbol inp.start inp.stop with e | events
    · exact Lockstep.error
    · exact eventRel_self events
  have hsize : Option.Rel mirrored.amount inp.size inp.size := by
    rcases inp.size with _ | size
    · exact .none
    · exact .some rfl
  refine Lockstep.mono ?_ (@runBacktest_related _ _ mirrored (rounded rnd) (rounded rnd)
    { inp with side := .short } { inp with side := .long } (mirrored_respected hsym) rfl
    (fun _ => rfl) ⟨rfl, rfl, rfl, rfl, fun _ => hsize⟩ exchange exchange hexchange)
  intro res res' hres
  obtain ⟨⟨hinput, hinput'⟩, hpayments, hquote, hbase, hcumulative, hapr, hcount, havg⟩ := hres
  cases res
  cases res'
  simp only [mirrored, BacktestResult.mirror] at *
  rw [hinput, hinput', mirrored_payments hpayments, mirrored_option hquote,
    mirrored_option hbase, hcumulative, hapr, hcount, havg]

/-! ## 3. Runs that return -/

/-- A size that `_validate` accepts in its mode. -/
def ValidSize (inp : BacktestInput Rat) : Prop :=
  inp.sizeMode ≠ .rateOnly → ∃ size, inp.size = some size ∧ 0 < size

theorem outcome_events (events : List (Event Rat)) (inp : BacktestInput Rat) (qty : Rat)
    (totals : Totals Rat) :
    (outcome events inp qty totals).payments.map FundingPayment.event = events := by
  simp only [outcome, List.map_map]
  exact List.map_id'' (fun _ => rfl) events

/-- A valid backtest returns, with a payment for every event that is served. -/
theorem runBacktest_returns {inp : BacktestInput Rat} {start stop : Int}
    (hwindow : Window inp start stop) (hsize : ValidSize inp) {events : List (Event Rat)}
    {exchange : String → DateTime → DateTime → Except FundingToolError (List (Event Rat))}
    (hexchange : exchange inp.symbol inp.start inp.stop = .ok events)
    (hprice : ∀ ev ∈ events, 0 < ev.markPrice)
    (hhours : inp.sizeMode = .rateOnly → events = [] ∨ hoursSum events ≠ 0) :
    ∃ res, runBacktest exact exchange inp = .ok res ∧
      res.payments.map FundingPayment.event = events := by
  by_cases hmode : inp.sizeMode = .rateOnly
  · exact ⟨_, runBacktest_rateOnly hwindow hmode hexchange (hhours hmode), outcome_events _ _ _ _⟩
  · obtain ⟨size, hsome, hpos⟩ := hsize hmode
    have hne : ∀ ev ∈ events, ev.markPrice ≠ 0 := fun ev hev => ne_of_gt (hprice ev hev)
    exact ⟨_, runBacktest_sized hwindow hmode hsome hpos hexchange hne, outcome_events _ _ _ _⟩

/-- **LONG and SHORT mirror each other**, under any rounding that does, errors included.  Without
    rounding, a valid run at positive prices returns, with a payment for every event. -/
theorem runBacktest_long_short {rnd : Rat → Except Signal Rat} (hsym : Symmetric rnd)
    (exchange : String → DateTime → DateTime → Except FundingToolError (List (Event Rat)))
    (inp : BacktestInput Rat) :
    runBacktest (rounded rnd) exchange { inp with side := .long } =
        (runBacktest (rounded rnd) exchange { inp with side := .short }).map
          BacktestResult.mirror ∧
      ∀ start stop events, Window inp start stop → ValidSize inp →
        exchange inp.symbol inp.start inp.stop = .ok events →
        (∀ ev ∈ events, 0 < ev.markPrice) →
        (inp.sizeMode = .rateOnly → events = [] ∨ hoursSum events ≠ 0) →
        ∃ res, runBacktest exact exchange { inp with side := .short } = .ok res ∧
          runBacktest exact exchange { inp with side := .long } = .ok res.mirror ∧
          res.payments.map FundingPayment.event = events := by
  refine ⟨runBacktest_mirror hsym exchange inp, ?_⟩
  intro start stop events hwindow hsize hexchange hprice hhours
  have hshort : Window { inp with side := .short } start stop :=
    ⟨hwindow.opens, hwindow.closes, hwindow.ordered⟩
  obtain ⟨res, hrun, hevents⟩ := runBacktest_returns hshort hsize hexchange hprice hhours
  have hlong : runBacktest exact exchange { inp with side := .long } =
      (runBacktest exact exchange { inp with side := .short }).map BacktestResult.mirror :=
    runBacktest_mirror (fun _ => rfl) exchange inp
  rw [hrun] at hlong
  exact ⟨res, hrun, hlong, hevents⟩

def twoEvents : List (Event Rat) :=
  [⟨hours 8, "BTCUSDT", 1 / 10000, 100, 8⟩, ⟨hours 16, "BTCUSDT", -1 / 30000, 90, 8⟩]

/-- A mirrored position of two contracts over two events, rounded as decimals are, and returned
    without rounding. -/
theorem runBacktest_long_short_rounded :
    runBacktest (rounded Decimal.contextRounding) (serving twoEvents)
        ⟨"BTCUSDT", .long, .aware 0, .aware (hours 16), .base, some 2⟩ =
      (runBacktest (rounded Decimal.contextRounding) (serving twoEvents)
        ⟨"BTCUSDT", .short, .aware 0, .aware (hours 16), .base, some 2⟩).map
        BacktestResult.mirror ∧
      ∃ res, runBacktest exact (serving twoEvents)
          ⟨"BTCUSDT", .short, .aware 0, .aware (hours 16), .base, some 2⟩ = .ok res ∧
        res.payments.map FundingPayment.event = twoEvents := by
  obtain ⟨hmirror, hreturns⟩ := runBacktest_long_short Decimal.contextRounding_neg
    (serving twoEvents) ⟨"BTCUSDT", .short, .aware 0, .aware (hours 16), .base, some 2⟩
  obtain ⟨res, hrun, -, hevents⟩ := hreturns 0 (hours 16) twoEvents ⟨rfl, rfl, by decide⟩
    (fun _ => ⟨2, rfl, by decide⟩) rfl (by decide +kernel) nofun
  exact ⟨hmirror, res, hrun, hevents⟩

end FundingTool.Backtest
