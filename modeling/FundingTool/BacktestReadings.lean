import FundingTool.Backtest
import FundingTool.Lockstep

/-!
# Two readings of one backtest

Every number of a backtest measures something: a plain number (a rate, a price, a time),
an amount that grows with the size of the position, a rate with the sign of the side, or a
payment, which has both.  A `Reading` relates the numbers of two backtests by what they
measure.  If the operations of the two arithmetics respect it, the backtests go in
lockstep and their results are related (`runBacktest_related`).

Mirroring the side, scaling the size and replacing decimals by their values are readings.
-/

namespace FundingTool.Backtest

open Decimal (Signal)

variable {D E : Type}

/-! ## 1. Readings -/

/-- How the numbers of two backtests are related. -/
structure Reading (D E : Type) where
  num : D → E → Prop
  amount : D → E → Prop
  signed : D → E → Prop
  paid : D → E → Prop

/-- The operations of two arithmetics respect what the numbers measure. -/
structure Reading.Respected (r : Reading D E) (A : Arithmetic D) (B : Arithmetic E)
    (side side' : Side) : Prop where
  lit : ∀ c e, r.num (A.lit c e) (B.lit c e)
  side : r.signed (A.lit (sideSign side) 0) (B.lit (sideSign side') 0)
  zero_signed : r.signed (A.lit 0 0) (B.lit 0 0)
  zero_paid : r.paid (A.lit 0 0) (B.lit 0 0)
  mul_num : ∀ a b x y, r.num a b → r.num x y → Lockstep r.num (A.mul a x) (B.mul b y)
  mul_amount : ∀ a b x y, r.amount a b → r.num x y → Lockstep r.amount (A.mul a x) (B.mul b y)
  mul_signed : ∀ a b x y, r.signed a b → r.num x y → Lockstep r.signed (A.mul a x) (B.mul b y)
  mul_paid : ∀ a b x y, r.paid a b → r.num x y → Lockstep r.paid (A.mul a x) (B.mul b y)
  sign_amount : ∀ a b x y, r.signed a b → r.amount x y → Lockstep r.paid (A.mul a x) (B.mul b y)
  add_signed : ∀ a b x y, r.signed a b → r.signed x y →
    Lockstep r.signed (A.add a x) (B.add b y)
  add_paid : ∀ a b x y, r.paid a b → r.paid x y → Lockstep r.paid (A.add a x) (B.add b y)
  div_num : ∀ a b x y, r.num a b → r.num x y → Lockstep r.num (A.div a x) (B.div b y)
  div_amount : ∀ a b x y, r.amount a b → r.num x y → Lockstep r.amount (A.div a x) (B.div b y)
  div_signed : ∀ a b x y, r.signed a b → r.num x y → Lockstep r.signed (A.div a x) (B.div b y)
  div_paid : ∀ a b x y, r.paid a b → r.num x y → Lockstep r.paid (A.div a x) (B.div b y)
  paid_per_amount : ∀ a b x y, r.paid a b → r.amount x y →
    Lockstep r.signed (A.div a x) (B.div b y)
  mean_num : ∀ a b xs ys, r.num a b → List.Forall₂ r.num xs ys →
    Lockstep r.num (A.mean a xs) (B.mean b ys)
  mean_amount : ∀ a b xs ys, r.amount a b → List.Forall₂ r.amount xs ys →
    Lockstep r.amount (A.mean a xs) (B.mean b ys)
  mean_signed : ∀ a b xs ys, r.signed a b → List.Forall₂ r.signed xs ys →
    Lockstep r.signed (A.mean a xs) (B.mean b ys)
  leZero_num : ∀ a b, r.num a b → Lockstep Eq (A.leZero a) (B.leZero b)
  leZero_amount : ∀ a b, r.amount a b → Lockstep Eq (A.leZero a) (B.leZero b)
  truthy_amount : ∀ a b, r.amount a b → A.truthy a = B.truthy b

/-- Events alike but for the numbers they are written in. -/
structure EventRel (r : Reading D E) (ev : Event D) (ev' : Event E) : Prop where
  timestamp : ev.timestamp = ev'.timestamp
  symbol : ev.symbol = ev'.symbol
  rate : r.num ev.rate ev'.rate
  markPrice : r.num ev.markPrice ev'.markPrice
  intervalHours : ev.intervalHours = ev'.intervalHours

inductive SizingRel (r : Reading D E) (A : Arithmetic D) (B : Arithmetic E) :
    Sizing D → Sizing E → Prop
  | base {s : D} {s' : E} : r.amount s s' → SizingRel r A B (.base s) (.base s')
  | quote {s : D} {s' : E} : r.amount s s' → SizingRel r A B (.quote s) (.quote s')
  | rateOnly : r.amount (A.lit 1 0) (B.lit 1 0) → SizingRel r A B .rateOnly .rateOnly

structure PaymentRel (r : Reading D E) (p : FundingPayment D) (p' : FundingPayment E) :
    Prop where
  event : EventRel r p.event p'.event
  quantityBase : r.amount p.quantityBase p'.quantityBase
  notionalQuote : r.amount p.notionalQuote p'.notionalQuote
  paymentQuote : r.paid p.paymentQuote p'.paymentQuote

structure TotalsRel (r : Reading D E) (t : Totals D) (t' : Totals E) : Prop where
  totalQuote : Option.Rel r.paid t.totalQuote t'.totalQuote
  totalBase : Option.Rel r.paid t.totalBase t'.totalBase
  apr : r.signed t.apr t'.apr

/-- Results of two backtests, one of `inp` and one of `inp'`. -/
structure ResultRel (r : Reading D E) (inp : BacktestInput D) (inp' : BacktestInput E)
    (res : BacktestResult D) (res' : BacktestResult E) : Prop where
  input : res.input = inp ∧ res'.input = inp'
  payments : List.Forall₂ (PaymentRel r) res.payments res'.payments
  totalQuote : Option.Rel r.paid res.totalQuote res'.totalQuote
  totalBase : Option.Rel r.paid res.totalBase res'.totalBase
  cumulativeRatePct : r.signed res.cumulativeRatePct res'.cumulativeRatePct
  apr : r.signed res.apr res'.apr
  eventCount : res.eventCount = res'.eventCount
  avgRate : r.signed res.avgRate res'.avgRate

/-! ## 2. The backtest in lockstep -/

section Related

variable {r : Reading D E} {A : Arithmetic D} {B : Arithmetic E} {side side' : Side}

theorem quantityForEvent_related (h : r.Respected A B side side') {sizing : Sizing D}
    {sizing' : Sizing E} (hsizing : SizingRel r A B sizing sizing') {first : Event D}
    {first' : Event E} (hfirst : EventRel r first first') :
    Lockstep r.amount (quantityForEvent A sizing first) (quantityForEvent B sizing' first') := by
  cases hsizing with
  | base hs => exact hs
  | quote hs => exact h.div_amount _ _ _ _ hs hfirst.markPrice
  | rateOnly hone => exact hone

theorem paymentFor_related (h : r.Respected A B side side') {sizing : Sizing D}
    {sizing' : Sizing E} (hsizing : SizingRel r A B sizing sizing') {first ev : Event D}
    {first' ev' : Event E} (hfirst : EventRel r first first') (hev : EventRel r ev ev') :
    Lockstep (PaymentRel r) (paymentFor A side sizing first ev)
      (paymentFor B side' sizing' first' ev') := by
  apply Lockstep.bind (quantityForEvent_related h hsizing hfirst)
  intro qty qty' hqty
  apply Lockstep.bind (h.mul_amount _ _ _ _ hqty hev.markPrice)
  intro notional notional' hnotional
  apply Lockstep.bind (h.sign_amount _ _ _ _ h.side hqty)
  intro signed signed' hsigned
  apply Lockstep.bind (h.mul_paid _ _ _ _ hsigned hev.markPrice)
  intro valued valued' hvalued
  apply Lockstep.bind (h.mul_paid _ _ _ _ hvalued hev.rate)
  intro payment payment' hpayment
  exact ⟨hev, hqty, hnotional, hpayment⟩

theorem paymentsOf_related (h : r.Respected A B side side') {sizing : Sizing D}
    {sizing' : Sizing E} (hsizing : SizingRel r A B sizing sizing') {events : List (Event D)}
    {events' : List (Event E)} (hevents : List.Forall₂ (EventRel r) events events') :
    Lockstep (List.Forall₂ (PaymentRel r)) (paymentsOf A side sizing events)
      (paymentsOf B side' sizing' events') := by
  cases hevents with
  | nil => exact .nil
  | cons hfirst hrest =>
      exact Lockstep.mapM (fun _ _ hev => paymentFor_related h hsizing hfirst hev)
        (List.Forall₂.cons hfirst hrest)

theorem sumOf_related {R : D → E → Prop}
    (hadd : ∀ a b x y, R a b → R x y → Lockstep R (A.add a x) (B.add b y))
    (hzero : R (A.lit 0 0) (B.lit 0 0)) {f : FundingPayment D → Except Signal D}
    {g : FundingPayment E → Except Signal E}
    (hterm : ∀ p p', PaymentRel r p p' → Lockstep R (f p) (g p'))
    {payments : List (FundingPayment D)} {payments' : List (FundingPayment E)}
    (hpayments : List.Forall₂ (PaymentRel r) payments payments') :
    Lockstep R (sumOf A f payments) (sumOf B g payments') := by
  refine Lockstep.foldlM ?_ hpayments hzero
  intro acc acc' p p' hacc hp
  apply Lockstep.bind (hterm p p' hp)
  intro x y hxy
  exact hadd _ _ _ _ hacc hxy

theorem meanOf_related {R : D → E → Prop}
    (hmean : ∀ a b xs ys, R a b → List.Forall₂ R xs ys → Lockstep R (A.mean a xs) (B.mean b ys))
    (hzero : R (A.lit 0 0) (B.lit 0 0)) {f : FundingPayment D → Except Signal D}
    {g : FundingPayment E → Except Signal E}
    (hterm : ∀ p p', PaymentRel r p p' → Lockstep R (f p) (g p'))
    {payments : List (FundingPayment D)} {payments' : List (FundingPayment E)}
    (hpayments : List.Forall₂ (PaymentRel r) payments payments') :
    Lockstep R (meanOf A f payments) (meanOf B g payments') := by
  cases hpayments with
  | nil => exact hzero
  | cons hp hrest =>
      apply Lockstep.bind (hterm _ _ hp)
      intro x y hxy
      apply Lockstep.bind (Lockstep.mapM hterm hrest)
      intro xs ys hxys
      exact hmean _ _ _ _ hxy hxys

theorem signedRate_related (h : r.Respected A B side side') (p : FundingPayment D)
    (p' : FundingPayment E) (hp : PaymentRel r p p') :
    Lockstep r.signed (signedRate A side p) (signedRate B side' p') :=
  h.mul_signed _ _ _ _ h.side hp.event.rate

theorem secondsLit_related (h : r.Respected A B side side') (fuel : Nat) (c e : Int) :
    r.num (secondsLit A fuel c e) (secondsLit B fuel c e) := by
  induction fuel generalizing c e with
  | zero => exact h.lit c e
  | succ fuel ih =>
      simp only [secondsLit]
      by_cases hten : c % 10 = 0
      · rw [if_pos hten, if_pos hten]
        exact ih _ _
      · rw [if_neg hten, if_neg hten]
        exact h.lit c e

theorem elapsedYears_related (h : r.Respected A B side side') (elapsed : Int) :
    Lockstep r.num (elapsedYears A elapsed) (elapsedYears B elapsed) :=
  h.div_num _ _ _ _ (secondsLit_related h _ _ _) (h.lit _ _)

theorem isEmpty_related {R : D → E → Prop} {xs : List D} {ys : List E}
    (h : List.Forall₂ R xs ys) : xs.isEmpty = ys.isEmpty := by
  cases h <;> rfl

theorem rateOnlyTotals_related (h : r.Respected A B side side')
    {payments : List (FundingPayment D)} {payments' : List (FundingPayment E)}
    (hpayments : List.Forall₂ (PaymentRel r) payments payments') (elapsed : Int) {avgRate : D}
    {avgRate' : E} (havg : r.signed avgRate avgRate') :
    Lockstep (TotalsRel r) (rateOnlyTotals A payments elapsed avgRate)
      (rateOnlyTotals B payments' elapsed avgRate') := by
  apply Lockstep.bind (elapsedYears_related h elapsed)
  intro years years' _
  rw [isEmpty_related hpayments]
  by_cases hempty : payments'.isEmpty
  · rw [if_pos hempty, if_pos hempty]
    exact ⟨.none, .none, h.zero_signed⟩
  · rw [if_neg hempty, if_neg hempty]
    have hhours : ∀ p p', PaymentRel r p p' →
        Lockstep r.num (.ok (A.lit p.event.intervalHours 0) : Except Signal D)
          (.ok (B.lit p'.event.intervalHours 0)) := by
      intro p p' hp
      rw [hp.event.intervalHours]
      exact h.lit _ _
    apply Lockstep.bind (meanOf_related h.mean_num (h.lit _ _) hhours hpayments)
    intro weighted weighted' hweighted
    apply Lockstep.bind (h.mul_num _ _ _ _ (h.lit _ _) (h.lit _ _))
    intro hours hours' hhours'
    apply Lockstep.bind (h.div_num _ _ _ _ hhours' hweighted)
    intro perYear perYear' hperYear
    apply Lockstep.bind (h.mul_signed _ _ _ _ havg hperYear)
    intro apr apr' hapr
    exact ⟨.none, .none, hapr⟩

theorem sizedTotals_related (h : r.Respected A B side side')
    {avgNotional : List (FundingPayment D) → Except Signal D}
    {avgNotional' : List (FundingPayment E) → Except Signal E}
    {payments : List (FundingPayment D)} {payments' : List (FundingPayment E)}
    (hnotional : Lockstep r.amount (avgNotional payments) (avgNotional' payments'))
    (hpayments : List.Forall₂ (PaymentRel r) payments payments') (elapsed : Int) :
    Lockstep (TotalsRel r) (sizedTotals A avgNotional payments elapsed)
      (sizedTotals B avgNotional' payments' elapsed) := by
  apply Lockstep.bind (sumOf_related h.add_paid h.zero_paid
    (fun _ _ hp => Lockstep.ok hp.paymentQuote) hpayments)
  intro quote quote' hquote
  apply Lockstep.bind (sumOf_related h.add_paid h.zero_paid
    (fun _ _ hp => h.div_paid _ _ _ _ hp.paymentQuote hp.event.markPrice) hpayments)
  intro base base' hbase
  apply Lockstep.bind (elapsedYears_related h elapsed)
  intro years years' hyears
  have hzero : TotalsRel r ⟨some quote, some base, A.lit 0 0⟩
      ⟨some quote', some base', B.lit 0 0⟩ := ⟨.some hquote, .some hbase, h.zero_signed⟩
  rw [isEmpty_related hpayments]
  by_cases hempty : payments'.isEmpty
  · rw [if_pos hempty, if_pos hempty]
    exact hzero
  · rw [if_neg hempty, if_neg hempty]
    apply Lockstep.bind hnotional
    intro notional notional' hamount
    rw [h.truthy_amount _ _ hamount]
    by_cases htruthy : B.truthy notional'
    · rw [if_pos htruthy, if_pos htruthy]
      apply Lockstep.bind (h.leZero_num _ _ hyears)
      rintro notPositive _ rfl
      by_cases hle : notPositive
      · rw [if_pos hle, if_pos hle]
        exact hzero
      · rw [if_neg hle, if_neg hle]
        apply Lockstep.bind (h.paid_per_amount _ _ _ _ hquote hamount)
        intro ratio ratio' hratio
        apply Lockstep.bind (h.div_signed _ _ _ _ hratio hyears)
        intro apr apr' hapr
        exact ⟨.some hquote, .some hbase, hapr⟩
    · rw [if_neg htruthy, if_neg htruthy]
      exact hzero

theorem totalsOf_related (h : r.Respected A B side side') {sizing : Sizing D}
    {sizing' : Sizing E} (hsizing : SizingRel r A B sizing sizing')
    {payments : List (FundingPayment D)} {payments' : List (FundingPayment E)}
    (hpayments : List.Forall₂ (PaymentRel r) payments payments')
    (hzero : r.amount (A.lit 0 0) (B.lit 0 0)) (elapsed : Int) {avgRate : D} {avgRate' : E}
    (havg : r.signed avgRate avgRate') :
    Lockstep (TotalsRel r) (totalsOf A sizing payments elapsed avgRate)
      (totalsOf B sizing' payments' elapsed avgRate') := by
  cases hsizing with
  | base _ =>
      have hnotional := meanOf_related h.mean_amount hzero
        (fun _ _ hp => Lockstep.ok hp.notionalQuote) hpayments
      exact sizedTotals_related h hnotional hpayments elapsed
  | quote hs =>
      simp only [totalsOf]
      refine sizedTotals_related h ?_ hpayments elapsed
      exact hs
  | rateOnly _ => exact rateOnlyTotals_related h hpayments elapsed havg

/-- **Related events settle to related results.** -/
theorem settle_related {inp : BacktestInput D} {inp' : BacktestInput E}
    (h : r.Respected A B inp.side inp'.side) (hzero : r.amount (A.lit 0 0) (B.lit 0 0))
    {sizing : Sizing D} {sizing' : Sizing E} (hsizing : SizingRel r A B sizing sizing')
    (elapsed : Int) {events : List (Event D)} {events' : List (Event E)}
    (hevents : List.Forall₂ (EventRel r) events events') :
    Lockstep (ResultRel r inp inp') (settle A inp sizing elapsed events)
      (settle B inp' sizing' elapsed events') := by
  apply Lockstep.bind (paymentsOf_related h hsizing hevents)
  intro payments payments' hpayments
  have hcumulative : Lockstep r.signed (cumulativeRatePct A inp.side payments)
      (cumulativeRatePct B inp'.side payments') := by
    apply Lockstep.bind (sumOf_related h.add_signed h.zero_signed (signedRate_related h) hpayments)
    intro total total' htotal
    exact h.mul_signed _ _ _ _ htotal (h.lit _ _)
  apply Lockstep.bind hcumulative
  intro cumulative cumulative' hcumulative
  apply Lockstep.bind (meanOf_related h.mean_signed h.zero_signed (signedRate_related h) hpayments)
  intro avgRate avgRate' havg
  apply Lockstep.bind (totalsOf_related h hsizing hpayments hzero elapsed havg)
  intro totals totals' htotals
  exact ⟨⟨rfl, rfl⟩, hpayments, htotals.totalQuote, htotals.totalBase, hcumulative, htotals.apr,
    hpayments.length_eq, havg⟩

/-! ## 3. The whole run -/

/-- Inputs alike but for side and size. -/
structure InputRel (r : Reading D E) (inp : BacktestInput D) (inp' : BacktestInput E) : Prop where
  symbol : inp.symbol = inp'.symbol
  start : inp.start = inp'.start
  stop : inp.stop = inp'.stop
  sizeMode : inp.sizeMode = inp'.sizeMode
  size : inp.sizeMode ≠ .rateOnly → Option.Rel r.amount inp.size inp'.size

theorem validateSize_related (h : r.Respected A B side side') (mode : SizeMode) {size : Option D}
    {size' : Option E} (hsize : Option.Rel r.amount size size') :
    Lockstep r.amount (validateSize A mode size) (validateSize B mode size') := by
  cases hsize with
  | none => exact Lockstep.error
  | @some s s' hs =>
      have hle := h.leZero_amount s s' hs
      simp only [validateSize]
      rcases hA : A.leZero s with e | b <;> rcases hB : B.leZero s' with e' | b' <;>
        rw [hA, hB] at hle
      · exact congrArg BacktestError.arithmetic hle
      · cases hle
      · cases hle
      · obtain rfl : b = b' := hle
        cases b with
        | true => exact Lockstep.error
        | false => exact hs

theorem validateSizing_related {inp : BacktestInput D} {inp' : BacktestInput E}
    (h : r.Respected A B inp.side inp'.side) (hinp : InputRel r inp inp')
    (hone : inp.sizeMode = .rateOnly → r.amount (A.lit 1 0) (B.lit 1 0)) :
    Lockstep (SizingRel r A B) (validateSizing A inp) (validateSizing B inp') := by
  have hmode := hinp.sizeMode
  simp only [validateSizing]
  rw [← hmode]
  rcases hcase : inp.sizeMode with _ | _ | _
  · exact (validateSize_related h .base (hinp.size (by rw [hcase]; nofun))).map
      fun _ _ hs => .base hs
  · exact (validateSize_related h .quote (hinp.size (by rw [hcase]; nofun))).map
      fun _ _ hs => .quote hs
  · exact SizingRel.rateOnly (hone hcase)

/-- **Two readings of one backtest go in lockstep.** -/
theorem runBacktest_related {inp : BacktestInput D} {inp' : BacktestInput E}
    (h : r.Respected A B inp.side inp'.side) (hzero : r.amount (A.lit 0 0) (B.lit 0 0))
    (hone : inp.sizeMode = .rateOnly → r.amount (A.lit 1 0) (B.lit 1 0))
    (hinp : InputRel r inp inp')
    {exchange : String → DateTime → DateTime → Except FundingToolError (List (Event D))}
    {exchange' : String → DateTime → DateTime → Except FundingToolError (List (Event E))}
    (hexchange : Lockstep (List.Forall₂ (EventRel r)) (exchange inp.symbol inp.start inp.stop)
      (exchange' inp'.symbol inp'.start inp'.stop)) :
    Lockstep (ResultRel r inp inp') (runBacktest A exchange inp)
      (runBacktest B exchange' inp') := by
  simp only [runBacktest]
  rw [← hinp.start, ← hinp.stop] at hexchange ⊢
  rcases validateTimes inp.start inp.stop with e | elapsed
  · exact Lockstep.error
  · apply Lockstep.bind (validateSizing_related h hinp hone)
    intro sizing sizing' hsizing
    apply Lockstep.bind (hexchange.mapError _)
    intro events events' hevents
    exact (settle_related h hzero hsizing elapsed hevents).mapError _

end Related

end FundingTool.Backtest
