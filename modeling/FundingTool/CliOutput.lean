import FundingTool.DecimalText
import FundingTool.IsoFormat
import FundingTool.JsonRoundTrip
import FundingTool.Rfc4180

/-!
# What the command line writes (`cli/output.py`)

Results go to a file as CSV, by `csv.writer`, or to the screen as JSON.  Numbers are printed by
`str`, times by `isoformat`.

`csv_exports_exact`: a file is read back, by the rules of RFC 4180, as the rows of the result,
with every number to its last digit.  `json_exports_exact`: a text in JSON has the whole result,
and the zones in which the user has given the ends of the window.
-/

namespace FundingTool.CliOutput

open FundingTool.Rfc4180 FundingTool.IsoFormat FundingTool.JsonText
open FundingTool.Backtest FundingTool.AccountHistory

/-! ## 1. `csv.writer` -/

/-- What a cell has to be quoted for. -/
def isSpecial (c : Char) : Bool := c = ',' || c = '"' || c = '\n' || c = '\r'

/-- A cell under `QUOTE_MINIMAL`, of a row that has others. -/
def field (cell : List Char) : List Char :=
  if cell.any isSpecial then
    '"' :: ((cell.flatMap fun c => if c = '"' then ['"', '"'] else [c]) ++ ['"'])
  else cell

def writerow (cells : List (List Char)) : List Char := join ',' (cells.map field) ++ ['\r', '\n']

/-- `str` of a decimal. -/
def decimalText (d : Decimal) : List Char := (Decimal.str d).toList

def backtestHeader : List (List Char) :=
  ["timestamp", "symbol", "rate", "mark_price", "quantity_base", "notional_quote",
    "payment_quote"].map String.toList

def paymentCells (p : FundingPayment Decimal) : List (List Char) :=
  [isoformat p.event.timestamp, p.event.symbol.toList, decimalText p.event.rate,
    decimalText p.event.markPrice, decimalText p.quantityBase, decimalText p.notionalQuote,
    decimalText p.paymentQuote]

/-- The file of `write_backtest_csv`. -/
def backtestCsv (res : BacktestResult Decimal) : List Char :=
  (backtestHeader :: res.payments.map paymentCells).flatMap writerow

def historyHeader : List (List Char) :=
  ["timestamp", "symbol", "amount_usdt", "tran_id"].map String.toList

def incomeCells (r : Income Decimal) : List (List Char) :=
  [isoformat r.timestamp, r.symbol.toList, decimalText r.amountUsdt, r.tranId.toList]

/-- The file of `write_history_csv`. -/
def historyCsv (res : HistoryResult Decimal) : List Char :=
  (historyHeader :: res.records.map incomeCells).flatMap writerow

/-! ## 2. Reading a file -/

/-- The columns of a payment. -/
structure PaymentRow where
  timestamp : Int
  symbol : String
  rate : Decimal
  markPrice : Decimal
  quantityBase : Decimal
  notionalQuote : Decimal
  paymentQuote : Decimal
deriving DecidableEq, Repr

def PaymentRow.of (p : FundingPayment Decimal) : PaymentRow :=
  ⟨p.event.timestamp, p.event.symbol, p.event.rate, p.event.markPrice, p.quantityBase,
    p.notionalQuote, p.paymentQuote⟩

def readDecimal (cell : List Char) : Option Decimal := Decimal.ofText (String.ofList cell)

def readPayment : List (List Char) → Option PaymentRow
  | [timestamp, symbol, rate, markPrice, quantityBase, notionalQuote, paymentQuote] => do
      let rate ← readDecimal rate
      let markPrice ← readDecimal markPrice
      let quantityBase ← readDecimal quantityBase
      let notionalQuote ← readDecimal notionalQuote
      let paymentQuote ← readDecimal paymentQuote
      pure ⟨readIso timestamp, String.ofList symbol, rate, markPrice, quantityBase, notionalQuote,
        paymentQuote⟩
  | _ => none

def readIncome : List (List Char) → Option (Income Decimal)
  | [timestamp, symbol, amount, tranId] => do
      let amount ← readDecimal amount
      pure ⟨readIso timestamp, String.ofList symbol, amount, String.ofList tranId⟩
  | _ => none

/-- The marks of RFC 4180. -/
def marks : Marks Char := ⟨',', '"', '\n', '\r', by decide⟩

/-- The rows below the header, each read. -/
def readCsv {ρ : Type} (readRow : List (List Char) → Option ρ) (text : List Char) :
    Option (List ρ) := do
  let table ← read marks text
  table.tail.mapM readRow

theorem written_field (cell : List Char) : Written marks cell (field cell) := by
  unfold field
  by_cases hspecial : cell.any isSpecial = true
  · rw [if_pos hspecial]
    refine .inl (congrArg ('"' :: · ++ ['"']) ?_)
    unfold double
    congr 1
    funext c
    by_cases hc : c = '"'
    · rw [if_pos hc, hc]
      rfl
    · rw [if_neg hc]
      exact (if_neg hc).symm
  · rw [if_neg hspecial]
    refine .inr ⟨rfl, fun c hc => ?_⟩
    rw [Bool.not_eq_true, List.any_eq_false] at hspecial
    exact Bool.eq_false_iff.mpr (hspecial c hc)

theorem readDecimal_decimalText (d : Decimal) : readDecimal (decimalText d) = some d := by
  rw [readDecimal, decimalText, String.ofList_toList, Decimal.ofText_str]

theorem readCsv_table {α ρ : Type} {cells : α → List (List Char)}
    {readRow : List (List Char) → Option ρ} {row : α → ρ} {header : List (List Char)}
    {items : List α} (hheader : header ≠ []) (hcells : ∀ a ∈ items, cells a ≠ [])
    (hread : ∀ a ∈ items, readRow (cells a) = some (row a)) :
    readCsv readRow ((header :: items.map cells).flatMap writerow) = some (items.map row) := by
  have hrows : ∀ line ∈ header :: items.map cells, line ≠ [] := by
    refine List.forall_mem_cons.mpr ⟨hheader, fun line hline => ?_⟩
    obtain ⟨a, ha, rfl⟩ := List.mem_map.mp hline
    exact hcells a ha
  have htable := read_lines (m := marks) written_field (header :: items.map cells) hrows
  have hmap : (items.map cells).mapM readRow = some (items.map row) := by
    rw [List.mapM_map]
    exact mapM_some hread
  unfold readCsv
  rw [show read marks ((header :: items.map cells).flatMap writerow) = _ from htable]
  exact hmap

theorem readPayment_cells {p : FundingPayment Decimal} (h : InRange p.event.timestamp) :
    readPayment (paymentCells p) = some (PaymentRow.of p) := by
  simp only [readPayment, paymentCells, readDecimal_decimalText, readIso_isoformat h,
    String.ofList_toList]
  rfl

theorem readIncome_cells {r : Income Decimal} (h : InRange r.timestamp) :
    readIncome (incomeCells r) = some r := by
  simp only [readIncome, incomeCells, readDecimal_decimalText, readIso_isoformat h,
    String.ofList_toList]
  rfl

/-- **A CSV export is exact**: it is read back as the rows of the result, whatever its texts
    hold, and every number as it was. -/
theorem csv_exports_exact {res : BacktestResult Decimal} {history : HistoryResult Decimal}
    (hres : ∀ p ∈ res.payments, InRange p.event.timestamp)
    (hhistory : ∀ r ∈ history.records, InRange r.timestamp) :
    readCsv readPayment (backtestCsv res) = some (res.payments.map PaymentRow.of) ∧
      readCsv readIncome (historyCsv history) = some history.records := by
  constructor
  · exact readCsv_table (by decide) (fun p _ => List.cons_ne_nil _ _)
      fun p hp => readPayment_cells (hres p hp)
  · have hread := @readCsv_table _ _ _ _ _ historyHeader _ (by decide)
      (fun r (_ : r ∈ history.records) => List.cons_ne_nil _ _)
      fun r hr => readIncome_cells (hhistory r hr)
    rw [List.map_id'] at hread
    exact hread

def paymentSample : FundingPayment Decimal :=
  ⟨⟨1769904000001000, "A,B\"C\r\n", .finite true 1 (-4), .finite false 6000000 (-2), 8⟩,
    .finite false 1 0, .finite false 6000000 (-2), .finite false 60000 (-4)⟩

def backtestSample : BacktestResult Decimal :=
  ⟨⟨"BTCUSDT", .long, .aware 1767225600000000, .aware 1769904000001000, .rateOnly, none⟩,
    [paymentSample], none, none, .finite true 1 (-2), .finite true 1095 (-4), 1,
    .finite true 1 (-4)⟩

def historySample : HistoryResult Decimal :=
  ⟨.aware 1767225600000000, .aware 1769904000001000,
    [⟨1769904000000000, "BTCUSDT", .finite true 75 (-1), "7"⟩], .finite true 75 (-1),
    ⟨[("BTCUSDT", .finite true 75 (-1))], by decide⟩,
    ⟨[("2026-02", .finite true 75 (-1))], by decide⟩⟩

theorem csv_exports_exact_quoted :
    readCsv readPayment (backtestCsv backtestSample) = some [PaymentRow.of paymentSample] ∧
      readCsv readIncome (historyCsv historySample) = some historySample.records :=
  csv_exports_exact (List.forall_mem_singleton.mpr (by decide +kernel))
    (List.forall_mem_singleton.mpr (by decide +kernel))

/-! ## 3. `json.dumps(asdict(res), default=_json_default, indent=2)` -/

/-- With an indent there is no blank behind a comma. -/
def style : Style := ⟨true, false, true, some 2⟩

def timeValue (offset : Offset) (t : DateTime) : Value :=
  .str (String.ofList (timeText offset t))

/-- The zones of the ends of a window, which `parse_user_datetime` leaves as the user has given
    them.  Every other time comes from `from_ms`, in UTC. -/
structure Zones where
  start : Offset
  stop : Offset

def decimalValue (d : Decimal) : Value := .str (Decimal.str d)

def intValue (n : Int) : Value := .num (.ofInt n)

def optionValue (d : Option Decimal) : Value := d.elim .null decimalValue

def sideName : Side → String
  | .long => "LONG"
  | .short => "SHORT"

def modeName : SizeMode → String
  | .base => "BASE"
  | .quote => "QUOTE"
  | .rateOnly => "RATE_ONLY"

def eventValue (e : Event Decimal) : Value :=
  .obj [("timestamp", timeValue .utc (.aware e.timestamp)), ("symbol", .str e.symbol),
    ("rate", decimalValue e.rate), ("mark_price", decimalValue e.markPrice),
    ("interval_hours", intValue e.intervalHours)]

def inputValue (zones : Zones) (inp : BacktestInput Decimal) : Value :=
  .obj [("symbol", .str inp.symbol), ("side", .str (sideName inp.side)),
    ("start", timeValue zones.start inp.start), ("end", timeValue zones.stop inp.stop),
    ("size_mode", .str (modeName inp.sizeMode)), ("size", optionValue inp.size)]

def paymentValue (p : FundingPayment Decimal) : Value :=
  .obj [("event", eventValue p.event), ("quantity_base", decimalValue p.quantityBase),
    ("notional_quote", decimalValue p.notionalQuote),
    ("payment_quote", decimalValue p.paymentQuote)]

/-- `asdict(res)` -/
def backtestValue (zones : Zones) (res : BacktestResult Decimal) : Value :=
  .obj [("input", inputValue zones res.input), ("payments", .arr (res.payments.map paymentValue)),
    ("total_quote", optionValue res.totalQuote), ("total_base", optionValue res.totalBase),
    ("cumulative_rate_pct", decimalValue res.cumulativeRatePct), ("apr", decimalValue res.apr),
    ("event_count", intValue res.eventCount), ("avg_rate", decimalValue res.avgRate)]

def incomeValue (r : Income Decimal) : Value :=
  .obj [("timestamp", timeValue .utc (.aware r.timestamp)), ("symbol", .str r.symbol),
    ("amount_usdt", decimalValue r.amountUsdt), ("tran_id", .str r.tranId)]

def sumsValue (sums : OrderedDict String Decimal) : Value :=
  .obj (sums.entries.map fun entry => (entry.1, decimalValue entry.2))

def historyValue (zones : Zones) (res : HistoryResult Decimal) : Value :=
  .obj [("start", timeValue zones.start res.start), ("end", timeValue zones.stop res.stop),
    ("records", .arr (res.records.map incomeValue)), ("total", decimalValue res.total),
    ("by_symbol", sumsValue res.bySymbol), ("by_month", sumsValue res.byMonth)]

def formatBacktestJson (zones : Zones) (res : BacktestResult Decimal) : List Char :=
  dumps style (backtestValue zones res)

def formatHistoryJson (zones : Zones) (res : HistoryResult Decimal) : List Char :=
  dumps style (historyValue zones res)

/-- Every time of a result is a `datetime`. -/
def BacktestInRange (zones : Zones) (res : BacktestResult Decimal) : Prop :=
  ZonedInRange zones.start res.input.start ∧ ZonedInRange zones.stop res.input.stop ∧
    ∀ p ∈ res.payments, InRange p.event.timestamp

def HistoryInRange (zones : Zones) (res : HistoryResult Decimal) : Prop :=
  ZonedInRange zones.start res.start ∧ ZonedInRange zones.stop res.stop ∧
    ∀ r ∈ res.records, InRange r.timestamp

/-- The offsets that the ends of a window have. -/
def offsetsOf (zones : Zones) (start stop : DateTime) : Option Int × Option Int :=
  (utcoffset zones.start start, utcoffset zones.stop stop)

/-! ## 4. A value has the whole result -/

theorem timeValue_injective {offset offset' : Offset} {t t' : DateTime}
    (ht : ZonedInRange offset t) (ht' : ZonedInRange offset' t')
    (heq : timeValue offset t = timeValue offset' t') :
    t = t' ∧ utcoffset offset t = utcoffset offset' t' := by
  have hread := congrArg readTime (String.ofList_injective (Value.str.inj heq))
  rw [readTime_timeText ht, readTime_timeText ht'] at hread
  exact Prod.mk.inj hread

/-- The times of events and payments, in UTC. -/
theorem instantValue_injective {instant instant' : Int} (h : InRange instant)
    (h' : InRange instant')
    (heq : timeValue .utc (.aware instant) = timeValue .utc (.aware instant')) :
    instant = instant' := by
  have hzero : ∀ n : Int, InRange n → ZonedInRange .utc (.aware n) := by
    intro n hn
    rw [← Int.add_zero n] at hn
    exact hn
  exact DateTime.aware.inj (timeValue_injective (hzero _ h) (hzero _ h') heq).1

theorem decimalValue_injective : Function.Injective decimalValue := by
  intro d d' heq
  have hread := congrArg Decimal.ofText (Value.str.inj heq)
  rw [Decimal.ofText_str, Decimal.ofText_str] at hread
  exact Option.some.inj hread

theorem intValue_injective : Function.Injective intValue := by
  intro n n' heq
  have hliteral : intLiteral n = intLiteral n' := congrArg Number.literal (Value.num.inj heq)
  rw [← readInt_intLiteral n, hliteral, readInt_intLiteral]

theorem optionValue_injective : Function.Injective optionValue := by
  intro d d' heq
  cases d with
  | none =>
      cases d' with
      | none => rfl
      | some d' => cases heq
  | some d =>
      cases d' with
      | none => cases heq
      | some d' => exact congrArg some (decimalValue_injective heq)

theorem sideName_injective : Function.Injective sideName := by
  intro side side' heq
  revert heq
  cases side <;> cases side' <;> decide

theorem modeName_injective : Function.Injective modeName := by
  intro mode mode' heq
  revert heq
  cases mode <;> cases mode' <;> decide

/-- Lists with the same images, of a function that is injective on their items. -/
theorem eq_of_map_eq {α β : Type} {f : α → β} {P : α → Prop}
    (hf : ∀ a b, P a → P b → f a = f b → a = b) :
    ∀ {items items' : List α}, (∀ a ∈ items, P a) → (∀ a ∈ items', P a) →
      items.map f = items'.map f → items = items'
  | [], [], _, _, _ => rfl
  | [], _ :: _, _, _, heq => by cases heq
  | _ :: _, [], _, _, heq => by cases heq
  | a :: items, b :: items', h, h', heq => by
      obtain ⟨ha, hitems⟩ := List.forall_mem_cons.mp h
      obtain ⟨hb, hitems'⟩ := List.forall_mem_cons.mp h'
      rw [List.map_cons, List.map_cons, List.cons.injEq] at heq
      rw [hf a b ha hb heq.1, eq_of_map_eq hf hitems hitems' heq.2]

theorem eventValue_injective {e e' : Event Decimal} (h : InRange e.timestamp)
    (h' : InRange e'.timestamp) (heq : eventValue e = eventValue e') : e = e' := by
  simp only [eventValue, Value.obj.injEq, List.cons.injEq, Prod.mk.injEq, true_and, and_true] at heq
  obtain ⟨htime, hsymbol, hrate, hmark, hhours⟩ := heq
  have hinstant := instantValue_injective h h' htime
  cases e
  cases e'
  cases hinstant
  cases Value.str.inj hsymbol
  cases decimalValue_injective hrate
  cases decimalValue_injective hmark
  cases intValue_injective hhours
  rfl

theorem paymentValue_injective {p p' : FundingPayment Decimal} (h : InRange p.event.timestamp)
    (h' : InRange p'.event.timestamp) (heq : paymentValue p = paymentValue p') : p = p' := by
  simp only [paymentValue, Value.obj.injEq, List.cons.injEq, Prod.mk.injEq, true_and,
    and_true] at heq
  obtain ⟨hevent, hquantity, hnotional, hpayment⟩ := heq
  have hsame := eventValue_injective h h' hevent
  cases p
  cases p'
  cases hsame
  cases decimalValue_injective hquantity
  cases decimalValue_injective hnotional
  cases decimalValue_injective hpayment
  rfl

theorem inputValue_injective {zones zones' : Zones} {inp inp' : BacktestInput Decimal}
    (hstart : ZonedInRange zones.start inp.start) (hstop : ZonedInRange zones.stop inp.stop)
    (hstart' : ZonedInRange zones'.start inp'.start) (hstop' : ZonedInRange zones'.stop inp'.stop)
    (heq : inputValue zones inp = inputValue zones' inp') :
    inp = inp' ∧ offsetsOf zones inp.start inp.stop = offsetsOf zones' inp'.start inp'.stop := by
  simp only [inputValue, Value.obj.injEq, List.cons.injEq, Prod.mk.injEq, true_and, and_true] at heq
  obtain ⟨hsymbol, hside, hfrom, hto, hmode, hsize⟩ := heq
  obtain ⟨hsameStart, hzoneStart⟩ := timeValue_injective hstart hstart' hfrom
  obtain ⟨hsameStop, hzoneStop⟩ := timeValue_injective hstop hstop' hto
  refine ⟨?_, congrArg₂ Prod.mk hzoneStart hzoneStop⟩
  cases inp
  cases inp'
  cases hsameStart
  cases hsameStop
  cases Value.str.inj hsymbol
  cases sideName_injective (Value.str.inj hside)
  cases modeName_injective (Value.str.inj hmode)
  cases optionValue_injective hsize
  rfl

theorem backtestValue_injective {zones zones' : Zones} {res res' : BacktestResult Decimal}
    (h : BacktestInRange zones res) (h' : BacktestInRange zones' res')
    (heq : backtestValue zones res = backtestValue zones' res') :
    res = res' ∧ offsetsOf zones res.input.start res.input.stop =
      offsetsOf zones' res'.input.start res'.input.stop := by
  simp only [backtestValue, Value.obj.injEq, List.cons.injEq, Prod.mk.injEq, true_and,
    and_true] at heq
  obtain ⟨hinput, hpayments, hquote, hbase, hpct, hapr, hcount, havg⟩ := heq
  obtain ⟨hsameInput, hzones⟩ := inputValue_injective h.1 h.2.1 h'.1 h'.2.1 hinput
  have hsamePayments := eq_of_map_eq (fun _ _ => paymentValue_injective) h.2.2 h'.2.2
    (Value.arr.inj hpayments)
  have hsameCount : res.eventCount = res'.eventCount := Int.ofNat.inj (intValue_injective hcount)
  refine ⟨?_, hzones⟩
  cases res
  cases res'
  cases hsameInput
  cases hsamePayments
  cases hsameCount
  cases optionValue_injective hquote
  cases optionValue_injective hbase
  cases decimalValue_injective hpct
  cases decimalValue_injective hapr
  cases decimalValue_injective havg
  rfl

theorem incomeValue_injective {r r' : Income Decimal} (h : InRange r.timestamp)
    (h' : InRange r'.timestamp) (heq : incomeValue r = incomeValue r') : r = r' := by
  simp only [incomeValue, Value.obj.injEq, List.cons.injEq, Prod.mk.injEq, true_and,
    and_true] at heq
  obtain ⟨htime, hsymbol, hamount, hid⟩ := heq
  have hinstant := instantValue_injective h h' htime
  cases r
  cases r'
  cases hinstant
  cases Value.str.inj hsymbol
  cases decimalValue_injective hamount
  cases Value.str.inj hid
  rfl

theorem sumsValue_injective : Function.Injective sumsValue := by
  intro sums sums' heq
  have hentry : ∀ entry entry' : String × Decimal,
      (entry.1, decimalValue entry.2) = (entry'.1, decimalValue entry'.2) → entry = entry' := by
    intro entry entry' hsame
    rw [Prod.mk.injEq] at hsame
    exact Prod.ext hsame.1 (decimalValue_injective hsame.2)
  have hentries := (List.map_inj_right hentry).mp (Value.obj.inj heq)
  cases sums
  cases sums'
  cases hentries
  rfl

theorem historyValue_injective {zones zones' : Zones} {res res' : HistoryResult Decimal}
    (h : HistoryInRange zones res) (h' : HistoryInRange zones' res')
    (heq : historyValue zones res = historyValue zones' res') :
    res = res' ∧ offsetsOf zones res.start res.stop = offsetsOf zones' res'.start res'.stop := by
  simp only [historyValue, Value.obj.injEq, List.cons.injEq, Prod.mk.injEq, true_and,
    and_true] at heq
  obtain ⟨hfrom, hto, hrecords, htotal, hsymbols, hmonths⟩ := heq
  obtain ⟨hsameStart, hzoneStart⟩ := timeValue_injective h.1 h'.1 hfrom
  obtain ⟨hsameStop, hzoneStop⟩ := timeValue_injective h.2.1 h'.2.1 hto
  refine ⟨?_, congrArg₂ Prod.mk hzoneStart hzoneStop⟩
  have hsameRecords := eq_of_map_eq (fun _ _ => incomeValue_injective) h.2.2 h'.2.2
    (Value.arr.inj hrecords)
  cases res
  cases res'
  cases hsameStart
  cases hsameStop
  cases hsameRecords
  cases decimalValue_injective htotal
  cases sumsValue_injective hsymbols
  cases sumsValue_injective hmonths
  rfl

/-- **A JSON export has the whole result**: it is a document with the members of the result, and
    results with the same text are the same result, asked for in the same zones. -/
theorem json_exports_exact {zones zones' : Zones} {res res' : BacktestResult Decimal}
    {history history' : HistoryResult Decimal} (hres : BacktestInRange zones res)
    (hres' : BacktestInRange zones' res') (hhistory : HistoryInRange zones history)
    (hhistory' : HistoryInRange zones' history') :
    loads (formatBacktestJson zones res) = some (backtestValue zones res) ∧
      (formatBacktestJson zones res = formatBacktestJson zones' res' →
        res = res' ∧ offsetsOf zones res.input.start res.input.stop =
          offsetsOf zones' res'.input.start res'.input.stop) ∧
      loads (formatHistoryJson zones history) = some (historyValue zones history) ∧
      (formatHistoryJson zones history = formatHistoryJson zones' history' →
        history = history' ∧ offsetsOf zones history.start history.stop =
          offsetsOf zones' history'.start history'.stop) := by
  refine ⟨loads_dumps _ _, ?_, loads_dumps _ _, ?_⟩
  · intro heq
    have hvalue := congrArg loads heq
    rw [formatBacktestJson, formatBacktestJson, loads_dumps, loads_dumps] at hvalue
    exact backtestValue_injective hres hres' (Option.some.inj hvalue)
  · intro heq
    have hvalue := congrArg loads heq
    rw [formatHistoryJson, formatHistoryJson, loads_dumps, loads_dumps] at hvalue
    exact historyValue_injective hhistory hhistory' (Option.some.inj hvalue)

/-- A window given from Taipei, or in UTC. -/
def taipei : Zones := ⟨⟨28800000000, by decide⟩, ⟨28800000000, by decide⟩⟩

def universal : Zones := ⟨.utc, .utc⟩

/-- `-0.0001` and `-0.00010` have different texts, and so has one window in two zones. -/
theorem json_exports_exact_digits :
    formatBacktestJson taipei backtestSample ≠
        formatBacktestJson taipei { backtestSample with avgRate := .finite true 10 (-5) } ∧
      formatHistoryJson taipei historySample ≠ formatHistoryJson universal historySample := by
  have hrecord : InRange 1769904000000000 := by decide +kernel
  have hpayment : ∀ p ∈ [paymentSample], InRange p.event.timestamp :=
    List.forall_mem_singleton.mpr (by decide +kernel)
  have hstart : InRange (1767225600000000 + 28800000000) := by decide +kernel
  have hstop : InRange (1769904000001000 + 28800000000) := by decide +kernel
  have hstart' : InRange (1767225600000000 + 0) := by decide +kernel
  have hstop' : InRange (1769904000001000 + 0) := by decide +kernel
  have hhistory : HistoryInRange taipei historySample :=
    ⟨hstart, hstop, List.forall_mem_singleton.mpr hrecord⟩
  have hhistory' : HistoryInRange universal historySample :=
    ⟨hstart', hstop', List.forall_mem_singleton.mpr hrecord⟩
  have hres : BacktestInRange taipei backtestSample := ⟨hstart, hstop, hpayment⟩
  have hres' : BacktestInRange taipei { backtestSample with avgRate := .finite true 10 (-5) } :=
    ⟨hstart, hstop, hpayment⟩
  have hres'' : BacktestInRange universal backtestSample := ⟨hstart', hstop', hpayment⟩
  constructor
  · intro heq
    have hexact := json_exports_exact hres hres' hhistory hhistory
    exact absurd (hexact.2.1 heq).1 (by decide)
  · intro heq
    have hexact := json_exports_exact hres hres'' hhistory hhistory'
    exact absurd (hexact.2.2.2 heq).2 (by decide)

end FundingTool.CliOutput
