import FundingTool.FixedPoint
import FundingTool.IsoFormat
import FundingTool.TaskFiles

/-!
# The payload of a history (`HistoryPayload` of `web/models.py`)

`to_history_payload` makes a payload of a result, `model_dump(mode="json")` a dict of texts of
it, and `model_validate` a payload of such a dict; what `pydantic` does with a datetime and with
a decimal is a parameter.  Amounts are written without exponents, so that what is read is not
always the payload that was dumped: `validate_dump` says that it is `rescaled`, that its dump is
the same, and that every amount has the value it had.
-/

namespace FundingTool.WebModels

open FundingTool.AccountHistory FundingTool.JsonText FundingTool.IsoFormat
open FundingTool.Backtest (DateTime)
open FundingTool.TaskFiles (Payload optional)

/-! ## 1. The models -/

structure IncomeRecordOut where
  timestamp : DateTime
  symbol : String
  amountUsdt : Decimal
  tranId : String
deriving DecidableEq, Repr

structure HistoryPayload where
  start : DateTime
  stop : DateTime
  total : Decimal
  bySymbol : OrderedDict String Decimal
  byMonth : OrderedDict String Decimal
  records : List IncomeRecordOut

/-- A `Decimal` field takes no NaN and no infinity. -/
def isFinite (d : Decimal) : Bool := d.ratio?.isSome

def HistoryPayload.amounts (p : HistoryPayload) : List Decimal :=
  p.total :: (p.bySymbol.entries.map Prod.snd ++ p.byMonth.entries.map Prod.snd ++
    p.records.map IncomeRecordOut.amountUsdt)

/-- The constructor of the model; `none` is its `ValidationError`. -/
def checked (p : HistoryPayload) : Option HistoryPayload :=
  if p.amounts.all isFinite then some p else none

def toHistoryPayload (r : HistoryResult Decimal) : Option HistoryPayload :=
  checked ⟨r.start, r.stop, r.total, r.bySymbol, r.byMonth,
    r.records.map fun ir => ⟨.aware ir.timestamp, ir.symbol, ir.amountUsdt, ir.tranId⟩⟩

/-! ## 2. Dumping and validating -/

/-- What `pydantic` does with the values of fields. -/
structure Pydantic where
  printTime : DateTime → String
  readTime : Value → Option DateTime
  readDecimal : Value → Option Decimal
  readInt : Value → Option Int
  /-- What a `ValidationError` says. -/
  complaint : HistoryResult Decimal → String
  /-- A datetime is read back from its ISO 8601 text. -/
  readTime_print : ∀ t, TimeInRange t → readTime (.str (printTime t)) = some t
  /-- A text becomes what `Decimal` makes of it, if that is finite. -/
  readDecimal_text : ∀ text,
    readDecimal (.str text) = (Decimal.ofText text).filter isFinite

def readStr : Value → Option String
  | .str s => some s
  | _ => none

/-- `dict[str, T]` -/
def readDict {α : Type} (read : Value → Option α) : Value → Option (OrderedDict String α)
  | .obj members =>
      ((OrderedDict.ofEntries members).entries.mapM fun e => (read e.2).map (Prod.mk e.1)).map
        OrderedDict.ofEntries
  | _ => none

/-- `list[T]` -/
def readList {α : Type} (read : Value → Option α) : Value → Option (List α)
  | .arr items => items.mapM read
  | _ => none

/-- `DecimalStr` -/
def decimalStr (d : Decimal) : Value := .str (Decimal.formatF d)

def sumsValue (sums : OrderedDict String Decimal) : Value := .obj (sums.map decimalStr).entries

namespace Pydantic

variable (pyd : Pydantic)

def recordValue (ir : IncomeRecordOut) : Value :=
  .obj [("timestamp", .str (pyd.printTime ir.timestamp)), ("symbol", .str ir.symbol),
    ("amount_usdt", decimalStr ir.amountUsdt), ("tran_id", .str ir.tranId)]

/-- `model_dump(mode="json")` -/
def dump (p : HistoryPayload) : Payload :=
  [("start", .str (pyd.printTime p.start)), ("end", .str (pyd.printTime p.stop)),
    ("total", decimalStr p.total), ("by_symbol", sumsValue p.bySymbol),
    ("by_month", sumsValue p.byMonth), ("records", .arr (p.records.map pyd.recordValue))]

/-- A required field. -/
def field {α : Type} (v : Value) (name : String) (read : Value → Option α) : Option α :=
  (v.member name).bind read

def readRecord (v : Value) : Option IncomeRecordOut := do
  let timestamp ← field v "timestamp" pyd.readTime
  let symbol ← field v "symbol" readStr
  let amountUsdt ← field v "amount_usdt" pyd.readDecimal
  let tranId ← field v "tran_id" readStr
  return ⟨timestamp, symbol, amountUsdt, tranId⟩

/-- `HistoryPayload.model_validate` -/
def validate (v : Value) : Option HistoryPayload := do
  let start ← field v "start" pyd.readTime
  let stop ← field v "end" pyd.readTime
  let total ← field v "total" pyd.readDecimal
  let bySymbol ← field v "by_symbol" (readDict pyd.readDecimal)
  let byMonth ← field v "by_month" (readDict pyd.readDecimal)
  let records ← field v "records" (readList pyd.readRecord)
  return ⟨start, stop, total, bySymbol, byMonth, records⟩

end Pydantic

/-! ## 3. The round trip -/

/-- Every amount with the digits that are written. -/
def IncomeRecordOut.rescaled (ir : IncomeRecordOut) : IncomeRecordOut :=
  { ir with amountUsdt := Decimal.fixed ir.amountUsdt }

def HistoryPayload.rescaled (p : HistoryPayload) : HistoryPayload :=
  { p with
    total := Decimal.fixed p.total
    bySymbol := p.bySymbol.map Decimal.fixed
    byMonth := p.byMonth.map Decimal.fixed
    records := p.records.map IncomeRecordOut.rescaled }

/-- What the fields of the model may hold. -/
structure HistoryPayload.Valid (p : HistoryPayload) : Prop where
  start : TimeInRange p.start
  stop : TimeInRange p.stop
  times : ∀ ir ∈ p.records, TimeInRange ir.timestamp
  amounts : ∀ d ∈ p.amounts, isFinite d = true

@[simp] theorem decimalStr_fixed (d : Decimal) : decimalStr (Decimal.fixed d) = decimalStr d :=
  congrArg Value.str (Decimal.formatF_fixed d)

@[simp] theorem sumsValue_fixed (sums : OrderedDict String Decimal) :
    sumsValue (sums.map Decimal.fixed) = sumsValue sums := by
  simp [sumsValue, OrderedDict.map, Function.comp_def, Prod.map]

section RoundTrip

variable {pyd : Pydantic} {p : HistoryPayload}

/-- To dump what was read writes the same. -/
theorem dump_rescaled (p : HistoryPayload) : pyd.dump p.rescaled = pyd.dump p := by
  simp [Pydantic.dump, HistoryPayload.rescaled, Pydantic.recordValue, IncomeRecordOut.rescaled]

theorem readDecimal_decimalStr {d : Decimal} (h : isFinite d = true) :
    pyd.readDecimal (decimalStr d) = some (Decimal.fixed d) := by
  have hfinite : isFinite (Decimal.fixed d) = true := by simpa [isFinite] using h
  rw [decimalStr, pyd.readDecimal_text, Decimal.ofText_formatF, Option.filter_some, if_pos hfinite]

/-- A dict of amounts is read back. -/
theorem readDict_sumsValue {sums : OrderedDict String Decimal}
    (h : ∀ e ∈ sums.entries, isFinite e.2 = true) :
    readDict pyd.readDecimal (sumsValue sums) = some (sums.map Decimal.fixed) := by
  have hentries : ((sums.map decimalStr).entries.mapM fun e =>
      (pyd.readDecimal e.2).map (Prod.mk e.1)) = some (sums.map Decimal.fixed).entries := by
    simp only [OrderedDict.map, List.mapM_map]
    refine mapM_some ?_
    intro e he
    simp only [Function.comp_apply, Prod.map, readDecimal_decimalStr (h e he), Option.map_some]
  rw [sumsValue, readDict, OrderedDict.ofEntries_entries, hentries, Option.map_some,
    OrderedDict.ofEntries_entries]

theorem readRecord_recordValue {ir : IncomeRecordOut} (htime : TimeInRange ir.timestamp)
    (hamount : isFinite ir.amountUsdt = true) :
    pyd.readRecord (pyd.recordValue ir) = some ir.rescaled := by
  let v := pyd.recordValue ir
  have htimestamp : Pydantic.field v "timestamp" pyd.readTime = some ir.timestamp :=
    pyd.readTime_print ir.timestamp htime
  have hsymbol : Pydantic.field v "symbol" readStr = some ir.symbol := rfl
  have hdecimal : Pydantic.field v "amount_usdt" pyd.readDecimal = _ :=
    readDecimal_decimalStr hamount
  have htranId : Pydantic.field v "tran_id" readStr = some ir.tranId := rfl
  simp [Pydantic.readRecord, v, htimestamp, hsymbol, hdecimal, htranId, IncomeRecordOut.rescaled]

/-- **What is dumped is read back**, with the digits that were written. -/
theorem validate_dump (h : p.Valid) : pyd.validate (.obj (pyd.dump p)) = some p.rescaled := by
  have hamounts := h.amounts
  simp only [HistoryPayload.amounts, List.mem_cons, List.mem_append, List.mem_map] at hamounts
  let v : Value := .obj (pyd.dump p)
  have hstart : Pydantic.field v "start" pyd.readTime = some p.start :=
    pyd.readTime_print p.start h.start
  have hstop : Pydantic.field v "end" pyd.readTime = some p.stop :=
    pyd.readTime_print p.stop h.stop
  have htotal : Pydantic.field v "total" pyd.readDecimal = some (Decimal.fixed p.total) :=
    readDecimal_decimalStr (hamounts _ (.inl rfl))
  have hsymbols : Pydantic.field v "by_symbol" (readDict pyd.readDecimal) = _ :=
    readDict_sumsValue fun e he => hamounts _ (.inr (.inl (.inl ⟨e, he, rfl⟩)))
  have hmonths : Pydantic.field v "by_month" (readDict pyd.readDecimal) = _ :=
    readDict_sumsValue fun e he => hamounts _ (.inr (.inl (.inr ⟨e, he, rfl⟩)))
  have hrecords : Pydantic.field v "records" (readList pyd.readRecord) =
      some (p.records.map IncomeRecordOut.rescaled) := by
    change (p.records.map pyd.recordValue).mapM pyd.readRecord = _
    rw [List.mapM_map]
    refine mapM_some ?_
    intro ir hir
    exact readRecord_recordValue (h.times ir hir) (hamounts _ (.inr (.inr ⟨ir, hir, rfl⟩)))
  simp [Pydantic.validate, v, hstart, hstop, htotal, hsymbols, hmonths, hrecords,
    HistoryPayload.rescaled]

end RoundTrip

/-! ## 4. The amounts -/

/-- The payload has the times, the texts and the amounts of the result. -/
structure SameAmounts (p : HistoryPayload) (r : HistoryResult Decimal) : Prop where
  start : p.start = r.start
  stop : p.stop = r.stop
  total : p.total.ratio? = r.total.ratio?
  bySymbol : p.bySymbol.map Decimal.ratio? = r.bySymbol.map Decimal.ratio?
  byMonth : p.byMonth.map Decimal.ratio? = r.byMonth.map Decimal.ratio?
  records : p.records.map (fun ir => (ir.timestamp, ir.symbol, ir.amountUsdt.ratio?, ir.tranId)) =
    r.records.map fun ir =>
      (DateTime.aware ir.timestamp, ir.symbol, ir.amountUsdt.ratio?, ir.tranId)

theorem map_fixed_ratio (sums : OrderedDict String Decimal) :
    (sums.map Decimal.fixed).map Decimal.ratio? = sums.map Decimal.ratio? := by
  simp [OrderedDict.map, Function.comp_def, Prod.map]

/-- Every time of a result is a `datetime`. -/
def ResultInRange (r : HistoryResult Decimal) : Prop :=
  TimeInRange r.start ∧ TimeInRange r.stop ∧ ∀ ir ∈ r.records, InRange ir.timestamp

section Result

variable {r : HistoryResult Decimal} {p : HistoryPayload}

theorem toHistoryPayload_eq (h : toHistoryPayload r = some p) :
    p = ⟨r.start, r.stop, r.total, r.bySymbol, r.byMonth, r.records.map fun ir =>
      ⟨.aware ir.timestamp, ir.symbol, ir.amountUsdt, ir.tranId⟩⟩ ∧
      p.amounts.all isFinite = true := by
  simp only [toHistoryPayload, checked] at h
  split at h
  · next hfinite =>
      obtain rfl := Option.some.inj h
      exact ⟨rfl, hfinite⟩
  · cases h

theorem valid_of_result (h : toHistoryPayload r = some p) (hrange : ResultInRange r) :
    p.Valid := by
  obtain ⟨rfl, hfinite⟩ := toHistoryPayload_eq h
  obtain ⟨hstart, hstop, htimes⟩ := hrange
  refine ⟨hstart, hstop, ?_, List.all_eq_true.mp hfinite⟩
  intro ir hir
  obtain ⟨record, hrecord, rfl⟩ := List.mem_map.mp hir
  exact htimes record hrecord

/-- Rescaling changes no value. -/
theorem sameAmounts_rescaled (h : toHistoryPayload r = some p) : SameAmounts p.rescaled r := by
  obtain ⟨rfl, -⟩ := toHistoryPayload_eq h
  constructor
  · rfl
  · rfl
  · exact Decimal.ratio?_fixed r.total
  · exact map_fixed_ratio r.bySymbol
  · exact map_fixed_ratio r.byMonth
  · simp [HistoryPayload.rescaled, IncomeRecordOut.rescaled]

end Result

end FundingTool.WebModels
