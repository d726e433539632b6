import FundingTool.AccountHistory
import FundingTool.Tally

/-!
# History totals

In exact arithmetic the two dictionaries of a history are tallies of the same records, by
symbol and by month, and the total is the sum of either.  What a history says of its records
therefore does not depend on their order, and the histories of two lists add up.
-/

namespace FundingTool.AccountHistory

open FundingTool.Backtest FundingTool.Interaction FundingTool.OrderedDict

/-! ## 1. The loop in exact arithmetic -/

/-- The items of `by_symbol`. -/
def symbolItems (records : List (Income Rat)) : List (String × Rat) :=
  records.map fun r => (r.symbol, r.amountUsdt)

/-- The items of `by_month`. -/
def monthItems (records : List (Income Rat)) : List (String × Rat) :=
  records.map fun r => (monthKey r.timestamp, r.amountUsdt)

def amounts (records : List (Income Rat)) : List Rat := records.map Income.amountUsdt

theorem lit_zero : exact.lit 0 0 = 0 := by
  show ((0 : Int) : Rat) * 10 ^ (0 : Int) = 0
  rw [Int.cast_zero, zero_mul]

theorem addAt_exact (d : OrderedDict String Rat) (key : String) (amount : Rat) :
    addAt exact d key amount = .ok (d.tally (key, amount)) := by
  unfold addAt
  rw [lit_zero]
  rfl

theorem addRecord_exact (acc : Totals Rat) (r : Income Rat) :
    addRecord exact acc r =
      .ok ⟨acc.total + r.amountUsdt, acc.bySymbol.tally (r.symbol, r.amountUsdt),
        acc.byMonth.tally (monthKey r.timestamp, r.amountUsdt)⟩ := by
  unfold addRecord
  rw [addAt_exact, addAt_exact]
  rfl

/-- The three accumulators go on independently. -/
theorem foldlM_addRecord (acc : Totals Rat) (records : List (Income Rat)) :
    records.foldlM (addRecord exact) acc =
      .ok ⟨acc.total + (amounts records).sum, (symbolItems records).foldl tally acc.bySymbol,
        (monthItems records).foldl tally acc.byMonth⟩ := by
  induction records generalizing acc with
  | nil =>
      have hzero : acc.total + (amounts []).sum = acc.total := add_zero acc.total
      rw [hzero]
      rfl
  | cons r rest ih =>
      have hsum : (amounts (r :: rest)).sum = r.amountUsdt + (amounts rest).sum := by
        rw [amounts, List.map_cons, List.sum_cons]
        rfl
      rw [List.foldlM_cons, addRecord_exact, hsum, ← add_assoc]
      exact ih _

theorem aggregate_exact (records : List (Income Rat)) :
    aggregate exact records =
      .ok ⟨(amounts records).sum, ofItems (symbolItems records), ofItems (monthItems records)⟩ := by
  rw [aggregate, foldlM_addRecord, lit_zero, zero_add]
  rfl

/-! ## 2. Histories -/

/-- What the service makes of an account with these records. -/
def historyOf (print : Printer) (creds : ApiCredentials) (start stop : DateTime)
    (symbol : Option String) (records : List (Income Rat)) :
    Except BaseException (HistoryResult Rat) :=
  ((runAccountHistory exact print creds start stop symbol).run ask (paying records) []).2

/-- The total is the sum of all records, and of the values of either dictionary; the keys are
    those of the records, and the value of a key is the sum of its records. -/
structure Partitions (records : List (Income Rat)) (result : HistoryResult Rat) : Prop where
  records_eq : result.records = records
  total_eq : result.total = (amounts records).sum
  bySymbol_total : result.bySymbol.total = result.total
  byMonth_total : result.byMonth.total = result.total
  bySymbol : ∀ key, result.bySymbol.get? key =
    if key ∈ records.map Income.symbol then
      some ((records.filter fun r => decide (r.symbol = key)).map Income.amountUsdt).sum
    else none
  byMonth : ∀ key, result.byMonth.get? key =
    if key ∈ records.map fun r => monthKey r.timestamp then
      some ((records.filter fun r => decide (monthKey r.timestamp = key)).map
        Income.amountUsdt).sum
    else none

/-- The same totals. -/
structure SameTotals (result other : HistoryResult Rat) : Prop where
  total_eq : other.total = result.total
  bySymbol : ∀ key, other.bySymbol.get? key = result.bySymbol.get? key
  byMonth : ∀ key, other.byMonth.get? key = result.byMonth.get? key

/-- The totals of two histories, key by key. -/
structure AddsUp (result rest both : HistoryResult Rat) : Prop where
  total_eq : both.total = result.total + rest.total
  bySymbol : ∀ key, both.bySymbol.get? key =
    addValues (result.bySymbol.get? key) (rest.bySymbol.get? key)
  byMonth : ∀ key, both.byMonth.get? key =
    addValues (result.byMonth.get? key) (rest.byMonth.get? key)

variable {print : Printer} {creds : ApiCredentials} {start stop : DateTime}
  {symbol : Option String}

theorem historyOf_eq (h : validate start stop = .ok ()) (records : List (Income Rat)) :
    historyOf print creds start stop symbol records =
      .ok ⟨start, stop, records, (amounts records).sum, ofItems (symbolItems records),
        ofItems (monthItems records)⟩ := by
  unfold historyOf runAccountHistory
  rw [h]
  show ((Prog.ofExcept ((aggregate exact records).mapError signalled) >>= _ :
    Service Rat (HistoryResult Rat)).run ask (paying records) _).2 = _
  rw [aggregate_exact]
  rfl

/-- Items made of records: the keys and the shares. -/
theorem get?_ofItems_records (key : Income Rat → String) (records : List (Income Rat))
    (k : String) :
    (ofItems (records.map fun r => (key r, r.amountUsdt))).get? k =
      if k ∈ records.map key then
        some ((records.filter fun r => decide (key r = k)).map Income.amountUsdt).sum
      else none := by
  rw [get?_ofItems, share, List.filter_map, List.map_map, List.map_map]
  rfl

theorem total_ofItems_records (key : Income Rat → String) (records : List (Income Rat)) :
    (ofItems (records.map fun r => (key r, r.amountUsdt))).total = (amounts records).sum := by
  rw [total_ofItems, List.map_map]
  rfl

/-- **Histories partition.**  Every list of records is summed up exactly, in any order, and
    two lists add up key by key. -/
theorem history_partitions (h : validate start stop = .ok ()) (records : List (Income Rat)) :
    ∃ result, historyOf print creds start stop symbol records = .ok result ∧
      Partitions records result ∧
      (∀ permuted, permuted.Perm records →
        ∃ other, historyOf print creds start stop symbol permuted = .ok other ∧
          SameTotals result other) ∧
      ∀ more, ∃ rest both, historyOf print creds start stop symbol more = .ok rest ∧
        historyOf print creds start stop symbol (records ++ more) = .ok both ∧
        AddsUp result rest both := by
  refine ⟨_, historyOf_eq h records, ?_, fun permuted hperm => ?_, fun more => ?_⟩
  · exact ⟨rfl, rfl, total_ofItems_records Income.symbol records,
      total_ofItems_records (fun r => monthKey r.timestamp) records,
      get?_ofItems_records Income.symbol records,
      get?_ofItems_records (fun r => monthKey r.timestamp) records⟩
  · exact ⟨_, historyOf_eq h permuted, (hperm.map Income.amountUsdt).sum_eq,
      fun key => get?_ofItems_perm (hperm.map _) key,
      fun key => get?_ofItems_perm (hperm.map _) key⟩
  · refine ⟨_, _, historyOf_eq h more, historyOf_eq h (records ++ more), ?_, fun key => ?_,
      fun key => ?_⟩
    · show (amounts (records ++ more)).sum = (amounts records).sum + (amounts more).sum
      rw [amounts, List.map_append, List.sum_append]
      rfl
    · show (ofItems (symbolItems (records ++ more))).get? key = _
      rw [symbolItems, List.map_append]
      exact get?_ofItems_append (symbolItems records) (symbolItems more) key
    · show (ofItems (monthItems (records ++ more))).get? key = _
      rw [monthItems, List.map_append]
      exact get?_ofItems_append (monthItems records) (monthItems more) key

theorem history_partitions_two :
    ∃ result, historyOf (fun _ => "") ⟨"k", "s", none⟩ (.aware 0) (.aware 1) none
        [⟨0, "BTCUSDT", 3, "t1"⟩, ⟨0, "ETHUSDT", -3, "t2"⟩] = .ok result ∧
      Partitions [⟨0, "BTCUSDT", 3, "t1"⟩, ⟨0, "ETHUSDT", -3, "t2"⟩] result ∧
      (∀ permuted, permuted.Perm [⟨0, "BTCUSDT", 3, "t1"⟩, ⟨0, "ETHUSDT", -3, "t2"⟩] →
        ∃ other, historyOf (fun _ => "") ⟨"k", "s", none⟩ (.aware 0) (.aware 1) none permuted =
          .ok other ∧ SameTotals result other) ∧
      ∀ more, ∃ rest both,
        historyOf (fun _ => "") ⟨"k", "s", none⟩ (.aware 0) (.aware 1) none more = .ok rest ∧
        historyOf (fun _ => "") ⟨"k", "s", none⟩ (.aware 0) (.aware 1) none
          ([⟨0, "BTCUSDT", 3, "t1"⟩, ⟨0, "ETHUSDT", -3, "t2"⟩] ++ more) = .ok both ∧
        AddsUp result rest both :=
  history_partitions rfl [⟨0, "BTCUSDT", 3, "t1"⟩, ⟨0, "ETHUSDT", -3, "t2"⟩]

/-! ## 3. Months -/

/-- The key of a record is the year and month of the calendar date on which it falls. -/
theorem monthKey_of_date {d : Calendar.Date} {instant : Int} (hd : d.Valid)
    (hday : d.ordinal = epochOrdinal + instant / dayLength) : monthKey instant = yearMonth d := by
  obtain ⟨hvalid, hordinal⟩ := Calendar.ofOrdinal_spec (epochOrdinal + instant / dayLength)
  obtain ⟨hyear, hmonth⟩ := Calendar.month_unique hvalid hd (hordinal.trans hday.symm)
  unfold monthKey yearMonth dateOf
  rw [hyear, hmonth]

theorem digit_inj {a b : Nat} (h : digit a = digit b) : a % 10 = b % 10 := by
  have hall : ∀ a < 10, ∀ b < 10, Char.ofNat ('0'.toNat + a) = Char.ofNat ('0'.toNat + b) →
      a = b := by
    decide +kernel
  exact hall _ (Nat.mod_lt a (by decide)) _ (Nat.mod_lt b (by decide)) h

theorem yearMonth_inj {d d' : Calendar.Date} (hy : 0 ≤ d.year ∧ d.year ≤ 9999)
    (hy' : 0 ≤ d'.year ∧ d'.year ≤ 9999) (hm : d.month ≤ 12) (hm' : d'.month ≤ 12)
    (h : yearMonth d = yearMonth d') : d.year = d'.year ∧ d.month = d'.month := by
  unfold yearMonth at h
  rw [String.ofList_inj] at h
  simp only [List.cons.injEq, and_true, true_and] at h
  obtain ⟨hthousands, hhundreds, htens, hunits, htens', hunits'⟩ := h
  have := digit_inj hthousands
  have := digit_inj hhundreds
  have := digit_inj htens
  have := digit_inj hunits
  have := digit_inj htens'
  have := digit_inj hunits'
  constructor <;> omega

/-- **The keys of `by_month`** tell the months of the calendar apart, in the years that a
    `datetime` has. -/
theorem monthKey_eq_iff {a b : Int} (ha : 0 ≤ (dateOf a).year ∧ (dateOf a).year ≤ 9999)
    (hb : 0 ≤ (dateOf b).year ∧ (dateOf b).year ≤ 9999) :
    monthKey a = monthKey b ↔
      (dateOf a).year = (dateOf b).year ∧ (dateOf a).month = (dateOf b).month := by
  have hvalid := (Calendar.ofOrdinal_spec (epochOrdinal + a / dayLength)).1
  have hvalid' := (Calendar.ofOrdinal_spec (epochOrdinal + b / dayLength)).1
  constructor
  · exact yearMonth_inj ha hb hvalid.2.1 hvalid'.2.1
  · rintro ⟨hyear, hmonth⟩
    unfold monthKey yearMonth
    rw [hyear, hmonth]

end FundingTool.AccountHistory
