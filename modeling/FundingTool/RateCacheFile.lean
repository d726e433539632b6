import FundingTool.AccountHistory
import FundingTool.DecimalText
import FundingTool.RateCache
import FundingTool.Sqlite3
import FundingTool.TimeUtil
import Mathlib.Data.List.Dedup
import Mathlib.Data.Prod.Lex
import Mathlib.Data.String.Basic

/-!
# The cache file (`core/cache.py`)

The table `funding_rates` with all its columns, the decimals as the texts they are stored as, and
the times as `to_ms` and `from_ms` compute them, with floats.  `put` prints the decimals, `get`
parses them, and raises where it cannot.  `stats` and `clear` are here too, as the SQL they send.

`Stores` says that the texts of a file are those of a table of numbers.  Every operation keeps
this, and answers from the file what is read off the table, as long as the milliseconds of its keys
survive `from_ms` and `to_ms` (`ExactKeys`).  Where the floats compute what whole numbers do, the
table is the `RateTable` of the rest of the development (`Stores.put_exact`, `Stores.get_exact`).
-/

namespace FundingTool

/-- The primary key `(exchange, symbol, funding_ms)`. -/
abbrev FundingKey := String × String × Int

/-- The other columns. -/
structure FundingRatesRow where
  rate : String
  markPrice : String
  intervalH : Int
  fetchedAt : Int
deriving DecidableEq, Repr

abbrev FundingRates := OrderedDict FundingKey FundingRatesRow

namespace FundingRates

open FundingTool.Sqlite3

/-! ## 1. `put` -/

/-- The columns of an event; `now` is the clock when the row is built. -/
def rowOf (ev : FundingEvent) (now : Int) : FundingRatesRow where
  rate := ev.rate.str
  markPrice := ev.markPrice.str
  intervalH := ev.intervalHours
  fetchedAt := TimeUtil.toMs now

/-- `rows`; the clock is read for each of them. -/
def rows (exchange symbol : String) :
    (Nat → Int) → List FundingEvent → List (FundingKey × FundingRatesRow)
  | _, [] => []
  | clock, ev :: rest =>
      ((exchange, symbol, TimeUtil.toMs ev.timestamp), rowOf ev (clock 0)) ::
        rows exchange symbol (fun n => clock (n + 1)) rest

/-- `INSERT OR REPLACE INTO funding_rates` -/
def insertOrReplace (row : FundingKey × FundingRatesRow) (file : FundingRates) : FundingRates :=
  file.set row.1 row.2

/-- `put`, where no statement fails. -/
def put (file : FundingRates) (exchange symbol : String) (events : List FundingEvent)
    (clock : Nat → Int) : FundingRates :=
  if events.isEmpty then file
  else withExecutemany none insertOrReplace (rows exchange symbol clock events)
    (fun _ => .done) file

/-! ## 2. `get` -/

section Select

variable {ρ : Type}

/-- The `WHERE` clause, and the columns selected. -/
def matching (exchange symbol : String) (lo hi : Int) (entry : FundingKey × ρ) :
    Option (Int × ρ) :=
  if entry.1.1 = exchange ∧ entry.1.2.1 = symbol ∧ lo ≤ entry.1.2.2 ∧ entry.1.2.2 ≤ hi then
    some (entry.1.2.2, entry.2)
  else none

/-- `SELECT … WHERE … ORDER BY funding_ms ASC` -/
def select (table : OrderedDict FundingKey ρ) (exchange symbol : String) (lo hi : Int) :
    List (Int × ρ) :=
  (table.entries.filterMap (matching exchange symbol lo hi)).insertionSort fun a b => a.1 ≤ b.1

end Select

/-- The event of a row; `none` where `from_ms` or `Decimal` raises. -/
def readRow (symbol : String) (row : Int × FundingRatesRow) : Option FundingEvent := do
  let timestamp ← TimeUtil.fromMs? row.1
  let rate ← Decimal.ofText row.2.rate
  let markPrice ← Decimal.ofText row.2.markPrice
  pure ⟨timestamp, symbol, rate, markPrice, row.2.intervalH⟩

def get (file : FundingRates) (exchange symbol : String) (start stop : Int) :
    Option (List FundingEvent) :=
  (select file exchange symbol (TimeUtil.toMs start) (TimeUtil.toMs stop)).mapM (readRow symbol)

/-! ## 3. `stats` and `clear` -/

/-- `dt.date().isoformat()` of a datetime in UTC. -/
def isoDate (instant : Int) : String :=
  let d := AccountHistory.dateOf instant
  AccountHistory.yearMonth d ++
    String.ofList ['-', AccountHistory.digit (d.day / 10), AccountHistory.digit d.day]

example : isoDate 1769904000000000 = "2026-02-01" := by decide +kernel

/-- One row of `stats`. -/
structure CacheStats where
  exchange : String
  symbol : String
  rows : Nat
  first : Option String
  last : Option String
deriving DecidableEq, Repr

/-- `GROUP BY exchange, symbol`, `ORDER BY exchange, symbol` -/
def groups (keys : List FundingKey) : List (String × String) :=
  (keys.map fun key => (key.1, key.2.1)).dedup.insertionSort fun a b => toLex a ≤ toLex b

/-- The column `funding_ms` of a group. -/
def fundingTimes (keys : List FundingKey) (exchange symbol : String) : List Int :=
  keys.filterMap fun key =>
    if key.1 = exchange ∧ key.2.1 = symbol then some key.2.2 else none

/-- `from_ms(ms).date().isoformat() if ms is not None else None`; `none` where `from_ms` raises. -/
def dateOfColumn : Option Int → Option (Option String)
  | none => some none
  | some ms => (TimeUtil.fromMs? ms).map fun dt => some (isoDate dt)

/-- `COUNT(*)`, `MIN(funding_ms)` and `MAX(funding_ms)` of a group, the times as dates. -/
def statsOf (keys : List FundingKey) (group : String × String) : Option CacheStats := do
  let first ← dateOfColumn (fundingTimes keys group.1 group.2).min?
  let last ← dateOfColumn (fundingTimes keys group.1 group.2).max?
  pure ⟨group.1, group.2, (fundingTimes keys group.1 group.2).length, first, last⟩

/-- `stats`; the query reads the columns of the key only. -/
def stats (file : FundingRates) : Option (List CacheStats) :=
  (groups file.keys).mapM (statsOf file.keys)

/-- `DELETE FROM funding_rates WHERE …`, and its `rowcount`. -/
def deleteWhere (file : FundingRates) (which : FundingKey → Bool) : FundingRates × Nat :=
  (OrderedDict.filter file fun key _ => !which key, (file.keys.filter which).length)

/-- `if symbol:` is not entered for the empty text either. -/
def clear (file : FundingRates) : Option String → FundingRates × Nat
  | none => file.deleteWhere fun _ => true
  | some symbol =>
      if symbol ≠ "" then file.deleteWhere fun key => decide (key.2.1 = symbol)
      else file.deleteWhere fun _ => true

/-! ## 4. The decimals of a file -/

/-- The columns that `get` reads, parsed. -/
def decode (row : FundingRatesRow) : Option CachedRate := do
  let rate ← Decimal.ofText row.rate
  let markPrice ← Decimal.ofText row.markPrice
  pure ⟨rate, markPrice, row.intervalH⟩

/-- The columns of an event, as `RateTable` has them. -/
def cachedOf (ev : FundingEvent) : CachedRate := ⟨ev.rate, ev.markPrice, ev.intervalHours⟩

/-- An event is put into a table. -/
def record (exchange symbol : String) (table : RateTable) (ev : FundingEvent) : RateTable :=
  table.set (exchange, symbol, TimeUtil.toMs ev.timestamp) (cachedOf ev)

theorem decode_rowOf (ev : FundingEvent) (now : Int) :
    decode (rowOf ev now) = some (cachedOf ev) := by
  unfold decode rowOf
  simp only [Decimal.ofText_str]
  rfl

/-- The texts of the file are those of the table, row by row. -/
def Stores (file : FundingRates) (table : RateTable) : Prop :=
  OrderedDict.map file decode = OrderedDict.map table some

theorem Stores.keys {file : FundingRates} {table : RateTable} (h : Stores file table) :
    file.keys = table.keys := by
  rw [← OrderedDict.keys_map file decode, h, OrderedDict.keys_map]

theorem stores_empty : Stores .empty .empty := rfl

theorem Stores.insertOrReplace {file : FundingRates} {table : RateTable} (h : Stores file table)
    (exchange symbol : String) (ev : FundingEvent) (now : Int) :
    Stores (insertOrReplace ((exchange, symbol, TimeUtil.toMs ev.timestamp), rowOf ev now) file)
      (record exchange symbol table ev) := by
  unfold Stores FundingRates.insertOrReplace record
  rw [OrderedDict.map_set, OrderedDict.map_set, decode_rowOf, h]

theorem performed_done (n : Nat) : performed (fun _ => .done) n = n := by
  induction n with
  | zero => rfl
  | succ n ih => exact congrArg (· + 1) ih

theorem put_eq (file : FundingRates) (exchange symbol : String) (events : List FundingEvent)
    (clock : Nat → Int) : file.put exchange symbol events clock =
      inserted FundingRates.insertOrReplace (rows exchange symbol clock events) file := by
  unfold put
  cases events with
  | nil => rfl
  | cons ev rest =>
      rw [if_neg (by simp), withExecutemany_autocommit, performed_done, List.take_length]

theorem Stores.put {file : FundingRates} {table : RateTable} (h : Stores file table)
    (exchange symbol : String) (events : List FundingEvent) (clock : Nat → Int) :
    Stores (file.put exchange symbol events clock)
      (events.foldl (record exchange symbol) table) := by
  rw [put_eq]
  induction events generalizing file table clock with
  | nil => exact h
  | cons ev rest ih => exact ih (h.insertOrReplace exchange symbol ev (clock 0)) _

theorem Stores.filter {file : FundingRates} {table : RateTable} (h : Stores file table)
    (keep : FundingKey → Bool) :
    Stores (OrderedDict.filter file fun key _ => keep key)
      (OrderedDict.filter table fun key _ => keep key) := by
  unfold Stores
  rw [OrderedDict.map_filter_keys, OrderedDict.map_filter_keys, h]

theorem filter_false {ν : Type} (table : OrderedDict FundingKey ν) :
    (table.filter fun _ _ => false) = .empty :=
  OrderedDict.ext_entries (List.filter_eq_nil_iff.mpr fun _ _ => (by simp))

theorem Stores.clear {file : FundingRates} {table : RateTable} (h : Stores file table)
    (symbol : Option String) : Stores (file.clear symbol).1 (table.clear symbol) := by
  have hall : Stores (file.deleteWhere fun _ => true).1 .empty := by
    have hnone := h.filter fun _ => false
    rw [filter_false table] at hnone
    exact hnone
  cases symbol with
  | none => exact hall
  | some symbol =>
      unfold FundingRates.clear RateTable.clear
      by_cases hsymbol : symbol = ""
      · simp only [hsymbol]
        exact hall
      · simp only [if_neg hsymbol, if_pos (show symbol ≠ "" from hsymbol)]
        have hkept := h.filter fun key => !decide (key.2.1 = symbol)
        simpa only [deleteWhere, decide_not] using hkept

/-! ## 5. What `get` returns -/

theorem matching_map {ρ σ : Type} (f : ρ → σ) (exchange symbol : String) (lo hi : Int)
    (entry : FundingKey × ρ) :
    matching exchange symbol lo hi (Prod.map id f entry) =
      (matching exchange symbol lo hi entry).map (Prod.map id f) := by
  unfold matching
  by_cases hwhere : entry.1.1 = exchange ∧ entry.1.2.1 = symbol ∧ lo ≤ entry.1.2.2 ∧
      entry.1.2.2 ≤ hi
  · rw [if_pos hwhere, Option.map_some]
    exact if_pos hwhere
  · rw [if_neg hwhere, Option.map_none]
    exact if_neg hwhere

/-- The rows selected depend on the keys alone. -/
theorem select_map {ρ σ : Type} (table : OrderedDict FundingKey ρ) (f : ρ → σ)
    (exchange symbol : String) (lo hi : Int) :
    (select table exchange symbol lo hi).map (Prod.map id f) =
      select (table.map f) exchange symbol lo hi := by
  have hrows : (table.entries.filterMap (matching exchange symbol lo hi)).map (Prod.map id f) =
      (table.map f).entries.filterMap (matching exchange symbol lo hi) := by
    rw [List.map_filterMap, OrderedDict.map, List.filterMap_map]
    exact List.filterMap_congr fun entry _ => (matching_map f exchange symbol lo hi entry).symm
  unfold select
  rw [← hrows]
  exact List.map_insertionSort _ _ _ _ fun _ _ _ _ => Iff.rfl

theorem Stores.select {file : FundingRates} {table : RateTable} (h : Stores file table)
    (exchange symbol : String) (lo hi : Int) :
    (select file exchange symbol lo hi).map (Prod.map id decode) =
      (table.select exchange symbol lo hi).map (Prod.map id some) := by
  rw [select_map, h, ← select_map]
  rfl

/-- The time of a key is found again. -/
def Exact (ms : Int) : Prop :=
  ∃ dt, TimeUtil.fromMs? ms = some dt ∧ TimeUtil.toMs dt = ms

def ExactKeys (table : RateTable) : Prop := ∀ key ∈ table.keys, Exact key.2.2

theorem Exact.fromMs {ms : Int} (h : Exact ms) :
    TimeUtil.fromMs? ms = some (TimeUtil.fromMs ms) := by
  obtain ⟨dt, hdt, -⟩ := h
  rw [hdt, TimeUtil.fromMs_of_some hdt]

theorem Exact.toMs {ms : Int} (h : Exact ms) : TimeUtil.toMs (TimeUtil.fromMs ms) = ms := by
  obtain ⟨dt, hdt, hms⟩ := h
  rw [TimeUtil.fromMs_of_some hdt, hms]

/-- Datetimes are in the order of the milliseconds they are found from. -/
theorem Exact.fromMs_lt {ms ms' : Int} (h : Exact ms) (h' : Exact ms') (hlt : ms < ms') :
    TimeUtil.fromMs ms < TimeUtil.fromMs ms' := by
  by_contra hle
  have hmono := TimeUtil.toMs_mono (not_lt.mp hle)
  rw [h.toMs, h'.toMs] at hmono
  omega

/-- The event of a row of numbers. -/
def eventAt (symbol : String) (row : Int × CachedRate) : FundingEvent where
  timestamp := TimeUtil.fromMs row.1
  symbol := symbol
  rate := row.2.rate
  markPrice := row.2.markPrice
  intervalHours := row.2.intervalH

/-- What a table has to return. -/
def events (table : RateTable) (exchange symbol : String) (start stop : Int) :
    List FundingEvent :=
  (table.select exchange symbol (TimeUtil.toMs start) (TimeUtil.toMs stop)).map (eventAt symbol)

/-- A row that has been parsed. -/
def readCached (symbol : String) (row : Int × Option CachedRate) : Option FundingEvent := do
  let timestamp ← TimeUtil.fromMs? row.1
  let cached ← row.2
  pure ⟨timestamp, symbol, cached.rate, cached.markPrice, cached.intervalH⟩

theorem readRow_eq (symbol : String) (row : Int × FundingRatesRow) :
    readRow symbol row = readCached symbol (Prod.map id decode row) := by
  unfold readRow readCached decode
  simp only [Prod.map, id_eq]
  generalize TimeUtil.fromMs? row.1 = timestamp
  rcases Decimal.ofText row.2.rate with _ | rate
  · rfl
  · rcases Decimal.ofText row.2.markPrice with _ | markPrice <;> rfl

/-- `get` reads the rows of the table. -/
theorem Stores.get_mapM {file : FundingRates} {table : RateTable} (h : Stores file table)
    (exchange symbol : String) (start stop : Int) :
    file.get exchange symbol start stop =
      (table.select exchange symbol (TimeUtil.toMs start) (TimeUtil.toMs stop)).mapM
        fun row => readCached symbol (row.1, some row.2) := by
  have hread : readRow symbol = readCached symbol ∘ Prod.map id decode := by
    funext row
    rw [readRow_eq, Function.comp_apply]
  rw [FundingRates.get, hread, ← List.mapM_map, h.select, List.mapM_map]
  rfl

/-- The key of a row that is selected. -/
theorem mem_keys_of_select {table : RateTable} {exchange symbol : String} {lo hi : Int}
    {row : Int × CachedRate} (h : row ∈ table.select exchange symbol lo hi) :
    (exchange, symbol, row.1) ∈ table.keys :=
  OrderedDict.mem_keys.mpr ⟨row.2, (RateTable.mem_select.mp h).1⟩

/-- **`get` does not raise**, and returns what the table has. -/
theorem Stores.get {file : FundingRates} {table : RateTable} (h : Stores file table)
    (hexact : ExactKeys table) (exchange symbol : String) (start stop : Int) :
    file.get exchange symbol start stop = some (events table exchange symbol start stop) := by
  rw [h.get_mapM]
  apply mapM_some
  intro row hrow
  rw [readCached, (hexact _ (mem_keys_of_select hrow)).fromMs]
  rfl

theorem mem_events {table : RateTable} {exchange symbol : String} {start stop : Int}
    {ev : FundingEvent} : ev ∈ events table exchange symbol start stop ↔
      ∃ ms row, table.get? (exchange, symbol, ms) = some row ∧ TimeUtil.toMs start ≤ ms ∧
        ms ≤ TimeUtil.toMs stop ∧ ev = eventAt symbol (ms, row) := by
  rw [events, List.mem_map]
  constructor
  · rintro ⟨⟨ms, row⟩, hmem, rfl⟩
    obtain ⟨hget, hlo, hhi⟩ := RateTable.mem_select.mp hmem
    exact ⟨ms, row, hget, hlo, hhi, rfl⟩
  · rintro ⟨ms, row, hget, hlo, hhi, rfl⟩
    exact ⟨(ms, row), RateTable.mem_select.mpr ⟨hget, hlo, hhi⟩, rfl⟩

/-- The events are in the order of their times. -/
theorem events_pairwise {table : RateTable} (hexact : ExactKeys table) (exchange symbol : String)
    (start stop : Int) :
    (events table exchange symbol start stop).Pairwise fun a b => a.timestamp < b.timestamp := by
  rw [events, List.pairwise_map]
  refine (RateTable.select_pairwise table exchange symbol _ _).imp_of_mem ?_
  intro a b ha hb hlt
  exact (hexact _ (mem_keys_of_select ha)).fromMs_lt (hexact _ (mem_keys_of_select hb)) hlt

/-! Where the floats are exact, this is the `RateTable`. -/

theorem Stores.put_exact {file : FundingRates} {table : RateTable} (h : Stores file table)
    (exchange symbol : String) {events : List FundingEvent} (clock : Nat → Int)
    (hexact : ∀ ev ∈ events, TimeUtil.toMs ev.timestamp = FundingTool.toMs ev.timestamp) :
    Stores (file.put exchange symbol events clock)
      (events.foldl (fun t ev => t.insertOrReplace exchange symbol ev) table) := by
  have hsame : events.foldl (record exchange symbol) table =
      events.foldl (fun t ev => t.insertOrReplace exchange symbol ev) table := by
    apply List.foldl_ext
    intro t ev hev
    rw [record, hexact ev hev]
    rfl
  rw [← hsame]
  exact h.put exchange symbol events clock

theorem Stores.get_exact {file : FundingRates} {table : RateTable} (h : Stores file table)
    (exchange symbol : String) {start stop : Int}
    (hstart : TimeUtil.toMs start = FundingTool.toMs start)
    (hstop : TimeUtil.toMs stop = FundingTool.toMs stop)
    (hkeys : ∀ key ∈ table.keys, TimeUtil.fromMs? key.2.2 = some (FundingTool.fromMs key.2.2)) :
    file.get exchange symbol start stop = some (table.get exchange symbol start stop) := by
  rw [h.get_mapM, hstart, hstop]
  apply mapM_some
  intro row hrow
  rw [readCached, hkeys _ (mem_keys_of_select hrow)]
  rfl

/-! ## 6. What `stats` reports -/

theorem mem_groups {keys : List FundingKey} {exchange symbol : String} :
    (exchange, symbol) ∈ groups keys ↔ ∃ ms, (exchange, symbol, ms) ∈ keys := by
  unfold groups
  rw [List.mem_insertionSort, List.mem_dedup, List.mem_map]
  constructor
  · rintro ⟨⟨exchange', symbol', ms⟩, hmem, heq⟩
    obtain ⟨rfl, rfl⟩ := Prod.mk.inj heq
    exact ⟨ms, hmem⟩
  · rintro ⟨ms, hmem⟩
    exact ⟨_, hmem, rfl⟩

theorem groups_pairwise (keys : List FundingKey) :
    (groups keys).Pairwise fun a b => toLex a < toLex b := by
  have : Std.Total (fun a b : String × String => toLex a ≤ toLex b) := ⟨fun _ _ => le_total _ _⟩
  have : IsTrans (String × String) fun a b => toLex a ≤ toLex b := ⟨fun _ _ _ => le_trans⟩
  have hle : (groups keys).Pairwise fun a b => toLex a ≤ toLex b :=
    List.pairwise_insertionSort _ _
  have hnodup : (groups keys).Nodup :=
    (List.perm_insertionSort _ _).nodup_iff.mpr (List.nodup_dedup _)
  exact (hle.and hnodup).imp fun h => lt_of_le_of_ne h.1 fun heq => h.2 (toLex.injective heq)

theorem mem_fundingTimes {keys : List FundingKey} {exchange symbol : String} {ms : Int} :
    ms ∈ fundingTimes keys exchange symbol ↔ (exchange, symbol, ms) ∈ keys := by
  unfold fundingTimes
  rw [List.mem_filterMap]
  constructor
  · rintro ⟨⟨exchange', symbol', ms'⟩, hmem, hsome⟩
    rw [Option.ite_none_right_eq_some, Option.some.injEq] at hsome
    obtain ⟨⟨rfl, rfl⟩, rfl⟩ := hsome
    exact hmem
  · intro hmem
    exact ⟨_, hmem, if_pos ⟨rfl, rfl⟩⟩

/-- Times lie between two of them. -/
theorem exists_range {times : List Int} (h : times ≠ []) :
    ∃ lo ∈ times, ∃ hi ∈ times, ∀ ms ∈ times, lo ≤ ms ∧ ms ≤ hi := by
  obtain ⟨lo, hlo⟩ := Option.ne_none_iff_exists'.mp (mt List.min?_eq_none_iff.mp h)
  obtain ⟨hi, hhi⟩ := Option.ne_none_iff_exists'.mp (mt List.max?_eq_none_iff.mp h)
  obtain ⟨hlomem, hlole⟩ := List.min?_eq_some_iff.mp hlo
  obtain ⟨himem, hhile⟩ := List.max?_eq_some_iff.mp hhi
  exact ⟨lo, hlomem, hi, himem, fun ms hms => ⟨hlole ms hms, hhile ms hms⟩⟩

/-- The times of a group are those of its rows, in a range that covers them. -/
theorem fundingTimes_perm (table : RateTable) {exchange symbol : String} {lo hi : Int}
    (hcovers : ∀ ms, (exchange, symbol, ms) ∈ table.keys → lo ≤ ms ∧ ms ≤ hi) :
    (fundingTimes table.keys exchange symbol).Perm
      ((table.select exchange symbol lo hi).map Prod.fst) := by
  have hsame : fundingTimes table.keys exchange symbol =
      (table.entries.filterMap (RateTable.matching exchange symbol lo hi)).map Prod.fst := by
    unfold fundingTimes OrderedDict.keys
    rw [List.map_filterMap, List.filterMap_map]
    apply List.filterMap_congr
    rintro ⟨⟨exchange', symbol', ms⟩, row⟩ hentry
    simp only [Function.comp, RateTable.matching]
    by_cases hgroup : exchange' = exchange ∧ symbol' = symbol
    · obtain ⟨rfl, rfl⟩ := hgroup
      have hrange := hcovers ms (List.mem_map.mpr ⟨_, hentry, rfl⟩)
      rw [if_pos ⟨rfl, rfl⟩, if_pos ⟨rfl, rfl, hrange⟩, Option.map_some]
    · rw [if_neg hgroup, if_neg fun h => hgroup ⟨h.1, h.2.1⟩, Option.map_none]
  rw [hsame]
  exact ((List.perm_insertionSort _ _).map Prod.fst).symm

/-- The least and the greatest of some numbers, and the ends of their list in order. -/
theorem extrema_of_ascending {times sorted : List Int} (hperm : times.Perm sorted)
    (hsorted : sorted.Pairwise (· < ·)) :
    times.min? = sorted.head? ∧ times.max? = sorted.getLast? := by
  constructor
  · cases sorted with
    | nil => rw [hperm.eq_nil]; rfl
    | cons first rest =>
        rw [List.head?_cons, List.min?_eq_some_iff]
        refine ⟨hperm.mem_iff.mpr List.mem_cons_self, ?_⟩
        intro ms hms
        rcases List.mem_cons.mp (hperm.mem_iff.mp hms) with rfl | hrest
        · exact le_refl _
        · exact le_of_lt ((List.pairwise_cons.mp hsorted).1 ms hrest)
  · rcases List.eq_nil_or_concat sorted with rfl | ⟨init, last, rfl⟩
    · rw [hperm.eq_nil]; rfl
    · rw [List.concat_eq_append] at hperm hsorted ⊢
      rw [List.getLast?_concat, List.max?_eq_some_iff]
      refine ⟨hperm.mem_iff.mpr (List.mem_append_right init List.mem_cons_self), ?_⟩
      intro ms hms
      rcases List.mem_append.mp (hperm.mem_iff.mp hms) with hinit | hlast
      · exact le_of_lt ((List.pairwise_append.mp hsorted).2.2 ms hinit last List.mem_cons_self)
      · exact le_of_eq (List.mem_singleton.mp hlast)

/-- The row of a group says how many events `get` returns over a range that covers the
    group, and the dates of the first and the last of them. -/
def AgreesWith (entry : CacheStats) (events : List FundingEvent) : Prop :=
  entry.rows = events.length ∧
    entry.first = events.head?.map (fun ev => isoDate ev.timestamp) ∧
    entry.last = events.getLast?.map fun ev => isoDate ev.timestamp

theorem dateOfColumn_exact {ms : Option Int} (h : ∀ n ∈ ms, Exact n) :
    dateOfColumn ms = some (ms.map fun n => isoDate (TimeUtil.fromMs n)) := by
  cases ms with
  | none => rfl
  | some n => rw [dateOfColumn, (h n rfl).fromMs]; rfl

/-- **`stats` does not raise**, and says of every group what `get` returns of it. -/
theorem statsOf_agrees {table : RateTable} (hexact : ExactKeys table) (exchange symbol : String) :
    ∃ entry, statsOf table.keys (exchange, symbol) = some entry ∧
      (entry.exchange = exchange ∧ entry.symbol = symbol) ∧
      ∀ start stop, (∀ ms, (exchange, symbol, ms) ∈ table.keys →
        TimeUtil.toMs start ≤ ms ∧ ms ≤ TimeUtil.toMs stop) →
        AgreesWith entry (events table exchange symbol start stop) := by
  have hcolumn : ∀ ms : Option Int, (∀ n ∈ ms, n ∈ fundingTimes table.keys exchange symbol) →
      dateOfColumn ms = some (ms.map fun n => isoDate (TimeUtil.fromMs n)) := by
    intro ms hms
    apply dateOfColumn_exact
    intro n hn
    exact hexact _ (mem_fundingTimes.mp (hms n hn))
  have hfirst := hcolumn (fundingTimes table.keys exchange symbol).min? fun n hn =>
    (List.min?_eq_some_iff.mp hn).1
  have hlast := hcolumn (fundingTimes table.keys exchange symbol).max? fun n hn =>
    (List.max?_eq_some_iff.mp hn).1
  refine ⟨_, by simp only [statsOf, hfirst, hlast]; rfl, ⟨rfl, rfl⟩, ?_⟩
  intro start stop hcovers
  have hperm := fundingTimes_perm table hcovers
  obtain ⟨hmin, hmax⟩ := extrema_of_ascending hperm
    (List.pairwise_map.mpr (RateTable.select_pairwise table exchange symbol _ _))
  refine ⟨?_, ?_, ?_⟩
  · have hlength := hperm.length_eq
    rw [List.length_map] at hlength
    rw [events, List.length_map]
    exact hlength
  · simp only [hmin, events, List.head?_map, Option.map_map]
    rfl
  · simp only [hmax, events, List.getLast?_map, Option.map_map]
    rfl

end FundingRates

end FundingTool
