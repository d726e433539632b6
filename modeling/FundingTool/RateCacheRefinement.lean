import FundingTool.LastWriter
import FundingTool.RateCacheFile
import Mathlib.Data.Finset.Card

/-!
# The cache file is a map in which the last writer wins

The events put and the clearings, in order, say what every key of the cache holds: the event
last put there and not cleared since.  `Refines` says what the operations answer in these
terms; `refines_run` that they do so after every sequence of operations on times that survive
`from_ms` and `to_ms`, as those of `TimeUtil.millis_exact` do.
-/

namespace FundingTool.RateCacheRefinement

open FundingTool.LastWriter FundingTool.FundingRates

/-! ## 1. Operations and what they write -/

/-- What modifies the cache. -/
inductive CacheOp
  | put (exchange symbol : String) (events : List FundingEvent) (clock : Nat → Int)
  | clear (symbol : Option String)

/-- An operation, on the file. -/
def CacheOp.run (file : FundingRates) : CacheOp → FundingRates
  | .put exchange symbol events clock => file.put exchange symbol events clock
  | .clear symbol => (file.clear symbol).1

/-- The file after the operations, from the empty one that `__init__` creates. -/
def run (ops : List CacheOp) : FundingRates := ops.foldl CacheOp.run .empty

/-- The symbols that `clear` deletes: all of them without a symbol, or with an empty one. -/
def clears : Option String → String → Bool
  | none, _ => true
  | some symbol, other => symbol = "" || other = symbol

/-- The events put one after the other, and the clearings. -/
def CacheOp.writes : CacheOp → List (Write FundingKey FundingEvent)
  | .put exchange symbol events _ =>
      events.map fun ev => .assign (exchange, symbol, TimeUtil.toMs ev.timestamp) ev
  | .clear symbol => [.erase fun key => clears symbol key.2.1]

def writesOf (ops : List CacheOp) : List (Write FundingKey FundingEvent) :=
  ops.flatMap CacheOp.writes

/-- The milliseconds of the events put are found again by `from_ms` and `to_ms`. -/
def CacheOp.Exact : CacheOp → Prop
  | .put _ _ events _ => ∀ ev ∈ events, FundingRates.Exact (TimeUtil.toMs ev.timestamp)
  | .clear _ => True

/-- An event as it is returned: with the time of its key and the symbol asked for. -/
def returned (symbol : String) (ms : Int) (ev : FundingEvent) : FundingEvent where
  timestamp := TimeUtil.fromMs ms
  symbol := symbol
  rate := ev.rate
  markPrice := ev.markPrice
  intervalHours := ev.intervalHours

/-- Some event put under the key has not been cleared. -/
def Live (writes : List (Write FundingKey FundingEvent)) (key : FundingKey) : Prop :=
  ∃ ev, IsLatest writes key ev

/-- The range has all that is live under the exchange and the symbol. -/
def Covers (writes : List (Write FundingKey FundingEvent)) (exchange symbol : String)
    (start stop : Int) : Prop :=
  ∀ ms, Live writes (exchange, symbol, ms) →
    TimeUtil.toMs start ≤ ms ∧ ms ≤ TimeUtil.toMs stop

/-- What the operations answer, in terms of what has been written. -/
structure Refines (file : FundingRates) (writes : List (Write FundingKey FundingEvent)) :
    Prop where
  /-- The latest event of every millisecond in the range, in ascending order. -/
  get : ∀ exchange symbol start stop, ∃ events,
    file.get exchange symbol start stop = some events ∧
    events.Pairwise (fun a b => a.timestamp < b.timestamp) ∧
    ∀ ev, ev ∈ events ↔ ∃ ms latest, IsLatest writes (exchange, symbol, ms) latest ∧
      TimeUtil.toMs start ≤ ms ∧ ms ≤ TimeUtil.toMs stop ∧ ev = returned symbol ms latest
  /-- Its time is the millisecond it is kept under. -/
  times : ∀ exchange symbol ms latest, IsLatest writes (exchange, symbol, ms) latest →
    TimeUtil.toMs (returned symbol ms latest).timestamp = ms
  /-- `clear` counts the live rows of the symbols it deletes. -/
  clear_count : ∀ symbol, ∃ keys : Finset FundingKey,
    (∀ key, key ∈ keys ↔ Live writes key ∧ clears symbol key.2.1 = true) ∧
    (file.clear symbol).2 = keys.card
  /-- It removes these rows, and no others. -/
  clear_get : ∀ symbol exchange other start stop,
    (file.clear symbol).1.get exchange other start stop =
      if clears symbol other then some [] else file.get exchange other start stop
  /-- `stats` has every live group once, in order, and agrees with `get` over any range that
      covers the group. -/
  stats : ∃ entries, file.stats = some entries ∧
    (entries.map fun entry => (entry.exchange, entry.symbol)).Pairwise
      (fun a b => toLex a < toLex b) ∧
    (∀ exchange symbol, (exchange, symbol) ∈ entries.map
      (fun entry => (entry.exchange, entry.symbol)) ↔ ∃ ms, Live writes (exchange, symbol, ms)) ∧
    ∀ entry ∈ entries, ∀ start stop, Covers writes entry.exchange entry.symbol start stop →
      ∃ events, file.get entry.exchange entry.symbol start stop = some events ∧
        AgreesWith entry events
  /-- There is such a range. -/
  covered : ∀ exchange symbol, ∃ start stop, Covers writes exchange symbol start stop

/-! ## 2. The rows after a sequence of operations -/

/-- An operation, on the rows. -/
def CacheOp.runTable (table : RateTable) : CacheOp → RateTable
  | .put exchange symbol events _ =>
      events.foldl (record exchange symbol) table
  | .clear symbol => table.clear symbol

theorem stores_run (ops : List CacheOp) {file : FundingRates} {table : RateTable}
    (h : Stores file table) :
    Stores (ops.foldl CacheOp.run file) (ops.foldl CacheOp.runTable table) := by
  induction ops generalizing file table with
  | nil => exact h
  | cons op rest ih =>
      apply ih
      cases op with
      | put exchange symbol events clock => exact h.put exchange symbol events clock
      | clear symbol => exact h.clear symbol

theorem get?_clear (table : RateTable) (symbol : Option String) (key : FundingKey) :
    (table.clear symbol).get? key = if clears symbol key.2.1 then none else table.get? key := by
  cases symbol with
  | none => rfl
  | some symbol =>
      by_cases hsymbol : symbol = ""
      · simp only [RateTable.clear, clears, hsymbol, decide_true, Bool.true_or, if_true]
        rfl
      · have hkept : table.clear (some symbol) =
            OrderedDict.filter table fun key _ => decide (key.2.1 ≠ symbol) := if_neg hsymbol
        rw [hkept, OrderedDict.get?_filter]
        by_cases hkey : key.2.1 = symbol
        · cases hget : table.get? key <;> simp [clears, hkey]
        · cases hget : table.get? key <;> simp [clears, hkey, hsymbol]

theorem get?_runTable (op : CacheOp) {table : RateTable} {key : FundingKey}
    {held : Option FundingEvent} (h : table.get? key = held.map cachedOf) :
    (op.runTable table).get? key = (op.writes.foldl (Write.result key) held).map cachedOf := by
  cases op with
  | put exchange symbol events clock =>
      simp only [CacheOp.runTable, CacheOp.writes]
      induction events generalizing table held with
      | nil => exact h
      | cons ev rest ih =>
          apply ih
          simp only [record, OrderedDict.get?_set, Write.result]
          by_cases hkey : key = (exchange, symbol, TimeUtil.toMs ev.timestamp)
          · rw [if_pos hkey, if_pos hkey.symm]
            rfl
          · rw [if_neg hkey, if_neg (Ne.symm hkey), h]
  | clear symbol =>
      simp only [CacheOp.runTable, CacheOp.writes, List.foldl_cons, List.foldl_nil, Write.result,
        get?_clear]
      by_cases hclears : clears symbol key.2.1 = true
      · rw [if_pos hclears, if_pos hclears, Option.map_none]
      · rw [if_neg hclears, if_neg hclears, h]

theorem writesOf_concat (ops : List CacheOp) (op : CacheOp) :
    writesOf (ops ++ [op]) = writesOf ops ++ op.writes := by
  unfold writesOf
  rw [List.flatMap_append, List.flatMap_singleton]

/-- **A key holds the columns of the event last written to it.** -/
theorem get?_run (ops : List CacheOp) (key : FundingKey) :
    (ops.foldl CacheOp.runTable .empty : RateTable).get? key =
      (latest (writesOf ops) key).map cachedOf := by
  induction ops using List.reverseRecOn with
  | nil => rfl
  | append_singleton ops op ih =>
      rw [List.foldl_append, writesOf_concat, latest_append]
      exact get?_runTable op ih

/-- The keys are times of events that were put. -/
theorem mem_keys_runTable {op : CacheOp} {table : RateTable} {key : FundingKey}
    (h : key ∈ (op.runTable table).keys) : key ∈ table.keys ∨
      ∃ exchange symbol events clock, op = .put exchange symbol events clock ∧
        ∃ ev ∈ events, key = (exchange, symbol, TimeUtil.toMs ev.timestamp) := by
  cases op with
  | put exchange symbol events clock =>
      have hput : ∀ (events : List FundingEvent) (table : RateTable),
          key ∈ (events.foldl (record exchange symbol) table).keys → key ∈ table.keys ∨
            ∃ ev ∈ events, key = (exchange, symbol, TimeUtil.toMs ev.timestamp) := by
        intro events
        induction events with
        | nil => exact fun table h => .inl h
        | cons ev rest ih =>
            intro table h
            rcases ih _ h with hmem | ⟨ev', hev', hkey⟩
            · rcases OrderedDict.mem_keys_assign.mp hmem with hkey | hmem
              · exact .inr ⟨ev, List.mem_cons_self, hkey⟩
              · exact .inl hmem
            · exact .inr ⟨ev', List.mem_cons_of_mem _ hev', hkey⟩
      exact (hput events table h).imp_right fun hev =>
        ⟨exchange, symbol, events, clock, rfl, hev⟩
  | clear symbol =>
      obtain ⟨row, hrow⟩ := OrderedDict.mem_keys.mp h
      rw [CacheOp.runTable, get?_clear] at hrow
      split at hrow
      · cases hrow
      · exact .inl (OrderedDict.mem_keys.mpr ⟨row, hrow⟩)

theorem exactKeys_run {ops : List CacheOp} (h : ∀ op ∈ ops, op.Exact) {table : RateTable}
    (htable : ExactKeys table) : ExactKeys (ops.foldl CacheOp.runTable table) := by
  induction ops generalizing table with
  | nil => exact htable
  | cons op rest ih =>
      obtain ⟨hop, hrest⟩ := List.forall_mem_cons.mp h
      apply ih hrest
      intro key hkey
      rcases mem_keys_runTable hkey with hold | ⟨exchange, symbol, events, clock, rfl, ev, hev, rfl⟩
      · exact htable key hold
      · exact hop ev hev

/-! ## 3. What the operations answer -/

/-- The file stores a table whose rows are what has been written, at times that are found
    again. -/
structure Tracks (file : FundingRates) (table : RateTable)
    (writes : List (Write FundingKey FundingEvent)) : Prop where
  stores : Stores file table
  exact : ExactKeys table
  rows : ∀ key, table.get? key = (latest writes key).map cachedOf

theorem tracks_run {ops : List CacheOp} (h : ∀ op ∈ ops, op.Exact) :
    Tracks (run ops) (ops.foldl CacheOp.runTable .empty) (writesOf ops) :=
  ⟨stores_run ops stores_empty, exactKeys_run h fun _ hkey => (by cases hkey), get?_run ops⟩

section Tracks

variable {file : FundingRates} {table : RateTable}
  {writes : List (Write FundingKey FundingEvent)}

theorem Tracks.row_iff (h : Tracks file table writes) {key : FundingKey} {row : CachedRate} :
    table.get? key = some row ↔ ∃ ev, IsLatest writes key ev ∧ cachedOf ev = row := by
  rw [h.rows, Option.map_eq_some_iff]
  exact exists_congr fun ev => and_congr_left fun _ => latest_eq_some_iff

theorem Tracks.live_iff (h : Tracks file table writes) {key : FundingKey} :
    Live writes key ↔ key ∈ table.keys := by
  rw [OrderedDict.mem_keys]
  constructor
  · rintro ⟨ev, hev⟩
    exact ⟨cachedOf ev, h.row_iff.mpr ⟨ev, hev, rfl⟩⟩
  · rintro ⟨row, hrow⟩
    obtain ⟨ev, hev, -⟩ := h.row_iff.mp hrow
    exact ⟨ev, hev⟩

theorem Tracks.exact_of_latest (h : Tracks file table writes) {key : FundingKey}
    {latest : FundingEvent} (hlatest : IsLatest writes key latest) :
    FundingRates.Exact key.2.2 :=
  h.exact key (h.live_iff.mp ⟨latest, hlatest⟩)

theorem Tracks.mem_events (h : Tracks file table writes) {exchange symbol : String}
    {start stop : Int} {ev : FundingEvent} : ev ∈ events table exchange symbol start stop ↔
      ∃ ms latest, IsLatest writes (exchange, symbol, ms) latest ∧
        TimeUtil.toMs start ≤ ms ∧ ms ≤ TimeUtil.toMs stop ∧ ev = returned symbol ms latest := by
  rw [FundingRates.mem_events]
  constructor
  · rintro ⟨ms, row, hrow, hlo, hhi, rfl⟩
    obtain ⟨latest, hlatest, rfl⟩ := h.row_iff.mp hrow
    exact ⟨ms, latest, hlatest, hlo, hhi, rfl⟩
  · rintro ⟨ms, latest, hlatest, hlo, hhi, rfl⟩
    exact ⟨ms, cachedOf latest, h.row_iff.mpr ⟨latest, hlatest, rfl⟩, hlo, hhi, rfl⟩

theorem clear_snd (file : FundingRates) (symbol : Option String) :
    (file.clear symbol).2 = (file.keys.filter fun key => clears symbol key.2.1).length := by
  cases symbol with
  | none => rfl
  | some symbol =>
      simp only [FundingRates.clear, clears]
      by_cases hsymbol : symbol = ""
      · simp only [hsymbol, decide_true, Bool.true_or]
        rfl
      · simp only [hsymbol, decide_false, Bool.false_or]
        rw [if_pos (show symbol ≠ "" from hsymbol)]
        rfl

theorem Tracks.clear_count (h : Tracks file table writes) (symbol : Option String) :
    ∃ keys : Finset FundingKey,
      (∀ key, key ∈ keys ↔ Live writes key ∧ clears symbol key.2.1 = true) ∧
      (file.clear symbol).2 = keys.card := by
  have hnodup : (file.keys.filter fun key => clears symbol key.2.1).Nodup := file.nodup.filter _
  refine ⟨(file.keys.filter fun key => clears symbol key.2.1).toFinset, ?_, ?_⟩
  · intro key
    rw [List.mem_toFinset, List.mem_filter, h.live_iff, h.stores.keys]
  · rw [List.toFinset_card_of_nodup hnodup, clear_snd]

/-- A symbol that is cleared has no rows, the others have theirs. -/
theorem select_clear (table : RateTable) (symbol : Option String) (exchange other : String)
    (lo hi : Int) : (table.clear symbol).select exchange other lo hi =
      if clears symbol other then [] else table.select exchange other lo hi := by
  by_cases hclears : clears symbol other = true
  · rw [if_pos hclears, List.eq_nil_iff_forall_not_mem]
    rintro ⟨ms, row⟩ hrow
    have hget := (RateTable.mem_select.mp hrow).1
    rw [get?_clear, if_pos hclears] at hget
    cases hget
  · rw [if_neg hclears]
    apply RateTable.select_congr
    intro ms row _ _
    rw [get?_clear, if_neg hclears]

theorem Tracks.clear_get (h : Tracks file table writes) (symbol : Option String)
    (exchange other : String) (start stop : Int) :
    (file.clear symbol).1.get exchange other start stop =
      if clears symbol other then some [] else file.get exchange other start stop := by
  rw [(h.stores.clear symbol).get_mapM, h.stores.get_mapM, select_clear]
  split <;> rfl

/-- **`stats`** reports on every group. -/
theorem Tracks.stats (h : Tracks file table writes) : ∃ entries, file.stats = some entries ∧
    entries.map (fun entry => (entry.exchange, entry.symbol)) = groups file.keys ∧
    ∀ entry ∈ entries, ∀ start stop, Covers writes entry.exchange entry.symbol start stop →
      AgreesWith entry (events table entry.exchange entry.symbol start stop) := by
  have hentry : ∀ group : String × String, ∃ entry, statsOf table.keys group = some entry ∧
      (entry.exchange, entry.symbol) = group ∧ ∀ start stop,
        Covers writes entry.exchange entry.symbol start stop →
          AgreesWith entry (events table entry.exchange entry.symbol start stop) := by
    rintro ⟨exchange, symbol⟩
    obtain ⟨entry, hstats, ⟨rfl, rfl⟩, hagrees⟩ := statsOf_agrees h.exact exchange symbol
    refine ⟨entry, hstats, rfl, ?_⟩
    intro start stop hcovers
    exact hagrees start stop fun ms hms => hcovers ms (h.live_iff.mpr hms)
  choose entryOf hstats hgroup hagrees using hentry
  refine ⟨(groups file.keys).map entryOf, ?_, ?_, ?_⟩
  · rw [FundingRates.stats, h.stores.keys]
    exact mapM_some fun group _ => hstats group
  · rw [List.map_map]
    exact List.map_id'' hgroup _
  · intro entry hmem
    obtain ⟨group, -, rfl⟩ := List.mem_map.mp hmem
    exact hagrees group

theorem Tracks.covered (h : Tracks file table writes) (exchange symbol : String) :
    ∃ start stop, Covers writes exchange symbol start stop := by
  by_cases hempty : fundingTimes table.keys exchange symbol = []
  · refine ⟨0, 0, ?_⟩
    intro ms hlive
    have hms := mem_fundingTimes.mpr (h.live_iff.mp hlive)
    rw [hempty] at hms
    cases hms
  · obtain ⟨lo, hlo, hi, hhi, hrange⟩ := exists_range hempty
    refine ⟨TimeUtil.fromMs lo, TimeUtil.fromMs hi, ?_⟩
    intro ms hlive
    rw [(h.exact _ (mem_fundingTimes.mp hlo)).toMs, (h.exact _ (mem_fundingTimes.mp hhi)).toMs]
    exact hrange ms (mem_fundingTimes.mpr (h.live_iff.mp hlive))

theorem Tracks.refines (h : Tracks file table writes) : Refines file writes where
  get exchange symbol start stop :=
    ⟨_, h.stores.get h.exact exchange symbol start stop, events_pairwise h.exact _ _ _ _,
      fun _ => h.mem_events⟩
  times _ _ _ _ hlatest := (h.exact_of_latest hlatest).toMs
  clear_count := h.clear_count
  clear_get := h.clear_get
  stats := by
    obtain ⟨entries, hstats, hgroups, hagrees⟩ := h.stats
    refine ⟨entries, hstats, ?_, ?_, ?_⟩
    · rw [hgroups]
      exact groups_pairwise _
    · intro exchange symbol
      rw [hgroups, mem_groups, h.stores.keys]
      exact exists_congr fun ms => h.live_iff.symm
    · intro entry hentry start stop hcovers
      exact ⟨_, h.stores.get h.exact _ _ _ _, hagrees entry hentry start stop hcovers⟩
  covered := h.covered

end Tracks

/-- **The cache refines a map in which the last writer wins**, after any operations on times that
    `from_ms` and `to_ms` find again. -/
theorem refines_run {ops : List CacheOp} (h : ∀ op ∈ ops, op.Exact) :
    Refines (run ops) (writesOf ops) :=
  (tracks_run h).refines

/-- A settlement of a perpetual, at 00:00 UTC on the first of January 2026. -/
def settlement : FundingEvent :=
  ⟨1767225600000000, "BTCUSDT", .finite false 1 (-4), .finite false 87500 0, 8⟩

theorem exact_settlement : FundingRates.Exact (TimeUtil.toMs settlement.timestamp) :=
  ⟨1767225600000000, by decide +kernel, by decide +kernel⟩

/-- The settlement is put twice in one batch, the second time at another price. -/
def putTwice : CacheOp := .put "binance_usdm" "BTCUSDT"
  [settlement, { settlement with markPrice := .finite false 87501 0 }] fun _ => 0

theorem refines_run_putTwice : Refines (run [putTwice]) (writesOf [putTwice]) ∧
    (run [putTwice]).get "binance_usdm" "BTCUSDT" 0 1767225600000000 =
      some [{ settlement with markPrice := .finite false 87501 0 }] := by
  refine ⟨refines_run (List.forall_mem_singleton.mpr ?_), by decide +kernel⟩
  intro ev hev
  have htime : ev.timestamp = settlement.timestamp := by
    rcases List.mem_cons.mp hev with rfl | hev
    · rfl
    · rw [List.mem_singleton.mp hev]
  rw [htime]
  exact exact_settlement

/-- **An empty symbol clears every symbol**: no row is that symbol's, but one is deleted. -/
theorem clear_empty_symbol :
    FundingRates.Exact (TimeUtil.toMs settlement.timestamp) ∧
    (run [.put "binance_usdm" "BTCUSDT" [settlement] fun _ => 0]).get "binance_usdm" "BTCUSDT"
        0 1767225600000000 = some [settlement] ∧
      (∀ key ∈ (run [.put "binance_usdm" "BTCUSDT" [settlement] fun _ => 0]).keys,
        key.2.1 ≠ "") ∧
      ((run [.put "binance_usdm" "BTCUSDT" [settlement] fun _ => 0]).clear (some "")).2 = 1 ∧
      (run [.put "binance_usdm" "BTCUSDT" [settlement] fun _ => 0, .clear (some "")]).get
        "binance_usdm" "BTCUSDT" 0 1767225600000000 = some [] :=
  ⟨exact_settlement, by decide +kernel⟩

end FundingTool.RateCacheRefinement
