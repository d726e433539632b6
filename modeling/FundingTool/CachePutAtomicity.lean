import FundingTool.RateCache
import FundingTool.Sqlite3

/-!
# A batch of rows that fails half-way

`SqliteFundingRateCache.put` inserts its rows inside `with conn`, on a connection that
`_conn` has opened with `isolation_level=None`.  No transaction is ever open, so the block
has nothing to roll back, and every row is stored as it is inserted: a batch that fails at a
row leaves those before it.

The table here has the column `fetched_at` too, which the rest of the cache does not read.
-/

namespace FundingTool.CachePutAtomicity

open FundingTool.Sqlite3

/-! ## 1. The table with all its columns -/

structure StoredRate where
  cached : CachedRate
  fetchedAt : Int
deriving DecidableEq, Repr

abbrev StoredTable := OrderedDict (String × String × Int) StoredRate

abbrev StoredRow := (String × String × Int) × StoredRate

/-- `INSERT OR REPLACE` of one row. -/
def insertRow (row : StoredRow) (table : StoredTable) : StoredTable := table.set row.1 row.2

/-- The rows of a batch; the clock is read for each of them. -/
def putRows (exchange symbol : String) : (Nat → Int) → List FundingEvent → List StoredRow
  | _, [] => []
  | clock, ev :: rest =>
      ((exchange, symbol, toMs ev.timestamp),
        ⟨⟨ev.rate, ev.markPrice, ev.intervalHours⟩, toMs (clock 0)⟩) ::
        putRows exchange symbol (fun n => clock (n + 1)) rest

/-- `put` with the connection `_conn` opens at this isolation level. -/
def putWith (isolationLevel : Option String) (exchange symbol : String)
    (events : List FundingEvent) (clock : Nat → Int) (fate : Nat → Fate) (table : StoredTable) :
    StoredTable :=
  if events.isEmpty then table
  else withExecutemany isolationLevel insertRow (putRows exchange symbol clock events) fate table

/-- `put`: the table afterwards. -/
def put (exchange symbol : String) (events : List FundingEvent) (clock : Nat → Int)
    (fate : Nat → Fate) (table : StoredTable) : StoredTable :=
  putWith none exchange symbol events clock fate table

/-- Without `fetched_at`, all rows stored are the events stored one after the other. -/
theorem inserted_cached (exchange symbol : String) (events : List FundingEvent)
    (clock : Nat → Int) (table : StoredTable) :
    OrderedDict.map (inserted insertRow (putRows exchange symbol clock events) table)
        StoredRate.cached =
      events.foldl (fun t ev => RateTable.insertOrReplace t exchange symbol ev)
        (OrderedDict.map table StoredRate.cached) := by
  induction events generalizing clock table with
  | nil => rfl
  | cons ev rest ih =>
      simp only [putRows, inserted, List.foldl_cons, ih, insertRow, OrderedDict.map_set]
      rfl

/-! ## 2. Rows by key -/

/-- The last row of this key. -/
def lastOf (key : String × String × Int) : List StoredRow → Option StoredRate
  | [] => none
  | row :: rest => (lastOf key rest).or (if row.1 = key then some row.2 else none)

theorem get?_inserted (rows : List StoredRow) (table : StoredTable)
    (key : String × String × Int) :
    (inserted insertRow rows table).get? key = (lastOf key rows).or (table.get? key) := by
  induction rows generalizing table with
  | nil => rfl
  | cons row rest ih =>
      simp only [inserted, lastOf, ih, insertRow, OrderedDict.get?_set, Option.or_assoc]
      by_cases hkey : row.1 = key
      · rw [if_pos hkey, if_pos hkey.symm, Option.some_or]
      · rw [if_neg hkey, if_neg (Ne.symm hkey), Option.none_or]

/-- The same rows, in whatever order they are kept. -/
def SameRows (table table' : StoredTable) : Prop := ∀ key, table.get? key = table'.get? key

/-- What the table has for a key is what these rows would leave there. -/
def AlreadyThere (present : String × String × Int → Option StoredRate) (rows : List StoredRow) :
    Prop :=
  ∀ key row, lastOf key rows = some row → present key = some row

theorem alreadyThere_iff (present : String × String × Int → Option StoredRate)
    (rows : List StoredRow) :
    AlreadyThere present rows ↔ ∀ key, (lastOf key rows).or (present key) = present key := by
  constructor
  · intro hthere key
    rcases hlast : lastOf key rows with _ | row
    · rfl
    · rw [hthere key row hlast, Option.some_or]
  · intro hsame key row hlast
    rw [← hsame key, hlast, Option.some_or]

theorem sameRows_inserted_iff (rows : List StoredRow) (table : StoredTable) :
    SameRows (inserted insertRow rows table) table ↔ AlreadyThere table.get? rows := by
  unfold SameRows
  simp only [get?_inserted, alreadyThere_iff]

/-! ## 3. All or nothing -/

/-- The table is as before, or has the whole batch. -/
def AllOrNothing (rows : List StoredRow) (table table' : StoredTable) : Prop :=
  SameRows table' table ∨ SameRows table' (inserted insertRow rows table)

/-- The rows before the first insertion that fails. -/
def rowsDone (fate : Nat → Fate) (rows : List StoredRow) : List StoredRow :=
  rows.take (performed fate rows.length)

/-- The rows from the first insertion that fails on. -/
def rowsLeft (fate : Nat → Fate) (rows : List StoredRow) : List StoredRow :=
  rows.drop (performed fate rows.length)

theorem put_stored (exchange symbol : String) (events : List FundingEvent) (clock : Nat → Int)
    (fate : Nat → Fate) (table : StoredTable) :
    put exchange symbol events clock fate table =
      inserted insertRow (rowsDone fate (putRows exchange symbol clock events)) table := by
  unfold put putWith
  cases events with
  | nil => rfl
  | cons ev rest =>
      rw [if_neg (by simp)]
      exact withExecutemany_autocommit _ _ _ _

/-- **When `put` is all-or-nothing**: exactly if the rows inserted before the first failure
    were in the table already, or the rows left are there with them.  The keys are those the
    floats of the source give from November 2004 to January 2038 (`TimeUtil`). -/
theorem put_allOrNothing_iff (exchange symbol : String) (events : List FundingEvent)
    (clock : Nat → Int) (fate : Nat → Fate) (table : StoredTable) :
    AllOrNothing (putRows exchange symbol clock events) table
        (put exchange symbol events clock fate table) ↔
      AlreadyThere table.get? (rowsDone fate (putRows exchange symbol clock events)) ∨
      AlreadyThere (fun key => (lastOf key (rowsDone fate
          (putRows exchange symbol clock events))).or (table.get? key))
        (rowsLeft fate (putRows exchange symbol clock events)) := by
  rw [put_stored]
  apply or_congr (sameRows_inserted_iff _ _)
  have hwhole : inserted insertRow (putRows exchange symbol clock events) table =
      inserted insertRow (rowsLeft fate (putRows exchange symbol clock events))
        (inserted insertRow (rowsDone fate (putRows exchange symbol clock events)) table) := by
    rw [← inserted_append, rowsDone, rowsLeft, List.take_append_drop]
  rw [hwhole, alreadyThere_iff]
  unfold SameRows
  apply forall_congr'
  intro key
  rw [get?_inserted (rowsLeft fate _), get?_inserted (rowsDone fate _)]
  exact eq_comm

/-- The same batch on a connection that opens a transaction. -/
theorem putWith_allOrNothing (level exchange symbol : String) (events : List FundingEvent)
    (clock : Nat → Int) (fate : Nat → Fate) (table : StoredTable) :
    AllOrNothing (putRows exchange symbol clock events) table
      (putWith (some level) exchange symbol events clock fate table) := by
  unfold putWith
  cases events with
  | nil => exact Or.inl fun _ => rfl
  | cons ev rest =>
      rw [if_neg (by simp)]
      rcases withExecutemany_transaction level insertRow
        (putRows exchange symbol clock (ev :: rest)) fate table with hnone | hall
      · rw [hnone]
        exact Or.inl fun _ => rfl
      · rw [hall]
        exact Or.inr fun _ => rfl

def settlement (ms : Int) : FundingEvent :=
  ⟨fromMs ms, "BTCUSDT", .finite false 1 (-4), .finite false 65000 0, 8⟩

/-- The second insertion raises, as it does when another process has locked the database. -/
def secondFails (n : Nat) : Fate := if n = 1 then .raises else .done

/-- **A batch is stored in part**: of two settlements the first. -/
theorem put_stores_prefix :
    ¬ AllOrNothing (putRows "binance_usdm" "BTCUSDT" (fun _ => 0)
        [settlement 1767225600000, settlement 1767254400000]) .empty
      (put "binance_usdm" "BTCUSDT" [settlement 1767225600000, settlement 1767254400000]
        (fun _ => 0) secondFails .empty) := by
  rintro (hbefore | hwhole)
  · have hfirst := hbefore ("binance_usdm", "BTCUSDT", 1767225600000)
    revert hfirst
    decide +kernel
  · have hsecond := hwhole ("binance_usdm", "BTCUSDT", 1767254400000)
    revert hsecond
    decide +kernel

end FundingTool.CachePutAtomicity
