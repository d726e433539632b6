import FundingTool.Models
import FundingTool.OrderedDict
import Mathlib.Data.List.Sort

/-!
# The funding-rate cache (`core/cache.py`)

The table `funding_rates` is a map from its primary key `(exchange, symbol,
funding_ms)` to the remaining columns, so `INSERT OR REPLACE` is assignment to a key.
The text columns hold the decimals they are printed from; the column `fetched_at` is
written and never read, and is left out.

`missing_ranges` is translated branch by branch.  `mem_missingRanges` then says which
gaps it reports in terms of the cached events of the window alone: the first one, the
last one, and the pairs with nothing cached in between.
-/

namespace FundingTool

/-! ## 1. The table -/

/-- Columns `rate`, `mark_price`, `interval_h` of a cached row. -/
@[ext]
structure CachedRate where
  rate : Decimal
  markPrice : Decimal
  intervalH : Int
deriving DecidableEq, Repr

abbrev RateTable := OrderedDict (String × String × Int) CachedRate

namespace RateTable

/-- `INSERT OR REPLACE` of one event. -/
def insertOrReplace (table : RateTable) (exchange symbol : String) (ev : FundingEvent) :
    RateTable :=
  table.set (exchange, symbol, toMs ev.timestamp) ⟨ev.rate, ev.markPrice, ev.intervalHours⟩

/-- The `WHERE` clause of `get` and the columns it selects. -/
def matching (exchange symbol : String) (lo hi : Int)
    (entry : (String × String × Int) × CachedRate) : Option (Int × CachedRate) :=
  if entry.1.1 = exchange ∧ entry.1.2.1 = symbol ∧ lo ≤ entry.1.2.2 ∧ entry.1.2.2 ≤ hi then
    some (entry.1.2.2, entry.2)
  else none

/-- The rows of one symbol with `lo ≤ funding_ms ≤ hi`, `ORDER BY funding_ms ASC`. -/
def select (table : RateTable) (exchange symbol : String) (lo hi : Int) :
    List (Int × CachedRate) :=
  (table.entries.filterMap (matching exchange symbol lo hi)).insertionSort
    fun a b => a.1 ≤ b.1

def toEvent (symbol : String) (row : Int × CachedRate) : FundingEvent where
  timestamp := fromMs row.1
  symbol := symbol
  rate := row.2.rate
  markPrice := row.2.markPrice
  intervalHours := row.2.intervalH

def get (table : RateTable) (exchange symbol : String) (start stop : Int) :
    List FundingEvent :=
  (table.select exchange symbol (toMs start) (toMs stop)).map (toEvent symbol)

/-- `DELETE FROM funding_rates`, restricted to one symbol when one is given. -/
def clear (table : RateTable) : Option String → RateTable
  | none => OrderedDict.empty
  | some symbol =>
      if symbol = "" then OrderedDict.empty
      else OrderedDict.filter table fun key _ => decide (key.2.1 ≠ symbol)

/-- `cur.rowcount` of the deletion. -/
def clearCount (table : RateTable) (symbol : Option String) : Nat :=
  table.entries.length - (table.clear symbol).entries.length

/-! ## 2. Gaps -/

/-- `(timedelta(hours=interval_hours) * 3) // 2` of an event. -/
def tolerance (ev : FundingEvent) : Int := (hours ev.intervalHours * 3) / 2

/-- The gap before the first cached event. -/
def leadingGap (start : Int) (first : FundingEvent) : List (Int × Int) :=
  if tolerance first < first.timestamp - start then [(start, first.timestamp)] else []

/-- The gap between two adjacent cached events. -/
def interiorGap (prev nxt : FundingEvent) : List (Int × Int) :=
  if tolerance prev < nxt.timestamp - prev.timestamp then
    [(prev.timestamp + hours prev.intervalHours, nxt.timestamp)]
  else []

/-- The gap after the last cached event. -/
def trailingGap (stop : Int) (last : FundingEvent) : List (Int × Int) :=
  if tolerance last < stop - last.timestamp then
    [(last.timestamp + hours last.intervalHours, stop)]
  else []

/-- The gaps `missing_ranges` computes from the cached events of the window. -/
def gapsOf (start stop : Int) : List FundingEvent → List (Int × Int)
  | [] => [(start, stop)]
  | first :: rest =>
      leadingGap start first ++
        ((first :: rest).zip rest).flatMap (fun pair => interiorGap pair.1 pair.2) ++
        trailingGap stop (rest.getLast?.getD first)

def missingRanges (table : RateTable) (exchange symbol : String) (start stop : Int) :
    List (Int × Int) :=
  gapsOf start stop (table.get exchange symbol start stop)

/-! ## 3. What `get` returns -/

theorem matching_eq_some_iff {exchange symbol : String} {lo hi ms : Int} {row : CachedRate}
    {entry : (String × String × Int) × CachedRate} :
    matching exchange symbol lo hi entry = some (ms, row) ↔
      entry = ((exchange, symbol, ms), row) ∧ lo ≤ ms ∧ ms ≤ hi := by
  obtain ⟨⟨exchange', symbol', ms'⟩, row'⟩ := entry
  simp only [matching, Option.ite_none_right_eq_some, Option.some.injEq, Prod.mk.injEq]
  constructor
  · rintro ⟨⟨rfl, rfl, hlo, hhi⟩, rfl, rfl⟩
    exact ⟨⟨⟨rfl, rfl, rfl⟩, rfl⟩, hlo, hhi⟩
  · rintro ⟨⟨⟨rfl, rfl, rfl⟩, rfl⟩, hlo, hhi⟩
    exact ⟨⟨rfl, rfl, hlo, hhi⟩, rfl, rfl⟩

theorem mem_select {table : RateTable} {exchange symbol : String} {lo hi ms : Int}
    {row : CachedRate} : (ms, row) ∈ table.select exchange symbol lo hi ↔
      table.get? (exchange, symbol, ms) = some row ∧ lo ≤ ms ∧ ms ≤ hi := by
  rw [OrderedDict.get?_eq_some_iff, select, List.mem_insertionSort, List.mem_filterMap]
  constructor
  · rintro ⟨entry, hmem, hsome⟩
    obtain ⟨rfl, hrange⟩ := matching_eq_some_iff.mp hsome
    exact ⟨hmem, hrange⟩
  · rintro ⟨hmem, hrange⟩
    exact ⟨_, hmem, matching_eq_some_iff.mpr ⟨rfl, hrange⟩⟩

theorem matching_nodup {entries : List ((String × String × Int) × CachedRate)}
    (hnodup : (entries.map Prod.fst).Nodup) (exchange symbol : String) (lo hi : Int) :
    ((entries.filterMap (matching exchange symbol lo hi)).map Prod.fst).Nodup := by
  induction entries with
  | nil => simp
  | cons entry rest ih =>
      simp only [List.map_cons, List.nodup_cons] at hnodup
      rw [List.filterMap_cons]
      rcases hentry : matching exchange symbol lo hi entry with _ | ⟨ms, row⟩
      · exact ih hnodup.2
      · obtain ⟨rfl, -⟩ := matching_eq_some_iff.mp hentry
        rw [List.map_cons, List.nodup_cons]
        refine ⟨?_, ih hnodup.2⟩
        intro hmem
        obtain ⟨⟨ms', row'⟩, hpair, rfl⟩ := List.mem_map.mp hmem
        obtain ⟨other, hother, hsome⟩ := List.mem_filterMap.mp hpair
        obtain ⟨rfl, -⟩ := matching_eq_some_iff.mp hsome
        exact hnodup.1 (List.mem_map.mpr ⟨_, hother, rfl⟩)

theorem select_nodup (table : RateTable) (exchange symbol : String) (lo hi : Int) :
    ((table.select exchange symbol lo hi).map Prod.fst).Nodup :=
  ((List.perm_insertionSort _ _).map Prod.fst).nodup_iff.mpr
    (matching_nodup table.nodup exchange symbol lo hi)

/-- `ORDER BY funding_ms ASC` over a primary key: strictly ascending. -/
theorem select_pairwise (table : RateTable) (exchange symbol : String) (lo hi : Int) :
    (table.select exchange symbol lo hi).Pairwise fun a b => a.1 < b.1 := by
  have hle : (table.select exchange symbol lo hi).Pairwise fun a b => a.1 ≤ b.1 := by
    have : Std.Total (fun a b : Int × CachedRate => a.1 ≤ b.1) := ⟨fun a b => le_total _ _⟩
    have : IsTrans (Int × CachedRate) fun a b => a.1 ≤ b.1 := ⟨fun _ _ _ => le_trans⟩
    exact List.pairwise_insertionSort _ _
  have hne := List.pairwise_map.mp (select_nodup table exchange symbol lo hi)
  exact (hle.and hne).imp fun h => lt_of_le_of_ne h.1 h.2

theorem mem_get {table : RateTable} {exchange symbol : String} {start stop : Int}
    {ev : FundingEvent} : ev ∈ table.get exchange symbol start stop ↔
      ∃ ms row, table.get? (exchange, symbol, ms) = some row ∧ toMs start ≤ ms ∧
        ms ≤ toMs stop ∧ ev = toEvent symbol (ms, row) := by
  rw [get, List.mem_map]
  constructor
  · rintro ⟨⟨ms, row⟩, hmem, rfl⟩
    obtain ⟨hget, hlo, hhi⟩ := mem_select.mp hmem
    exact ⟨ms, row, hget, hlo, hhi, rfl⟩
  · rintro ⟨ms, row, hget, hlo, hhi, rfl⟩
    exact ⟨(ms, row), mem_select.mpr ⟨hget, hlo, hhi⟩, rfl⟩

theorem get_pairwise (table : RateTable) (exchange symbol : String) (start stop : Int) :
    (table.get exchange symbol start stop).Pairwise fun a b => a.timestamp < b.timestamp := by
  rw [get, List.pairwise_map]
  exact (select_pairwise table exchange symbol _ _).imp fun h => fromMs_lt_fromMs.mpr h

theorem select_congr {table table' : RateTable} {exchange symbol : String} {lo hi : Int}
    (h : ∀ ms row, lo ≤ ms → ms ≤ hi → (table.get? (exchange, symbol, ms) = some row ↔
      table'.get? (exchange, symbol, ms) = some row)) :
    table.select exchange symbol lo hi = table'.select exchange symbol lo hi := by
  have hsame : ∀ r, r ∈ table.select exchange symbol lo hi ↔
      r ∈ table'.select exchange symbol lo hi := by
    rintro ⟨ms, row⟩
    rw [mem_select, mem_select]
    constructor
    · rintro ⟨hget, hlo, hhi⟩
      exact ⟨(h ms row hlo hhi).mp hget, hlo, hhi⟩
    · rintro ⟨hget, hlo, hhi⟩
      exact ⟨(h ms row hlo hhi).mpr hget, hlo, hhi⟩
  have hperm := (List.perm_ext_iff_of_nodup
    (List.Nodup.of_map _ (select_nodup table exchange symbol _ _))
    (List.Nodup.of_map _ (select_nodup table' exchange symbol _ _))).mpr hsame
  exact hperm.eq_of_pairwise (fun a b _ _ hab hba => absurd hab (lt_asymm hba))
    (select_pairwise table exchange symbol _ _) (select_pairwise table' exchange symbol _ _)

theorem get_congr {table table' : RateTable} {exchange symbol : String} {start stop : Int}
    (h : ∀ ms row, toMs start ≤ ms → ms ≤ toMs stop →
      (table.get? (exchange, symbol, ms) = some row ↔
        table'.get? (exchange, symbol, ms) = some row)) :
    table.get exchange symbol start stop = table'.get exchange symbol start stop := by
  rw [get, get, select_congr h]

/-! ## 4. Which gaps are reported -/

/-- Adjacent members of a list in strict order: nothing of the list lies between them. -/
theorem mem_zip_tail {events : List FundingEvent} {first : FundingEvent}
    (h : (first :: events).Pairwise fun a b => a.timestamp < b.timestamp)
    {prev nxt : FundingEvent} : (prev, nxt) ∈ (first :: events).zip events ↔
      prev ∈ first :: events ∧ nxt ∈ first :: events ∧ prev.timestamp < nxt.timestamp ∧
        ∀ ev ∈ first :: events, ev.timestamp ≤ prev.timestamp ∨ nxt.timestamp ≤ ev.timestamp := by
  induction events generalizing first with
  | nil =>
      simp only [List.zip_nil_right, List.not_mem_nil, List.mem_singleton, false_iff, not_and]
      rintro rfl rfl hlt
      exact absurd hlt (lt_irrefl _)
  | cons second rest ih =>
      obtain ⟨hfirst, htail⟩ := List.pairwise_cons.mp h
      have hsecond := (List.pairwise_cons.mp htail).1
      rw [List.zip_cons_cons, List.mem_cons, ih htail]
      constructor
      · rintro (heq | ⟨hprev, hnxt, hlt, hbetween⟩)
        · -- the first pair
          simp only [Prod.mk.injEq] at heq
          obtain ⟨rfl, rfl⟩ := heq
          refine ⟨List.mem_cons_self, List.mem_cons_of_mem _ List.mem_cons_self,
            hfirst _ List.mem_cons_self, ?_⟩
          intro ev hev
          rcases List.mem_cons.mp hev with rfl | hev
          · exact Or.inl (le_refl _)
          · rcases List.mem_cons.mp hev with rfl | hev
            · exact Or.inr (le_refl _)
            · exact Or.inr (le_of_lt (hsecond ev hev))
        · refine ⟨List.mem_cons_of_mem _ hprev, List.mem_cons_of_mem _ hnxt, hlt, ?_⟩
          intro ev hev
          rcases List.mem_cons.mp hev with rfl | hev
          · exact Or.inl (le_of_lt (hfirst prev hprev))
          · exact hbetween ev hev
      · rintro ⟨hprev, hnxt, hlt, hbetween⟩
        have hnxt' : nxt ∈ second :: rest := by
          rcases List.mem_cons.mp hnxt with rfl | hmem
          · rcases List.mem_cons.mp hprev with rfl | hmem'
            · exact absurd hlt (lt_irrefl _)
            · exact absurd hlt (lt_asymm (hfirst prev hmem'))
          · exact hmem
        rcases List.mem_cons.mp hprev with rfl | hprev'
        · -- `second` cannot lie strictly between
          left
          rcases hbetween second (List.mem_cons_of_mem _ List.mem_cons_self) with hle | hle
          · exact absurd (hfirst second List.mem_cons_self) (not_lt_of_ge hle)
          · rcases List.mem_cons.mp hnxt' with rfl | hmem
            · rfl
            · exact absurd (hsecond nxt hmem) (not_lt_of_ge hle)
        · right
          exact ⟨hprev', hnxt', hlt, fun ev hev => hbetween ev (List.mem_cons_of_mem _ hev)⟩

/-- `ev` is the earliest cached event. -/
def IsFirst (cached : List FundingEvent) (ev : FundingEvent) : Prop :=
  ev ∈ cached ∧ ∀ other ∈ cached, ev.timestamp ≤ other.timestamp

/-- `ev` is the latest cached event. -/
def IsLast (cached : List FundingEvent) (ev : FundingEvent) : Prop :=
  ev ∈ cached ∧ ∀ other ∈ cached, other.timestamp ≤ ev.timestamp

/-- `prev` and `nxt` are cached and nothing cached lies between them. -/
def Adjacent (cached : List FundingEvent) (prev nxt : FundingEvent) : Prop :=
  prev ∈ cached ∧ nxt ∈ cached ∧ prev.timestamp < nxt.timestamp ∧
    ∀ ev ∈ cached, ev.timestamp ≤ prev.timestamp ∨ nxt.timestamp ≤ ev.timestamp

instance (cached : List FundingEvent) (ev : FundingEvent) : Decidable (IsFirst cached ev) :=
  inferInstanceAs (Decidable (_ ∧ _))

instance (cached : List FundingEvent) (ev : FundingEvent) : Decidable (IsLast cached ev) :=
  inferInstanceAs (Decidable (_ ∧ _))

instance (cached : List FundingEvent) (prev nxt : FundingEvent) :
    Decidable (Adjacent cached prev nxt) :=
  inferInstanceAs (Decidable (_ ∧ _ ∧ _ ∧ _))

theorem isFirst_cons_iff {first ev : FundingEvent} {rest : List FundingEvent}
    (h : (first :: rest).Pairwise fun a b => a.timestamp < b.timestamp) :
    IsFirst (first :: rest) ev ↔ ev = first := by
  obtain ⟨hfirst, -⟩ := List.pairwise_cons.mp h
  constructor
  · rintro ⟨hmem, hmin⟩
    rcases List.mem_cons.mp hmem with rfl | hmem
    · rfl
    · exact absurd (hfirst ev hmem) (not_lt_of_ge (hmin first List.mem_cons_self))
  · rintro rfl
    refine ⟨List.mem_cons_self, ?_⟩
    intro other hother
    rcases List.mem_cons.mp hother with rfl | hother
    · exact le_refl _
    · exact le_of_lt (hfirst other hother)

theorem isLast_cons_iff {first ev : FundingEvent} {rest : List FundingEvent}
    (h : (first :: rest).Pairwise fun a b => a.timestamp < b.timestamp) :
    IsLast (first :: rest) ev ↔ ev = rest.getLast?.getD first := by
  induction rest generalizing first with
  | nil =>
      simp only [IsLast, List.mem_singleton, List.getLast?_nil, Option.getD_none]
      constructor
      · exact fun hlast => hlast.1
      · rintro rfl
        exact ⟨rfl, by rintro other rfl; exact le_refl _⟩
  | cons second rest ih =>
      obtain ⟨hfirst, htail⟩ := List.pairwise_cons.mp h
      have hlast : (second :: rest).getLast?.getD first = rest.getLast?.getD second := by
        rw [List.getLast?_cons, Option.getD_some]
      rw [hlast, ← ih htail]
      constructor
      · rintro ⟨hmem, hmax⟩
        rcases List.mem_cons.mp hmem with rfl | hmem
        · exact absurd (hfirst second List.mem_cons_self)
            (not_lt_of_ge (hmax second (List.mem_cons_of_mem _ List.mem_cons_self)))
        · exact ⟨hmem, fun other hother => hmax other (List.mem_cons_of_mem _ hother)⟩
      · rintro ⟨hmem, hmax⟩
        refine ⟨List.mem_cons_of_mem _ hmem, ?_⟩
        intro other hother
        rcases List.mem_cons.mp hother with rfl | hother
        · exact le_of_lt (hfirst ev hmem)
        · exact hmax other hother

/-- **Which gaps `missing_ranges` reports**, in terms of the cached events of the
    window. -/
theorem mem_gapsOf {start stop : Int} {cached : List FundingEvent}
    (h : cached.Pairwise fun a b => a.timestamp < b.timestamp) {gap : Int × Int} :
    gap ∈ gapsOf start stop cached ↔
      (cached = [] ∧ gap = (start, stop)) ∨
      (∃ first, IsFirst cached first ∧ tolerance first < first.timestamp - start ∧
        gap = (start, first.timestamp)) ∨
      (∃ prev nxt, Adjacent cached prev nxt ∧
        tolerance prev < nxt.timestamp - prev.timestamp ∧
        gap = (prev.timestamp + hours prev.intervalHours, nxt.timestamp)) ∨
      (∃ last, IsLast cached last ∧ tolerance last < stop - last.timestamp ∧
        gap = (last.timestamp + hours last.intervalHours, stop)) := by
  cases cached with
  | nil => simp [gapsOf, IsFirst, IsLast, Adjacent]
  | cons first rest =>
      simp only [gapsOf, List.mem_append, List.mem_flatMap, or_assoc, reduceCtorEq, false_and,
        false_or]
      refine or_congr ?_ (or_congr ?_ ?_)
      · -- leading
        simp only [isFirst_cons_iff h, exists_eq_left, leadingGap]
        by_cases htol : tolerance first < first.timestamp - start <;> simp [htol]
      · -- interior
        constructor
        · rintro ⟨⟨prev, nxt⟩, hpair, hgap⟩
          rw [interiorGap] at hgap
          by_cases htol : tolerance prev < nxt.timestamp - prev.timestamp
          · rw [if_pos htol, List.mem_singleton] at hgap
            exact ⟨prev, nxt, (mem_zip_tail h).mp hpair, htol, hgap⟩
          · rw [if_neg htol] at hgap; cases hgap
        · rintro ⟨prev, nxt, hadj, htol, rfl⟩
          refine ⟨(prev, nxt), (mem_zip_tail h).mpr hadj, ?_⟩
          rw [interiorGap, if_pos htol, List.mem_singleton]
      · -- trailing
        simp only [isLast_cons_iff h, exists_eq_left, trailingGap]
        by_cases htol : tolerance (rest.getLast?.getD first) <
            stop - (rest.getLast?.getD first).timestamp <;> simp [htol]

theorem eq_of_timestamp {cached : List FundingEvent}
    (h : cached.Pairwise fun a b => a.timestamp < b.timestamp) {ev ev' : FundingEvent}
    (hev : ev ∈ cached) (hev' : ev' ∈ cached) (heq : ev.timestamp = ev'.timestamp) :
    ev = ev' := by
  have hnodup : (cached.map FundingEvent.timestamp).Nodup :=
    List.pairwise_map.mpr (h.imp fun hlt => ne_of_lt hlt)
  exact List.inj_on_of_nodup_map hnodup hev hev' heq

/-- Where a time that is not cached lies: before the first event, between two adjacent
    ones, or after the last. -/
theorem locate {cached : List FundingEvent}
    (h : cached.Pairwise fun a b => a.timestamp < b.timestamp) (hne : cached ≠ []) {t : Int}
    (ht : ∀ ev ∈ cached, ev.timestamp ≠ t) :
    (∃ first, IsFirst cached first ∧ t < first.timestamp) ∨
      (∃ prev nxt, Adjacent cached prev nxt ∧ prev.timestamp < t ∧ t < nxt.timestamp) ∨
      (∃ last, IsLast cached last ∧ last.timestamp < t) := by
  induction cached with
  | nil => exact absurd rfl hne
  | cons first rest ih =>
      obtain ⟨hfirst, hrest⟩ := List.pairwise_cons.mp h
      have htail : ∀ ev ∈ rest, ev.timestamp ≠ t := fun ev hev => ht ev (List.mem_cons_of_mem _ hev)
      by_cases hlt : t < first.timestamp
      · exact Or.inl ⟨first, (isFirst_cons_iff h).mpr rfl, hlt⟩
      · have hgt : first.timestamp < t := by
          have := ht first List.mem_cons_self
          omega
        by_cases hnil : rest = []
        · subst hnil
          exact Or.inr (Or.inr ⟨first, (isLast_cons_iff h).mpr rfl, hgt⟩)
        · rcases ih hrest hnil htail with ⟨second, hsecond, hlt'⟩ | ⟨prev, nxt, hadj, hbetween⟩ |
            ⟨last, hlast, hlt'⟩
          · refine Or.inr (Or.inl ⟨first, second, ⟨List.mem_cons_self,
              List.mem_cons_of_mem _ hsecond.1, by omega, ?_⟩, hgt, hlt'⟩)
            intro ev hev
            rcases List.mem_cons.mp hev with rfl | hev
            · exact Or.inl (le_refl _)
            · exact Or.inr (hsecond.2 ev hev)
          · refine Or.inr (Or.inl ⟨prev, nxt, ⟨List.mem_cons_of_mem _ hadj.1,
              List.mem_cons_of_mem _ hadj.2.1, hadj.2.2.1, ?_⟩, hbetween⟩)
            intro ev hev
            rcases List.mem_cons.mp hev with rfl | hev
            · exact Or.inl (le_of_lt (hfirst prev hadj.1))
            · exact hadj.2.2.2 ev hev
          · refine Or.inr (Or.inr ⟨last, ⟨List.mem_cons_of_mem _ hlast.1, ?_⟩, hlt'⟩)
            intro ev hev
            rcases List.mem_cons.mp hev with rfl | hev
            · exact le_of_lt (hfirst last hlast.1)
            · exact hlast.2 ev hev

end RateTable

end FundingTool
