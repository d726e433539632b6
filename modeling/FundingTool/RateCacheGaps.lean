import FundingTool.RateCache

/-!
# The shape of the gaps

What `missing_ranges` reports are proper intervals of the window, in order, apart from
each other and free of cached events; and what it does not report is at most one and a
half intervals away from a cached event (`missingRanges_wellFormed`).
-/

namespace FundingTool.RateTable

/-! ## 1. Tolerances -/

/-- Half of a number of hours is a whole number of microseconds. -/
theorem two_mul_tolerance (ev : FundingEvent) :
    2 * tolerance ev = 3 * hours ev.intervalHours := by
  simp only [tolerance, hours]
  omega

theorem hours_lt_tolerance {ev : FundingEvent} (h : 0 < ev.intervalHours) :
    hours ev.intervalHours < tolerance ev := by
  have := two_mul_tolerance ev
  simp only [hours] at *
  omega

theorem hours_pos {h : Int} (hpos : 0 < h) : 0 < hours h := by
  simp only [hours]
  omega

/-! ## 2. Each gap -/

section Window

variable {start stop : Int} {cached : List FundingEvent}
  (hsorted : cached.Pairwise fun a b => a.timestamp < b.timestamp)
  (hinterval : ∀ ev ∈ cached, 0 < ev.intervalHours)
  (hwindow : ∀ ev ∈ cached, start ≤ ev.timestamp ∧ ev.timestamp ≤ stop)

include hsorted hinterval hwindow

/-- A gap is a proper interval of the window, and no cached event lies inside. -/
theorem gapsOf_proper (hlt : start < stop) {gap : Int × Int}
    (hgap : gap ∈ gapsOf start stop cached) :
    start ≤ gap.1 ∧ gap.1 < gap.2 ∧ gap.2 ≤ stop ∧
      ∀ ev ∈ cached, ev.timestamp ≤ gap.1 ∨ gap.2 ≤ ev.timestamp := by
  rcases (mem_gapsOf hsorted).mp hgap with ⟨rfl, rfl⟩ | ⟨first, hfirst, htol, rfl⟩ |
    ⟨prev, nxt, hadj, htol, rfl⟩ | ⟨last, hlast, htol, rfl⟩
  · exact ⟨le_refl _, hlt, le_refl _, nofun⟩
  · have hhours := hours_lt_tolerance (hinterval first hfirst.1)
    have hpos := hours_pos (hinterval first hfirst.1)
    refine ⟨le_refl _, by omega, (hwindow first hfirst.1).2, ?_⟩
    exact fun ev hev => Or.inr (hfirst.2 ev hev)
  · have hhours := hours_lt_tolerance (hinterval prev hadj.1)
    have hpos := hours_pos (hinterval prev hadj.1)
    have hstart := (hwindow prev hadj.1).1
    refine ⟨by omega, by omega, (hwindow nxt hadj.2.1).2, ?_⟩
    intro ev hev
    rcases hadj.2.2.2 ev hev with hle | hle
    · exact Or.inl (by omega)
    · exact Or.inr hle
  · have hhours := hours_lt_tolerance (hinterval last hlast.1)
    have hpos := hours_pos (hinterval last hlast.1)
    have hstart := (hwindow last hlast.1).1
    refine ⟨by omega, by omega, le_refl _, ?_⟩
    intro ev hev
    have := hlast.2 ev hev
    exact Or.inl (by omega)

omit hwindow in
/-- **Outside the gaps a cached event is near**: the latest one before, or the first one of
    the window. -/
theorem near_of_not_mem_gap {t : Int} (hstart : start ≤ t) (hstop : t ≤ stop)
    (hout : ∀ gap ∈ gapsOf start stop cached, ¬ (gap.1 ≤ t ∧ t ≤ gap.2)) :
    (∃ ev ∈ cached, ev.timestamp ≤ t ∧
        (∀ other ∈ cached, other.timestamp ≤ t → other.timestamp ≤ ev.timestamp) ∧
        2 * (t - ev.timestamp) ≤ 3 * hours ev.intervalHours) ∨
      ∃ ev, IsFirst cached ev ∧ t < ev.timestamp ∧
        2 * (ev.timestamp - t) ≤ 3 * hours ev.intervalHours := by
  have hne : cached ≠ [] := by
    rintro rfl
    exact hout (start, stop) (by simp [gapsOf]) ⟨hstart, hstop⟩
  by_cases hat : ∃ ev ∈ cached, ev.timestamp = t
  · obtain ⟨ev, hev, rfl⟩ := hat
    have hpos := hours_pos (hinterval ev hev)
    exact Or.inl ⟨ev, hev, le_refl _, fun other _ hle => hle, by omega⟩
  · have hnone : ∀ ev ∈ cached, ev.timestamp ≠ t := fun ev hev heq => hat ⟨ev, hev, heq⟩
    rcases locate hsorted hne hnone with ⟨first, hfirst, hlt⟩ | ⟨prev, nxt, hadj, hgt, hlt⟩ |
      ⟨last, hlast, hgt⟩
    · right
      have htwo := two_mul_tolerance first
      refine ⟨first, hfirst, hlt, ?_⟩
      by_cases htol : tolerance first < first.timestamp - start
      · have hmem : (start, first.timestamp) ∈ gapsOf start stop cached :=
          (mem_gapsOf hsorted).mpr (Or.inr (Or.inl ⟨first, hfirst, htol, rfl⟩))
        exact absurd ⟨hstart, le_of_lt hlt⟩ (hout _ hmem)
      · omega
    · left
      have htwo := two_mul_tolerance prev
      have hhours := hours_lt_tolerance (hinterval prev hadj.1)
      refine ⟨prev, hadj.1, by omega, ?_, ?_⟩
      · intro other hother hle
        rcases hadj.2.2.2 other hother with h | h
        · exact h
        · omega
      · by_cases htol : tolerance prev < nxt.timestamp - prev.timestamp
        · have hmem : (prev.timestamp + hours prev.intervalHours, nxt.timestamp) ∈
              gapsOf start stop cached :=
            (mem_gapsOf hsorted).mpr (Or.inr (Or.inr (Or.inl ⟨prev, nxt, hadj, htol, rfl⟩)))
          have hbefore : t < prev.timestamp + hours prev.intervalHours := by
            by_contra hge
            exact hout _ hmem ⟨not_lt.mp hge, le_of_lt hlt⟩
          omega
        · omega
    · left
      have htwo := two_mul_tolerance last
      have hhours := hours_lt_tolerance (hinterval last hlast.1)
      refine ⟨last, hlast.1, by omega, fun other hother _ => hlast.2 other hother, ?_⟩
      by_cases htol : tolerance last < stop - last.timestamp
      · have hmem : (last.timestamp + hours last.intervalHours, stop) ∈
            gapsOf start stop cached :=
          (mem_gapsOf hsorted).mpr (Or.inr (Or.inr (Or.inr ⟨last, hlast, htol, rfl⟩)))
        have hbefore : t < last.timestamp + hours last.intervalHours := by
          by_contra hge
          exact hout _ hmem ⟨not_lt.mp hge, hstop⟩
        omega
      · omega

end Window

/-! ## 3. Their order -/

/-- The gaps behind `first`, where `rest` is cached after it. -/
def gapsAfter (stop : Int) (first : FundingEvent) (rest : List FundingEvent) : List (Int × Int) :=
  ((first :: rest).zip rest).flatMap (fun pair => interiorGap pair.1 pair.2) ++
    trailingGap stop (rest.getLast?.getD first)

theorem gapsAfter_cons (stop : Int) (first second : FundingEvent) (rest : List FundingEvent) :
    gapsAfter stop first (second :: rest) =
      interiorGap first second ++ gapsAfter stop second rest := by
  have hlast : (second :: rest).getLast?.getD first = rest.getLast?.getD second := by
    rw [List.getLast?_cons, Option.getD_some]
  rw [gapsAfter, gapsAfter, hlast, List.zip_cons_cons, List.flatMap_cons, List.append_assoc]

theorem gapsOf_cons (start stop : Int) (first : FundingEvent) (rest : List FundingEvent) :
    gapsOf start stop (first :: rest) = leadingGap start first ++ gapsAfter stop first rest := by
  rw [gapsOf, gapsAfter, List.append_assoc]

theorem mem_leadingGap {start : Int} {first : FundingEvent} {gap : Int × Int}
    (h : gap ∈ leadingGap start first) : gap = (start, first.timestamp) := by
  rw [leadingGap] at h
  split at h
  · exact List.mem_singleton.mp h
  · cases h

theorem mem_interiorGap {prev nxt : FundingEvent} {gap : Int × Int}
    (h : gap ∈ interiorGap prev nxt) :
    gap = (prev.timestamp + hours prev.intervalHours, nxt.timestamp) := by
  rw [interiorGap] at h
  split at h
  · exact List.mem_singleton.mp h
  · cases h

theorem mem_trailingGap {stop : Int} {last : FundingEvent} {gap : Int × Int}
    (h : gap ∈ trailingGap stop last) :
    gap = (last.timestamp + hours last.intervalHours, stop) := by
  rw [trailingGap] at h
  split at h
  · exact List.mem_singleton.mp h
  · cases h

/-- Each branch reports at most one gap. -/
theorem pairwise_ite {P : Prop} [Decidable P] {R : Int × Int → Int × Int → Prop}
    {gap : Int × Int} : (if P then [gap] else []).Pairwise R := by
  split
  · exact List.pairwise_singleton R gap
  · exact List.Pairwise.nil

section Order

variable {stop : Int} {first : FundingEvent} {rest : List FundingEvent}

theorem lt_of_mem_gapsAfter
    (hsorted : (first :: rest).Pairwise fun a b => a.timestamp < b.timestamp)
    (hinterval : ∀ ev ∈ first :: rest, 0 < ev.intervalHours) {gap : Int × Int}
    (hgap : gap ∈ gapsAfter stop first rest) : first.timestamp < gap.1 := by
  induction rest generalizing first with
  | nil =>
      obtain rfl := mem_trailingGap hgap
      have := hours_pos (hinterval first List.mem_cons_self)
      change first.timestamp < first.timestamp + hours first.intervalHours
      omega
  | cons second rest ih =>
      obtain ⟨hfirst, htail⟩ := List.pairwise_cons.mp hsorted
      rw [gapsAfter_cons, List.mem_append] at hgap
      rcases hgap with hgap | hgap
      · obtain rfl := mem_interiorGap hgap
        have := hours_pos (hinterval first List.mem_cons_self)
        change first.timestamp < first.timestamp + hours first.intervalHours
        omega
      · exact lt_trans (hfirst second List.mem_cons_self)
          (ih htail (fun ev hev => hinterval ev (List.mem_cons_of_mem _ hev)) hgap)

theorem gapsAfter_pairwise
    (hsorted : (first :: rest).Pairwise fun a b => a.timestamp < b.timestamp)
    (hinterval : ∀ ev ∈ first :: rest, 0 < ev.intervalHours) :
    (gapsAfter stop first rest).Pairwise fun gap gap' => gap.2 < gap'.1 := by
  induction rest generalizing first with
  | nil => exact pairwise_ite
  | cons second rest ih =>
      obtain ⟨-, htail⟩ := List.pairwise_cons.mp hsorted
      have hinterval' : ∀ ev ∈ second :: rest, 0 < ev.intervalHours :=
        fun ev hev => hinterval ev (List.mem_cons_of_mem _ hev)
      rw [gapsAfter_cons, List.pairwise_append]
      refine ⟨pairwise_ite, ih htail hinterval', ?_⟩
      intro gap hgap gap' hgap'
      obtain rfl := mem_interiorGap hgap
      exact lt_of_mem_gapsAfter htail hinterval' hgap'

end Order

/-- **The gaps come in order**, each ending before the next begins. -/
theorem gapsOf_pairwise {start stop : Int} {cached : List FundingEvent}
    (hsorted : cached.Pairwise fun a b => a.timestamp < b.timestamp)
    (hinterval : ∀ ev ∈ cached, 0 < ev.intervalHours) :
    (gapsOf start stop cached).Pairwise fun gap gap' => gap.2 < gap'.1 := by
  cases cached with
  | nil => exact List.pairwise_singleton _ _
  | cons first rest =>
      rw [gapsOf_cons, List.pairwise_append]
      refine ⟨pairwise_ite, gapsAfter_pairwise hsorted hinterval, ?_⟩
      intro gap hgap gap' hgap'
      obtain rfl := mem_leadingGap hgap
      exact lt_of_mem_gapsAfter hsorted hinterval hgap'

/-! ## 4. The gaps of a table -/

section Rows

variable {table : RateTable} {exchange symbol : String} {a b : Int}

theorem mem_get_fromMs (ev : FundingEvent) :
    ev ∈ table.get exchange symbol (fromMs a) (fromMs b) ↔
      ∃ ms row, table.get? (exchange, symbol, ms) = some row ∧ a ≤ ms ∧ ms ≤ b ∧
        ev = toEvent symbol (ms, row) := by
  rw [mem_get, toMs_fromMs, toMs_fromMs]

theorem inWindow_of_mem_get {ev : FundingEvent}
    (hev : ev ∈ table.get exchange symbol (fromMs a) (fromMs b)) :
    fromMs a ≤ ev.timestamp ∧ ev.timestamp ≤ fromMs b := by
  obtain ⟨ms, row, -, hlo, hhi, rfl⟩ := (mem_get_fromMs ev).mp hev
  exact ⟨fromMs_le_fromMs.mpr hlo, fromMs_le_fromMs.mpr hhi⟩

theorem missingRanges_of_none
    (hnone : ∀ ms row, table.get? (exchange, symbol, ms) = some row → a ≤ ms → b < ms) :
    table.missingRanges exchange symbol (fromMs a) (fromMs b) = [(fromMs a, fromMs b)] := by
  have hempty : table.get exchange symbol (fromMs a) (fromMs b) = [] := by
    rw [List.eq_nil_iff_forall_not_mem]
    intro ev hev
    obtain ⟨ms, row, hget, hlo, hhi, rfl⟩ := (mem_get_fromMs ev).mp hev
    exact absurd hhi (not_le.mpr (hnone ms row hget hlo))
  rw [missingRanges, hempty, gapsOf]

variable (hinterval : ∀ ms row, table.get? (exchange, symbol, ms) = some row → 0 < row.intervalH)
include hinterval

theorem positive_of_mem_get :
    ∀ ev ∈ table.get exchange symbol (fromMs a) (fromMs b), 0 < ev.intervalHours := by
  intro ev hev
  obtain ⟨ms, row, hget, -, -, rfl⟩ := (mem_get_fromMs ev).mp hev
  exact hinterval ms row hget

theorem missingRanges_proper (hab : a < b) {gap : Int × Int}
    (hgap : gap ∈ table.missingRanges exchange symbol (fromMs a) (fromMs b)) :
    fromMs a ≤ gap.1 ∧ gap.1 < gap.2 ∧ gap.2 ≤ fromMs b ∧
      ∀ ms row, table.get? (exchange, symbol, ms) = some row →
        ¬ (gap.1 < fromMs ms ∧ fromMs ms < gap.2) := by
  obtain ⟨hstart, hlt, hstop, hfree⟩ :=
    gapsOf_proper (get_pairwise table exchange symbol (fromMs a) (fromMs b))
      (positive_of_mem_get hinterval) (fun _ => inWindow_of_mem_get) (fromMs_lt_fromMs.mpr hab) hgap
  refine ⟨hstart, hlt, hstop, ?_⟩
  rintro ms row hget ⟨hleft, hright⟩
  have hlo : a ≤ ms := fromMs_le_fromMs.mp (le_of_lt (lt_of_le_of_lt hstart hleft))
  have hhi : ms ≤ b := fromMs_le_fromMs.mp (le_of_lt (lt_of_lt_of_le hright hstop))
  rcases hfree _ ((mem_get_fromMs _).mpr ⟨ms, row, hget, hlo, hhi, rfl⟩) with hle | hle
  · exact absurd hleft (not_lt.mpr hle)
  · exact absurd hright (not_lt.mpr hle)

theorem near_of_outside {t : Int} (hstart : fromMs a ≤ t) (hstop : t ≤ fromMs b)
    (hout : ∀ gap ∈ table.missingRanges exchange symbol (fromMs a) (fromMs b),
      ¬ (gap.1 ≤ t ∧ t ≤ gap.2)) :
    (∃ ms row, table.get? (exchange, symbol, ms) = some row ∧ fromMs ms ≤ t ∧
        (∀ ms' row', table.get? (exchange, symbol, ms') = some row' → fromMs ms' ≤ t → ms' ≤ ms) ∧
        2 * (t - fromMs ms) ≤ 3 * hours row.intervalH) ∨
      ∃ ms row, table.get? (exchange, symbol, ms) = some row ∧ a ≤ ms ∧ ms ≤ b ∧
        (∀ ms' row', table.get? (exchange, symbol, ms') = some row' → a ≤ ms' → ms' ≤ b →
          ms ≤ ms') ∧
        t < fromMs ms ∧ 2 * (fromMs ms - t) ≤ 3 * hours row.intervalH := by
  rcases near_of_not_mem_gap (get_pairwise table exchange symbol (fromMs a) (fromMs b))
    (positive_of_mem_get hinterval) hstart hstop hout with
    ⟨ev, hev, hle, hlatest, hnear⟩ | ⟨ev, hfirst, hlt, hnear⟩
  · left
    obtain ⟨ms, row, hget, hlo, hhi, rfl⟩ := (mem_get_fromMs ev).mp hev
    refine ⟨ms, row, hget, hle, ?_, hnear⟩
    intro ms' row' hget' hle'
    by_cases hlo' : a ≤ ms'
    · have hhi' : ms' ≤ b := fromMs_le_fromMs.mp (le_trans hle' hstop)
      exact fromMs_le_fromMs.mp
        (hlatest _ ((mem_get_fromMs _).mpr ⟨ms', row', hget', hlo', hhi', rfl⟩) hle')
    · omega
  · right
    obtain ⟨ms, row, hget, hlo, hhi, rfl⟩ := (mem_get_fromMs ev).mp hfirst.1
    refine ⟨ms, row, hget, hlo, hhi, ?_, hlt, hnear⟩
    intro ms' row' hget' hlo' hhi'
    exact fromMs_le_fromMs.mp
      (hfirst.2 _ ((mem_get_fromMs _).mpr ⟨ms', row', hget', hlo', hhi', rfl⟩))

end Rows

/-- **The shape of the gaps.**  They are proper intervals of the window, ordered and apart,
    no cached event lies inside one, and an instant outside all of them is at most one and
    a half intervals behind the latest cached event or before the first one of the window.
    The floats of the source give these milliseconds from November 2004 to January 2038
    (`TimeUtil`). -/
theorem missingRanges_wellFormed {table : RateTable} {exchange symbol : String} {a b : Int}
    (hab : a < b)
    (hinterval : ∀ ms row, table.get? (exchange, symbol, ms) = some row → 0 < row.intervalH) :
    (∀ gap ∈ table.missingRanges exchange symbol (fromMs a) (fromMs b),
      fromMs a ≤ gap.1 ∧ gap.1 < gap.2 ∧ gap.2 ≤ fromMs b ∧
        ∀ ms row, table.get? (exchange, symbol, ms) = some row →
          ¬ (gap.1 < fromMs ms ∧ fromMs ms < gap.2)) ∧
    (table.missingRanges exchange symbol (fromMs a) (fromMs b)).Pairwise
      (fun gap gap' => gap.2 < gap'.1) ∧
    (∀ t, fromMs a ≤ t → t ≤ fromMs b →
      (∀ gap ∈ table.missingRanges exchange symbol (fromMs a) (fromMs b),
        ¬ (gap.1 ≤ t ∧ t ≤ gap.2)) →
      (∃ ms row, table.get? (exchange, symbol, ms) = some row ∧ fromMs ms ≤ t ∧
        (∀ ms' row', table.get? (exchange, symbol, ms') = some row' → fromMs ms' ≤ t → ms' ≤ ms) ∧
        2 * (t - fromMs ms) ≤ 3 * hours row.intervalH) ∨
      ∃ ms row, table.get? (exchange, symbol, ms) = some row ∧ a ≤ ms ∧ ms ≤ b ∧
        (∀ ms' row', table.get? (exchange, symbol, ms') = some row' → a ≤ ms' → ms' ≤ b →
          ms ≤ ms') ∧
        t < fromMs ms ∧ 2 * (fromMs ms - t) ≤ 3 * hours row.intervalH) ∧
    ((∀ ms row, table.get? (exchange, symbol, ms) = some row → a ≤ ms → b < ms) →
      table.missingRanges exchange symbol (fromMs a) (fromMs b) = [(fromMs a, fromMs b)]) := by
  have hsorted := get_pairwise table exchange symbol (fromMs a) (fromMs b)
  refine ⟨fun gap hgap => missingRanges_proper hinterval hab hgap,
    gapsOf_pairwise hsorted (positive_of_mem_get hinterval),
    fun t hstart hstop hout => near_of_outside hinterval hstart hstop hout, ?_⟩
  exact missingRanges_of_none

/-- Two events of an interval of eight hours, one and two days after the epoch. -/
def twoDays : RateTable :=
  insertOrReplace
    (insertOrReplace OrderedDict.empty "binance_usdm" "BTCUSDT"
      ⟨hours 24, "BTCUSDT", .finite false 1 (-4), .finite false 60000 0, 8⟩)
    "binance_usdm" "BTCUSDT"
    ⟨hours 48, "BTCUSDT", .finite false 2 (-4), .finite false 61000 0, 8⟩

/-- The events split a window of three days: a gap before them, one between, one after. -/
theorem missingRanges_wellFormed_split :
    twoDays.missingRanges "binance_usdm" "BTCUSDT" (fromMs 0) (fromMs 259200000) =
        [(hours 0, hours 24), (hours 32, hours 48), (hours 56, hours 72)] ∧
      (twoDays.missingRanges "binance_usdm" "BTCUSDT" (fromMs 0) (fromMs 259200000)).Pairwise
        fun gap gap' => gap.2 < gap'.1 := by
  have hinterval : ∀ ms row, twoDays.get? ("binance_usdm", "BTCUSDT", ms) = some row →
      0 < row.intervalH := by
    intro ms row hget
    simp only [twoDays, insertOrReplace, OrderedDict.get?_set] at hget
    split at hget
    · obtain rfl := Option.some.inj hget
      decide
    · split at hget
      · obtain rfl := Option.some.inj hget
        decide
      · cases hget
  exact ⟨by decide, (missingRanges_wellFormed (by decide) hinterval).2.1⟩

end FundingTool.RateTable
