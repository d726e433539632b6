import FundingTool.RateCacheTransparency

/-!
# Gaps of a refilled window

Some of the gaps of a window are filled and the gaps are computed again, from the events that
were cached and those that have come.  Filled gaps may split into smaller ones.  Outside of the
filled gaps nothing changes: a time lies in one of the new gaps exactly when it lies in one of
the old ones (`Refilled.inGap_refilled_iff`).

This holds because all events have one interval.  A time less than one interval after a cached
event is overlooked before and after; any other time keeps its neighbours, since what has come
lies in gaps that do not contain it.
-/

namespace FundingTool.RateTable

variable {cached cached' : List FundingEvent} {gaps : List (Int × Int)}
  {start stop interval t ms : Int}

/-! ## 1. The cached events of a window -/

/-- The cached events of a window, all with one interval. -/
structure Windowed (start stop interval : Int) (cached : List FundingEvent) : Prop where
  ascending : cached.Pairwise fun a b => a.timestamp < b.timestamp
  onMs : OnMs cached
  inside : ∀ ev ∈ cached, toMs start ≤ toMs ev.timestamp ∧ toMs ev.timestamp ≤ toMs stop
  interval_eq : ∀ ev ∈ cached, ev.intervalHours = interval

/-- A time less than one interval after a cached event is overlooked. -/
theorem Windowed.overlooked_of_recent (h : Windowed start stop interval cached)
    (hnew : ∀ ev ∈ cached, ev.timestamp ≠ t) {ev : FundingEvent} (hev : ev ∈ cached)
    (hgt : ev.timestamp < t) (hlt : t < ev.timestamp + hours interval) :
    Overlooked cached start stop t := by
  rcases locate h.ascending (List.ne_nil_of_mem hev) hnew with ⟨first, hfirst, hbefore⟩ |
    ⟨prev, nxt, hadj, hprev, hnxt⟩ | ⟨last, hlast, hafter⟩
  · have := hfirst.2 ev hev
    omega
  · have hside := hadj.2.2.2 ev hev
    apply (overlooked_between_iff hadj h.ascending hprev hnxt).mpr
    rw [h.interval_eq prev hadj.1]
    omega
  · have hle := hlast.2 ev hev
    apply (overlooked_after_iff hlast h.ascending hafter).mpr
    rw [h.interval_eq last hlast.1]
    omega

/-- The gap around a time, in terms of the one interval. -/
theorem Windowed.inGap_cases (h : Windowed start stop interval cached)
    (hnew : ∀ ev ∈ cached, ev.timestamp ≠ fromMs ms) {gap : Int × Int}
    (hgap : gap ∈ gapsOf start stop cached) (hin : InGap gap ms) :
    (cached = [] ∧ gap = (start, stop)) ∨
      (∃ first, IsFirst cached first ∧ fromMs ms < first.timestamp ∧
        gap = (start, first.timestamp)) ∨
      (∃ prev nxt, Adjacent cached prev nxt ∧ prev.timestamp + hours interval ≤ fromMs ms ∧
        fromMs ms < nxt.timestamp ∧ gap = (prev.timestamp + hours interval, nxt.timestamp)) ∨
      ∃ last, IsLast cached last ∧ last.timestamp + hours interval ≤ fromMs ms ∧
        gap = (last.timestamp + hours interval, stop) := by
  rcases RateTable.inGap_cases h.ascending h.onMs hnew hgap hin with hnil |
    ⟨first, hfirst, -, hlt, hgap⟩ | ⟨prev, nxt, hadj, -, hge, hlt, hgap⟩ |
    ⟨last, hlast, -, hge, hgap⟩
  · exact Or.inl hnil
  · exact Or.inr (Or.inl ⟨first, hfirst, hlt, hgap⟩)
  · rw [h.interval_eq prev hadj.1] at hge hgap
    exact Or.inr (Or.inr (Or.inl ⟨prev, nxt, hadj, hge, hlt, hgap⟩))
  · rw [h.interval_eq last hlast.1] at hge hgap
    exact Or.inr (Or.inr (Or.inr ⟨last, hlast, hge, hgap⟩))

theorem Windowed.inWindow_of_inGap (h : Windowed start stop interval cached)
    (hpos : 0 < interval) {gap : Int × Int} (hgap : gap ∈ gapsOf start stop cached)
    (hin : InGap gap ms) : toMs start ≤ ms ∧ ms ≤ toMs stop := by
  have hlater : ∀ ev ∈ cached, toMs (ev.timestamp + hours ev.intervalHours) ≤ ms →
      toMs start ≤ ms := by
    intro ev hev hle
    have hlo := (h.inside ev hev).1
    have hmono : toMs ev.timestamp ≤ toMs (ev.timestamp + hours ev.intervalHours) := by
      apply toMs_mono
      rw [h.interval_eq ev hev, hours]
      omega
    omega
  rcases (mem_gapsOf h.ascending).mp hgap with ⟨-, rfl⟩ | ⟨first, hfirst, -, rfl⟩ |
    ⟨prev, nxt, hadj, -, rfl⟩ | ⟨last, hlast, -, rfl⟩
  · exact hin
  · exact ⟨hin.1, le_trans hin.2 (h.inside first hfirst.1).2⟩
  · exact ⟨hlater prev hadj.1 hin.1, le_trans hin.2 (h.inside nxt hadj.2.1).2⟩
  · exact ⟨hlater last hlast.1 hin.1, hin.2⟩

/-! ## 2. Filling some of the gaps -/

/-- `cached'` is what the window holds after some of the gaps of `cached` have been filled. -/
structure Refilled (start stop interval : Int) (gaps : List (Int × Int))
    (cached cached' : List FundingEvent) : Prop where
  before : Windowed start stop interval cached
  after : Windowed start stop interval cached'
  reported : ∀ gap ∈ gaps, gap ∈ gapsOf start stop cached
  kept : ∀ ev ∈ cached, ev ∈ cached'
  added : ∀ ev ∈ cached', ev ∈ cached ∨ ∃ gap ∈ gaps, InGap gap (toMs ev.timestamp)

/-- An event that has come lies in a filled gap, away from the cached events. -/
theorem Refilled.inGap_of_added (h : Refilled start stop interval gaps cached cached')
    {ev : FundingEvent} (hev : ev ∈ cached') (hnot : ev ∉ cached) :
    ∃ gap ∈ gaps, InGap gap (toMs ev.timestamp) ∧
      ∀ old ∈ cached, old.timestamp ≠ fromMs (toMs ev.timestamp) := by
  rcases h.added ev hev with hmem | ⟨gap, hgap, hin⟩
  · exact absurd hmem hnot
  · refine ⟨gap, hgap, hin, ?_⟩
    intro old hold heq
    rw [← h.after.onMs ev hev] at heq
    rw [eq_of_timestamp h.after.ascending (h.kept old hold) hev heq] at hold
    exact hnot hold

/-- Before the first cached event nothing has come. -/
theorem Refilled.isFirst (h : Refilled start stop interval gaps cached cached')
    (hpos : 0 < interval) (hlo : toMs start ≤ ms) (hout : ∀ gap ∈ gaps, ¬ InGap gap ms)
    {first : FundingEvent} (hfirst : IsFirst cached first) (hlt : fromMs ms < first.timestamp) :
    IsFirst cached' first := by
  refine ⟨h.kept first hfirst.1, ?_⟩
  intro ev hev
  by_contra hbefore
  have hnot : ev ∉ cached := fun hmem => hbefore (hfirst.2 ev hmem)
  obtain ⟨gap, hgap, hin, hnew⟩ := h.inGap_of_added hev hnot
  have honMs := h.after.onMs ev hev
  have hlen : 0 < hours interval := by
    rw [hours]
    omega
  rcases h.before.inGap_cases hnew (h.reported gap hgap) hin with ⟨hnil, -⟩ |
    ⟨first', hfirst', -, rfl⟩ | ⟨prev, nxt, hadj, hge, -⟩ | ⟨last, hlast, hge, -⟩
  · rw [hnil] at hfirst
    cases hfirst.1
  · have hle := hfirst'.2 first hfirst.1
    have hle' := hfirst.2 first' hfirst'.1
    apply hout _ hgap
    refine ⟨hlo, (le_toMs_iff h.before.onMs hfirst'.1).mpr ?_⟩
    omega
  · have := hfirst.2 prev hadj.1
    omega
  · have := hfirst.2 last hlast.1
    omega

/-- Around a time that is not overlooked nothing has come. -/
theorem Refilled.adjacent (h : Refilled start stop interval gaps cached cached')
    (hpos : 0 < interval) (hout : ∀ gap ∈ gaps, ¬ InGap gap ms) {prev nxt : FundingEvent}
    (hadj : Adjacent cached prev nxt) (hge : prev.timestamp + hours interval ≤ fromMs ms)
    (hlt : fromMs ms < nxt.timestamp) : Adjacent cached' prev nxt := by
  refine ⟨h.kept prev hadj.1, h.kept nxt hadj.2.1, hadj.2.2.1, ?_⟩
  intro ev hev
  by_contra hbetween
  have hnot : ev ∉ cached := fun hmem => hbetween (hadj.2.2.2 ev hmem)
  rw [not_or, not_le, not_le] at hbetween
  obtain ⟨gap, hgap, hin, hnew⟩ := h.inGap_of_added hev hnot
  have honMs := h.after.onMs ev hev
  have hlen : 0 < hours interval := by
    rw [hours]
    omega
  rcases h.before.inGap_cases hnew (h.reported gap hgap) hin with ⟨hnil, -⟩ |
    ⟨first, hfirst, hbefore, -⟩ | ⟨prev', nxt', hadj', hge', hlt', rfl⟩ | ⟨last, hlast, hafter, -⟩
  · rw [hnil] at hadj
    cases hadj.1
  · have := hfirst.2 prev hadj.1
    omega
  · obtain ⟨rfl, rfl⟩ := hadj.unique h.before.ascending hadj' hbetween (by omega)
    apply hout _ hgap
    refine ⟨?_, (le_toMs_iff h.before.onMs hadj.2.1).mpr (le_of_lt hlt)⟩
    exact (toMs_add_hours_le_iff h.before.onMs hadj.1 interval).mpr hge
  · have := hlast.2 nxt hadj.2.1
    omega

/-- After the last cached event nothing has come, if the time is not overlooked. -/
theorem Refilled.isLast (h : Refilled start stop interval gaps cached cached')
    (hhi : ms ≤ toMs stop) (hout : ∀ gap ∈ gaps, ¬ InGap gap ms) {last : FundingEvent}
    (hlast : IsLast cached last) (hge : last.timestamp + hours interval ≤ fromMs ms) :
    IsLast cached' last := by
  refine ⟨h.kept last hlast.1, ?_⟩
  intro ev hev
  by_contra hafter
  have hnot : ev ∉ cached := fun hmem => hafter (hlast.2 ev hmem)
  obtain ⟨gap, hgap, hin, hnew⟩ := h.inGap_of_added hev hnot
  have honMs := h.after.onMs ev hev
  rcases h.before.inGap_cases hnew (h.reported gap hgap) hin with ⟨hnil, -⟩ |
    ⟨first, hfirst, hbefore, -⟩ | ⟨prev, nxt, hadj, hge', hlt', -⟩ | ⟨last', hlast', hge', rfl⟩
  · rw [hnil] at hlast
    cases hlast.1
  · have := hfirst.2 last hlast.1
    omega
  · have := hlast.2 nxt hadj.2.1
    omega
  · have hle := hlast'.2 last hlast.1
    have hle' := hlast.2 last' hlast'.1
    apply hout _ hgap
    refine ⟨(toMs_add_hours_le_iff h.before.onMs hlast'.1 interval).mpr ?_, hhi⟩
    omega

/-- **Outside of the filled gaps** a time is overlooked as it was before. -/
theorem Refilled.overlooked_iff (h : Refilled start stop interval gaps cached cached')
    (hpos : 0 < interval) (hlo : toMs start ≤ ms) (hhi : ms ≤ toMs stop)
    (hout : ∀ gap ∈ gaps, ¬ InGap gap ms) (hnew : ∀ ev ∈ cached', ev.timestamp ≠ fromMs ms) :
    Overlooked cached' start stop (fromMs ms) ↔ Overlooked cached start stop (fromMs ms) := by
  have hold : ∀ ev ∈ cached, ev.timestamp ≠ fromMs ms := fun ev hev => hnew ev (h.kept ev hev)
  by_cases hrecent : ∃ ev ∈ cached, ev.timestamp < fromMs ms ∧
      fromMs ms < ev.timestamp + hours interval
  · obtain ⟨ev, hev, hgt, hlt⟩ := hrecent
    exact iff_of_true (h.after.overlooked_of_recent hnew (h.kept ev hev) hgt hlt)
      (h.before.overlooked_of_recent hold hev hgt hlt)
  · have hfar : ∀ ev ∈ cached, ev.timestamp < fromMs ms →
        ev.timestamp + hours interval ≤ fromMs ms := by
      intro ev hev hgt
      by_contra hlt
      exact hrecent ⟨ev, hev, hgt, by omega⟩
    by_cases hempty : cached = []
    · have hnone : gaps = [] := by
        by_contra hsome
        obtain ⟨gap, hgap⟩ := List.exists_mem_of_ne_nil gaps hsome
        have hwhole := h.reported gap hgap
        rw [hempty, gapsOf, List.mem_singleton] at hwhole
        rw [hwhole] at hgap
        exact hout _ hgap ⟨hlo, hhi⟩
      have hempty' : cached' = [] := by
        rw [List.eq_nil_iff_forall_not_mem]
        intro ev hev
        rcases h.added ev hev with hmem | ⟨gap, hgap, -⟩
        · rw [hempty] at hmem
          cases hmem
        · rw [hnone] at hgap
          cases hgap
      rw [hempty, hempty']
    · rcases locate h.before.ascending hempty hold with ⟨first, hfirst, hlt⟩ |
        ⟨prev, nxt, hadj, hgt, hlt⟩ | ⟨last, hlast, hgt⟩
      · have hfirst' := h.isFirst hpos hlo hout hfirst hlt
        rw [overlooked_before_iff hfirst h.before.ascending hlt,
          overlooked_before_iff hfirst' h.after.ascending hlt]
      · have hadj' := h.adjacent hpos hout hadj (hfar prev hadj.1 hgt) hlt
        rw [overlooked_between_iff hadj h.before.ascending hgt hlt,
          overlooked_between_iff hadj' h.after.ascending hgt hlt]
      · have hlast' := h.isLast hhi hout hlast (hfar last hlast.1 hgt)
        rw [overlooked_after_iff hlast h.before.ascending hgt,
          overlooked_after_iff hlast' h.after.ascending hgt]

/-- A time outside of the filled gaps lies in a gap of the refilled window exactly when it
    lies in a gap of the window as it was. -/
theorem Refilled.inGap_refilled_iff (h : Refilled start stop interval gaps cached cached')
    (hpos : 0 < interval) (hlo : toMs start ≤ ms) (hhi : ms ≤ toMs stop)
    (hout : ∀ gap ∈ gaps, ¬ InGap gap ms) (hnew : ∀ ev ∈ cached', ev.timestamp ≠ fromMs ms) :
    (∃ gap ∈ gapsOf start stop cached', InGap gap ms) ↔
      ∃ gap ∈ gapsOf start stop cached, InGap gap ms := by
  have hold : ∀ ev ∈ cached, ev.timestamp ≠ fromMs ms := fun ev hev => hnew ev (h.kept ev hev)
  have hpos₀ : ∀ ev ∈ cached, 0 < ev.intervalHours := by
    intro ev hev
    rw [h.before.interval_eq ev hev]
    exact hpos
  have hpos₁ : ∀ ev ∈ cached', 0 < ev.intervalHours := by
    intro ev hev
    rw [h.after.interval_eq ev hev]
    exact hpos
  rw [inGap_iff_not_overlooked h.after.ascending h.after.onMs hpos₁ hlo hhi hnew,
    inGap_iff_not_overlooked h.before.ascending h.before.onMs hpos₀ hlo hhi hold,
    h.overlooked_iff hpos hlo hhi hout hnew]

theorem gapsOf_eq_nil (hasc : cached.Pairwise fun a b => a.timestamp < b.timestamp)
    (hne : cached ≠ [])
    (hstart : ∀ first, IsFirst cached first → first.timestamp - start ≤ tolerance first)
    (hbetween : ∀ prev nxt, Adjacent cached prev nxt →
      nxt.timestamp - prev.timestamp ≤ tolerance prev)
    (hstop : ∀ last, IsLast cached last → stop - last.timestamp ≤ tolerance last) :
    gapsOf start stop cached = [] := by
  rw [List.eq_nil_iff_forall_not_mem]
  intro gap hgap
  rcases (mem_gapsOf hasc).mp hgap with ⟨hnil, -⟩ | ⟨first, hfirst, htol, -⟩ |
    ⟨prev, nxt, hadj, htol, -⟩ | ⟨last, hlast, htol, -⟩
  · exact hne hnil
  · exact absurd (hstart first hfirst) (not_le_of_gt htol)
  · exact absurd (hbetween prev nxt hadj) (not_le_of_gt htol)
  · exact absurd (hstop last hlast) (not_le_of_gt htol)

end FundingTool.RateTable
