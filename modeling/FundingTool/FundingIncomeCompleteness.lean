import FundingTool.FundingIncome

/-!
# When the account history is complete

Adjacent windows share an end point, and a page ends anywhere.  The cursor moves one past
the time of the last row of a full page, so a row behind the end of a page with the time
of the last row in it is not read with that window.  It is read all the same where its
time is the last millisecond of the window and another window follows.

`fetch_funding_income` returns every matching record exactly once, in ascending order,
exactly when no page of any window ends inside such a group of equal times.
-/

namespace FundingTool.FundingIncome

open FundingTool.Interaction FundingTool.CursorPaging

/-! ## 1. The windows -/

/-- The windows the loop visits from `windowStart` on. -/
def weekWindows (stop : Int) : Nat → Int → List (Int × Int)
  | 0, _ => []
  | fuel + 1, windowStart =>
      if windowStart < stop then
        (windowStart, min (windowStart + sevenDays) stop) ::
          weekWindows stop fuel (min (windowStart + sevenDays) stop)
      else []

def windowsOf (start stop : Int) : List (Int × Int) :=
  weekWindows stop (windowBudget start stop) start

theorem weekWindows_bounds {stop windowStart : Int} {fuel : Nat} :
    ∀ w ∈ weekWindows stop fuel windowStart, windowStart ≤ w.1 ∧ w.1 < w.2 ∧ w.2 ≤ stop := by
  induction fuel generalizing windowStart with
  | zero => intro w hw; cases hw
  | succ fuel ih =>
      intro w hw
      rw [weekWindows] at hw
      by_cases hlt : windowStart < stop
      · rw [if_pos hlt] at hw
        have hpos : (0 : Int) < sevenDays := by decide
        rcases List.mem_cons.mp hw with rfl | hw
        · simp only
          omega
        · have := ih w hw
          omega
      · rw [if_neg hlt] at hw
        cases hw

theorem weekWindows_pairwise {stop windowStart : Int} {fuel : Nat} :
    (weekWindows stop fuel windowStart).Pairwise fun w w' => w.2 ≤ w'.1 := by
  induction fuel generalizing windowStart with
  | zero => exact List.Pairwise.nil
  | succ fuel ih =>
      rw [weekWindows]
      by_cases hlt : windowStart < stop
      · rw [if_pos hlt]
        exact List.pairwise_cons.mpr ⟨fun w hw => (weekWindows_bounds w hw).1, ih⟩
      · rw [if_neg hlt]
        exact List.Pairwise.nil

/-- Two windows of one reading are the same or follow each other. -/
theorem windows_ordered {start stop : Int} {w w' : Int × Int} (hw : w ∈ windowsOf start stop)
    (hw' : w' ∈ windowsOf start stop) : w = w' ∨ w.2 ≤ w'.1 ∨ w'.2 ≤ w.1 := by
  have hpairwise : (windowsOf start stop).Pairwise fun w w' => w.2 ≤ w'.1 := weekWindows_pairwise
  exact List.Pairwise.forall_of_forall_of_flip (R := fun w w' => w = w' ∨ w.2 ≤ w'.1 ∨ w'.2 ≤ w.1)
    (fun _ _ => Or.inl rfl) (hpairwise.imp fun hle => Or.inr (Or.inl hle))
    (hpairwise.imp fun hle => Or.inr (Or.inr hle)) hw hw'

theorem windowBudget_enough (start stop : Int) :
    stop - start ≤ (windowBudget start stop : Int) * sevenDays := by
  simp only [windowBudget, sevenDays, hours]
  omega

/-! ## 2. What one window reads -/

section Reading

variable (history : IncomeHistory) (symbol : Option String)

theorem select_ascending : Ascending IncomeItem.time (history.select symbol) :=
  List.Pairwise.sublist List.filter_sublist history.ascending

theorem select_nodup : (history.select symbol).Nodup :=
  (List.Nodup.of_map _ history.distinct).sublist List.filter_sublist

/-- The records of a closed range of datetimes. -/
def itemsIn (w : Int × Int) : List IncomeItem :=
  window IncomeItem.time (history.select symbol) (toMs w.1) (toMs w.2)

/-- The records read for a window. -/
def readItems (w : Int × Int) : List IncomeItem :=
  (collect (fun cursor => answer IncomeItem.time 1000 (history.select symbol) cursor (toMs w.2))
    IncomeItem.time 1000 (fun _ => true) (BinanceUsdm.pageBudget w.1 w.2) (toMs w.1)).getD []

theorem readItems_spec (w : Int × Int) :
    collect (fun cursor => answer IncomeItem.time 1000 (history.select symbol) cursor (toMs w.2))
      IncomeItem.time 1000 (fun _ => true) (BinanceUsdm.pageBudget w.1 w.2) (toMs w.1) =
        some (readItems history symbol w) ∧
      Paged IncomeItem.time 1000 (itemsIn history symbol w) (readItems history symbol w) := by
  have hread : ∃ out, collect (fun cursor =>
      answer IncomeItem.time 1000 (history.select symbol) cursor (toMs w.2))
      IncomeItem.time 1000 (fun _ => true) (BinanceUsdm.pageBudget w.1 w.2) (toMs w.1) =
        some out ∧ Paged IncomeItem.time 1000 (itemsIn history symbol w) out :=
    collect_paged (by decide) (fun _ _ => rfl) (Nat.lt_succ_self _)
  obtain ⟨out, hout, hpaged⟩ := hread
  rw [readItems, hout]
  exact ⟨rfl, hpaged⟩

theorem mem_itemsIn {w : Int × Int} {item : IncomeItem} :
    item ∈ itemsIn history symbol w ↔
      item ∈ history.select symbol ∧ toMs w.1 ≤ item.time ∧ item.time ≤ toMs w.2 :=
  mem_window

theorem mem_of_readItems {w : Int × Int} {item : IncomeItem}
    (h : item ∈ readItems history symbol w) : item ∈ itemsIn history symbol w :=
  (readItems_spec history symbol w).2.sublist item h

/-! ## 3. What all windows read together -/

/-- No page of the window ends inside a group of equal times, save one that the next
    window reads again. -/
def CleanWindow (stop : Int) (w : Int × Int) : Prop :=
  CleanCuts IncomeItem.time 1000 (fun t => w.2 ≠ stop ∧ toMs w.2 ≤ t) (itemsIn history symbol w)

theorem excused_up {stop : Int} {w : Int × Int} (t t' : Int)
    (h : w.2 ≠ stop ∧ toMs w.2 ≤ t) (hle : t ≤ t') : w.2 ≠ stop ∧ toMs w.2 ≤ t' :=
  ⟨h.1, le_trans h.2 hle⟩

/-- Clean windows read every record: one left over at the end of a window is read with
    the next. -/
theorem read_of_clean {stop windowStart : Int} {fuel : Nat}
    (hfuel : stop - windowStart ≤ fuel * sevenDays) (hlt : windowStart < stop)
    (hclean : ∀ w ∈ weekWindows stop fuel windowStart, CleanWindow history symbol stop w)
    {item : IncomeItem} (hitem : item ∈ history.select symbol)
    (hlo : toMs windowStart ≤ item.time) (hhi : item.time ≤ toMs stop) :
    ∃ w ∈ weekWindows stop fuel windowStart, item ∈ readItems history symbol w := by
  induction fuel generalizing windowStart with
  | zero => simp at hfuel; omega
  | succ fuel ih =>
      simp only [weekWindows, if_pos hlt, List.mem_cons, forall_eq_or_imp, exists_eq_or_imp]
        at hclean ⊢
      obtain ⟨hfirst, hrest⟩ := hclean
      have hnext : min (windowStart + sevenDays) stop < stop →
          toMs (min (windowStart + sevenDays) stop) ≤ item.time →
          ∃ w ∈ weekWindows stop fuel (min (windowStart + sevenDays) stop),
            item ∈ readItems history symbol w := by
        intro hlt' hlo'
        refine ih ?_ hlt' hrest hlo'
        simp only [sevenDays, hours] at hfuel hlt' ⊢
        push_cast at hfuel
        omega
      by_cases hin : item.time ≤ toMs (min (windowStart + sevenDays) stop)
      · have hmem : item ∈ itemsIn history symbol
            (windowStart, min (windowStart + sevenDays) stop) :=
          (mem_itemsIn history symbol).mpr ⟨hitem, hlo, hin⟩
        rcases (readItems_spec history symbol _).2.mem_of_cleanCuts excused_up (by decide)
          ((select_ascending history symbol).window _ _) hfirst item hmem with
          hread | ⟨hmore, hlast⟩
        · exact Or.inl hread
        · exact Or.inr (hnext (lt_of_le_of_ne (min_le_right _ _) hmore) hlast)
      · right
        refine hnext ?_ (by omega)
        apply lt_of_le_of_ne (min_le_right _ _)
        intro heq
        rw [heq] at hin
        exact hin hhi

/-- A cut inside a group of equal times loses a record: no window reads it. -/
theorem exists_unread {start stop : Int} {w : Int × Int} (hw : w ∈ windowsOf start stop)
    (hcut : ¬ CleanWindow history symbol stop w) :
    ∃ item ∈ itemsIn history symbol w,
      ∀ w' ∈ windowsOf start stop, item ∉ readItems history symbol w' := by
  have hasc := select_ascending history symbol
  have hnodup := select_nodup history symbol
  obtain ⟨i, first, item, hi, hi', hdvd, htie, hnot, hunread⟩ :=
    (readItems_spec history symbol w).2.exists_missed excused_up (by decide)
      (hasc.window _ _) (hnodup.sublist List.filter_sublist) hcut
  have hpage : 1000 ≤ i + 1 := Nat.le_of_dvd (Nat.succ_pos i) hdvd
  have hmem : item ∈ itemsIn history symbol w := List.mem_of_getElem? hi'
  obtain ⟨-, hlo, hhi⟩ := (mem_itemsIn history symbol).mp hmem
  refine ⟨item, hmem, ?_⟩
  intro w' hw' hread
  obtain ⟨-, hlo', hhi'⟩ := (mem_itemsIn history symbol).mp (mem_of_readItems history symbol hread)
  rcases windows_ordered hw hw' with rfl | hlater | hearlier
  · exact hunread hread
  · -- a later window: the group ends this one, and is excused
    have hbounds := weekWindows_bounds w hw
    have hbounds' := weekWindows_bounds w' hw'
    refine hnot ⟨?_, ?_⟩
    · omega
    · exact le_trans (toMs_mono hlater) hlo'
  · -- an earlier window: the group begins this one
    have htime : item.time = toMs w'.2 := by
      have := toMs_mono hearlier
      omega
    have hshared : toMs w.1 = toMs w'.2 := by
      have := toMs_mono hearlier
      omega
    have hbounds := weekWindows_bounds w hw
    have hbounds' := weekWindows_bounds w' hw'
    have hpaged := (readItems_spec history symbol w').2
    rw [itemsIn] at hi' hpaged
    rw [hshared] at hi'
    exact hpaged.not_mem_of_shared hasc hnodup (toMs_mono (le_of_lt hbounds'.2.1))
      (by omega) hi' hpage htime hread

/-- **Everything is read exactly when no page ends inside a group of equal times.** -/
theorem all_read_iff_clean {start stop : Int} (hlt : start < stop) :
    (∀ item ∈ itemsIn history symbol (start, stop),
      ∃ w ∈ windowsOf start stop, item ∈ readItems history symbol w) ↔
    ∀ w ∈ windowsOf start stop, CleanWindow history symbol stop w := by
  constructor
  · intro hall w hw
    by_contra hcut
    obtain ⟨item, hmem, hunread⟩ := exists_unread history symbol hw hcut
    obtain ⟨hitem, hlo, hhi⟩ := (mem_itemsIn history symbol).mp hmem
    have hbounds := weekWindows_bounds w hw
    obtain ⟨w', hw', hread⟩ := hall item ((mem_itemsIn history symbol).mpr
      ⟨hitem, le_trans (toMs_mono hbounds.1) hlo, le_trans hhi (toMs_mono hbounds.2.2)⟩)
    exact hunread w' hw' hread
  · intro hclean item hmem
    obtain ⟨hitem, hlo, hhi⟩ := (mem_itemsIn history symbol).mp hmem
    exact read_of_clean history symbol (windowBudget_enough start stop) hlt hclean hitem hlo hhi

end Reading

/-! ## 4. Keeping one record per `tran_id` -/

/-- `acc` holds one record for every id among `recs`. -/
structure Gathered (recs : List IncomeRecord) (acc : List IncomeRecord × List String) : Prop where
  seen : ∀ id, id ∈ acc.2 ↔ ∃ r ∈ acc.1, r.tranId = id
  nodup : (acc.1.map IncomeRecord.tranId).Nodup
  kept : ∀ r ∈ acc.1, r ∈ recs
  all : ∀ r ∈ recs, ∃ r' ∈ acc.1, r'.tranId = r.tranId

theorem gathered_nil : Gathered [] ([], []) := by
  refine ⟨?_, List.nodup_nil, ?_, ?_⟩ <;> simp

theorem Gathered.addRecord {recs : List IncomeRecord} {acc : List IncomeRecord × List String}
    (h : Gathered recs acc) (rec : IncomeRecord) :
    Gathered (recs ++ [rec]) (FundingIncome.addRecord acc rec) := by
  unfold FundingIncome.addRecord
  by_cases hseen : rec.tranId ∈ acc.2
  · rw [if_pos hseen]
    refine ⟨h.seen, h.nodup, fun r hr => List.mem_append_left _ (h.kept r hr), ?_⟩
    intro r hr
    rcases List.mem_append.mp hr with hr | hr
    · exact h.all r hr
    · rw [List.mem_singleton.mp hr]
      exact (h.seen _).mp hseen
  · rw [if_neg hseen]
    refine ⟨?_, ?_, ?_, ?_⟩
    · intro id
      simp only [List.mem_cons, List.mem_append, List.not_mem_nil, or_false, h.seen]
      constructor
      · rintro (rfl | ⟨r, hr, rfl⟩)
        · exact ⟨rec, Or.inr rfl, rfl⟩
        · exact ⟨r, Or.inl hr, rfl⟩
      · rintro ⟨r, hr | rfl, rfl⟩
        · exact Or.inr ⟨r, hr, rfl⟩
        · exact Or.inl rfl
    · rw [List.map_append, List.nodup_append]
      refine ⟨h.nodup, List.nodup_singleton _, ?_⟩
      intro id hid id' hid' heq
      obtain ⟨r, hr, rfl⟩ := List.mem_map.mp hid
      rw [List.map_singleton, List.mem_singleton] at hid'
      exact hseen ((h.seen _).mpr ⟨r, hr, heq.trans hid'⟩)
    · intro r hr
      rcases List.mem_append.mp hr with hr | hr
      · exact List.mem_append_left _ (h.kept r hr)
      · exact List.mem_append_right _ hr
    · intro r hr
      rcases List.mem_append.mp hr with hr | hr
      · obtain ⟨r', hr', hid⟩ := h.all r hr
        exact ⟨r', List.mem_append_left _ hr', hid⟩
      · rw [List.mem_singleton.mp hr]
        exact ⟨rec, List.mem_append_right _ (List.mem_singleton.mpr rfl), rfl⟩

theorem Gathered.foldl {recs : List IncomeRecord} {acc : List IncomeRecord × List String}
    (h : Gathered recs acc) (more : List IncomeRecord) :
    Gathered (recs ++ more) (more.foldl FundingIncome.addRecord acc) := by
  induction more generalizing recs acc with
  | nil => rw [List.append_nil]; exact h
  | cons rec rest ih =>
      have hrest := ih (h.addRecord rec)
      rw [List.append_assoc, List.singleton_append] at hrest
      exact hrest

theorem sortRecords_perm (records : List IncomeRecord) : (sortRecords records).Perm records :=
  List.perm_insertionSort _ _

theorem sortRecords_ascending (records : List IncomeRecord) :
    (sortRecords records).Pairwise fun a b => a.timestamp ≤ b.timestamp := by
  have : Std.Total (fun a b : IncomeRecord => a.timestamp ≤ b.timestamp) :=
    ⟨fun a b => le_total _ _⟩
  have : IsTrans IncomeRecord fun a b => a.timestamp ≤ b.timestamp := ⟨fun _ _ _ => le_trans⟩
  exact List.pairwise_insertionSort _ _

/-! ## 5. The whole call -/

section Call

variable (history : IncomeHistory) (symbol : Option String) (clocks : Clocks)

/-- The records of all windows in the order in which they are read. -/
def readRecords (ws : List (Int × Int)) : List IncomeRecord :=
  ws.flatMap fun w => (readItems history symbol w).map toRecord

theorem iterIncomePages_run (credentials : ApiCredentials) (start stop timeOffsetMs : Int)
    (n : Nat) : ∃ n', (iterIncomePages credentials start stop timeOffsetMs symbol).run
      (perform history) clocks n =
        (n', .ok ((readItems history symbol (start, stop)).map toRecord)) := by
  have hpage : ∀ cursor n, True → ∃ n', True ∧
      (incomePage credentials (toMs stop) timeOffsetMs symbol cursor).run (perform history)
        clocks n = (n', .ok (answer IncomeItem.time 1000 (history.select symbol) cursor
          (toMs stop))) :=
    fun cursor n _ => ⟨n + 1, trivial, rfl⟩
  obtain ⟨n', -, hrun⟩ := run_pages hpage (readItems_spec history symbol (start, stop)).1
    (trivial : True) (s := n)
  refine ⟨n', ?_⟩
  rw [iterIncomePages, Prog.run_bind_ok hrun]
  rfl

theorem incomeWindows_run (credentials : ApiCredentials) (timeOffsetMs stop : Int) {fuel : Nat}
    {windowStart : Int} (hfuel : stop - windowStart ≤ fuel * sevenDays)
    (acc : List IncomeRecord × List String) (n : Nat) :
    ∃ n', (incomeWindows credentials timeOffsetMs stop symbol fuel windowStart acc).run
      (perform history) clocks n =
        (n', .ok ((readRecords history symbol (weekWindows stop fuel windowStart)).foldl addRecord
          acc).1) := by
  induction fuel generalizing windowStart acc n with
  | zero =>
      have hdone : ¬ windowStart < stop := by simp at hfuel; omega
      exact ⟨n, by simp [incomeWindows, hdone, readRecords, weekWindows]⟩
  | succ fuel ih =>
      by_cases hlt : windowStart < stop
      · have hfuel' : stop - min (windowStart + sevenDays) stop ≤ fuel * sevenDays := by
          simp only [sevenDays, hours] at hfuel ⊢
          push_cast at hfuel
          omega
        obtain ⟨n₁, hrun₁⟩ := iterIncomePages_run history symbol clocks credentials windowStart
          (min (windowStart + sevenDays) stop) timeOffsetMs n
        obtain ⟨n₂, hrun₂⟩ := ih hfuel' (((readItems history symbol
          (windowStart, min (windowStart + sevenDays) stop)).map toRecord).foldl addRecord acc) n₁
        refine ⟨n₂, ?_⟩
        simp only [incomeWindows, if_pos hlt, weekWindows]
        rw [Prog.run_bind_ok hrun₁, hrun₂, readRecords, readRecords, List.flatMap_cons,
          List.foldl_append]
      · exact ⟨n, by simp [incomeWindows, hlt, readRecords, weekWindows]⟩

/-- Run to its end, the call returns the gathered records in ascending order. -/
theorem fetchFundingIncome_run (credentials : ApiCredentials) (start stop : Int) (n : Nat) :
    ∃ n', (fetchFundingIncome credentials start stop symbol).run (perform history) clocks n =
      (n', .ok (sortRecords
        ((readRecords history symbol (windowsOf start stop)).foldl addRecord ([], [])).1)) := by
  obtain ⟨n', hrun⟩ := incomeWindows_run history symbol clocks credentials
    (clocks.serverTime - clocks.localTime n) stop (windowBudget_enough start stop) ([], []) (n + 1)
  refine ⟨n', ?_⟩
  have hoffset : computeTimeOffset.run (perform history) clocks n =
      (n + 1, .ok (clocks.serverTime - clocks.localTime n)) := rfl
  rw [fetchFundingIncome, Prog.run_bind_ok hoffset, Prog.run_bind_ok hrun]
  rfl

/-! ## 6. Completeness -/

theorem toRecord_inj {item item' : IncomeItem} (h : item ∈ history.items)
    (h' : item' ∈ history.items) (heq : (toRecord item).tranId = (toRecord item').tranId) :
    item = item' :=
  List.inj_on_of_nodup_map history.distinct h h' heq

theorem mem_readRecords {ws : List (Int × Int)} {r : IncomeRecord} :
    r ∈ readRecords history symbol ws ↔
      ∃ w ∈ ws, ∃ item ∈ readItems history symbol w, toRecord item = r := by
  simp only [readRecords, List.mem_flatMap, List.mem_map]

theorem mem_items_of_itemsIn {w : Int × Int} {item : IncomeItem}
    (h : item ∈ itemsIn history symbol w) : item ∈ history.items :=
  List.mem_of_mem_filter ((mem_itemsIn history symbol).mp h).1

/-- What is gathered are the records of the window exactly when all of them are read. -/
theorem gathered_perm_iff {start stop : Int} {acc : List IncomeRecord × List String}
    (hacc : Gathered (readRecords history symbol (windowsOf start stop)) acc) :
    (sortRecords acc.1).Perm ((itemsIn history symbol (start, stop)).map toRecord) ↔
      ∀ item ∈ itemsIn history symbol (start, stop),
        ∃ w ∈ windowsOf start stop, item ∈ readItems history symbol w := by
  constructor
  · intro hperm item hitem
    have hmem : toRecord item ∈ acc.1 :=
      (sortRecords_perm acc.1).mem_iff.mp (hperm.mem_iff.mpr (List.mem_map_of_mem hitem))
    obtain ⟨w, hw, item', hread, heq⟩ := (mem_readRecords history symbol).mp (hacc.kept _ hmem)
    have hsame : item' = item := toRecord_inj history
      (mem_items_of_itemsIn history symbol (mem_of_readItems history symbol hread))
      (mem_items_of_itemsIn history symbol hitem) (by rw [heq])
    rw [← hsame]
    exact ⟨w, hw, hread⟩
  · intro hall
    refine (sortRecords_perm acc.1).trans ?_
    have hnodup : ((itemsIn history symbol (start, stop)).map toRecord).Nodup := by
      refine List.Nodup.map_on ?_ ((select_nodup history symbol).sublist List.filter_sublist)
      intro item hitem item' hitem' heq
      exact toRecord_inj history (mem_items_of_itemsIn history symbol hitem)
        (mem_items_of_itemsIn history symbol hitem') (by rw [heq])
    rw [List.perm_ext_iff_of_nodup (List.Nodup.of_map _ hacc.nodup) hnodup]
    intro r
    rw [List.mem_map]
    constructor
    · intro hr
      obtain ⟨w, hw, item, hread, rfl⟩ := (mem_readRecords history symbol).mp (hacc.kept r hr)
      obtain ⟨hitem, hlo, hhi⟩ :=
        (mem_itemsIn history symbol).mp (mem_of_readItems history symbol hread)
      have hbounds := weekWindows_bounds w hw
      exact ⟨item, (mem_itemsIn history symbol).mpr ⟨hitem, le_trans (toMs_mono hbounds.1) hlo,
        le_trans hhi (toMs_mono hbounds.2.2)⟩, rfl⟩
    · rintro ⟨item, hitem, rfl⟩
      obtain ⟨w, hw, hread⟩ := hall item hitem
      obtain ⟨r', hr', hid⟩ :=
        hacc.all _ ((mem_readRecords history symbol).mpr ⟨w, hw, item, hread, rfl⟩)
      obtain ⟨w', hw', item', hread', rfl⟩ := (mem_readRecords history symbol).mp (hacc.kept r' hr')
      have hsame : item' = item := toRecord_inj history
        (mem_items_of_itemsIn history symbol (mem_of_readItems history symbol hread'))
        (mem_items_of_itemsIn history symbol hitem) hid
      rw [← hsame]
      exact hr'

/-- The call returns each matching record of `[to_ms(start), to_ms(end)]` exactly once, in
    ascending order of time. -/
def ReturnsHistory (credentials : ApiCredentials) (start stop : Int) (n : Nat) : Prop :=
  ∃ n' records, (fetchFundingIncome credentials start stop symbol).run (perform history) clocks n =
      (n', .ok records) ∧
    records.Pairwise (fun a b => a.timestamp ≤ b.timestamp) ∧
    records.Perm ((itemsIn history symbol (start, stop)).map toRecord)

theorem returnsHistory_iff_all_read (credentials : ApiCredentials) (start stop : Int) (n : Nat) :
    ReturnsHistory history symbol clocks credentials start stop n ↔
      ∀ item ∈ itemsIn history symbol (start, stop),
        ∃ w ∈ windowsOf start stop, item ∈ readItems history symbol w := by
  have hacc := gathered_nil.foldl (readRecords history symbol (windowsOf start stop))
  rw [List.nil_append] at hacc
  obtain ⟨n', hrun⟩ := fetchFundingIncome_run history symbol clocks credentials start stop n
  rw [← gathered_perm_iff history symbol hacc]
  constructor
  · rintro ⟨n'', records, hrun', -, hperm⟩
    rw [hrun, Prod.mk.injEq, Except.ok.injEq] at hrun'
    rw [hrun'.2]
    exact hperm
  · intro hperm
    exact ⟨n', _, hrun, sortRecords_ascending _, hperm⟩

end Call

/-- **When the account history is complete.**  For every history, both clocks, every window
    and every symbol: the call returns the matching records, each once and in order,
    exactly when no page of any seven-day window ends inside a group of equal times, save
    one at the end of a window that another one follows.  Milliseconds are exact, as those of
    the source are from November 2004 to January 2038 (`TimeUtil`). -/
theorem fetchFundingIncome_complete_iff (history : IncomeHistory) (clocks : Clocks)
    (credentials : ApiCredentials) {start stop : Int} (hlt : start < stop)
    (symbol : Option String) (n : Nat) :
    ReturnsHistory history symbol clocks credentials start stop n ↔
      ∀ w ∈ windowsOf start stop, CleanWindow history symbol stop w := by
  rw [returnsHistory_iff_all_read]
  exact all_read_iff_clean history symbol hlt

/-- Two records settled in the same millisecond. -/
def pairHistory : IncomeHistory where
  items := [⟨1735689600000, some "BTCUSDT", .finite true 12 (-2), .number 1001⟩,
    ⟨1735689600000, some "ETHUSDT", .finite false 7 (-2), .number 1002⟩]
  ascending := by decide
  distinct := by decide +kernel

theorem fetchFundingIncome_complete_iff_pair :
    ReturnsHistory pairHistory none ⟨1735689600000, fun _ => 1735689600000⟩ ⟨"k", "s", none⟩
      1735603200000000 1735776000000000 0 := by
  refine (fetchFundingIncome_complete_iff _ _ _ (by decide) _ _).mpr ?_
  intro w _
  exact CleanCuts.of_length_le
    (le_trans (List.filter_sublist.trans List.filter_sublist).length_le (by decide))

/-- The record of the `i`-th symbol in a settlement of many. -/
def crowdedItem (i : Nat) : IncomeItem :=
  ⟨1735689600000, some (toString i), .finite true 1 0, .number i⟩

/-- A thousand and one records, of as many symbols, settled in the same millisecond. -/
def crowdedHistory : IncomeHistory where
  items := (List.range 1001).map crowdedItem
  ascending := by
    rw [Ascending, List.pairwise_map]
    exact List.pairwise_of_forall fun _ _ => le_refl _
  distinct := by
    rw [List.map_map]
    refine List.Nodup.map ?_ List.nodup_range
    intro i j hij
    have hrepr : Nat.repr i = Nat.repr j := hij
    have hdigits : Nat.toDigits 10 i = Nat.toDigits 10 j := by
      rw [← Nat.toList_repr, hrepr, Nat.toList_repr]
    rw [← @Nat.ofDigitChars_toDigits 10 i (by decide) (by decide), hdigits,
      Nat.ofDigitChars_toDigits (by decide) (by decide)]

/-- **A record is lost**: all records of one settlement, the last behind a full page. -/
theorem fetchFundingIncome_loses_record :
    ¬ ReturnsHistory crowdedHistory none ⟨1735689600000, fun _ => 1735689600000⟩ ⟨"k", "s", none⟩
      1735603200000000 1735776000000000 0 := by
  rw [returnsHistory_iff_all_read, all_read_iff_clean _ _ (by decide)]
  intro hclean
  have hitems : ∀ item ∈ crowdedHistory.items, item.time = 1735689600000 := by
    intro item hitem
    simp only [crowdedHistory, List.mem_map] at hitem
    obtain ⟨i, -, rfl⟩ := hitem
    rfl
  have hall : itemsIn crowdedHistory none (1735603200000000, 1735776000000000) =
      crowdedHistory.items := by
    have hselect : crowdedHistory.select none = crowdedHistory.items := by
      rw [IncomeHistory.select, List.filter_eq_self]
      simp
    rw [itemsIn, hselect, window, List.filter_eq_self]
    intro item hitem
    rw [hitems item hitem]
    decide
  have hrow : ∀ i < 1001, crowdedHistory.items[i]? = some (crowdedItem i) := by
    intro i hi
    rw [crowdedHistory, List.getElem?_map, List.getElem?_range hi, Option.map_some]
  have hcut := hclean (1735603200000000, 1735776000000000) (by decide) 999
  rw [hall] at hcut
  rcases hcut _ _ (by decide) (hrow 999 (by decide)) (hrow 1000 (by decide)) with hlt | ⟨hne, -⟩
  · exact absurd hlt (lt_irrefl _)
  · exact hne rfl

end FundingTool.FundingIncome
