import FundingTool.Domain
import FundingTool.FirstSeen
import FundingTool.FundingIncome

/-!
# What any sequence of pages delivers

Here the exchange need not keep to its history: the pages of a call are an arbitrary
sequence.  Which of them are consumed depends on their lengths alone, and the records
returned are the first occurrences of the ids on the consumed pages.  So repetitions on
consumed pages change nothing (`fetchFundingIncome_delivers`), unless they fill up a page
and make the loop ask for one more (`repetition_asks_for_more`).
-/

namespace FundingTool.FundingIncome

open FundingTool.Interaction FundingTool.CursorPaging FundingTool.FirstSeen

/-! ## 1. Any number of pages -/

variable (budget : Int → Int → Nat)

/-- `iterIncomePages` with a bound of one's own on the number of requests for a window. -/
def iterIncomePagesWithin (credentials : ApiCredentials) (start stop timeOffsetMs : Int)
    (symbol : Option String) : Income (List IncomeRecord) := do
  let items ← pages (incomePage credentials (toMs stop) timeOffsetMs symbol) IncomeItem.time 1000
    (fun _ => true) .unbounded (budget start stop) (toMs start)
  pure (items.map toRecord)

def incomeWindowsWithin (credentials : ApiCredentials) (timeOffsetMs stop : Int)
    (symbol : Option String) :
    Nat → Int → List IncomeRecord × List String → Income (List IncomeRecord)
  | 0, windowStart, acc => if windowStart < stop then .raise .unbounded else pure acc.1
  | fuel + 1, windowStart, acc =>
      if windowStart < stop then do
        let windowEnd := min (windowStart + sevenDays) stop
        let recs ← iterIncomePagesWithin budget credentials windowStart windowEnd timeOffsetMs symbol
        incomeWindowsWithin credentials timeOffsetMs stop symbol fuel windowEnd
          (recs.foldl addRecord acc)
      else pure acc.1

def fetchFundingIncomeWithin (credentials : ApiCredentials) (start stop : Int)
    (symbol : Option String) : Income (List IncomeRecord) := do
  let timeOffsetMs ← computeTimeOffset
  let records ← incomeWindowsWithin budget credentials timeOffsetMs stop symbol
    (windowBudget start stop) start ([], [])
  pure (sortRecords records)

theorem incomeWindowsWithin_pageBudget (credentials : ApiCredentials) (timeOffsetMs stop : Int)
    (symbol : Option String) (fuel : Nat) (windowStart : Int)
    (acc : List IncomeRecord × List String) :
    incomeWindowsWithin BinanceUsdm.pageBudget credentials timeOffsetMs stop symbol fuel
        windowStart acc =
      incomeWindows credentials timeOffsetMs stop symbol fuel windowStart acc := by
  induction fuel generalizing windowStart acc with
  | zero => rfl
  | succ fuel ih =>
      simp only [incomeWindowsWithin, incomeWindows, ih]
      rfl

theorem fetchFundingIncomeWithin_pageBudget (credentials : ApiCredentials) (start stop : Int)
    (symbol : Option String) :
    fetchFundingIncomeWithin BinanceUsdm.pageBudget credentials start stop symbol =
      fetchFundingIncome credentials start stop symbol := by
  simp only [fetchFundingIncomeWithin, fetchFundingIncome, incomeWindowsWithin_pageBudget]

/-! ## 2. An endpoint that may answer anything -/

/-- The clocks, and the answers to the requests of a call in turn. -/
structure Endpoint where
  serverTime : Except FundingToolError Int
  localTime : Nat → Int
  answers : Nat → Except FundingToolError (List IncomeItem)

/-- The readings of the local clock so far, and the pages consumed. -/
structure Session where
  readings : Nat
  consumed : List (List IncomeItem)
deriving DecidableEq

def serve : (o : IncomeOp) → Endpoint → Session → Session × o.Resp
  | .serverTime, e, s => (s, e.serverTime)
  | .localMs, e, s => ({ s with readings := s.readings + 1 }, e.localTime s.readings)
  | .income _, e, s =>
      match e.answers s.consumed.length with
      | .ok page => ({ s with consumed := s.consumed ++ [page] }, .ok page)
      | .error err => (s, .error err)

/-- The pages of one window, from the `n`-th answer on: up to the first that is not full. -/
def consume (answers : Nat → Except FundingToolError (List IncomeItem)) :
    Nat → Nat → Except FundingToolError (List (List IncomeItem))
  | 0, _ => .error .unbounded
  | fuel + 1, n => do
      let page ← answers n
      if page.length < 1000 then pure [page]
      else do
        let rest ← consume answers fuel (n + 1)
        pure (page :: rest)

/-- The pages of all windows. -/
def consumeWindows (answers : Nat → Except FundingToolError (List IncomeItem)) (stop : Int) :
    Nat → Int → Nat → Except FundingToolError (List (List IncomeItem))
  | 0, windowStart, _ => if windowStart < stop then .error .unbounded else pure []
  | fuel + 1, windowStart, n =>
      if windowStart < stop then do
        let windowEnd := min (windowStart + sevenDays) stop
        let pages ← consume answers (budget windowStart windowEnd) n
        let rest ← consumeWindows answers stop fuel windowEnd (n + pages.length)
        pure (pages ++ rest)
      else pure []

/-! ## 3. What a run consumes -/

section Runs

variable {budget} {e : Endpoint} {credentials : ApiCredentials} {timeOffsetMs stop : Int}
  {symbol : Option String}

theorem run_incomePage (endMs cursor : Int) (s : Session) :
    (incomePage credentials endMs timeOffsetMs symbol cursor).run serve e s =
      match e.answers s.consumed.length with
      | .ok page => (⟨s.readings + 1, s.consumed ++ [page]⟩, .ok page)
      | .error err => (⟨s.readings + 1, s.consumed⟩, .error err) := by
  simp only [incomePage, localMs, getIncome, Prog.call_bind, Prog.ret_bind, Prog.run_call, serve]
  rcases e.answers s.consumed.length with err | page <;> rfl

/-- Reading a window consumes the pages up to the first that is not full, whatever the
    cursors are. -/
theorem run_pages_consume (endMs : Int) (fuel : Nat) (cursor : Int) (s : Session) :
    ∃ s', (pages (incomePage credentials endMs timeOffsetMs symbol) IncomeItem.time 1000
          (fun _ => true) .unbounded fuel cursor).run serve e s =
        (s', (consume e.answers fuel s.consumed.length).map List.flatten) ∧
      ∀ ps, consume e.answers fuel s.consumed.length = .ok ps → s'.consumed = s.consumed ++ ps := by
  induction fuel generalizing cursor s with
  | zero => exact ⟨s, rfl, fun _ h => by cases h⟩
  | succ fuel ih =>
      have hrun := @run_incomePage e credentials timeOffsetMs symbol endMs cursor s
      simp only [pages, if_true, consume]
      rcases hanswer : e.answers s.consumed.length with err | page
      · rw [hanswer] at hrun
        exact ⟨_, Prog.run_bind_error hrun, fun _ h => by cases h⟩
      · rw [hanswer] at hrun
        rw [Prog.run_bind_ok hrun]
        rcases hlast : page.getLast? with _ | last
        · obtain rfl : page = [] := List.getLast?_eq_none_iff.mp hlast
          refine ⟨_, rfl, ?_⟩
          rintro _ ⟨⟩
          rfl
        · simp only [ok_bind]
          by_cases hfull : page.length < 1000
          · simp only [if_pos hfull]
            refine ⟨⟨s.readings + 1, s.consumed ++ [page]⟩, ?_, ?_⟩
            · simp [pure, Except.pure, Except.map]
            · rintro _ ⟨⟩
              rfl
          · simp only [if_neg hfull]
            obtain ⟨s', hrest, hconsumed⟩ :=
              ih (last.time + 1) ⟨s.readings + 1, s.consumed ++ [page]⟩
            simp only [List.length_append, List.length_singleton] at hrest hconsumed
            rcases hmore : consume e.answers fuel (s.consumed.length + 1) with err | rest
            · rw [hmore] at hrest
              exact ⟨s', Prog.run_bind_error hrest, fun _ h => by cases h⟩
            · rw [hmore] at hrest
              refine ⟨s', Prog.run_bind_ok hrest, ?_⟩
              rintro _ ⟨⟩
              rw [hconsumed rest hmore, List.append_assoc, List.singleton_append]

/-- A window yields the records of the pages it consumes. -/
theorem run_iterIncomePages (windowStart windowEnd : Int) (s : Session) :
    ∃ s', (iterIncomePagesWithin budget credentials windowStart windowEnd timeOffsetMs
          symbol).run serve e s =
        (s', (consume e.answers (budget windowStart windowEnd) s.consumed.length).map
          fun ps => ps.flatten.map toRecord) ∧
      ∀ ps, consume e.answers (budget windowStart windowEnd) s.consumed.length = .ok ps →
        s'.consumed = s.consumed ++ ps := by
  obtain ⟨s₁, hpages, hconsumed⟩ := @run_pages_consume e credentials timeOffsetMs symbol
    (toMs windowEnd) (budget windowStart windowEnd) (toMs windowStart) s
  refine ⟨s₁, ?_, hconsumed⟩
  rcases hmore : consume e.answers (budget windowStart windowEnd) s.consumed.length with err | ps
  · rw [hmore] at hpages
    exact Prog.run_bind_error hpages
  · rw [hmore] at hpages
    rw [iterIncomePagesWithin, Prog.run_bind_ok hpages]
    rfl

/-- The loop over the windows adds the records of what it consumes. -/
theorem run_incomeWindows (fuel : Nat) (windowStart : Int)
    (acc : List IncomeRecord × List String) (s : Session) :
    ∃ s', (incomeWindowsWithin budget credentials timeOffsetMs stop symbol fuel windowStart
          acc).run serve e s =
        (s', (consumeWindows budget e.answers stop fuel windowStart s.consumed.length).map
          fun ps => ((ps.flatten.map toRecord).foldl addRecord acc).1) ∧
      ∀ ps, consumeWindows budget e.answers stop fuel windowStart s.consumed.length = .ok ps →
        s'.consumed = s.consumed ++ ps := by
  induction fuel generalizing windowStart acc s with
  | zero =>
      simp only [incomeWindowsWithin, consumeWindows]
      by_cases hlt : windowStart < stop
      · rw [if_pos hlt, if_pos hlt]
        exact ⟨s, rfl, fun _ h => by cases h⟩
      · rw [if_neg hlt, if_neg hlt]
        refine ⟨s, rfl, ?_⟩
        rintro _ ⟨⟩
        rw [List.append_nil]
  | succ fuel ih =>
      simp only [incomeWindowsWithin, consumeWindows]
      by_cases hlt : windowStart < stop
      · rw [if_pos hlt, if_pos hlt]
        obtain ⟨s₁, hiter, hconsumed⟩ := @run_iterIncomePages budget e credentials timeOffsetMs
          symbol windowStart (min (windowStart + sevenDays) stop) s
        rcases hmore : consume e.answers (budget windowStart (min (windowStart + sevenDays) stop))
            s.consumed.length with err | ps
        · rw [hmore] at hiter
          exact ⟨s₁, Prog.run_bind_error hiter, fun _ h => by cases h⟩
        · rw [hmore] at hiter
          rw [Prog.run_bind_ok hiter, ok_bind]
          obtain ⟨s₂, hrun, hconsumed₂⟩ := ih (min (windowStart + sevenDays) stop)
            ((ps.flatten.map toRecord).foldl addRecord acc) s₁
          rw [hconsumed ps hmore, List.length_append] at hrun hconsumed₂
          rcases hrest : consumeWindows budget e.answers stop fuel
              (min (windowStart + sevenDays) stop) (s.consumed.length + ps.length) with err | rest
          · rw [hrest] at hrun
            exact ⟨s₂, hrun, fun _ h => by cases h⟩
          · rw [hrest] at hrun
            refine ⟨s₂, ?_, ?_⟩
            · rw [hrun]
              simp [Except.map, bind, Except.bind, pure, Except.pure]
            · rintro _ ⟨⟩
              rw [hconsumed₂ rest hrest, List.append_assoc]
      · rw [if_neg hlt, if_neg hlt]
        refine ⟨s, rfl, ?_⟩
        rintro _ ⟨⟩
        rw [List.append_nil]

/-- A call returns when the windows can be consumed, and sorts what was first seen. -/
theorem run_fetchFundingIncome {start : Int} {time : Int} (htime : e.serverTime = .ok time) :
    ∃ s', (fetchFundingIncomeWithin budget credentials start stop symbol).run serve e ⟨0, []⟩ =
        (s', (consumeWindows budget e.answers stop (windowBudget start stop) start 0).map
          fun ps => sortRecords ((ps.flatten.map toRecord).foldl addRecord ([], [])).1) ∧
      ∀ ps, consumeWindows budget e.answers stop (windowBudget start stop) start 0 = .ok ps →
        s'.consumed = ps := by
  have hoffset : computeTimeOffset.run serve e ⟨0, []⟩ = (⟨1, []⟩, .ok (time - e.localTime 0)) := by
    simp only [computeTimeOffset, getServerTime, localMs, Prog.call_bind, Prog.run_call, serve,
      htime]
    rfl
  obtain ⟨s', hrun, hconsumed⟩ := @run_incomeWindows budget e credentials (time - e.localTime 0)
    stop symbol (windowBudget start stop) start ([], []) ⟨1, []⟩
  rw [fetchFundingIncomeWithin, Prog.run_bind_ok hoffset]
  rcases hwindows : consumeWindows budget e.answers stop (windowBudget start stop) start 0 with
    err | ps
  · rw [List.length_nil, hwindows] at hrun
    exact ⟨s', Prog.run_bind_error hrun, fun _ h => by cases h⟩
  · rw [List.length_nil, hwindows] at hrun
    refine ⟨s', Prog.run_bind_ok hrun, ?_⟩
    rintro _ ⟨⟩
    exact hconsumed ps hwindows

theorem serverTime_of_returns {start : Int} {s : Session} {records : List IncomeRecord}
    (h : (fetchFundingIncomeWithin budget credentials start stop symbol).run serve e ⟨0, []⟩ =
      (s, .ok records)) : ∃ time, e.serverTime = .ok time := by
  rcases htime : e.serverTime with err | time
  · have hoffset : computeTimeOffset.run serve e ⟨0, []⟩ = (⟨0, []⟩, .error err) := by
      simp only [computeTimeOffset, getServerTime, Prog.call_bind, Prog.run_call, serve, htime]
      rfl
    rw [fetchFundingIncomeWithin, Prog.run_bind_error hoffset] at h
    cases h
  · exact ⟨time, rfl⟩

end Runs

/-! ## 4. What is returned -/

theorem foldl_addRecord (rows recs : List IncomeRecord) (seen : List String) :
    (rows.foldl addRecord (recs, seen)).1 = recs ++ firstSeen IncomeRecord.tranId seen rows := by
  induction rows generalizing recs seen with
  | nil => simp [firstSeen]
  | cons rec rows ih =>
      rw [List.foldl_cons, firstSeen, addRecord]
      by_cases hseen : rec.tranId ∈ seen
      · rw [if_pos hseen, if_pos hseen, ih]
      · rw [if_neg hseen, if_neg hseen, ih, List.append_assoc, List.singleton_append]

/-- The records of the pages consumed, in their order. -/
def Session.rows (s : Session) : List IncomeRecord := s.consumed.flatten.map toRecord

/-- **A call that returns has kept the first records of the rows it consumed.** -/
theorem fetch_eq {e : Endpoint} {credentials : ApiCredentials} {start stop : Int}
    {symbol : Option String} {s : Session} {records : List IncomeRecord}
    (h : (fetchFundingIncomeWithin budget credentials start stop symbol).run serve e ⟨0, []⟩ =
      (s, .ok records)) :
    consumeWindows budget e.answers stop (windowBudget start stop) start 0 = .ok s.consumed ∧
      records = sortRecords (firstSeen IncomeRecord.tranId [] s.rows) := by
  obtain ⟨time, htime⟩ := serverTime_of_returns h
  obtain ⟨s', hrun, hconsumed⟩ := @run_fetchFundingIncome budget e credentials stop symbol start
    time htime
  rw [h] at hrun
  rcases hwindows : consumeWindows budget e.answers stop (windowBudget start stop) start 0 with
    err | ps
  · rw [hwindows] at hrun
    cases hrun
  · rw [hwindows] at hrun
    obtain rfl : s = s' := congrArg Prod.fst hrun
    obtain rfl := hconsumed ps hwindows
    refine ⟨rfl, ?_⟩
    have hrecords : records =
        sortRecords ((s.consumed.flatten.map toRecord).foldl addRecord ([], [])).1 :=
      Except.ok.inj (congrArg Prod.snd hrun)
    rw [hrecords, foldl_addRecord, List.nil_append, Session.rows]

/-! ## 5. Repetitions -/

/-- The id a record is recognised by. -/
def IncomeItem.id (item : IncomeItem) : String := item.tranId.str

/-- Every answer followed by more rows. -/
def followedBy (answers : Nat → Except FundingToolError (List IncomeItem))
    (extra : Nat → List IncomeItem) (n : Nat) : Except FundingToolError (List IncomeItem) :=
  (answers n).map (· ++ extra n)

/-- The additional rows repeat ids already delivered, and do not fill up a page. -/
structure Repetitions (answers : Nat → Except FundingToolError (List IncomeItem))
    (extra : Nat → List IncomeItem) : Prop where
  delivered : ∀ n, ∀ item ∈ extra n, ∃ m, m ≤ n ∧ ∃ page, answers m = .ok page ∧
    ∃ first ∈ page, first.id = item.id
  full : ∀ n page, answers n = .ok page →
    (page.length < 1000 ↔ (page ++ extra n).length < 1000)

/-- The pages from the `n`-th on, followed by the additional rows. -/
def extend (extra : Nat → List IncomeItem) : Nat → List (List IncomeItem) → List (List IncomeItem)
  | _, [] => []
  | n, page :: rest => (page ++ extra n) :: extend extra (n + 1) rest

section Repetitions

variable {answers : Nat → Except FundingToolError (List IncomeItem)}
  {extra : Nat → List IncomeItem}

theorem length_extend (n : Nat) (ps : List (List IncomeItem)) :
    (extend extra n ps).length = ps.length := by
  induction ps generalizing n with
  | nil => rfl
  | cons page rest ih => rw [extend, List.length_cons, List.length_cons, ih]

theorem extend_append (n : Nat) (ps qs : List (List IncomeItem)) :
    extend extra n (ps ++ qs) = extend extra n ps ++ extend extra (n + ps.length) qs := by
  induction ps generalizing n with
  | nil => rfl
  | cons page rest ih =>
      rw [List.cons_append, extend, extend, ih, List.cons_append, List.length_cons, Nat.add_assoc,
        Nat.add_comm 1]

theorem consume_followedBy (h : Repetitions answers extra) (fuel n : Nat) :
    consume (followedBy answers extra) fuel n = (consume answers fuel n).map (extend extra n) := by
  induction fuel generalizing n with
  | zero => rfl
  | succ fuel ih =>
      simp only [consume, ih, followedBy]
      rcases hanswer : answers n with err | page
      · rfl
      · simp only [Except.map, ok_bind]
        by_cases hfull : page.length < 1000
        · rw [if_pos hfull, if_pos ((h.full n page hanswer).mp hfull)]
          rfl
        · rw [if_neg hfull, if_neg ((h.full n page hanswer).not.mp hfull)]
          rcases consume answers fuel (n + 1) with err | rest <;> rfl

theorem consumeWindows_followedBy (h : Repetitions answers extra) {stop : Int} (fuel : Nat)
    (windowStart : Int) (n : Nat) :
    consumeWindows budget (followedBy answers extra) stop fuel windowStart n =
      (consumeWindows budget answers stop fuel windowStart n).map (extend extra n) := by
  induction fuel generalizing windowStart n with
  | zero =>
      simp only [consumeWindows]
      split <;> rfl
  | succ fuel ih =>
      simp only [consumeWindows, consume_followedBy h, ih]
      split
      · rcases consume answers (budget windowStart (min (windowStart + sevenDays) stop)) n with
          err | ps
        · rfl
        · simp only [Except.map, ok_bind, length_extend]
          rcases consumeWindows budget answers stop fuel (min (windowStart + sevenDays) stop)
              (n + ps.length) with err | rest
          · rfl
          · simp only [ok_bind, pure, Except.pure, extend_append]
      · rfl

/-- The pages consumed are answers in turn. -/
theorem consume_answers {fuel n : Nat} {ps : List (List IncomeItem)}
    (h : consume answers fuel n = .ok ps) (i : Nat) (hi : i < ps.length) :
    answers (n + i) = .ok ps[i] := by
  induction fuel generalizing n ps i with
  | zero => cases h
  | succ fuel ih =>
      obtain ⟨page, hpage, h⟩ := bind_eq_ok h
      by_cases hfull : page.length < 1000
      · rw [if_pos hfull] at h
        obtain rfl := Except.ok.inj h
        obtain rfl : i = 0 := by simpa using hi
        exact hpage
      · rw [if_neg hfull] at h
        obtain ⟨rest, hrest, h⟩ := bind_eq_ok h
        obtain rfl := Except.ok.inj h
        cases i with
        | zero => exact hpage
        | succ i =>
            have hnext := ih hrest i (by simpa using hi)
            rw [Nat.add_assoc, Nat.add_comm 1] at hnext
            exact hnext

theorem consumeWindows_answers {stop : Int} {fuel : Nat} {windowStart : Int} {n : Nat}
    {ps : List (List IncomeItem)}
    (h : consumeWindows budget answers stop fuel windowStart n = .ok ps) (i : Nat)
    (hi : i < ps.length) : answers (n + i) = .ok ps[i] := by
  induction fuel generalizing windowStart n ps i with
  | zero =>
      rw [consumeWindows] at h
      split at h
      · cases h
      · obtain rfl := Except.ok.inj h
        cases hi
  | succ fuel ih =>
      rw [consumeWindows] at h
      split at h
      · obtain ⟨front, hfront, h⟩ := bind_eq_ok h
        obtain ⟨back, hback, h⟩ := bind_eq_ok h
        obtain rfl := Except.ok.inj h
        by_cases hlt : i < front.length
        · rw [List.getElem_append_left hlt]
          exact consume_answers hfront i hlt
        · have hle := not_lt.mp hlt
          rw [List.length_append] at hi
          rw [List.getElem_append_right hle]
          have hnext := ih hback (i - front.length) (by omega)
          rw [show n + front.length + (i - front.length) = n + i by omega] at hnext
          exact hnext
      · obtain rfl := Except.ok.inj h
        cases hi

theorem repeating_extend (h : Repetitions answers extra) {n : Nat} {seen : List String}
    {ps : List (List IncomeItem)}
    (hseen : ∀ m, m < n → ∀ page, answers m = .ok page → ∀ item ∈ page, item.id ∈ seen)
    (hps : ∀ i, (hi : i < ps.length) → answers (n + i) = .ok ps[i]) :
    Repeating IncomeItem.id seen ps.flatten (extend extra n ps).flatten := by
  induction ps generalizing n seen with
  | nil => exact .nil
  | cons page rest ih =>
      have hpage : answers n = .ok page := hps 0 (Nat.succ_pos _)
      rw [extend, List.flatten_cons, List.flatten_cons]
      refine Repeating.append page ?_ (ih ?_ ?_)
      · intro item hitem
        obtain ⟨m, hle, page', hpage', first, hfirst, hid⟩ := h.delivered n item hitem
        rcases Nat.lt_or_eq_of_le hle with hlt | rfl
        · exact Or.inl (hid ▸ hseen m hlt page' hpage' first hfirst)
        · rw [hpage] at hpage'
          obtain rfl := Except.ok.inj hpage'
          exact Or.inr (List.mem_map.mpr ⟨first, hfirst, hid⟩)
      · intro m hm page' hpage' item hitem
        rcases Nat.lt_succ_iff_lt_or_eq.mp hm with hlt | rfl
        · exact List.mem_append_right _ (hseen m hlt page' hpage' item hitem)
        · rw [hpage] at hpage'
          obtain rfl := Except.ok.inj hpage'
          exact List.mem_append_left _ (List.mem_reverse.mpr (List.mem_map_of_mem hitem))
      · intro i hi
        rw [Nat.add_assoc, Nat.add_comm 1]
        exact hps (i + 1) (Nat.succ_lt_succ hi)

end Repetitions

/-! ## 6. The records of a call -/

/-- **Income records survive any paging.**  The records of a call that returns are the first
    ones of the ids on the pages it consumed, by time and then as they were first seen.
    Repetitions of ids already delivered, anywhere on the pages consumed, do not change
    them; and pages followed by such repetitions are consumed alike, unless that fills up
    a page.  Cursors are exact milliseconds, as the source's are from November 2004 to January
    2038 (`TimeUtil`). -/
theorem fetchFundingIncome_delivers {e : Endpoint} {credentials : ApiCredentials}
    {start stop : Int} {symbol : Option String} {s : Session} {records : List IncomeRecord}
    (h : (fetchFundingIncomeWithin budget credentials start stop symbol).run serve e ⟨0, []⟩ =
      (s, .ok records)) :
    (∀ id, id ∈ records.map IncomeRecord.tranId ↔ id ∈ s.rows.map IncomeRecord.tranId) ∧
    (records.map IncomeRecord.tranId).Nodup ∧
    (∀ rec ∈ records, s.rows.find? (fun row => decide (row.tranId = rec.tranId)) = some rec) ∧
    records.Pairwise
      (Before IncomeRecord.timestamp (occurrence IncomeRecord.tranId s.rows)) ∧
    (∀ budget' e' s' records',
      (fetchFundingIncomeWithin budget' credentials start stop symbol).run serve e' ⟨0, []⟩ =
        (s', .ok records') →
      Repeating IncomeRecord.tranId [] s.rows s'.rows → records' = records) ∧
    ∀ extra, Repetitions e.answers extra →
      ∃ s', (fetchFundingIncomeWithin budget credentials start stop symbol).run serve
        { e with answers := followedBy e.answers extra } ⟨0, []⟩ = (s', .ok records) := by
  obtain ⟨hwindows, hrecords⟩ := fetch_eq budget h
  have hperm : records.Perm (firstSeen IncomeRecord.tranId [] s.rows) := by
    rw [hrecords]
    exact List.perm_insertionSort _ _
  have hrepeat : ∀ rows, Repeating IncomeRecord.tranId [] s.rows rows →
      sortRecords (firstSeen IncomeRecord.tranId [] rows) = records := by
    intro rows hrows
    rw [hrecords, hrows.firstSeen_eq fun _ hk => hk]
  refine ⟨?_, ?_, ?_, ?_, ?_, ?_⟩
  · intro id
    rw [(hperm.map _).mem_iff, mem_keys_firstSeen]
    simp
  · exact (hperm.map _).nodup_iff.mpr (firstSeen_nodup _ _)
  · intro rec hrec
    exact find_of_mem_firstSeen (hperm.mem_iff.mp hrec)
  · rw [hrecords]
    exact pairwise_insertionSort (firstSeen_pairwise [] s.rows)
  · intro budget' e' s' records' h' hrows
    rw [(fetch_eq budget' h').2]
    exact hrepeat _ hrows
  · intro extra hextra
    obtain ⟨time, htime⟩ := serverTime_of_returns h
    obtain ⟨s', hrun, -⟩ := @run_fetchFundingIncome budget
      { e with answers := followedBy e.answers extra } credentials stop symbol start time htime
    refine ⟨s', ?_⟩
    have hanswers : ∀ i, (hi : i < s.consumed.length) → e.answers (0 + i) = .ok s.consumed[i] :=
      consumeWindows_answers budget hwindows
    have hrows : Repeating IncomeItem.id [] s.consumed.flatten
        (extend extra 0 s.consumed).flatten :=
      repeating_extend hextra (fun m hm => absurd hm (Nat.not_lt_zero m)) hanswers
    rw [hrun, consumeWindows_followedBy budget hextra, hwindows]
    simp only [Except.map]
    rw [foldl_addRecord, List.nil_append]
    exact congrArg (fun r => (s', Except.ok r))
      (hrepeat _ (@Repeating.map _ _ IncomeRecord.tranId [] _ toRecord _ _ hrows))

/-- A page of two rows, later followed by the first of them. -/
theorem fetchFundingIncome_delivers_again :
    ∃ s', (fetchFundingIncomeWithin BinanceUsdm.pageBudget ⟨"key", "secret", none⟩ 0 (hours 1)
        none).run serve
      ⟨.ok 0, fun _ => 0, followedBy
        (fun _ => .ok [⟨1, some "BTCUSDT", .finite false 1 0, .text "first"⟩,
          ⟨0, some "BTCUSDT", .finite false 2 0, .text "second"⟩])
        fun _ => [⟨1, some "BTCUSDT", .finite false 1 0, .text "first"⟩]⟩ ⟨0, []⟩ =
      (s', .ok [⟨0, "BTCUSDT", .finite false 2 0, "second"⟩,
        ⟨1000, "BTCUSDT", .finite false 1 0, "first"⟩]) := by
  have hrun : (fetchFundingIncomeWithin BinanceUsdm.pageBudget ⟨"key", "secret", none⟩ 0 (hours 1)
        none).run serve
      ⟨.ok 0, fun _ => 0, fun _ => .ok [⟨1, some "BTCUSDT", .finite false 1 0, .text "first"⟩,
        ⟨0, some "BTCUSDT", .finite false 2 0, .text "second"⟩]⟩ ⟨0, []⟩ =
      (⟨2, [[⟨1, some "BTCUSDT", .finite false 1 0, .text "first"⟩,
        ⟨0, some "BTCUSDT", .finite false 2 0, .text "second"⟩]]⟩,
        .ok [⟨0, "BTCUSDT", .finite false 2 0, "second"⟩,
          ⟨1000, "BTCUSDT", .finite false 1 0, "first"⟩]) := by
    decide +kernel
  refine (fetchFundingIncome_delivers _ hrun).2.2.2.2.2 _ ⟨?_, ?_⟩
  · intro n item hitem
    exact ⟨n, le_refl n, _, rfl, _, List.mem_cons_self, by rw [List.mem_singleton.mp hitem]⟩
  · rintro n page ⟨⟩
    exact ⟨fun _ => by decide, fun _ => by decide⟩

/-- A row and its repetitions, one short of a page. -/
def nearlyFull : List IncomeItem :=
  List.replicate 999 ⟨0, some "BTCUSDT", .finite false 1 0, .text "first"⟩

/-- The answers to the requests of a call; behind a page that is nearly full there is
    another row. -/
def twoAnswers : Nat → Except FundingToolError (List IncomeItem)
  | 0 => .ok nearlyFull
  | 1 => .ok [⟨1, some "BTCUSDT", .finite false 1 0, .text "second"⟩]
  | _ => .ok []

/-- One repetition more on the first page. -/
def oneMore : Nat → List IncomeItem
  | 0 => [⟨0, some "BTCUSDT", .finite false 1 0, .text "first"⟩]
  | _ => []

set_option maxRecDepth 20000 in
/-- **A repetition that fills up a page** makes the loop ask for the next one, and the
    records change. -/
theorem repetition_asks_for_more :
    ((fetchFundingIncome ⟨"key", "secret", none⟩ 0 (hours 1) none).run serve
        ⟨.ok 0, fun _ => 0, twoAnswers⟩ ⟨0, []⟩).2 =
      .ok [⟨0, "BTCUSDT", .finite false 1 0, "first"⟩] ∧
    ((fetchFundingIncome ⟨"key", "secret", none⟩ 0 (hours 1) none).run serve
        ⟨.ok 0, fun _ => 0, followedBy twoAnswers oneMore⟩ ⟨0, []⟩).2 =
      .ok [⟨0, "BTCUSDT", .finite false 1 0, "first"⟩, ⟨1000, "BTCUSDT", .finite false 1 0, "second"⟩] := by
  decide +kernel

end FundingTool.FundingIncome
