import FundingTool.Interaction
import Mathlib.Data.List.Nodup

/-!
# Cursor pagination over a time-ordered history

A client reads the rows of a closed time range page by page.  Each page holds at most
`limit` rows from the cursor on; a full page moves the cursor one past the time of its
last row, a page that is not full ends the reading.

`pages` is that loop as an interaction program, `collect` its pure counterpart for a
source that answers from a fixed list.  What `collect` yields is described without
cursor and fuel by the relation `Paged`, and everything about gaps and ties is proved
there:

  * strictly increasing times: nothing is lost (`Paged.eq_of_strict`);
  * ties: a row is lost exactly where a page ends inside a group of equal times
    (`Paged.mem_of_cleanCuts`, `Paged.exists_missed`).
-/

namespace FundingTool.CursorPaging

open FundingTool.Interaction

variable {Op : Type} {Resp : Op → Type} {Err σ χ ρ : Type}

/-! ## 1. The loop -/

/-- Read pages from `cursor` on while `more` holds of the cursor.  `fuel` bounds the
    number of requests; `spent` marks a reading that would need more. -/
def pages (fetch : Int → Prog Op Resp Err (List ρ)) (time : ρ → Int) (limit : Nat)
    (more : Int → Bool) (spent : Err) : Nat → Int → Prog Op Resp Err (List ρ)
  | 0, cursor => if more cursor then .raise spent else pure []
  | fuel + 1, cursor =>
      if more cursor then do
        let batch ← fetch cursor
        match batch.getLast? with
        | none => pure []
        | some last =>
            if batch.length < limit then pure batch
            else do
              let rest ← pages fetch time limit more spent fuel (time last + 1)
              pure (batch ++ rest)
      else pure []

/-- The rows `pages` returns when the page at a cursor is `page cursor`; `none` when
    the fuel is spent. -/
def collect (page : Int → List ρ) (time : ρ → Int) (limit : Nat) (more : Int → Bool) :
    Nat → Int → Option (List ρ)
  | 0, cursor => if more cursor then none else some []
  | fuel + 1, cursor =>
      if more cursor then
        match (page cursor).getLast? with
        | none => some []
        | some last =>
            if (page cursor).length < limit then some (page cursor)
            else (collect page time limit more fuel (time last + 1)).map (page cursor ++ ·)
      else some []

section Semantics

variable {fetch : Int → Prog Op Resp Err (List ρ)} {page : Int → List ρ} {time : ρ → Int}
  {limit : Nat} {more : Int → Bool} {spent : Err}

/-- Run alone, the loop returns what `collect` says; `Keep` is what every request keeps
    of the state. -/
theorem run_pages {exec : (o : Op) → χ → σ → σ × Resp o} {c : χ} {Keep : σ → Prop}
    (hfetch : ∀ cursor s, Keep s →
      ∃ s', Keep s' ∧ (fetch cursor).run exec c s = (s', .ok (page cursor)))
    {fuel : Nat} {cursor : Int} {rows : List ρ}
    (h : collect page time limit more fuel cursor = some rows) {s : σ} (hkeep : Keep s) :
    ∃ s', Keep s' ∧
      (pages fetch time limit more spent fuel cursor).run exec c s = (s', .ok rows) := by
  induction fuel generalizing cursor rows s with
  | zero =>
      by_cases hmore : more cursor
      · simp [collect, hmore] at h
      · simp only [collect, hmore, Bool.false_eq_true, if_false, Option.some.injEq] at h
        exact ⟨s, hkeep, by simp [pages, hmore, h]⟩
  | succ fuel ih =>
      by_cases hmore : more cursor
      · simp only [collect, hmore, if_true] at h
        obtain ⟨s₁, hkeep₁, hrun₁⟩ := hfetch cursor s hkeep
        simp only [pages, hmore, if_true]
        rw [Prog.run_bind_ok hrun₁]
        rcases hlast : (page cursor).getLast? with _ | last
        · simp only [hlast, Option.some.injEq] at h
          exact ⟨s₁, hkeep₁, by simp [h]⟩
        · simp only [hlast] at h
          by_cases hlen : (page cursor).length < limit
          · simp only [if_pos hlen, Option.some.injEq] at h
            refine ⟨s₁, hkeep₁, ?_⟩
            simp only [if_pos hlen]
            rw [h]
            rfl
          · simp only [if_neg hlen, Option.map_eq_some_iff] at h
            obtain ⟨rest, hrest, rfl⟩ := h
            obtain ⟨s₂, hkeep₂, hrun₂⟩ := ih hrest hkeep₁
            refine ⟨s₂, hkeep₂, ?_⟩
            simp only [if_neg hlen]
            rw [Prog.run_bind_ok hrun₂]
            rfl
      · simp only [collect, hmore, Bool.false_eq_true, if_false, Option.some.injEq] at h
        exact ⟨s, hkeep, by simp [pages, hmore, h]⟩

theorem run_pages_still {exec : (o : Op) → χ → σ → σ × Resp o} {c : χ} {s : σ}
    (hfetch : ∀ cursor, (fetch cursor).run exec c s = (s, .ok (page cursor)))
    {fuel : Nat} {cursor : Int} {rows : List ρ}
    (h : collect page time limit more fuel cursor = some rows) :
    (pages fetch time limit more spent fuel cursor).run exec c s = (s, .ok rows) := by
  have hstill : ∀ cursor s', s' = s → ∃ s'', s'' = s ∧
      (fetch cursor).run exec c s' = (s'', .ok (page cursor)) := by
    rintro cursor s' rfl
    exact ⟨s', rfl, hfetch cursor⟩
  obtain ⟨s', rfl, hrun⟩ := run_pages hstill h rfl
  exact hrun

/-- A loop over a safe `fetch` whose pages are known is safe, and what it returns is
    what `collect` says. -/
theorem safe_pages {exec : (o : Op) → χ → σ → σ × Resp o} {Inv : σ → Prop}
    {Guard : σ → Op → χ → Prop}
    (hfetch : ∀ cursor, (fetch cursor).Safe exec Inv Guard fun batch => batch = page cursor)
    (fuel : Nat) (cursor : Int) :
    (pages fetch time limit more spent fuel cursor).Safe exec Inv Guard
      fun rows => collect page time limit more fuel cursor = some rows := by
  induction fuel generalizing cursor with
  | zero => by_cases hmore : more cursor <;> simp [pages, collect, hmore, Prog.Safe]
  | succ fuel ih =>
      by_cases hmore : more cursor
      · simp only [pages, collect, hmore, if_true]
        apply Prog.Safe.bind (hfetch cursor)
        rintro batch rfl
        rcases hlast : (page cursor).getLast? with _ | last
        · rfl
        · by_cases hlen : (page cursor).length < limit
          · simp [hlen, Prog.Safe]
          · simp only [if_neg hlen]
            apply Prog.Safe.bind (ih (time last + 1))
            intro rest hrest
            simp [Prog.Safe, hrest]
      · simp [pages, collect, hmore, Prog.Safe]

end Semantics

/-! ## 2. Answering from a history -/

variable (time : ρ → Int) (limit : Nat)

/-- The rows with `lo ≤ time ≤ hi`. -/
def window (rows : List ρ) (lo hi : Int) : List ρ :=
  rows.filter fun r => decide (lo ≤ time r ∧ time r ≤ hi)

/-- The first `limit` rows with `lo ≤ time ≤ hi`. -/
def answer (rows : List ρ) (lo hi : Int) : List ρ := (window time rows lo hi).take limit

/-- Ascending in time, ties in the given order. -/
def Ascending (rows : List ρ) : Prop := rows.Pairwise fun r r' => time r ≤ time r'

instance (rows : List ρ) : Decidable (Ascending time rows) :=
  inferInstanceAs (Decidable (List.Pairwise _ _))

def StrictlyAscending (rows : List ρ) : Prop := rows.Pairwise fun r r' => time r < time r'

instance (rows : List ρ) : Decidable (StrictlyAscending time rows) :=
  inferInstanceAs (Decidable (List.Pairwise _ _))

/-- Reading `rows` in pages of `limit` yields `out`: a short rest is read whole; a full
    page is followed by what comes strictly later than its last row. -/
inductive Paged : List ρ → List ρ → Prop
  | short {rows : List ρ} : rows.length < limit → Paged rows rows
  | full {rows out : List ρ} {last : ρ} : limit ≤ rows.length →
      rows[limit - 1]? = some last →
      Paged (rows.filter fun r => decide (time last < time r)) out →
      Paged rows (rows.take limit ++ out)

variable {time limit}

theorem StrictlyAscending.ascending {rows : List ρ} (h : StrictlyAscending time rows) :
    Ascending time rows :=
  List.Pairwise.imp (fun hlt => Int.le_of_lt hlt) h

theorem mem_window {rows : List ρ} {lo hi : Int} {r : ρ} :
    r ∈ window time rows lo hi ↔ r ∈ rows ∧ lo ≤ time r ∧ time r ≤ hi := by
  simp [window]

theorem Ascending.window {rows : List ρ} (h : Ascending time rows) (lo hi : Int) :
    Ascending time (window time rows lo hi) :=
  List.Pairwise.sublist List.filter_sublist h

theorem StrictlyAscending.window {rows : List ρ} (h : StrictlyAscending time rows)
    (lo hi : Int) : StrictlyAscending time (CursorPaging.window time rows lo hi) :=
  List.Pairwise.sublist List.filter_sublist h

/-- The range after a row of the range is the part of it that comes later. -/
theorem window_after {rows : List ρ} {lo hi : Int} {last : ρ} (hlast : lo ≤ time last) :
    window time rows (time last + 1) hi =
      (window time rows lo hi).filter fun r => decide (time last < time r) := by
  simp only [window, List.filter_filter]
  apply List.filter_congr
  intro r _
  rw [← Bool.decide_and, decide_eq_decide]
  omega

theorem getLast?_take {rows : List ρ} {n : Nat} (hpos : 0 < n) (hlen : n ≤ rows.length) :
    (rows.take n).getLast? = rows[n - 1]? := by
  rw [List.getLast?_eq_getElem?, List.length_take, Nat.min_eq_left hlen,
    List.getElem?_take_of_lt (by omega)]

/-- An ascending history falls into the rows up to `t` and the rows after `t`. -/
theorem window_split {rows : List ρ} (hasc : Ascending time rows) {lo t hi : Int}
    (hlo : lo ≤ t + 1) (hhi : t ≤ hi) :
    window time rows lo hi = window time rows lo t ++ window time rows (t + 1) hi := by
  induction rows with
  | nil => rfl
  | cons first rest ih =>
      obtain ⟨hfirst, hrest⟩ := List.pairwise_cons.mp hasc
      have ih' := ih hrest
      by_cases hin : time first ≤ t
      · -- the first row is in the left part, if anywhere
        have hright : window time (first :: rest) (t + 1) hi = window time rest (t + 1) hi := by
          rw [window, List.filter_cons, if_neg (by simp only [decide_eq_true_eq]; omega), window]
        rw [hright]
        by_cases hlo' : lo ≤ time first
        · have hboth : lo ≤ time first ∧ time first ≤ hi := by omega
          have hleft : lo ≤ time first ∧ time first ≤ t := by omega
          simp only [window, List.filter_cons, hboth, hleft, decide_true, if_true, and_self,
            List.cons_append] at ih' ⊢
          rw [ih']
        · have hboth : ¬ (lo ≤ time first ∧ time first ≤ hi) := by omega
          have hleft : ¬ (lo ≤ time first ∧ time first ≤ t) := by omega
          simp only [window, List.filter_cons, hboth, hleft, decide_false, Bool.false_eq_true,
            if_false] at ih' ⊢
          exact ih'
      · -- the left part is empty
        have hleft : window time (first :: rest) lo t = [] := by
          rw [window, List.filter_eq_nil_iff]
          intro r hr
          simp only [decide_eq_true_eq]
          rcases List.mem_cons.mp hr with rfl | hr
          · omega
          · have := hfirst r hr
            omega
        rw [hleft, List.nil_append]
        apply List.filter_congr
        intro r hr
        rw [decide_eq_decide]
        rcases List.mem_cons.mp hr with rfl | hr
        · omega
        · have := hfirst r hr
          omega

/-- **The loop reads its range in pages.**  With fuel for every millisecond of the range
    it comes to an end, and what it returns is the range read in pages. -/
theorem collect_paged {rows : List ρ} {hi : Int} {more : Int → Bool} (hlimit : 0 < limit)
    (hmore : ∀ cursor, cursor ≤ hi → more cursor = true) {fuel : Nat} {cursor : Int}
    (hfuel : (hi + 1 - cursor).toNat < fuel) :
    ∃ out, collect (fun c => answer time limit rows c hi) time limit more fuel cursor = some out ∧
      Paged time limit (window time rows cursor hi) out := by
  induction fuel generalizing cursor with
  | zero => omega
  | succ fuel ih =>
      by_cases hmem : ∃ r, r ∈ window time rows cursor hi
      · obtain ⟨r, hr⟩ := hmem
        have hcursor : cursor ≤ hi := by
          have := mem_window.mp hr
          omega
        by_cases hshort : (window time rows cursor hi).length < limit
        · -- the page is not full: it is the whole rest of the range
          refine ⟨window time rows cursor hi, ?_, .short hshort⟩
          have hpage : answer time limit rows cursor hi = window time rows cursor hi :=
            List.take_of_length_le (by omega)
          simp only [collect, hmore cursor hcursor, if_true, hpage]
          rcases hlast : (window time rows cursor hi).getLast? with _ | last
          · simp [List.getLast?_eq_none_iff.mp hlast]
          · simp [hshort]
        · -- a full page: go on one past its last row
          have hfull : limit ≤ (window time rows cursor hi).length := by omega
          obtain ⟨last, hlast⟩ : ∃ last, (window time rows cursor hi)[limit - 1]? = some last :=
            ⟨_, List.getElem?_eq_getElem (by omega)⟩
          have hrange := mem_window.mp (List.mem_of_getElem? hlast)
          obtain ⟨rest, hrest, hpaged⟩ := @ih (time last + 1) (by omega)
          rw [window_after (by omega : cursor ≤ time last)] at hpaged
          refine ⟨_, ?_, .full hfull hlast hpaged⟩
          have hlen : (answer time limit rows cursor hi).length = limit := by
            simp [answer, Nat.min_eq_left hfull]
          have hgetLast : (answer time limit rows cursor hi).getLast? = some last := by
            rw [answer, getLast?_take hlimit hfull, hlast]
          have hnot : ¬ (answer time limit rows cursor hi).length < limit := by omega
          simp only [collect, hmore cursor hcursor, if_true, hgetLast, if_neg hnot, hrest,
            Option.map_some]
          rfl
      · -- nothing is left in the range
        have hnil : window time rows cursor hi = [] :=
          List.eq_nil_iff_forall_not_mem.mpr (not_exists.mp hmem)
        refine ⟨[], ?_, ?_⟩
        · by_cases hm : more cursor <;> simp [collect, hm, answer, hnil]
        · rw [hnil]
          exact .short (by simpa using hlimit)

/-! ## 3. What paging keeps -/

theorem Paged.sublist {rows out : List ρ} (h : Paged time limit rows out) :
    ∀ r ∈ out, r ∈ rows := by
  induction h with
  | short => exact fun r hr => hr
  | full _ _ _ ih =>
      intro r hr
      rcases List.mem_append.mp hr with h | h
      · exact List.mem_of_mem_take h
      · exact List.mem_of_mem_filter (ih r h)

/-- In an ascending list the rows later than `t` are a final segment. -/
theorem Ascending.filter_later {rows : List ρ} (h : Ascending time rows) (t : Int) :
    ∃ k, (rows.filter fun r => decide (t < time r)) = rows.drop k ∧
      ∀ i r, rows[i]? = some r → (t < time r ↔ k ≤ i) := by
  induction rows with
  | nil => exact ⟨0, rfl, by intro i r hr; simp at hr⟩
  | cons first rest ih =>
      obtain ⟨hfirst, hrest⟩ := List.pairwise_cons.mp h
      by_cases hlt : t < time first
      · refine ⟨0, ?_, ?_⟩
        · rw [List.drop_zero, List.filter_eq_self]
          intro r hr
          rcases List.mem_cons.mp hr with rfl | hr
          · simpa using hlt
          · have := hfirst r hr
            simp only [decide_eq_true_eq]
            omega
        · intro i r hr
          have hmem := List.mem_of_getElem? hr
          rcases List.mem_cons.mp hmem with rfl | hmem
          · simpa using hlt
          · have := hfirst r hmem
            simp only [Nat.zero_le, iff_true]
            omega
      · obtain ⟨k, hdrop, hk⟩ := ih hrest
        refine ⟨k + 1, ?_, ?_⟩
        · simp [hlt, hdrop]
        · intro i r hr
          cases i with
          | zero =>
              simp only [List.getElem?_cons_zero, Option.some.injEq] at hr
              subst hr
              simp [hlt]
          | succ i =>
              rw [List.getElem?_cons_succ] at hr
              rw [hk i r hr]
              omega

theorem Ascending.le_of_index {rows : List ρ} (h : Ascending time rows) {i j : Nat} {r r' : ρ}
    (hr : rows[i]? = some r) (hr' : rows[j]? = some r') (hij : i ≤ j) : time r ≤ time r' := by
  obtain ⟨hi, rfl⟩ := List.getElem?_eq_some_iff.mp hr
  obtain ⟨hj, rfl⟩ := List.getElem?_eq_some_iff.mp hr'
  rcases Nat.lt_or_eq_of_le hij with hlt | rfl
  · exact List.pairwise_iff_getElem.mp h i j hi hj hlt
  · exact Int.le_refl _

/-- Every page boundary inside `rows` separates different times, save where the time
    after it is excused. -/
def CleanCuts (time : ρ → Int) (limit : Nat) (excused : Int → Prop) (rows : List ρ) : Prop :=
  ∀ i r r', limit ∣ i + 1 → rows[i]? = some r → rows[i + 1]? = some r' →
    time r < time r' ∨ excused (time r')

theorem CleanCuts.of_length_le {excused : Int → Prop} {rows : List ρ}
    (h : rows.length ≤ limit) : CleanCuts time limit excused rows := by
  intro i r r' hdvd _ hr'
  obtain ⟨hlen, _⟩ := List.getElem?_eq_some_iff.mp hr'
  have := Nat.le_of_dvd (Nat.succ_pos i) hdvd
  omega

theorem CleanCuts.drop {excused : Int → Prop} {rows : List ρ}
    (h : CleanCuts time limit excused rows) : CleanCuts time limit excused (rows.drop limit) := by
  intro i r r' hdvd hr hr'
  rw [List.getElem?_drop] at hr hr'
  refine h (limit + i) r r' ?_ hr (by rwa [← Nat.add_assoc] at hr')
  rw [Nat.add_assoc]
  exact (Nat.dvd_add_right (Nat.dvd_refl limit)).mpr hdvd

/-- Where the row after a full page is later than the page's last row, the next page
    starts with it. -/
theorem filter_later_eq_drop {rows : List ρ} (hasc : Ascending time rows) (hlimit : 0 < limit)
    {last next : ρ} (hlast : rows[limit - 1]? = some last) (hnext : rows[limit]? = some next)
    (hlt : time last < time next) :
    (rows.filter fun r => decide (time last < time r)) = rows.drop limit := by
  obtain ⟨k, hdrop, hk⟩ := hasc.filter_later (time last)
  have hle : k ≤ limit := (hk limit next hnext).mp hlt
  have hge : ¬ k ≤ limit - 1 := by
    rw [← hk (limit - 1) last hlast]
    omega
  rw [hdrop, show k = limit by omega]

/-- **Clean cuts lose nothing**, up to rows at an excused time. -/
theorem Paged.mem_of_cleanCuts {excused : Int → Prop}
    (hup : ∀ t t', excused t → t ≤ t' → excused t') (hlimit : 0 < limit)
    {rows out : List ρ} (h : Paged time limit rows out) (hasc : Ascending time rows)
    (hclean : CleanCuts time limit excused rows) :
    ∀ r ∈ rows, r ∈ out ∨ excused (time r) := by
  induction h with
  | short => exact fun r hr => Or.inl hr
  | @full rows out last hfull hlast hpaged ih =>
      intro r hr
      obtain ⟨i, hi⟩ := List.mem_iff_getElem?.mp hr
      by_cases hpage : i < limit
      · left
        refine List.mem_append_left _ (List.mem_of_getElem? (i := i) ?_)
        rw [List.getElem?_take_of_lt hpage, hi]
      · obtain ⟨next, hnext⟩ : ∃ next, rows[limit]? = some next := by
          obtain ⟨hlen, _⟩ := List.getElem?_eq_some_iff.mp hi
          exact ⟨_, List.getElem?_eq_getElem (by omega)⟩
        have hcut := hclean (limit - 1) last next (by simp [Nat.sub_add_cancel hlimit]) hlast
          (by rwa [Nat.sub_add_cancel hlimit])
        rcases hcut with hlt | hexcused
        · have hrest := filter_later_eq_drop hasc hlimit hlast hnext hlt
          rw [hrest] at ih
          have hmem : r ∈ rows.drop limit :=
            List.mem_of_getElem? (i := i - limit) (by
              rw [List.getElem?_drop, Nat.add_sub_cancel' (by omega), hi])
          rcases ih (List.Pairwise.sublist (List.drop_sublist _ _) hasc) hclean.drop r hmem
            with h | h
          · exact Or.inl (List.mem_append_right _ h)
          · exact Or.inr h
        · exact Or.inr (hup _ _ hexcused (hasc.le_of_index hnext hi (by omega)))

theorem Paged.eq_of_strict (hlimit : 0 < limit) {rows out : List ρ}
    (h : Paged time limit rows out) (hasc : StrictlyAscending time rows) : out = rows := by
  induction h with
  | short => rfl
  | @full rows out last hfull hlast hpaged ih =>
      have hrest : (rows.filter fun r => decide (time last < time r)) = rows.drop limit := by
        rcases hnext : rows[limit]? with _ | next
        · obtain ⟨k, hdrop, hk⟩ := hasc.ascending.filter_later (time last)
          have hge : ¬ k ≤ limit - 1 := by
            rw [← hk (limit - 1) last hlast]
            omega
          have hlen : rows.length ≤ limit := List.getElem?_eq_none_iff.mp hnext
          rw [hdrop, List.drop_of_length_le (by omega), List.drop_of_length_le hlen]
        · apply filter_later_eq_drop hasc.ascending hlimit hlast hnext
          obtain ⟨hi, rfl⟩ := List.getElem?_eq_some_iff.mp hlast
          obtain ⟨hj, rfl⟩ := List.getElem?_eq_some_iff.mp hnext
          exact List.pairwise_iff_getElem.mp hasc _ _ hi hj (by omega)
      rw [hrest] at ih
      rw [ih (List.Pairwise.sublist (List.drop_sublist _ _) hasc), List.take_append_drop]

/-- **Cursor pagination is exact** on strictly increasing times: the loop ends and returns
    the rows of its range. -/
theorem collect_eq_window {rows : List ρ} (hasc : StrictlyAscending time rows)
    (hlimit : 0 < limit) {hi : Int} {more : Int → Bool}
    (hmore : ∀ cursor, cursor ≤ hi → more cursor = true) {fuel : Nat} {cursor : Int}
    (hfuel : (hi + 1 - cursor).toNat < fuel) :
    collect (fun c => answer time limit rows c hi) time limit more fuel cursor =
      some (window time rows cursor hi) := by
  obtain ⟨out, hout, hpaged⟩ := collect_paged hlimit hmore hfuel
  rw [hout, hpaged.eq_of_strict hlimit (hasc.window cursor hi)]

/-! ## 4. What paging loses -/

theorem not_mem_take {rows : List ρ} (hnodup : rows.Nodup) {i : Nat} {r : ρ}
    (hr : rows[i]? = some r) (hi : limit ≤ i) : r ∉ rows.take limit := by
  intro hmem
  obtain ⟨j, hj⟩ := List.mem_iff_getElem?.mp hmem
  obtain ⟨hlt, _⟩ := List.getElem?_eq_some_iff.mp hj
  rw [List.length_take] at hlt
  rw [List.getElem?_take_of_lt (by omega)] at hj
  obtain ⟨hlen, hget⟩ := List.getElem?_eq_some_iff.mp hr
  obtain ⟨hlen', hget'⟩ := List.getElem?_eq_some_iff.mp hj
  have := hnodup.getElem_inj_iff.mp (hget.trans hget'.symm)
  omega

/-- **A cut inside a tie loses a row**: the first row behind the cut. -/
theorem Paged.exists_missed {excused : Int → Prop}
    (hup : ∀ t t', excused t → t ≤ t' → excused t') (hlimit : 0 < limit)
    {rows out : List ρ} (h : Paged time limit rows out) (hasc : Ascending time rows)
    (hnodup : rows.Nodup) (hcut : ¬ CleanCuts time limit excused rows) :
    ∃ i r r', rows[i]? = some r ∧ rows[i + 1]? = some r' ∧ limit ∣ i + 1 ∧
      time r = time r' ∧ ¬ excused (time r') ∧ r' ∉ out := by
  simp only [CleanCuts, not_forall, not_or] at hcut
  obtain ⟨i, r, r', hdvd, hr, hr', hnlt, hnot⟩ := hcut
  induction h generalizing i with
  | @short rows hshort =>
      obtain ⟨hlen, _⟩ := List.getElem?_eq_some_iff.mp hr'
      have := Nat.le_of_dvd (by omega) hdvd
      omega
  | @full rows out last hfull hlast hpaged ih =>
      have hle : limit ≤ i + 1 := Nat.le_of_dvd (by omega) hdvd
      obtain ⟨hlen, _⟩ := List.getElem?_eq_some_iff.mp hr'
      obtain ⟨next, hnext⟩ : ∃ next, rows[limit]? = some next :=
        ⟨_, List.getElem?_eq_getElem (by omega)⟩
      by_cases hlt : time last < time next
      · -- the first cut is clean: the lost row is in a later page
        have hrest := filter_later_eq_drop hasc hlimit hlast hnext hlt
        have hne : i + 1 ≠ limit := by
          intro heq
          have hi : i = limit - 1 := by omega
          subst hi
          rw [heq] at hr'
          rw [hlast, Option.some.injEq] at hr
          rw [hnext, Option.some.injEq] at hr'
          subst hr hr'
          exact hnlt hlt
        obtain ⟨q, rfl⟩ : ∃ q, i = limit + q := ⟨i - limit, by omega⟩
        rw [hrest] at ih
        obtain ⟨j, x, x', hx, hx', hd, htie, hex, hout⟩ :=
          ih (List.Pairwise.sublist (List.drop_sublist _ _) hasc)
            (hnodup.sublist (List.drop_sublist _ _)) q
            ((Nat.dvd_add_right (Nat.dvd_refl limit)).mp (by rwa [Nat.add_assoc] at hdvd))
            (by rw [List.getElem?_drop, hr])
            (by rw [List.getElem?_drop, ← Nat.add_assoc, hr'])
        rw [List.getElem?_drop] at hx hx'
        rw [← Nat.add_assoc] at hx'
        refine ⟨limit + j, x, x', hx, hx', ?_, htie, hex, ?_⟩
        · rw [Nat.add_assoc]
          exact (Nat.dvd_add_right (Nat.dvd_refl limit)).mpr hd
        · rw [List.mem_append, not_or]
          exact ⟨not_mem_take hnodup hx' (by omega), hout⟩
      · -- the first cut falls inside a tie
        have hlast_le : time last ≤ time next := hasc.le_of_index hlast hnext (by omega)
        refine ⟨limit - 1, last, next, hlast, ?_, ?_, by omega, ?_, ?_⟩
        · rw [Nat.sub_add_cancel hlimit, hnext]
        · simp [Nat.sub_add_cancel hlimit]
        · intro hexcused
          exact hnot (hup _ _ hexcused (hasc.le_of_index hnext hr' (by omega)))
        · rw [List.mem_append, not_or]
          refine ⟨not_mem_take hnodup hnext (by omega), ?_⟩
          intro hmem
          have := List.of_mem_filter (hpaged.sublist next hmem)
          simp only [decide_eq_true_eq] at this
          exact hlt this

/-- No reading reaches past the first `limit` rows of a group of equal times. -/
theorem Paged.not_mem_of_tie {rows out : List ρ}
    (h : Paged time limit rows out) (hasc : Ascending time rows) (hnodup : rows.Nodup)
    {i : Nat} {r r' : ρ} (hr : rows[i]? = some r) (hr' : rows[i + limit]? = some r')
    (htie : time r = time r') : r' ∉ out := by
  induction h generalizing i with
  | @short rows hshort =>
      obtain ⟨hlen, _⟩ := List.getElem?_eq_some_iff.mp hr'
      omega
  | @full rows out last hfull hlast hpaged ih =>
      rw [List.mem_append, not_or]
      refine ⟨not_mem_take hnodup hr' (by omega), ?_⟩
      intro hmem
      have hlater := List.of_mem_filter (hpaged.sublist r' hmem)
      simp only [decide_eq_true_eq] at hlater
      obtain ⟨k, hdrop, hk⟩ := hasc.filter_later (time last)
      have hki : k ≤ i := (hk i r hr).mp (by omega)
      rw [hdrop] at ih
      refine ih (List.Pairwise.sublist (List.drop_sublist _ _) hasc)
        (hnodup.sublist (List.drop_sublist _ _)) (i := i - k) ?_ ?_ hmem
      · rw [List.getElem?_drop, Nat.add_sub_cancel' hki, hr]
      · rw [List.getElem?_drop, ← Nat.add_assoc, Nat.add_sub_cancel' hki, hr']

/-- Two adjacent ranges share the time `t`.  A row of that time behind the first page of
    the second range is not read with the first range either. -/
theorem Paged.not_mem_of_shared {rows out : List ρ} (hasc : Ascending time rows)
    (hnodup : rows.Nodup) {lo t hi : Int} (hlo : lo ≤ t) (hhi : t ≤ hi)
    (h : Paged time limit (window time rows lo t) out) {i : Nat} {r : ρ}
    (hr : (window time rows t hi)[i]? = some r) (hi : limit ≤ i) (htime : time r = t) :
    r ∉ out := by
  -- the rows of time `t` end the first range and begin the second
  have hfirst := window_split hasc (by omega : lo ≤ t - 1 + 1) (by omega : t - 1 ≤ t)
  rw [Int.sub_add_cancel] at hfirst
  have hsecond := window_split hasc (by omega : t ≤ t + 1) hhi
  have hgroup : (window time rows t t)[i]? = some r := by
    by_cases hlen : i < (window time rows t t).length
    · rw [hsecond, List.getElem?_append_left hlen] at hr
      exact hr
    · rw [hsecond, List.getElem?_append_right (by omega)] at hr
      have := (mem_window.mp (List.mem_of_getElem? hr)).2.1
      omega
  obtain ⟨first, hfirstRow⟩ : ∃ first, (window time rows t t)[i - limit]? = some first := by
    obtain ⟨hlen, _⟩ := List.getElem?_eq_some_iff.mp hgroup
    exact ⟨_, List.getElem?_eq_getElem (by omega)⟩
  have hfirstTime := (mem_window.mp (List.mem_of_getElem? hfirstRow)).2
  refine h.not_mem_of_tie (hasc.window lo t) (hnodup.sublist List.filter_sublist)
    (i := (window time rows lo (t - 1)).length + (i - limit)) (r := first) ?_ ?_ (by omega)
  · rw [hfirst, List.getElem?_append_right (by omega), Nat.add_sub_cancel_left, hfirstRow]
  · rw [hfirst, List.getElem?_append_right (by omega), ← hgroup]
    congr 1
    omega

end FundingTool.CursorPaging
