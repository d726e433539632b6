import FundingTool.CursorPaging

/-!
# Cursor pagination against any source

What the page loop of `CursorPaging` asks for when nothing is known of the answers: they may
depend on everything asked before, and be errors or pages of any rows.  `asked` are the cursors
of the pages asked for, and a page leads on only if it is full (`nextCursor`).

A loop without a bound is the loops of all budgets together: it comes to an end if its requests
are bounded over all of them (`asked_length_le`), and does not if every budget is used up
(`asked_endless`).
-/

namespace FundingTool.CursorPaging

open FundingTool.Interaction

variable {Op : Type} {Resp : Op → Type} {Err σ χ ρ : Type}

/-! ## 1. A source that may answer anything -/

/-- What is answered, given all that was asked before. -/
abbrev Source (Op : Type) (Resp : Op → Type) : Type := List Op → (o : Op) → Resp o

/-- The state is what has been asked. -/
def ask (source : Source Op Resp) (o : Op) (_ : Unit) (sent : List Op) : List Op × Resp o :=
  (sent ++ [o], source sent o)

/-! ## 2. The cursors asked for -/

/-- Where a page leads: nowhere unless it is full. -/
def nextCursor (time : ρ → Int) (limit : Nat) : Except Err (List ρ) → Option Int
  | .error _ => none
  | .ok batch =>
      match batch.getLast? with
      | none => none
      | some last => if batch.length < limit then none else some (time last + 1)

section

variable (page : σ → Int → σ × Except Err (List ρ)) (time : ρ → Int) (limit : Nat)
  (more : Int → Bool)

/-- The cursors of the pages asked for within a number of requests. -/
def asked : Nat → Int → σ → List Int
  | 0, _, _ => []
  | fuel + 1, cursor, s =>
      if more cursor then
        cursor :: match nextCursor time limit (page s cursor).2 with
          | none => []
          | some next => asked fuel next (page s cursor).1
      else []

/-- Every page that leads on leads forward. -/
def Advances : Prop :=
  ∀ s cursor next, nextCursor time limit (page s cursor).2 = some next → cursor < next

end

variable {page : σ → Int → σ × Except Err (List ρ)} {time : ρ → Int} {limit : Nat}
  {more : Int → Bool}

/-- A page leads on if it is full, and then behind its last row. -/
theorem nextCursor_eq_some_iff {answered : Except Err (List ρ)} {next : Int} :
    nextCursor time limit answered = some next ↔
      ∃ batch last, answered = .ok batch ∧ batch.getLast? = some last ∧ limit ≤ batch.length ∧
        next = time last + 1 := by
  unfold nextCursor
  constructor
  · intro h
    rcases answered with e | batch
    · cases h
    rcases hlast : batch.getLast? with _ | last
    · simp only [hlast, reduceCtorEq] at h
    · simp only [hlast] at h
      by_cases hshort : batch.length < limit
      · rw [if_pos hshort] at h
        cases h
      · rw [if_neg hshort, Option.some.injEq] at h
        exact ⟨batch, last, rfl, hlast, Nat.le_of_not_lt hshort, h.symm⟩
  · rintro ⟨batch, last, rfl, hlast, hfull, rfl⟩
    simp only [hlast]
    rw [if_neg (Nat.not_lt_of_le hfull)]

/-- **The run of the loop asks for these pages**, as far as its state shows what was asked. -/
theorem run_pages_asked {exec : (o : Op) → χ → σ → σ × Resp o} {c : χ}
    {fetch : Int → Prog Op Resp Err (List ρ)} {spent : Err} {shown : σ → List Int}
    (hfetch : ∀ cursor s, (fetch cursor).run exec c s = page s cursor)
    (hshown : ∀ cursor s, shown (page s cursor).1 = shown s ++ [cursor])
    (fuel : Nat) (cursor : Int) (s : σ) :
    shown ((pages fetch time limit more spent fuel cursor).run exec c s).1 =
      shown s ++ asked page time limit more fuel cursor s := by
  induction fuel generalizing cursor s with
  | zero =>
      rw [asked, List.append_nil, pages]
      by_cases hmore : more cursor <;> simp [hmore]
  | succ fuel ih =>
      rw [pages, asked]
      by_cases hmore : more cursor = true
      · rw [if_pos hmore, if_pos hmore]
        have hrun := hfetch cursor s
        have hasked := hshown cursor s
        rcases hpage : page s cursor with ⟨s', e | batch⟩ <;> rw [hpage] at hrun hasked
        · rw [Prog.run_bind_error hrun, hasked]
          rfl
        · rw [Prog.run_bind_ok hrun]
          simp only [nextCursor]
          rcases batch.getLast? with _ | last
          · exact hasked
          · by_cases hshort : batch.length < limit
            · simp only [if_pos hshort]
              exact hasked
            · simp only [if_neg hshort]
              have hrest := ih (time last + 1) s'
              rw [hasked, List.append_assoc, List.singleton_append] at hrest
              rw [← hrest, Prog.run_bind_pure]
      · rw [if_neg hmore, if_neg hmore, List.append_nil]
        rfl

/-! ## 3. Where a loop comes to an end -/

/-- No page is asked for past the end of the range, whatever is answered. -/
theorem more_of_mem_asked {fuel : Nat} {cursor : Int} {s : σ} :
    ∀ x ∈ asked page time limit more fuel cursor s, more x = true := by
  induction fuel generalizing cursor s with
  | zero =>
      intro x hx
      cases hx
  | succ fuel ih =>
      intro x hx
      rw [asked] at hx
      by_cases hmore : more cursor = true
      · rw [if_pos hmore] at hx
        rcases List.mem_cons.mp hx with rfl | hx
        · exact hmore
        · rcases hnext : nextCursor time limit (page s cursor).2 with _ | next <;>
            rw [hnext] at hx
          · cases hx
          · exact ih x hx
      · rw [if_neg hmore] at hx
        cases hx

theorem asked_ascending (h : Advances page time limit) (more : Int → Bool) (fuel : Nat)
    (cursor : Int) (s : σ) :
    (asked page time limit more fuel cursor s).Pairwise (· < ·) ∧
      ∀ x ∈ asked page time limit more fuel cursor s, cursor ≤ x := by
  induction fuel generalizing cursor s with
  | zero => exact ⟨.nil, fun x hx => by cases hx⟩
  | succ fuel ih =>
      rw [asked]
      by_cases hmore : more cursor = true
      · rw [if_pos hmore]
        rcases hnext : nextCursor time limit (page s cursor).2 with _ | next
        · exact ⟨List.pairwise_singleton _ _, fun x hx =>
            Int.le_of_eq (List.mem_singleton.mp hx).symm⟩
        · obtain ⟨hsorted, hlow⟩ := ih next (page s cursor).1
          have hlt := h s cursor next hnext
          refine ⟨List.pairwise_cons.mpr ⟨fun x hx => ?_, hsorted⟩, fun x hx => ?_⟩
          · exact Int.lt_of_lt_of_le hlt (hlow x hx)
          · rcases List.mem_cons.mp hx with rfl | hx
            · exact Int.le_refl x
            · exact Int.le_of_lt (Int.lt_of_lt_of_le hlt (hlow x hx))
      · rw [if_neg hmore]
        exact ⟨.nil, fun x hx => by cases hx⟩

theorem length_le_of_ascending {xs : List Int} {lo hi : Int} (h : xs.Pairwise (· < ·))
    (hrange : ∀ x ∈ xs, lo ≤ x ∧ x ≤ hi) : xs.length ≤ (hi + 1 - lo).toNat := by
  induction xs generalizing lo with
  | nil => exact Nat.zero_le _
  | cons x rest ih =>
      obtain ⟨hfirst, hrest⟩ := List.pairwise_cons.mp h
      obtain ⟨hlow, hhigh⟩ := hrange x List.mem_cons_self
      have hlength := @ih (x + 1) hrest fun y hy =>
        ⟨hfirst y hy, (hrange y (List.mem_cons_of_mem x hy)).2⟩
      rw [List.length_cons]
      omega

/-- **A loop over pages that lead forward asks once for every time of its range at most.** -/
theorem asked_length_le (h : Advances page time limit) {hi : Int}
    (hmore : ∀ cursor, more cursor = true → cursor ≤ hi) (fuel : Nat) (cursor : Int) (s : σ) :
    (asked page time limit more fuel cursor s).length ≤ (hi + 1 - cursor).toNat := by
  obtain ⟨hsorted, hlow⟩ := asked_ascending h more fuel cursor s
  exact length_le_of_ascending hsorted fun x hx =>
    ⟨hlow x hx, hmore x (more_of_mem_asked x hx)⟩

/-- Where no page leads past the range, a loop without a test asks once more at most. -/
theorem asked_length_le_succ (h : Advances page time limit) {hi : Int}
    (hwithin : ∀ s cursor next, nextCursor time limit (page s cursor).2 = some next →
      next ≤ hi + 1) (fuel : Nat) (cursor : Int) (s : σ) :
    (asked page time limit more fuel cursor s).length ≤ (hi + 1 - cursor).toNat + 1 := by
  have hhigh : ∀ (fuel : Nat) (cursor : Int) (s : σ), cursor ≤ hi + 1 →
      ∀ x ∈ asked page time limit more fuel cursor s, x ≤ hi + 1 := by
    intro fuel
    induction fuel with
    | zero =>
        intro cursor s _ x hx
        cases hx
    | succ fuel ih =>
        intro cursor s hcursor x hx
        rw [asked] at hx
        by_cases hmore : more cursor = true
        · rw [if_pos hmore] at hx
          rcases List.mem_cons.mp hx with rfl | hx
          · exact hcursor
          · rcases hnext : nextCursor time limit (page s cursor).2 with _ | next <;>
              rw [hnext] at hx
            · cases hx
            · exact ih next _ (hwithin s cursor next hnext) x hx
        · rw [if_neg hmore] at hx
          cases hx
  cases fuel with
  | zero => exact Nat.zero_le _
  | succ fuel =>
      rw [asked]
      by_cases hmore : more cursor = true
      · rw [if_pos hmore, List.length_cons]
        refine Nat.succ_le_succ ?_
        rcases hnext : nextCursor time limit (page s cursor).2 with _ | next
        · exact Nat.zero_le _
        · have hlt := h s cursor next hnext
          obtain ⟨hsorted, hlow⟩ := asked_ascending h more fuel next (page s cursor).1
          have hlength := length_le_of_ascending hsorted fun x hx =>
            ⟨hlow x hx, hhigh fuel next _ (hwithin s cursor next hnext) x hx⟩
          simp only
          omega
      · rw [if_neg hmore]
        exact Nat.zero_le _

/-- **A loop whose pages always lead on never ends**: it uses up every budget. -/
theorem asked_endless {Going : Int → Prop} (hgoing : ∀ cursor, Going cursor → more cursor = true)
    (hnext : ∀ s cursor, Going cursor →
      ∃ next, nextCursor time limit (page s cursor).2 = some next ∧ Going next)
    (fuel : Nat) {cursor : Int} (s : σ) (h : Going cursor) :
    (asked page time limit more fuel cursor s).length = fuel := by
  induction fuel generalizing cursor s with
  | zero => rfl
  | succ fuel ih =>
      obtain ⟨next, heq, hgo⟩ := hnext s cursor h
      rw [asked, if_pos (hgoing cursor h), heq, List.length_cons]
      simp only
      rw [ih _ hgo]

end FundingTool.CursorPaging
