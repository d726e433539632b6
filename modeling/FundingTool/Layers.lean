import FundingTool.CursorPaging

/-!
# Layers of interaction programs

The operations of one program are carried out by programs over other operations:
`interpret` puts the program `h o` in the place of each operation `o`.  `begins` lists the
operations of a run with the states in which they begin, so that what the inner programs
do to the state is described one operation of the outer program at a time
(`run_interpret_iff`).
-/

namespace FundingTool.Interaction

open FundingTool.CursorPaging

variable {Op Op' : Type} {Resp : Op → Type} {Resp' : Op' → Type} {Err Err' α β σ χ ρ : Type}

namespace Prog

/-! ## 1. Errors as values -/

/-- The program that returns the error instead of raising it. -/
def attempt : Prog Op Resp Err α → Prog Op Resp Err' (Except Err α)
  | .ret a => .ret (.ok a)
  | .raise e => .ret (.error e)
  | .call o k => .call o fun r => (k r).attempt

theorem run_attempt (exec : (o : Op) → χ → σ → σ × Resp o) (c : χ) (p : Prog Op Resp Err α)
    (s : σ) :
    (p.attempt : Prog Op Resp Err' (Except Err α)).run exec c s =
      ((p.run exec c s).1, .ok (p.run exec c s).2) := by
  induction p generalizing s with
  | ret a => rfl
  | raise e => rfl
  | call o k ih => exact ih _ _

/-! ## 2. Interpretation -/

variable (h : (o : Op) → Prog Op' Resp' Err' (Resp o)) (lift : Err → Err')

def interpret : Prog Op Resp Err α → Prog Op' Resp' Err' α
  | .ret a => .ret a
  | .raise e => .raise (lift e)
  | .call o k => (h o).bind fun r => (k r).interpret

theorem bind_assoc (p : Prog Op Resp Err α) {γ : Type} (f : α → Prog Op Resp Err β)
    (g : β → Prog Op Resp Err γ) : p >>= f >>= g = p >>= fun a => f a >>= g := by
  induction p with
  | ret a => rfl
  | raise e => rfl
  | call o k ih => simp only [call_bind, ih]

theorem interpret_bind (p : Prog Op Resp Err α) (f : α → Prog Op Resp Err β) :
    (p >>= f).interpret h lift = p.interpret h lift >>= fun a => (f a).interpret h lift := by
  induction p with
  | ret a => rfl
  | raise e => rfl
  | call o k ih =>
      have hcall : (Prog.call o k >>= f).interpret h lift =
          h o >>= fun r => (k r >>= f).interpret h lift := rfl
      rw [hcall]
      simp only [ih]
      exact (bind_assoc _ _ _).symm

/-- Interpreting a loop over pages interprets the requests. -/
theorem interpret_pages (fetch : Int → Prog Op Resp Err (List ρ)) (time : ρ → Int) (limit : Nat)
    (more : Int → Bool) (spent : Err) (fuel : Nat) (cursor : Int) :
    (pages fetch time limit more spent fuel cursor).interpret h lift =
      pages (fun cursor => (fetch cursor).interpret h lift) time limit more (lift spent) fuel
        cursor := by
  induction fuel generalizing cursor with
  | zero => by_cases hmore : more cursor <;> simp [pages, hmore, interpret]
  | succ fuel ih =>
      by_cases hmore : more cursor
      · simp only [pages, hmore, if_true, interpret_bind]
        refine congrArg _ (funext fun batch => ?_)
        rcases batch.getLast? with _ | last
        · rfl
        · by_cases hlen : batch.length < limit
          · simp only [if_pos hlen]
            rfl
          · simp only [if_neg hlen, interpret_bind, ih]
            rfl
      · simp [pages, hmore, interpret]

/-! ## 3. The operations of a run -/

variable (exec : (o : Op') → χ → σ → σ × Resp' o) (c : χ)

/-- The operations performed, each with the state in which it begins. -/
def begins : Prog Op Resp Err α → σ → List (Op × σ)
  | .ret _, _ => []
  | .raise _, _ => []
  | .call o k, s =>
      (o, s) ::
        match (h o).run exec c s with
        | (s', .ok r) => (k r).begins s'
        | (_, .error _) => []

variable {h lift exec c}

theorem run_interpret_call {o : Op} {k : Resp o → Prog Op Resp Err α} {s s' : σ} {r : Resp o}
    (hrun : (h o).run exec c s = (s', .ok r)) :
    ((Prog.call o k).interpret h lift).run exec c s = ((k r).interpret h lift).run exec c s' :=
  run_bind_ok hrun

/-- **Runs by their operations.**  If the program for each operation that is performed keeps
    an invariant exactly when it begins well, the run keeps it exactly when all of them do. -/
theorem run_interpret_iff (Inv : σ → Prop) {Good : Op × σ → Prop} {p : Prog Op Resp Err α} {s : σ}
    (hop : ∀ b ∈ p.begins h exec c s,
      (Inv ((h b.1).run exec c b.2).1 ↔ Inv b.2 ∧ Good b)) :
    Inv ((p.interpret h lift).run exec c s).1 ↔
      Inv s ∧ ∀ b ∈ p.begins h exec c s, Good b := by
  induction p generalizing s with
  | ret a => simp [interpret, begins]
  | raise e => simp [interpret, begins]
  | call o k ih =>
      rw [begins, List.forall_mem_cons] at hop
      obtain ⟨hfirst, hrest⟩ := hop
      rcases hrun : (h o).run exec c s with ⟨s', e | r⟩
      · have herror : ((Prog.call o k).interpret h lift).run exec c s = (s', .error e) :=
          run_bind_error hrun
        rw [hrun] at hfirst
        simp only [herror, begins, hrun, hfirst, List.mem_singleton, forall_eq]
      · rw [hrun] at hfirst hrest
        rw [run_interpret_call hrun, ih r hrest, hfirst]
        simp only [begins, hrun, List.forall_mem_cons, and_assoc]

/-- What holds of the operations of both parts holds of those of a sequence. -/
theorem forall_begins_bind (lift : Err → Err') {K : Op × σ → Prop} {p : Prog Op Resp Err α}
    {f : α → Prog Op Resp Err β} {s : σ} (hp : ∀ b ∈ p.begins h exec c s, K b)
    (hf : ∀ a s', (p.interpret h lift).run exec c s = (s', .ok a) →
      ∀ b ∈ (f a).begins h exec c s', K b) :
    ∀ b ∈ (p >>= f).begins h exec c s, K b := by
  induction p generalizing s with
  | ret a => exact hf a s rfl
  | raise e => exact List.forall_mem_nil K
  | call o k ih =>
      rw [begins, List.forall_mem_cons] at hp
      rw [call_bind, begins, List.forall_mem_cons]
      refine ⟨hp.1, ?_⟩
      rcases hrun : (h o).run exec c s with ⟨s', e | r⟩
      · exact List.forall_mem_nil K
      · refine ih r ?_ fun a s'' hrest => hf a s'' ?_
        · rw [hrun] at hp
          exact hp.2
        · rw [run_interpret_call hrun]
          exact hrest

/-- What holds of the operations of every request holds of those of the loop. -/
theorem forall_begins_pages (lift : Err → Err') {K : Op × σ → Prop}
    {fetch : Int → Prog Op Resp Err (List ρ)}
    (hfetch : ∀ cursor s, ∀ b ∈ (fetch cursor).begins h exec c s, K b) (time : ρ → Int)
    (limit : Nat) (more : Int → Bool) (spent : Err) (fuel : Nat) (cursor : Int) (s : σ) :
    ∀ b ∈ (pages fetch time limit more spent fuel cursor).begins h exec c s, K b := by
  induction fuel generalizing cursor s with
  | zero => by_cases hmore : more cursor <;> simp [pages, hmore, begins]
  | succ fuel ih =>
      by_cases hmore : more cursor
      · simp only [pages, hmore, if_true]
        refine forall_begins_bind lift (hfetch cursor s) fun batch s₁ _ => ?_
        rcases batch.getLast? with _ | last
        · exact List.forall_mem_nil K
        · by_cases hlen : batch.length < limit
          · simp only [if_pos hlen]
            exact List.forall_mem_nil K
          · simp only [if_neg hlen]
            exact forall_begins_bind lift (ih (time last + 1) s₁) fun _ _ _ => List.forall_mem_nil K
      · simp [pages, hmore, begins]

/-! ## 4. What a program may perform -/

/-- Some run of the program performs an operation of the kind. -/
def Performs (Kind : Op → Prop) : Prog Op Resp Err α → Prop
  | .ret _ => False
  | .raise _ => False
  | .call o k => Kind o ∨ ∃ r, (k r).Performs Kind

theorem performs_bind {Kind : Op → Prop} {p : Prog Op Resp Err α} {f : α → Prog Op Resp Err β}
    (h : (p >>= f).Performs Kind) : p.Performs Kind ∨ ∃ a, (f a).Performs Kind := by
  induction p with
  | ret a => exact .inr ⟨a, h⟩
  | raise e => exact h.elim
  | call o k ih =>
      rcases h with ho | ⟨r, hr⟩
      · exact .inl (.inl ho)
      · rcases ih r hr with hk | hf
        · exact .inl (.inr ⟨r, hk⟩)
        · exact .inr hf

/-- An interpreted program performs what the programs for its operations perform. -/
theorem performs_interpret {Kind : Op' → Prop} {p : Prog Op Resp Err α}
    (hp : (p.interpret h lift).Performs Kind) : ∃ o, (h o).Performs Kind := by
  induction p with
  | ret a => exact hp.elim
  | raise e => exact hp.elim
  | call o k ih =>
      rcases performs_bind hp with ho | ⟨r, hr⟩
      · exact ⟨o, ho⟩
      · exact ih r hr

end Prog

end FundingTool.Interaction
