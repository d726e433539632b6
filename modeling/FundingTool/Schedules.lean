import FundingTool.Interaction

/-!
# Runs under a schedule

`Prog.run` lets the surroundings make one choice throughout; here they make a new choice
for every operation, taken from a schedule in turn.

  * `Prog.runWith` is the run, `Prog.runWith_bind_ok` its sequencing rule, and
    `Prog.Safe.runWith_bind` the rule for a first part that is safe;
  * `Prog.ops` lists the operations of a run;
  * `Prog.Alike` compares two programs whose schedules and states differ: what one run does
    the other does as well, up to relations on states, choices and results.
-/

namespace FundingTool.Interaction.Prog

variable {Op : Type} {Resp : Op → Type} {Err α β σ χ : Type}

/-! ## 1. Running under a schedule -/

variable (exec : (o : Op) → χ → σ → σ × Resp o)

/-- Run a program alone, the surroundings making the choices `cs 0`, `cs 1`, … -/
def runWith (cs : Nat → χ) : Prog Op Resp Err α → σ → σ × Except Err α
  | .ret a, s => (s, .ok a)
  | .raise e, s => (s, .error e)
  | .call o k, s =>
      (k (exec o (cs 0) s).2).runWith (fun n => cs (n + 1)) (exec o (cs 0) s).1

@[simp] theorem runWith_ret (cs : Nat → χ) (a : α) (s : σ) :
    (Prog.ret a : Prog Op Resp Err α).runWith exec cs s = (s, .ok a) := rfl

@[simp] theorem runWith_raise (cs : Nat → χ) (e : Err) (s : σ) :
    (Prog.raise e : Prog Op Resp Err α).runWith exec cs s = (s, .error e) := rfl

@[simp] theorem runWith_call (cs : Nat → χ) (o : Op) (k : Resp o → Prog Op Resp Err α) (s : σ) :
    (Prog.call o k).runWith exec cs s =
      (k (exec o (cs 0) s).2).runWith exec (fun n => cs (n + 1)) (exec o (cs 0) s).1 := rfl

theorem run_eq_runWith (c : χ) (p : Prog Op Resp Err α) (s : σ) :
    p.run exec c s = p.runWith exec (fun _ => c) s := by
  induction p generalizing s with
  | ret a => rfl
  | raise e => rfl
  | call o k ih => exact ih _ _

variable {exec}

/-- **The run of a sequence**: whatever comes second runs under the rest of the schedule. -/
theorem runWith_bind_ok {cs : Nat → χ} {p : Prog Op Resp Err α} {s s' : σ} {a : α}
    (h : p.runWith exec cs s = (s', .ok a)) :
    ∃ cs', ∀ (β : Type) (f : α → Prog Op Resp Err β),
      (p >>= f).runWith exec cs s = (f a).runWith exec cs' s' := by
  induction p generalizing cs s with
  | ret b =>
      simp only [runWith_ret, Prod.mk.injEq, Except.ok.injEq] at h
      obtain ⟨rfl, rfl⟩ := h
      exact ⟨cs, fun _ _ => rfl⟩
  | raise e => simp only [runWith_raise, Prod.mk.injEq, reduceCtorEq, and_false] at h
  | call o k ih => exact ih _ h

theorem runWith_bind_error {cs : Nat → χ} {p : Prog Op Resp Err α} {s s' : σ} {e : Err}
    (h : p.runWith exec cs s = (s', .error e)) (f : α → Prog Op Resp Err β) :
    (p >>= f).runWith exec cs s = (s', .error e) := by
  induction p generalizing cs s with
  | ret b => simp only [runWith_ret, Prod.mk.injEq, reduceCtorEq, and_false] at h
  | raise e₁ =>
      simp only [runWith_raise, Prod.mk.injEq, Except.error.injEq] at h
      obtain ⟨rfl, rfl⟩ := h
      rfl
  | call o k ih => exact ih _ h

/-- A safe first part keeps the invariant and hands on what it promises. -/
theorem Safe.runWith_bind {Inv : σ → Prop} {Guard : σ → Op → χ → Prop} {Post : α → Prop}
    {p : Prog Op Resp Err α} (h : p.Safe exec Inv Guard Post) {cs : Nat → χ}
    (hguard : ∀ s o n, Inv s → Guard s o (cs n)) {s : σ} (hinv : Inv s)
    (f : α → Prog Op Resp Err β) :
    (∃ s' a cs', Inv s' ∧ Post a ∧
      (p >>= f).runWith exec cs s = (f a).runWith exec cs' s') ∨
    ∃ s' e, Inv s' ∧ (p >>= f).runWith exec cs s = (s', .error e) := by
  induction p generalizing cs s with
  | ret a => exact Or.inl ⟨s, a, cs, hinv, h, rfl⟩
  | raise e => exact Or.inr ⟨s, e, hinv, rfl⟩
  | call o k ih =>
      obtain ⟨hinv', hrest⟩ := h s (cs 0) hinv (hguard s o 0 hinv)
      exact ih _ hrest (fun s o n => hguard s o (n + 1)) hinv'

/-! ## 2. The operations of a run -/

variable (exec) in
/-- What the program asks for when run alone under the choice `c`. -/
def ops (c : χ) : Prog Op Resp Err α → σ → List Op
  | .ret _, _ => []
  | .raise _, _ => []
  | .call o k, s => o :: (k (exec o c s).2).ops c (exec o c s).1

/-! ## 3. Two runs -/

variable (exec) (Same : σ → σ → Prop) (Matches : χ → χ → Prop)
  (Ok : α → α → Prop) (Fails : Err → Err → Prop)

/-- Two programs that go on alike: from states alike and under choices that match, both
    perform an operation, or both return, or both raise, and the states stay alike. -/
def Alike : Prog Op Resp Err α → Prog Op Resp Err α → Prop
  | .ret a, .ret b => Ok a b
  | .raise e, .raise e' => Fails e e'
  | .call o k, .call o' k' => ∀ s s' c c', Same s s' → Matches c c' →
      Same (exec o c s).1 (exec o' c' s').1 ∧
        (k (exec o c s).2).Alike (k' (exec o' c' s').2)
  | _, _ => False

variable {exec Same Matches Ok Fails}

/-- **The two-run rule.**  Programs that go on alike end alike. -/
theorem Alike.runWith {p p' : Prog Op Resp Err α}
    (h : p.Alike exec Same Matches Ok Fails p') {cs cs' : Nat → χ}
    (hcs : ∀ n, Matches (cs n) (cs' n)) {s s' : σ} (hs : Same s s') :
    Same (p.runWith exec cs s).1 (p'.runWith exec cs' s').1 ∧
      ((∃ a b, (p.runWith exec cs s).2 = .ok a ∧ (p'.runWith exec cs' s').2 = .ok b ∧ Ok a b) ∨
        ∃ e e', (p.runWith exec cs s).2 = .error e ∧ (p'.runWith exec cs' s').2 = .error e' ∧
          Fails e e') := by
  induction p generalizing p' cs cs' s s' with
  | ret a =>
      cases p' with
      | ret b => exact ⟨hs, Or.inl ⟨a, b, rfl, rfl, h⟩⟩
      | raise e => cases h
      | call o k => cases h
  | raise e =>
      cases p' with
      | ret b => cases h
      | raise e' => exact ⟨hs, Or.inr ⟨e, e', rfl, rfl, h⟩⟩
      | call o k => cases h
  | call o k ih =>
      cases p' with
      | ret b => cases h
      | raise e => cases h
      | call o' k' =>
          obtain ⟨hs', hrest⟩ := h s s' (cs 0) (cs' 0) hs (hcs 0)
          exact ih _ hrest (fun n => hcs (n + 1)) hs'

end FundingTool.Interaction.Prog
