import Mathlib.Init

/-!
# Guarded transition systems

A system is a partial step function on states and actions.  A run is a sequence of
actions, each allowed by a guard in the state it is taken from.  The facts everything else
rests on: an invariant of one guarded step is an invariant of every run, a rank that some
actions take from bounds their number, and a schedule that can be played out is a run.
-/

namespace FundingTool.TransitionSystem

variable {σ α : Type}

/-- The states a run reaches from `s₀` when every action taken is allowed in the
    state it is taken from. -/
inductive Reaches (step : σ → α → Option σ) (Allowed : σ → α → Prop) (s₀ : σ) : σ → Prop
  | start : Reaches step Allowed s₀ s₀
  | step {s s' : σ} {a : α} : Reaches step Allowed s₀ s → Allowed s a →
      step s a = some s' → Reaches step Allowed s₀ s'

/-- The guard of an unrestricted run. -/
def Unguarded (_ : σ) (_ : α) : Prop := True

variable {step : σ → α → Option σ} {Allowed : σ → α → Prop} {s₀ s : σ}

/-- **The invariant rule.**  What holds at the start and survives every allowed step
    holds in every state a run reaches. -/
theorem Reaches.invariant {Inv : σ → Prop} (hstart : Inv s₀)
    (hstep : ∀ s a s', Inv s → Allowed s a → step s a = some s' → Inv s')
    (h : Reaches step Allowed s₀ s) : Inv s := by
  induction h with
  | start => exact hstart
  | step _ hallowed hnext ih => exact hstep _ _ _ ih hallowed hnext

theorem Reaches.trans {s' : σ} (h : Reaches step Allowed s₀ s)
    (h' : Reaches step Allowed s s') : Reaches step Allowed s₀ s' := by
  induction h' with
  | start => exact h
  | step _ hallowed hnext ih => exact ih.step hallowed hnext

/-- What a stronger guard allows is a run under a weaker one. -/
theorem Reaches.mono {Allowed' : σ → α → Prop} (hmono : ∀ s a, Allowed s a → Allowed' s a)
    (h : Reaches step Allowed s₀ s) : Reaches step Allowed' s₀ s := by
  induction h with
  | start => exact .start
  | step _ hallowed hnext ih => exact ih.step (hmono _ _ hallowed) hnext

/-- The same, with the number of the actions that count. -/
inductive ReachesIn (step : σ → α → Option σ) (Allowed Counts : σ → α → Prop) (s₀ : σ) :
    Nat → σ → Prop
  | start : ReachesIn step Allowed Counts s₀ 0 s₀
  | other {n : Nat} {s s' : σ} {a : α} : ReachesIn step Allowed Counts s₀ n s → Allowed s a →
      ¬ Counts s a → step s a = some s' → ReachesIn step Allowed Counts s₀ n s'
  | counted {n : Nat} {s s' : σ} {a : α} : ReachesIn step Allowed Counts s₀ n s → Allowed s a →
      Counts s a → step s a = some s' → ReachesIn step Allowed Counts s₀ (n + 1) s'

/-- **The rank rule.**  Where every action that counts takes one from the rank and no other
    changes it, as many can be taken as the rank says. -/
theorem ReachesIn.rank {Counts : σ → α → Prop} {Rank : σ → Nat → Prop}
    (hcounted : ∀ s a s' n, Rank s n → Allowed s a → Counts s a → step s a = some s' →
      ∃ m, n = m + 1 ∧ Rank s' m)
    (hother : ∀ s a s' n, Rank s n → Allowed s a → ¬ Counts s a → step s a = some s' → Rank s' n)
    {count n : Nat} (h : ReachesIn step Allowed Counts s₀ count s) (hstart : Rank s₀ n) :
    ∃ m, n = m + count ∧ Rank s m := by
  induction h with
  | start => exact ⟨n, rfl, hstart⟩
  | other _ hallowed hcounts hnext ih =>
      obtain ⟨m, hm, hrank⟩ := ih
      exact ⟨m, hm, hother _ _ _ _ hrank hallowed hcounts hnext⟩
  | counted _ hallowed hcounts hnext ih =>
      obtain ⟨m, hm, hrank⟩ := ih
      obtain ⟨m', hm', hrank'⟩ := hcounted _ _ _ _ hrank hallowed hcounts hnext
      exact ⟨m', by omega, hrank'⟩

/-- Play a fixed schedule of actions, stopping where one is not allowed or cannot be
    taken. -/
def play (step : σ → α → Option σ) (Allowed : σ → α → Prop)
    [∀ s a, Decidable (Allowed s a)] (s : σ) : List α → Option σ
  | [] => some s
  | a :: schedule =>
      if Allowed s a then
        match step s a with
        | some s' => play step Allowed s' schedule
        | none => none
      else none

/-- A schedule whose actions are also allowed by another guard. -/
theorem play_reaches_of [∀ s a, Decidable (Allowed s a)] {Allowed' : σ → α → Prop}
    {schedule : List α} (hallowed' : ∀ a ∈ schedule, ∀ s, Allowed s a → Allowed' s a) {s' : σ}
    (h : play step Allowed s schedule = some s') : Reaches step Allowed' s s' := by
  induction schedule generalizing s with
  | nil =>
      simp only [play, Option.some.injEq] at h
      subst h
      exact .start
  | cons a schedule ih =>
      simp only [play] at h
      by_cases hallowed : Allowed s a
      · rw [if_pos hallowed] at h
        rcases hnext : step s a with _ | next
        · rw [hnext] at h; simp at h
        · rw [hnext] at h
          have hfirst := Reaches.start.step (hallowed' a List.mem_cons_self s hallowed) hnext
          exact hfirst.trans (ih (fun a ha => hallowed' a (List.mem_cons_of_mem _ ha)) h)
      · rw [if_neg hallowed] at h; simp at h

theorem play_reaches [∀ s a, Decidable (Allowed s a)] {schedule : List α} {s' : σ}
    (h : play step Allowed s schedule = some s') : Reaches step Allowed s s' :=
  play_reaches_of (fun _ _ _ hallowed => hallowed) h

theorem play_get_reaches [∀ s a, Decidable (Allowed s a)] (schedule : List α)
    (h : (play step Allowed s schedule).isSome = true) :
    Reaches step Allowed s ((play step Allowed s schedule).get h) :=
  play_reaches (Option.some_get h).symm

instance : ∀ (s : σ) (a : α), Decidable (Unguarded s a) := fun _ _ => .isTrue trivial

end FundingTool.TransitionSystem
