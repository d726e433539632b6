import FundingTool.Interaction

/-!
# Timelines

What a program returns is often a fact about a moment that is over when somebody reads it: the
list it read, the row it removed.  A timeline keeps the states a system has been in, so that such
facts can be stated, and they stay true as it grows.

`Prog.Promises` is the rule for programs that run among others: whatever happens between two
operations only makes the timeline longer.
-/

namespace FundingTool

variable {σ : Type}

/-- The states a system has been in, the oldest first, and the one it is in. -/
structure Timeline (σ : Type) where
  past : List σ
  present : σ

namespace Timeline

/-- The moment of the present state; the first state has been at moment 0. -/
def now (line : Timeline σ) : Nat := line.past.length

/-- The state at a moment. -/
def at? (line : Timeline σ) (moment : Nat) : Option σ :=
  (line.past ++ [line.present])[moment]?

/-- The system goes over into a state. -/
def next (line : Timeline σ) (s : σ) : Timeline σ := ⟨line.past ++ [line.present], s⟩

/-- What has been, has been. -/
def Extends (line later : Timeline σ) : Prop :=
  line.past ++ [line.present] <+: later.past ++ [later.present]

theorem at?_now (line : Timeline σ) : line.at? line.now = some line.present := by
  simp [at?, now]

@[simp] theorem now_next (line : Timeline σ) (s : σ) : (line.next s).now = line.now + 1 := by
  simp [now, next]

theorem at?_next (line : Timeline σ) (s : σ) : (line.next s).at? (line.now + 1) = some s := by
  have h := (line.next s).at?_now
  rwa [now_next] at h

theorem Extends.refl (line : Timeline σ) : line.Extends line := List.prefix_refl _

theorem Extends.trans {line later latest : Timeline σ} (h : line.Extends later)
    (h' : later.Extends latest) : line.Extends latest := List.IsPrefix.trans h h'

theorem extends_next (line : Timeline σ) (s : σ) : line.Extends (line.next s) :=
  List.prefix_append _ _

theorem Extends.now_le {line later : Timeline σ} (h : line.Extends later) :
    line.now ≤ later.now := by
  have hlen := List.IsPrefix.length_le h
  simp only [List.length_append, List.length_singleton] at hlen
  exact Nat.le_of_succ_le_succ hlen

theorem Extends.at? {line later : Timeline σ} (h : line.Extends later) {moment : Nat} {s : σ}
    (hat : line.at? moment = some s) : later.at? moment = some s := by
  obtain ⟨hlt, hget⟩ := List.getElem?_eq_some_iff.mp hat
  obtain ⟨rest, hrest⟩ := h
  unfold Timeline.at?
  rw [← hrest, List.getElem?_append_left hlt]
  exact hat

/-- **A property that is lost is lost at some moment.** -/
theorem exists_loss {line : Timeline σ} {P : σ → Prop} {first last : Nat} {s : σ}
    (hs : line.at? first = some s) (hholds : P s) (hle : first ≤ last) {s' : σ}
    (hs' : line.at? last = some s') (hlost : ¬ P s') :
    ∃ moment, first ≤ moment ∧ moment < last ∧ ∃ a b, line.at? moment = some a ∧
      line.at? (moment + 1) = some b ∧ P a ∧ ¬ P b := by
  induction hle generalizing s' with
  | refl =>
      rw [hs, Option.some.injEq] at hs'
      exact absurd (hs' ▸ hholds) hlost
  | @step last hle ih =>
      obtain ⟨hlt, -⟩ := List.getElem?_eq_some_iff.mp hs'
      obtain ⟨before, hbefore⟩ : ∃ before, line.at? last = some before :=
        ⟨_, List.getElem?_eq_getElem (Nat.lt_of_succ_lt hlt)⟩
      by_cases hlast : P before
      · exact ⟨last, hle, Nat.lt_succ_self last, _, _, hbefore, hs', hlast, hlost⟩
      · obtain ⟨moment, hfirst, hmoment, hchange⟩ := ih hbefore hlast
        exact ⟨moment, hfirst, Nat.lt_succ_of_lt hmoment, hchange⟩

end Timeline

namespace Interaction

variable {Op : Type} {Resp : Op → Type} {Err α β χ τ : Type}
  (exec : (o : Op) → χ → σ → σ × Resp o)

namespace Prog

/-- Whatever comes between the operations, what is returned has the property `Post` on the
    timeline of its moment. -/
def Promises (Post : Timeline σ → α → Prop) : Prog Op Resp Err α → Timeline σ → Prop
  | .ret a, line => Post line a
  | .raise _, _ => True
  | .call o k, line => ∀ (later : Timeline σ) (c : χ), line.Extends later →
      (k (exec o c later.present).2).Promises Post (later.next (exec o c later.present).1)

/-- A property that time does not take away. -/
def Lasting (Post : Timeline σ → α → Prop) : Prop :=
  ∀ (line later : Timeline σ) (a : α), line.Extends later → Post line a → Post later a

variable {exec} {Post : Timeline σ → α → Prop}

theorem Promises.later (hpost : Lasting Post) {p : Prog Op Resp Err α} {line later : Timeline σ}
    (h : p.Promises exec Post line) (hlater : line.Extends later) :
    p.Promises exec Post later := by
  cases p with
  | ret a => exact hpost line later a hlater h
  | raise e => trivial
  | call o k =>
      intro latest c hlatest
      exact h latest c (hlater.trans hlatest)

/-- **The sequencing rule.** -/
theorem Promises.bind {Mid : Timeline σ → α → Prop} {Post : Timeline σ → β → Prop}
    {p : Prog Op Resp Err α} {f : α → Prog Op Resp Err β} {line : Timeline σ}
    (hp : p.Promises exec Mid line)
    (hf : ∀ later a, line.Extends later → Mid later a → (f a).Promises exec Post later) :
    (p >>= f).Promises exec Post line := by
  induction p generalizing line with
  | ret a => exact hf line a (.refl line) hp
  | raise e => trivial
  | call o k ih =>
      intro later c hlater
      refine ih _ (hp later c hlater) ?_
      intro latest a hlatest hmid
      exact hf latest a ((hlater.trans (later.extends_next _)).trans hlatest) hmid

theorem Promises.ofExcept {r : Except Err α} {line : Timeline σ}
    (h : ∀ a, r = .ok a → Post line a) :
    (Prog.ofExcept r : Prog Op Resp Err α).Promises exec Post line := by
  cases r with
  | ok a => exact h a rfl
  | error e => trivial

end Prog

namespace Machine

variable {m : Machine Op Resp Err α σ χ τ} {Post : Timeline σ → α → Prop}

/-- **A task keeps its promise through every step of the pool.** -/
theorem promises_step (hpost : Prog.Lasting Post) {p p' : Pool Op Resp Err α σ τ}
    {a : PoolAct τ χ Err} (hstep : m.step p a = some p') {line : Timeline σ}
    (hpresent : line.present = p.state) {k : Nat} {t : τ} {prog : Prog Op Resp Err α}
    (hk : p.threads[k]? = some (t, prog)) (hprog : prog.Promises m.exec Post line) :
    ∃ prog', p'.threads[k]? = some (t, prog') ∧
      prog'.Promises m.exec Post (line.next p'.state) := by
  have hkept := hprog.later hpost (line.extends_next p'.state)
  obtain ⟨hlt, -⟩ := List.getElem?_eq_some_iff.mp hk
  cases a with
  | spawn t' =>
      simp only [step, Option.some.injEq] at hstep
      subst hstep
      exact ⟨prog, (List.getElem?_append_left hlt).trans hk, hkept⟩
  | advance i c =>
      simp only [step] at hstep
      rcases hi : p.threads[i]? with _ | ⟨t', _ | _ | ⟨o, rest⟩⟩ <;> rw [hi] at hstep <;>
        simp only [Option.some.injEq, reduceCtorEq] at hstep
      subst hstep
      by_cases hsame : i = k
      · subst hsame
        rw [hk, Option.some.injEq, Prod.mk.injEq] at hi
        obtain ⟨rfl, rfl⟩ := hi
        refine ⟨_, List.getElem?_set_self hlt, ?_⟩
        have hrest := hprog line c (.refl line)
        rwa [hpresent] at hrest
      · exact ⟨prog, (List.getElem?_set_ne hsame).trans hk, hkept⟩
  | abort i e =>
      simp only [step] at hstep
      rcases hi : p.threads[i]? with _ | ⟨t', _ | _ | ⟨o, rest⟩⟩ <;> rw [hi] at hstep <;>
        simp only [reduceCtorEq] at hstep
      by_cases hint : m.interruptible o
      · rw [if_pos hint, Option.some.injEq] at hstep
        subst hstep
        by_cases hsame : i = k
        · subst hsame
          rw [hk, Option.some.injEq, Prod.mk.injEq] at hi
          obtain ⟨rfl, -⟩ := hi
          exact ⟨_, List.getElem?_set_self hlt, trivial⟩
        · exact ⟨prog, (List.getElem?_set_ne hsame).trans hk, hkept⟩
      · rw [if_neg hint] at hstep
        cases hstep

end Machine

end Interaction

end FundingTool
