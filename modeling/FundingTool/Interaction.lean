import FundingTool.TransitionSystem

/-!
# Interaction programs

A coroutine is modelled by what it asks of its surroundings: it returns, raises, or
performs one operation and goes on with the operation's response.  Whatever happens
between two operations is pure.  The operations are interpreted by a state
transformer `exec`, whose third argument `c` is the choice the surroundings make (a
response, a fault, a clock reading).

Two semantics share one program text:

  * `Prog.run` performs the operations one after the other, undisturbed;
  * `Machine` lets any number of programs run at once, every operation being one
    step, so that any other program may act between two operations of one.

`Prog.Safe` is the proof rule for both: every operation keeps a state invariant that
may be assumed, and only that may be assumed, when the operation is performed.
-/

namespace FundingTool.Interaction

open FundingTool.TransitionSystem

variable {Op : Type} {Resp : Op → Type} {Err α β γ σ χ τ : Type}

/-! ## 1. Programs -/

inductive Prog (Op : Type) (Resp : Op → Type) (Err α : Type) : Type
  | ret (a : α)
  | raise (e : Err)
  | call (o : Op) (k : Resp o → Prog Op Resp Err α)

namespace Prog

/-- Sequencing: a raised error ends the program. -/
protected def bind : Prog Op Resp Err α → (α → Prog Op Resp Err β) → Prog Op Resp Err β
  | .ret a, next => next a
  | .raise e, _ => .raise e
  | .call o k, next => .call o fun r => (k r).bind next

instance : Monad (Prog Op Resp Err) where
  pure := .ret
  bind := .bind

/-- Return a value or raise an error already at hand. -/
def ofExcept : Except Err α → Prog Op Resp Err α
  | .ok a => .ret a
  | .error e => .raise e

@[simp] theorem pure_eq (a : α) : (pure a : Prog Op Resp Err α) = .ret a := rfl

@[simp] theorem ret_bind (a : α) (next : α → Prog Op Resp Err β) :
    (Prog.ret a >>= next) = next a := rfl

@[simp] theorem call_bind (o : Op) (k : Resp o → Prog Op Resp Err α)
    (next : α → Prog Op Resp Err β) :
    (Prog.call o k >>= next) = .call o fun r => k r >>= next := rfl

/-! ## 2. The undisturbed run -/

variable (exec : (o : Op) → χ → σ → σ × Resp o)

/-- Run a program alone, the surroundings making the same choice `c` throughout. -/
def run (c : χ) : Prog Op Resp Err α → σ → σ × Except Err α
  | .ret a, s => (s, .ok a)
  | .raise e, s => (s, .error e)
  | .call o k, s => (k (exec o c s).2).run c (exec o c s).1

@[simp] theorem run_ret (c : χ) (a : α) (s : σ) :
    (Prog.ret a : Prog Op Resp Err α).run exec c s = (s, .ok a) := rfl

@[simp] theorem run_raise (c : χ) (e : Err) (s : σ) :
    (Prog.raise e : Prog Op Resp Err α).run exec c s = (s, .error e) := rfl

@[simp] theorem run_call (c : χ) (o : Op) (k : Resp o → Prog Op Resp Err α) (s : σ) :
    (Prog.call o k).run exec c s = (k (exec o c s).2).run exec c (exec o c s).1 := rfl

/-- The run of a sequence: run the first part, and the rest from where it returned. -/
theorem run_bind (c : χ) (p : Prog Op Resp Err α) (f : α → Prog Op Resp Err β) (s : σ) :
    (p >>= f).run exec c s =
      match p.run exec c s with
      | (s', .ok a) => (f a).run exec c s'
      | (s', .error e) => (s', .error e) := by
  induction p generalizing s with
  | ret a => rfl
  | raise e => rfl
  | call o k ih => simp only [call_bind, run_call, ih]

variable {exec} in
theorem run_bind_ok {c : χ} {p : Prog Op Resp Err α} {f : α → Prog Op Resp Err β}
    {s s' : σ} {a : α} (h : p.run exec c s = (s', .ok a)) :
    (p >>= f).run exec c s = (f a).run exec c s' := by
  rw [run_bind, h]

variable {exec} in
theorem run_bind_error {c : χ} {p : Prog Op Resp Err α} {f : α → Prog Op Resp Err β}
    {s s' : σ} {e : Err} (h : p.run exec c s = (s', .error e)) :
    (p >>= f).run exec c s = (s', .error e) := by
  rw [run_bind, h]

theorem run_ofExcept (c : χ) (r : Except Err α) (s : σ) :
    (ofExcept r : Prog Op Resp Err α).run exec c s = (s, r) := by
  cases r <;> rfl

/-- A function of what is returned does not touch the state. -/
theorem run_bind_pure (c : χ) (p : Prog Op Resp Err α) (f : α → β) (s : σ) :
    ((p >>= fun a => pure (f a)).run exec c s).1 = (p.run exec c s).1 := by
  rw [run_bind]
  rcases p.run exec c s with ⟨s', e | a⟩ <;> rfl

/-! ## 3. Safety against interference -/

variable (Inv : σ → Prop) (Guard : σ → Op → χ → Prop)

/-- A program is safe when each of its operations, performed in *any* state that
    satisfies the invariant and under any choice the guard admits, restores the
    invariant, and the value finally returned satisfies `Post`. -/
def Safe (Post : α → Prop) : Prog Op Resp Err α → Prop
  | .ret a => Post a
  | .raise _ => True
  | .call o k => ∀ s c, Inv s → Guard s o c →
      Inv (exec o c s).1 ∧ (k (exec o c s).2).Safe Post

variable {exec Inv Guard}

theorem Safe.mono {Post Post' : α → Prop} (himp : ∀ a, Post a → Post' a)
    {p : Prog Op Resp Err α} (h : p.Safe exec Inv Guard Post) :
    p.Safe exec Inv Guard Post' := by
  induction p with
  | ret a => exact himp a h
  | raise e => trivial
  | call o k ih =>
      intro s c hinv hguard
      obtain ⟨hinv', hrest⟩ := h s c hinv hguard
      exact ⟨hinv', ih _ hrest⟩

/-- **The sequencing rule.** -/
theorem Safe.bind {Mid : α → Prop} {Post : β → Prop} {p : Prog Op Resp Err α}
    {f : α → Prog Op Resp Err β} (hp : p.Safe exec Inv Guard Mid)
    (hf : ∀ a, Mid a → (f a).Safe exec Inv Guard Post) :
    (p >>= f).Safe exec Inv Guard Post := by
  induction p with
  | ret a => exact hf a hp
  | raise e => trivial
  | call o k ih =>
      intro s c hinv hguard
      obtain ⟨hinv', hrest⟩ := hp s c hinv hguard
      exact ⟨hinv', ih _ hrest⟩

theorem Safe.ofExcept {Post : α → Prop} {r : Except Err α}
    (h : ∀ a, r = .ok a → Post a) :
    (Prog.ofExcept r : Prog Op Resp Err α).Safe exec Inv Guard Post := by
  cases r with
  | ok a => exact h a rfl
  | error e => trivial

/-- A safe program run alone keeps the invariant and returns what it promises. -/
theorem Safe.run {Post : α → Prop} {p : Prog Op Resp Err α} {c : χ}
    (h : p.Safe exec Inv Guard Post) (hguard : ∀ s o, Inv s → Guard s o c)
    {s : σ} (hinv : Inv s) :
    Inv (p.run exec c s).1 ∧ ∀ a, (p.run exec c s).2 = .ok a → Post a := by
  induction p generalizing s with
  | ret a =>
      refine ⟨hinv, ?_⟩
      intro b hb
      simp only [run_ret, Except.ok.injEq] at hb
      subst hb
      exact h
  | raise e => exact ⟨hinv, by intro a ha; simp at ha⟩
  | call o k ih =>
      obtain ⟨hinv', hrest⟩ := h s c hinv (hguard s o hinv)
      exact ih _ hrest hinv'

end Prog

/-! ## 4. Any number of programs at once -/

/-- What runs: the interpretation of operations, the program a task of each kind
    executes, and the operations at which a task may be stopped from outside. -/
structure Machine (Op : Type) (Resp : Op → Type) (Err α σ χ τ : Type) where
  exec : (o : Op) → χ → σ → σ × Resp o
  program : τ → Prog Op Resp Err α
  interruptible : Op → Bool

structure Pool (Op : Type) (Resp : Op → Type) (Err α σ τ : Type) where
  state : σ
  threads : List (τ × Prog Op Resp Err α)

/-- What the task at index `i` has returned. -/
def Pool.answer (p : Pool Op Resp Err α σ τ) (i : Nat) : Option (τ × α) :=
  match p.threads[i]? with
  | some (t, .ret a) => some (t, a)
  | _ => none

theorem Pool.mem_of_answer {p : Pool Op Resp Err α σ τ} {i : Nat} {t : τ} {a : α}
    (h : p.answer i = some (t, a)) : (t, .ret a) ∈ p.threads := by
  unfold answer at h
  rcases hi : p.threads[i]? with _ | ⟨t', a' | _ | _⟩ <;> rw [hi] at h <;>
    simp only [Option.some.injEq, Prod.mk.injEq, reduceCtorEq] at h
  obtain ⟨rfl, rfl⟩ := h
  exact List.mem_of_getElem? hi

/-- One step of a pool: a new task arrives, a task performs its next operation, or a
    task is stopped at an operation and unwinds with an error. -/
inductive PoolAct (τ χ Err : Type)
  | spawn (t : τ)
  | advance (i : Nat) (c : χ)
  | abort (i : Nat) (e : Err)

namespace Machine

variable (m : Machine Op Resp Err α σ χ τ)

def step (p : Pool Op Resp Err α σ τ) : PoolAct τ χ Err → Option (Pool Op Resp Err α σ τ)
  | .spawn t => some { p with threads := p.threads ++ [(t, m.program t)] }
  | .advance i c =>
      match p.threads[i]? with
      | some (t, .call o k) =>
          some ⟨(m.exec o c p.state).1, p.threads.set i (t, k (m.exec o c p.state).2)⟩
      | _ => none
  | .abort i e =>
      match p.threads[i]? with
      | some (t, .call o _) =>
          if m.interruptible o then some { p with threads := p.threads.set i (t, .raise e) }
          else none
      | _ => none

/-- Lift a guard on single operations to the steps of the pool. -/
def Allowed (Guard : τ → σ → Op → χ → Prop) (p : Pool Op Resp Err α σ τ) :
    PoolAct τ χ Err → Prop
  | .advance i c =>
      match p.threads[i]? with
      | some (t, .call o _) => Guard t p.state o c
      | _ => True
  | _ => True

instance {Guard : τ → σ → Op → χ → Prop} [∀ t s o c, Decidable (Guard t s o c)]
    (p : Pool Op Resp Err α σ τ) (a : PoolAct τ χ Err) :
    Decidable (Allowed Guard p a) := by
  unfold Allowed
  split
  · split <;> infer_instance
  · infer_instance

/-- The guard of surroundings that may choose anything. -/
def AnyChoice (_ : τ) (_ : σ) (_ : Op) (_ : χ) : Prop := True

instance : ∀ (t : τ) (s : σ) (o : Op) (c : χ), Decidable (AnyChoice t s o c) :=
  fun _ _ _ _ => .isTrue trivial

/-- The pools reached from a state in which no task is running. -/
def Reachable (Guard : τ → σ → Op → χ → Prop) (s₀ : σ) (p : Pool Op Resp Err α σ τ) : Prop :=
  Reaches m.step (Allowed Guard) ⟨s₀, []⟩ p

variable {m} {Guard : τ → σ → Op → χ → Prop} {Inv : σ → Prop} {Post : τ → α → Prop}

/-- Everything a pool keeps: the state invariant, and the safety of what each task
    still has to do. -/
def Sound (m : Machine Op Resp Err α σ χ τ) (Guard : τ → σ → Op → χ → Prop)
    (Inv : σ → Prop) (Post : τ → α → Prop) (p : Pool Op Resp Err α σ τ) : Prop :=
  Inv p.state ∧ ∀ thread ∈ p.threads,
    thread.2.Safe m.exec Inv (Guard thread.1) (Post thread.1)

theorem sound_set {p : Pool Op Resp Err α σ τ} {s : σ} {i : Nat}
    {thread : τ × Prog Op Resp Err α} (hinv : Inv s)
    (hold : ∀ other ∈ p.threads, other.2.Safe m.exec Inv (Guard other.1) (Post other.1))
    (hnew : thread.2.Safe m.exec Inv (Guard thread.1) (Post thread.1)) :
    Sound m Guard Inv Post ⟨s, p.threads.set i thread⟩ := by
  refine ⟨hinv, ?_⟩
  intro other hother
  rcases List.mem_or_eq_of_mem_set hother with h | h
  · exact hold other h
  · rw [h]; exact hnew

/-- One step of any task keeps the pool sound. -/
theorem sound_step (hsafe : ∀ t, (m.program t).Safe m.exec Inv (Guard t) (Post t))
    {p p' : Pool Op Resp Err α σ τ} {a : PoolAct τ χ Err}
    (h : Sound m Guard Inv Post p) (hallowed : Allowed Guard p a)
    (hstep : m.step p a = some p') : Sound m Guard Inv Post p' := by
  obtain ⟨hinv, hthreads⟩ := h
  cases a with
  | spawn t =>
      simp only [step, Option.some.injEq] at hstep
      subst hstep
      refine ⟨hinv, ?_⟩
      intro thread hthread
      rcases List.mem_append.mp hthread with h | h
      · exact hthreads thread h
      · rw [List.mem_singleton.mp h]; exact hsafe t
  | advance i c =>
      simp only [step] at hstep
      simp only [Allowed] at hallowed
      rcases hi : p.threads[i]? with _ | ⟨t, _ | _ | ⟨o, k⟩⟩ <;> rw [hi] at hstep hallowed <;>
        simp only [Option.some.injEq, reduceCtorEq] at hstep
      subst hstep
      have hthread := hthreads _ (List.mem_of_getElem? hi)
      obtain ⟨hinv', hrest⟩ := hthread p.state c hinv hallowed
      exact sound_set hinv' hthreads hrest
  | abort i e =>
      simp only [step] at hstep
      rcases hi : p.threads[i]? with _ | ⟨t, _ | _ | ⟨o, k⟩⟩ <;> rw [hi] at hstep <;>
        simp only [reduceCtorEq] at hstep
      by_cases hint : m.interruptible o
      · rw [if_pos hint, Option.some.injEq] at hstep
        subst hstep
        exact sound_set hinv hthreads trivial
      · rw [if_neg hint] at hstep; simp at hstep

/-- **Soundness of concurrent runs.**  If every kind of task is safe, the invariant
    holds after any interleaving of any number of tasks, and so does the promise of
    every task that has returned. -/
theorem Reachable.sound (hsafe : ∀ t, (m.program t).Safe m.exec Inv (Guard t) (Post t))
    {s₀ : σ} (hinv : Inv s₀) {p : Pool Op Resp Err α σ τ}
    (h : m.Reachable Guard s₀ p) : Sound m Guard Inv Post p :=
  Reaches.invariant ⟨hinv, by intro thread hthread; cases hthread⟩
    (fun _ _ _ => sound_step hsafe) h

theorem Reachable.returned (hsafe : ∀ t, (m.program t).Safe m.exec Inv (Guard t) (Post t))
    {s₀ : σ} (hinv : Inv s₀) {p : Pool Op Resp Err α σ τ} (h : m.Reachable Guard s₀ p)
    {i : Nat} {t : τ} {a : α} (hanswer : p.answer i = some (t, a)) : Post t a :=
  (Reachable.sound hsafe hinv h).2 _ (Pool.mem_of_answer hanswer)

end Machine

end FundingTool.Interaction
