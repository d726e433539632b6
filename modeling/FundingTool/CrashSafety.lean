import FundingTool.Interaction

/-!
# Programs that may stop anywhere

One process works on a persistent state, one program at a time.  Each program takes the
process's memory and returns it changed, or raises with the memory as it then is.  The
process may die before any operation; the next one loads its memory from the state.

`Prog.wp` is the weakest precondition of a program for a postcondition and a crash
condition, which has to hold before and after every operation.  `Component.sound` is its
adequacy: programs verified one by one keep the state good in every run, whatever faults,
deaths and starts there are.
-/

namespace FundingTool.Interaction

open FundingTool.TransitionSystem

variable {Op : Type} {Resp : Op → Type} {Err α σ χ μ ε τ : Type}

/-! ## 1. Weakest preconditions -/

namespace Prog

variable (exec : (o : Op) → χ → σ → σ × Resp o) (Guard : σ → Op → χ → Prop) (Crash : σ → Prop)

/-- From this state on, under every choice the guard admits: `Crash` holds all along, and
    `Post` of the state and the outcome in the end. -/
def wp (Post : σ → Except Err α → Prop) : Prog Op Resp Err α → σ → Prop
  | .ret a, s => Crash s ∧ Post s (.ok a)
  | .raise e, s => Crash s ∧ Post s (.error e)
  | .call o k, s => Crash s ∧ ∀ c, Guard s o c → (k (exec o c s).2).wp Post (exec o c s).1

variable {exec Guard Crash}

theorem wp.crash {Post : σ → Except Err α → Prop} {s : σ} {p : Prog Op Resp Err α}
    (h : p.wp exec Guard Crash Post s) : Crash s := by
  cases p with
  | ret a => exact h.1
  | raise e => exact h.1
  | call o k => exact h.1

theorem wp.mono {Post Post' : σ → Except Err α → Prop}
    (himp : ∀ s r, Crash s → Post s r → Post' s r) {s : σ} {p : Prog Op Resp Err α}
    (h : p.wp exec Guard Crash Post s) : p.wp exec Guard Crash Post' s := by
  induction p generalizing s with
  | ret a => exact ⟨h.1, himp _ _ h.1 h.2⟩
  | raise e => exact ⟨h.1, himp _ _ h.1 h.2⟩
  | call o k ih => exact ⟨h.1, fun c hguard => ih _ (h.2 c hguard)⟩

end Prog

/-! ## 2. One process on a persistent state -/

/-- What a process does: interpret operations, load its memory (the state may note that),
    and answer calls. -/
structure Component (Op : Type) (Resp : Op → Type) (μ ε σ χ τ : Type) where
  exec : (o : Op) → χ → σ → σ × Resp o
  load : σ → σ × μ
  begin : τ → μ → σ → σ
  program : τ → μ → Prog Op Resp (μ × ε) μ

inductive Process (Op : Type) (Resp : Op → Type) (μ ε : Type)
  | dead
  | idle (memory : μ)
  | busy (rest : Prog Op Resp (μ × ε) μ)

structure Session (Op : Type) (Resp : Op → Type) (μ ε σ : Type) where
  state : σ
  process : Process Op Resp μ ε

inductive SessionAct (χ τ : Type)
  | start
  | call (t : τ)
  | advance (c : χ)
  | finish
  | die

/-- The memory a call leaves, however it ends. -/
def memoryOf : Except (μ × ε) μ → μ
  | .ok memory => memory
  | .error (memory, _) => memory

namespace Component

variable (m : Component Op Resp μ ε σ χ τ)

def step (s : Session Op Resp μ ε σ) : SessionAct χ τ → Option (Session Op Resp μ ε σ)
  | .start =>
      match s.process with
      | .busy _ => none
      | _ => some ⟨(m.load s.state).1, .idle (m.load s.state).2⟩
  | .call t =>
      match s.process with
      | .idle memory => some ⟨m.begin t memory s.state, .busy (m.program t memory)⟩
      | _ => none
  | .advance c =>
      match s.process with
      | .busy (.call o k) => some ⟨(m.exec o c s.state).1, .busy (k (m.exec o c s.state).2)⟩
      | _ => none
  | .finish =>
      match s.process with
      | .busy (.ret memory) => some ⟨s.state, .idle memory⟩
      | .busy (.raise (memory, _)) => some ⟨s.state, .idle memory⟩
      | _ => none
  | .die => some ⟨s.state, .dead⟩

/-- Guards on single operations and on the states in which the process may die. -/
def Allowed (Guard : σ → Op → χ → Prop) (MayDie : σ → Prop) (s : Session Op Resp μ ε σ) :
    SessionAct χ τ → Prop
  | .advance c =>
      match s.process with
      | .busy (.call o _) => Guard s.state o c
      | _ => True
  | .die => MayDie s.state
  | _ => True

instance {Guard : σ → Op → χ → Prop} {MayDie : σ → Prop} [∀ s o c, Decidable (Guard s o c)]
    [∀ s, Decidable (MayDie s)] (s : Session Op Resp μ ε σ) (a : SessionAct χ τ) :
    Decidable (Allowed Guard MayDie s a) := by
  unfold Allowed
  split
  · split <;> infer_instance
  · infer_instance
  · infer_instance

/-! ## 3. Adequacy -/

section Soundness

-- `Quiet` holds whenever no program runs, and then `Rel` ties the memory to the state.
variable (Guard : σ → Op → χ → Prop) (MayDie : σ → Prop) (Crash Quiet : σ → Prop)
  (Rel : μ → σ → Prop)

/-- What a session keeps. -/
def SoundSession (s : Session Op Resp μ ε σ) : Prop :=
  match s.process with
  | .dead => Quiet s.state
  | .idle memory => Quiet s.state ∧ Rel memory s.state
  | .busy rest =>
      rest.wp m.exec Guard Crash (fun s r => Quiet s ∧ Rel (memoryOf r) s) s.state

variable {m Guard MayDie Crash Quiet Rel}

theorem soundSession_step
    (hload : ∀ s, Quiet s → Quiet (m.load s).1 ∧ Rel (m.load s).2 (m.load s).1)
    (hcall : ∀ t memory s, Quiet s → Rel memory s → (m.program t memory).wp m.exec Guard Crash
      (fun s r => Quiet s ∧ Rel (memoryOf r) s) (m.begin t memory s))
    (hdie : ∀ s, Crash s → MayDie s → Quiet s) {s s' : Session Op Resp μ ε σ}
    {a : SessionAct χ τ} (h : SoundSession m Guard Crash Quiet Rel s)
    (hallowed : Allowed Guard MayDie s a) (hstep : m.step s a = some s') :
    SoundSession m Guard Crash Quiet Rel s' := by
  obtain ⟨state, process⟩ := s
  cases a with
  | start =>
      cases process with
      | dead =>
          cases hstep
          exact hload state h
      | idle memory =>
          cases hstep
          exact hload state h.1
      | busy rest => cases hstep
  | call t =>
      cases process with
      | idle memory =>
          cases hstep
          exact hcall t memory state h.1 h.2
      | _ => cases hstep
  | advance c =>
      rcases process with _ | memory | _ | e | ⟨o, k⟩
      · cases hstep
      · cases hstep
      · cases hstep
      · cases hstep
      · cases hstep
        exact h.2 c hallowed
  | finish =>
      rcases process with _ | memory | memory | ⟨memory, e⟩ | ⟨o, k⟩
      · cases hstep
      · cases hstep
      · cases hstep
        exact h.2
      · cases hstep
        exact h.2
      · cases hstep
  | die =>
      cases hstep
      cases process with
      | dead => exact h
      | idle memory => exact h.1
      | busy rest => exact hdie state h.crash hallowed

variable (Quiet Rel) in
/-- **Adequacy.**  If every call is verified from every quiet state that fits the memory,
    every run keeps the session sound. -/
theorem sound
    (hload : ∀ s, Quiet s → Quiet (m.load s).1 ∧ Rel (m.load s).2 (m.load s).1)
    (hcall : ∀ t memory s, Quiet s → Rel memory s → (m.program t memory).wp m.exec Guard Crash
      (fun s r => Quiet s ∧ Rel (memoryOf r) s) (m.begin t memory s))
    (hdie : ∀ s, Crash s → MayDie s → Quiet s) {s₀ : σ} (hquiet : Quiet s₀)
    {s : Session Op Resp μ ε σ} (h : Reaches m.step (Allowed Guard MayDie) ⟨s₀, .dead⟩ s) :
    SoundSession m Guard Crash Quiet Rel s := by
  have hstart : SoundSession m Guard Crash Quiet Rel ⟨s₀, .dead⟩ := hquiet
  apply h.invariant hstart
  intro s a s' hsound hallowed hstep
  exact soundSession_step hload hcall hdie hsound hallowed hstep

end Soundness

end Component

end FundingTool.Interaction
