import FundingTool.TaskRestart

/-!
# Status snapshots

What `status` answers for the tasks of the current manager, in runs of any number of tasks
whose jobs return or raise an `Exception`; `_persist` may raise at any time, and managers may
follow one another on the directory.  `_run` updates the entry between two awaits, so that no
other coroutine sees a part of the update.

The step of a task on which everything rests is `phase_advance`: an entry is blank until the
job ends, reports the job's outcome from then on, and the file never says anything else.
-/

namespace FundingTool.TaskSnapshots

open FundingTool.TransitionSystem FundingTool.TaskRestart

variable {ρ : Type}

/-! ## 1. Runs -/

/-- Jobs end with a value or an `Exception`, and no task is cancelled. -/
def Uncancelled (_ : Server ρ) : ServerAct ρ → Prop
  | .drop _ => False
  | .finish _ _ (.raised e) => e.isException = true
  | _ => True

/-- The same in one manager. -/
def OneManager (s : Server ρ) : ServerAct ρ → Prop
  | .restart => False
  | a => Uncancelled s a

instance (s : Server ρ) : (a : ServerAct ρ) → Decidable (Uncancelled s a)
  | .drop _ => .isFalse id
  | .finish _ _ (.raised e) => inferInstanceAs (Decidable (e.isException = true))
  | .finish _ _ (.returned _) => .isTrue trivial
  | .submit _ _ => .isTrue trivial
  | .start _ => .isTrue trivial
  | .openFile _ => .isTrue trivial
  | .writeFile _ => .isTrue trivial
  | .failWrite _ => .isTrue trivial
  | .cleanupExpired _ => .isTrue trivial
  | .restart => .isTrue trivial

theorem OneManager.uncancelled {s : Server ρ} {a : ServerAct ρ} (h : OneManager s a) :
    Uncancelled s a := by
  cases a with
  | restart => trivial
  | _ => exact h

/-- What an entry says while its job has not ended, and once it has. -/
def Agrees : Option (JobEnd ρ) → Snapshot ρ → Prop
  | none, entry => entry.status = .running ∧ entry.result = none ∧ entry.error = none
  | some outcome, entry => Reports outcome entry

theorem reports_terminal {outcome : JobEnd ρ} {entry : Snapshot ρ} (h : Reports outcome entry) :
    entry.status ≠ .running := by
  intro hrunning
  cases outcome with
  | returned result => cases hrunning.symm.trans h.1
  | raised e => cases hrunning.symm.trans h.1

/-! ## 2. The phases of a task -/

/-- Not in the manager's memory; before its job has ended; from there on. -/
inductive Phase : View ρ → Prop
  | away {outcome : Option (JobEnd ρ)} {file : Option (FileContent ρ)} :
      Phase ⟨none, none, outcome, file⟩
  | pending {stage : Stage ρ} {entry : Snapshot ρ} (hstage : stage = .scheduled ∨ stage = .awaiting)
      (hblank : Agrees none entry) : Phase ⟨some stage, some entry, none, none⟩
  | ended {stage : Option (Stage ρ)} {entry : Snapshot ρ} {outcome : JobEnd ρ}
      {file : Option (FileContent ρ)}
      (hstage : ∀ current, stage = some current →
        current = .ended ∨ current = .writing entry ∨ current = .escaped)
      (hreports : Reports outcome entry)
      (hfile : ∀ snapshot, file = some (.document snapshot) → snapshot = entry) :
      Phase ⟨stage, some entry, some outcome, file⟩

/-- One step of the server keeps the phase of a task: a new one is blank, none is dropped. -/
theorem phase_advance {taskId : String} {a : ServerAct ρ} {v v' : View ρ} (h : Phase v)
    (hadvance : Advance taskId a v v')
    (hnew : ∀ now, a = .submit taskId now → v = ⟨none, none, none, none⟩)
    (hdrop : a ≠ .drop taskId)
    (hexception : ∀ errorId e, a = .finish taskId errorId (.raised e) → e.isException = true) :
    Phase v' := by
  cases hadvance with
  | frame => exact h
  | submit now =>
      rw [hnew now rfl]
      exact .pending (.inl rfl) ⟨rfl, rfl, rfl⟩
  | start =>
      cases h with
      | pending _ hblank => exact .pending (.inr rfl) hblank
      | ended hstage => rcases hstage _ rfl with h | h | h <;> cases h
  | drop => exact absurd rfl hdrop
  | finish errorId ending =>
      cases h with
      | pending _ hblank =>
          refine .ended (fun current hcurrent => .inl (Option.some.inj hcurrent).symm) ?_
            fun _ hfile => (by cases hfile)
          refine reports_record hblank.2.1 hblank.2.2 errorId ?_
          rintro e rfl
          exact hexception errorId e rfl
      | ended hstage => rcases hstage _ rfl with h | h | h <;> cases h
  | openFile =>
      cases h with
      | pending hstage => rcases hstage with h | h <;> cases h
      | ended _ hreports =>
          exact .ended (fun current hcurrent => .inr (.inl (Option.some.inj hcurrent).symm))
            hreports fun _ hfile => (by cases hfile)
  | writeFile =>
      cases h with
      | pending hstage => rcases hstage with h | h <;> cases h
      | ended hstage hreports =>
          refine .ended (fun _ hcurrent => (by cases hcurrent)) hreports ?_
          intro snapshot hfile
          cases hfile
          rcases hstage _ rfl with h | h | h <;> cases h
          rfl
  | failOpen =>
      cases h with
      | pending hstage => rcases hstage with h | h <;> cases h
      | ended _ hreports hfile =>
          exact .ended (fun current hcurrent => .inr (.inr (Option.some.inj hcurrent).symm))
            hreports hfile
  | failWrite =>
      cases h with
      | pending hstage => rcases hstage with h | h <;> cases h
      | ended _ hreports hfile =>
          exact .ended (fun current hcurrent => .inr (.inr (Option.some.inj hcurrent).symm))
            hreports hfile
  | sweep =>
      cases h with
      | away => exact .away
      | pending hstage hblank => exact .pending hstage hblank
      | ended hstage hreports => exact .ended hstage hreports fun _ hfile => (by cases hfile)
  | restart => exact .away

/-! ## 3. The invariant -/

/-- A task submitted to the current manager. -/
def Current (s : Server ρ) (taskId : String) : Prop :=
  taskId ∈ s.issued ∧ taskId ∉ s.earlier

structure Kept (s : Server ρ) : Prop where
  phase : ∀ taskId, Phase (s.view taskId)
  unissued : ∀ taskId, taskId ∉ s.issued → s.view taskId = ⟨none, none, none, none⟩
  current : ∀ taskId, Current s taskId → (s.view taskId).entry ≠ none

theorem kept_fresh (ttl : Int) : Kept (Server.fresh ttl : Server ρ) where
  phase _ := .away
  unissued _ _ := rfl
  current _ h := absurd h.1 List.not_mem_nil

theorem serverStep_submit {s s' : Server ρ} {taskId : String} {now : Int}
    (h : serverStep s (.submit taskId now) = some s') :
    (s'.view taskId).entry = some ⟨.running, none, none, none, now⟩ := by
  simp only [serverStep] at h
  by_cases hissued : taskId ∈ s.issued
  · rw [if_pos hissued] at h
    cases h
  · rw [if_neg hissued, Option.some.injEq] at h
    subst h
    simp only [Server.view, TaskManager.submit, OrderedDict.get?_set_self]

/-- An entry stays in memory as long as its manager. -/
theorem entry_kept {taskId : String} {a : ServerAct ρ} {v v' : View ρ}
    (h : Advance taskId a v v') (hentry : v.entry ≠ none) (hrestart : a ≠ .restart) :
    v'.entry ≠ none := by
  cases h with
  | restart => exact absurd rfl hrestart
  | submit => exact Option.some_ne_none _
  | finish => exact Option.some_ne_none _
  | openFile => exact Option.some_ne_none _
  | _ => exact hentry

theorem serverStep_restart {s s' : Server ρ} (h : serverStep s .restart = some s') :
    s'.earlier = s'.issued := by
  cases h
  rfl

/-- The ids of the current manager, before and after a step. -/
theorem current_step {s s' : Server ρ} {a : ServerAct ρ} (h : serverStep s a = some s')
    {taskId : String} (hcurrent : Current s' taskId) :
    a ≠ .restart ∧ ((∃ now, a = .submit taskId now) ∨ Current s taskId) := by
  have hrestart : a ≠ .restart := by
    rintro rfl
    exact hcurrent.2 (serverStep_restart h ▸ hcurrent.1)
  refine ⟨hrestart, ?_⟩
  obtain ⟨hissued, hearlier⟩ := hcurrent
  rcases serverStep_issued h with ⟨other, now, rfl, -, heq, hsame⟩ | ⟨-, heq, hsame | ⟨rfl, -⟩⟩
  · rw [heq, List.mem_cons] at hissued
    rw [hsame] at hearlier
    rcases hissued with rfl | hissued
    · exact .inl ⟨now, rfl⟩
    · exact .inr ⟨hissued, hearlier⟩
  · exact .inr ⟨heq ▸ hissued, hsame ▸ hearlier⟩
  · exact absurd rfl hrestart

theorem kept_step {s s' : Server ρ} {a : ServerAct ρ} (h : Kept s) (hallowed : Uncancelled s a)
    (hstep : serverStep s a = some s') : Kept s' := by
  refine ⟨fun taskId => ?_, unissued_step hstep h.unissued, fun taskId hcurrent => ?_⟩
  · refine phase_advance (h.phase taskId) (serverStep_view hstep taskId)
      (submit_blank hstep h.unissued) ?_ ?_
    · rintro rfl
      exact hallowed
    · rintro errorId e rfl
      exact hallowed
  · obtain ⟨hrestart, ⟨now, rfl⟩ | hbefore⟩ := current_step hstep hcurrent
    · rw [serverStep_submit hstep]
      exact Option.some_ne_none _
    · exact entry_kept (serverStep_view hstep taskId) (h.current taskId hbefore) hrestart

theorem kept_reaches {ttl : Int} {s : Server ρ}
    (h : Reaches serverStep Uncancelled (.fresh ttl) s) : Kept s :=
  h.invariant (kept_fresh ttl) fun _ _ _ hinv hallowed hstep => kept_step hinv hallowed hstep

/-! ## 4. What `status` answers -/

theorem statusOf_of_mem {s : Server ρ} {taskId : String} {entry : Snapshot ρ}
    (h : (s.view taskId).entry = some entry) : s.manager.statusOf s.dir taskId = .ok entry := by
  have hentry : s.manager.status.get? taskId = some entry := h
  simp only [TaskManager.statusOf, hentry]

/-- The entry of a task of the current manager is what `status` answers. -/
theorem Kept.statusOf {s : Server ρ} (h : Kept s) {taskId : String} (hcurrent : Current s taskId) :
    ∃ entry, (s.view taskId).entry = some entry ∧
      s.manager.statusOf s.dir taskId = .ok entry := by
  obtain ⟨entry, hentry⟩ := Option.ne_none_iff_exists'.mp (h.current taskId hcurrent)
  exact ⟨entry, hentry, statusOf_of_mem hentry⟩

theorem Phase.agrees {v : View ρ} (h : Phase v) {entry : Snapshot ρ}
    (hentry : v.entry = some entry) :
    Agrees v.outcome entry ∧
      (entry.status = .running → v.stage = some .scheduled ∨ v.stage = some .awaiting) := by
  cases h with
  | away => cases hentry
  | pending hstage hblank =>
      cases hentry
      refine ⟨hblank, fun _ => ?_⟩
      rcases hstage with rfl | rfl
      · exact .inl rfl
      · exact .inr rfl
  | ended _ hreports =>
      cases hentry
      exact ⟨hreports, fun hrunning => absurd hrunning (reports_terminal hreports)⟩

/-- **Only its own job's end changes an entry**, and only one that is running. -/
theorem entry_advance {taskId : String} {a : ServerAct ρ} {v v' : View ρ} {entry : Snapshot ρ}
    (h : Phase v) (hafter : Phase v') (hadvance : Advance taskId a v v')
    (hentry : v.entry = some entry)
    (hother : ∀ now, a ≠ .submit taskId now) (hrestart : a ≠ .restart) :
    v'.entry = some entry ∨
      (∃ errorId ending, a = .finish taskId errorId ending) ∧ entry.status = .running ∧
        ∃ entry', v'.entry = some entry' ∧ entry'.status ≠ .running := by
  cases hadvance with
  | submit now => exact absurd rfl (hother now)
  | restart => exact absurd rfl hrestart
  | finish errorId ending =>
      refine .inr ⟨⟨errorId, ending, rfl⟩, ?_⟩
      cases hentry
      cases h with
      | ended hstage => rcases hstage _ rfl with h | h | h <;> cases h
      | pending _ hblank =>
          cases hafter with
          | ended _ hreports => exact ⟨hblank.1, _, rfl, reports_terminal hreports⟩
  | _ => exact .inl hentry

theorem entry_step {s s' : Server ρ} {a : ServerAct ρ} (h : Kept s) (hallowed : OneManager s a)
    (hstep : serverStep s a = some s') {taskId : String} (hcurrent : Current s taskId)
    {entry : Snapshot ρ} (hentry : (s.view taskId).entry = some entry) :
    Current s' taskId ∧ ((s'.view taskId).entry = some entry ∨
      (∃ errorId ending, a = .finish taskId errorId ending) ∧ entry.status = .running ∧
        ∃ entry', (s'.view taskId).entry = some entry' ∧ entry'.status ≠ .running) := by
  have hrestart : a ≠ .restart := by
    rintro rfl
    exact hallowed
  have hafter := kept_step h hallowed.uncancelled hstep
  have hadvance := serverStep_view hstep taskId
  rcases serverStep_issued hstep with ⟨other, now, rfl, hnew, hissued, hearlier⟩ |
    ⟨hother, hissued, hearlier | ⟨rfl, -⟩⟩
  · refine ⟨⟨hissued ▸ List.mem_cons_of_mem _ hcurrent.1, hearlier ▸ hcurrent.2⟩,
      entry_advance (h.phase taskId) (hafter.phase taskId) hadvance hentry ?_ hrestart⟩
    rintro _ heq
    cases heq
    exact hnew hcurrent.1
  · exact ⟨⟨hissued ▸ hcurrent.1, hearlier ▸ hcurrent.2⟩,
      entry_advance (h.phase taskId) (hafter.phase taskId) hadvance hentry
        (fun now => hother taskId now) hrestart⟩
  · exact absurd rfl hrestart

/-- What may happen to a snapshot in one manager. -/
def Moves (entry entry' : Snapshot ρ) : Prop :=
  entry' = entry ∨ entry.status = .running ∧ entry'.status ≠ .running

theorem Moves.trans {entry₁ entry₂ entry₃ : Snapshot ρ} (h : Moves entry₁ entry₂)
    (h' : Moves entry₂ entry₃) : Moves entry₁ entry₃ := by
  rcases h' with rfl | ⟨hrunning, hended⟩
  · exact h
  · rcases h with rfl | ⟨_, hended'⟩
    · exact .inr ⟨hrunning, hended⟩
    · exact absurd hrunning hended'

/-- The run lemma: a task of the current manager stays in memory, and its entry only moves. -/
theorem entry_reaches {s s' : Server ρ} (h : Kept s) (hreach : Reaches serverStep OneManager s s')
    {taskId : String} (hcurrent : Current s taskId) {entry : Snapshot ρ}
    (hentry : (s.view taskId).entry = some entry) :
    Kept s' ∧ Current s' taskId ∧ ∃ entry', (s'.view taskId).entry = some entry' ∧
      Moves entry entry' := by
  induction hreach with
  | start => exact ⟨h, hcurrent, entry, hentry, .inl rfl⟩
  | step _ hallowed hstep ih =>
      obtain ⟨hkept, hcurrent₁, entry₁, hentry₁, hmoves⟩ := ih
      refine ⟨kept_step hkept hallowed.uncancelled hstep, ?_⟩
      obtain ⟨hcurrent₂, hsame | ⟨-, hrunning, entry₂, hentry₂, hended⟩⟩ :=
        entry_step hkept hallowed hstep hcurrent₁ hentry₁
      · exact ⟨hcurrent₂, entry₁, hsame, hmoves⟩
      · exact ⟨hcurrent₂, entry₂, hentry₂, hmoves.trans (.inr ⟨hrunning, hended⟩)⟩

/-- `status` tells the truth about a task, now and as long as the manager lives. -/
structure Consistent (s : Server ρ) (taskId : String) : Prop where
  /-- The task is reported with its own job's outcome, as running only while it waits. -/
  snapshot : ∃ entry, s.manager.statusOf s.dir taskId = .ok entry ∧
    Agrees (s.outcomes.get? taskId) entry ∧
    (entry.status = .running → s.manager.tasks.get? taskId = some .scheduled ∨
      s.manager.tasks.get? taskId = some .awaiting)
  moves : ∀ s', Reaches serverStep OneManager s s' → ∃ entry entry',
    s.manager.statusOf s.dir taskId = .ok entry ∧
      s'.manager.statusOf s'.dir taskId = .ok entry' ∧ Moves entry entry'
  /-- No step but the end of its own job changes the snapshot. -/
  own : ∀ a s', OneManager s a → serverStep s a = some s' →
    (∀ errorId ending, a ≠ .finish taskId errorId ending) →
    s'.manager.statusOf s'.dir taskId = s.manager.statusOf s.dir taskId

/-- **Consistent snapshots, absorbing ends.**  In every run, of any number of tasks and
    managers, every task of the current manager is reported consistently. -/
theorem snapshots_consistent {ttl : Int} {s : Server ρ}
    (h : Reaches serverStep Uncancelled (.fresh ttl) s) {taskId : String}
    (hcurrent : Current s taskId) : Consistent s taskId := by
  have hkept := kept_reaches h
  obtain ⟨entry, hentry, hstatus⟩ := hkept.statusOf hcurrent
  refine ⟨⟨entry, hstatus, (hkept.phase taskId).agrees hentry⟩, ?_, ?_⟩
  · intro s' hreach
    obtain ⟨-, -, entry', hentry', hmoves⟩ := entry_reaches hkept hreach hcurrent hentry
    exact ⟨entry, entry', hstatus, statusOf_of_mem hentry', hmoves⟩
  · intro a s' hallowed hstep hother
    obtain ⟨-, hsame | ⟨⟨errorId, ending, heq⟩, -⟩⟩ :=
      entry_step hkept hallowed hstep hcurrent hentry
    · rw [hstatus, statusOf_of_mem hsame]
    · exact absurd heq (hother errorId ending)

/-- Two jobs at once; the file of the one that fails cannot be written. -/
def twoJobs : List (ServerAct String) :=
  [.submit "a1" 1767225600, .start "a1", .submit "b2" 1767225600, .start "b2",
    .finish "b2" "e2" (.raised (.core (.network "timeout"))), .failWrite "b2",
    .finish "a1" "e1" (.returned (some "{}")), .openFile "a1"]

theorem snapshots_consistent_twoJobs :
    ∃ s : Server String, Reaches serverStep Uncancelled (.fresh 3600) s ∧ Current s "b2" ∧
      Consistent s "b2" := by
  have hreach : Reaches serverStep Uncancelled (Server.fresh 3600) _ :=
    play_get_reaches twoJobs (by decide +kernel)
  have hcurrent : Current ((play serverStep Uncancelled (Server.fresh 3600) twoJobs).get
      (by decide +kernel)) "b2" := ⟨by decide +kernel, by decide +kernel⟩
  exact ⟨_, hreach, hcurrent, snapshots_consistent hreach hcurrent⟩

end FundingTool.TaskSnapshots
