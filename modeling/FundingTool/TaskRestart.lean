import FundingTool.TaskManager
import FundingTool.TransitionSystem

/-!
# Task outcomes across restarts

Any number of tasks run in a process that may end between any two operations; the next
process starts with an empty manager on the same directory.  Each task goes through the
stages of `Life`, whatever the others do.

While no job ends by a cancellation and no process ends inside `write_text`, a task of an
earlier process is either unknown or reported with the outcome of its own job.
-/

namespace FundingTool.TaskRestart

open FundingTool.TransitionSystem

variable {ρ : Type}

/-! ## 1. Processes on one directory -/

/-- The manager and its directory, with the ids `submit` has returned, those of them that
    earlier processes returned, and what each job ended with. -/
structure Server (ρ : Type) where
  manager : TaskManager ρ
  dir : TaskDir ρ
  issued : List String
  earlier : List String
  outcomes : OrderedDict String (JobEnd ρ)

def Server.fresh (ttl : Int) : Server ρ := ⟨.new ttl, .empty, [], [], .empty⟩

inductive ServerAct (ρ : Type)
  | submit (taskId : String) (now : Int)
  | start (taskId : String)
  | drop (taskId : String)
  | finish (taskId errorId : String) (outcome : JobEnd ρ)
  | openFile (taskId : String)
  | writeFile (taskId : String)
  | failWrite (taskId : String)
  | cleanupExpired (now : Int)
  | restart

def serverStep (s : Server ρ) : ServerAct ρ → Option (Server ρ)
  | .submit taskId now =>
      -- `uuid4` never repeats an id.
      if taskId ∈ s.issued then none
      else some { s with manager := s.manager.submit taskId now, issued := taskId :: s.issued }
  | .start taskId => (s.manager.start taskId).map fun tm => { s with manager := tm }
  | .drop taskId => (s.manager.drop taskId).map fun tm => { s with manager := tm }
  | .finish taskId errorId outcome =>
      (s.manager.finish taskId errorId outcome).map fun tm =>
        { s with manager := tm, outcomes := s.outcomes.set taskId outcome }
  | .openFile taskId =>
      (s.manager.openFile s.dir taskId).map fun (tm, dir) => { s with manager := tm, dir := dir }
  | .writeFile taskId =>
      (s.manager.writeFile s.dir taskId).map fun (tm, dir) => { s with manager := tm, dir := dir }
  | .failWrite taskId => (s.manager.failWrite taskId).map fun tm => { s with manager := tm }
  | .cleanupExpired now => some { s with dir := s.manager.cleanupExpired s.dir now }
  | .restart => some { s with manager := .new s.manager.ttl, earlier := s.issued }

/-- No `CancelledError` reaches a job, and no process ends with a file that `write_text` has
    not written to its end. -/
def Undisturbed (s : Server ρ) : ServerAct ρ → Prop
  | .finish _ _ (.raised e) => e.isException = true
  | .restart => ∀ file ∈ s.dir.entries, file.2.isTorn = false
  | _ => True

instance (s : Server ρ) (a : ServerAct ρ) : Decidable (Undisturbed s a) := by
  unfold Undisturbed
  split <;> infer_instance

/-! ## 2. The life of a task -/

/-- The entry reports this outcome: `done` with the result, or `failed` with the error. -/
def Reports : JobEnd ρ → Snapshot ρ → Prop
  | .returned result, entry =>
      entry.status = .done ∧ entry.result = result ∧ entry.error = none
  | .raised e, entry =>
      entry.status = .failed ∧ entry.result = none ∧ ∃ errorId, entry.error =
        some ⟨(mapCoreException errorId e).code, (mapCoreException errorId e).message⟩

theorem reports_record {entry : Snapshot ρ} {outcome : JobEnd ρ} (hresult : entry.result = none)
    (herror : entry.error = none) (errorId : String)
    (hexception : ∀ e, outcome = .raised e → e.isException = true) :
    Reports outcome (TaskManager.record errorId entry outcome) := by
  cases outcome with
  | returned result => exact ⟨rfl, rfl, herror⟩
  | raised e =>
      simp only [TaskManager.record, if_pos (hexception e rfl)]
      exact ⟨rfl, hresult, errorId, rfl⟩

/-- What memory, job and directory hold of one task. -/
structure View (ρ : Type) where
  stage : Option (Stage ρ)
  entry : Option (Snapshot ρ)
  outcome : Option (JobEnd ρ)
  file : Option (FileContent ρ)

def Server.view (s : Server ρ) (taskId : String) : View ρ :=
  ⟨s.manager.tasks.get? taskId, s.manager.status.get? taskId, s.outcomes.get? taskId,
    s.dir.get? taskId⟩

/-- **The stages of a task**: never in memory or no longer; before its job has ended;
    before, in and after `_persist`. -/
inductive Life : View ρ → Prop
  | away {outcome : Option (JobEnd ρ)} {file : Option (FileContent ρ)}
      (hfile : ∀ content, file = some content → ∃ entry result,
        content = .document entry ∧ outcome = some result ∧ Reports result entry) :
      Life ⟨none, none, outcome, file⟩
  | pending {stage : Stage ρ} {entry : Snapshot ρ}
      (hstage : stage = .scheduled ∨ stage = .awaiting ∨ stage = .dropped)
      (hresult : entry.result = none) (herror : entry.error = none) :
      Life ⟨some stage, some entry, none, none⟩
  | ended {entry : Snapshot ρ} {outcome : JobEnd ρ} (hreports : Reports outcome entry) :
      Life ⟨some .ended, some entry, some outcome, none⟩
  | writing {entry : Snapshot ρ} {outcome : JobEnd ρ} (hreports : Reports outcome entry) :
      Life ⟨some (.writing entry), some entry, some outcome, some .torn⟩
  | escaped {entry : Snapshot ρ} {outcome : JobEnd ρ} {file : Option (FileContent ρ)}
      (hreports : Reports outcome entry) (hfile : file = none ∨ file = some .torn) :
      Life ⟨some .escaped, some entry, some outcome, file⟩
  | settled {entry : Snapshot ρ} {outcome : JobEnd ρ} {file : Option (FileContent ρ)}
      (hreports : Reports outcome entry)
      (hfile : ∀ content, file = some content → content = .document entry) :
      Life ⟨none, some entry, some outcome, file⟩

theorem life_unknown : Life (⟨none, none, none, none⟩ : View ρ) := by
  apply Life.away
  intro content hfile
  cases hfile

/-- A process ends with this task's file whole or absent. -/
theorem life_restart {v : View ρ} (h : Life v) (hwhole : v.file ≠ some .torn) :
    Life ⟨none, none, v.outcome, v.file⟩ := by
  cases h with
  | away hfile => exact .away hfile
  | pending => exact life_unknown
  | ended =>
      apply Life.away
      intro content hfile
      cases hfile
  | writing => exact absurd rfl hwhole
  | escaped hreports hfile =>
      apply Life.away
      intro content hcontent
      rcases hfile with hnone | htorn
      · exact absurd (hcontent.symm.trans hnone) (Option.some_ne_none _)
      · exact absurd htorn hwhole
  | settled hreports hfile =>
      apply Life.away
      intro content hcontent
      exact ⟨_, _, hfile content hcontent, rfl, hreports⟩

theorem life_cleanup {v : View ρ} (h : Life v) (file : Option (FileContent ρ))
    (hfile : file = v.file ∨ file = none ∧ v.file ≠ some .torn) :
    Life ⟨v.stage, v.entry, v.outcome, file⟩ := by
  rcases hfile with rfl | ⟨rfl, hwhole⟩
  · exact h
  cases h with
  | away =>
      apply Life.away
      intro content hcontent
      cases hcontent
  | pending hstage hresult herror => exact .pending hstage hresult herror
  | ended hreports => exact .ended hreports
  | writing => exact absurd rfl hwhole
  | escaped hreports => exact .escaped hreports (Or.inl rfl)
  | settled hreports =>
      apply Life.settled hreports
      intro content hcontent
      cases hcontent

/-! ## 3. What a step does to one task -/

/-- How an operation changes the view of the task `taskId`, where it changes it. -/
inductive Advance (taskId : String) : ServerAct ρ → View ρ → View ρ → Prop
  | frame (a : ServerAct ρ) (v : View ρ) : Advance taskId a v v
  | submit (now : Int) (v : View ρ) : Advance taskId (.submit taskId now) v
      ⟨some .scheduled, some ⟨.running, none, none, none, now⟩, v.outcome, v.file⟩
  | start {entry : Option (Snapshot ρ)} {outcome : Option (JobEnd ρ)}
      {file : Option (FileContent ρ)} : Advance taskId (.start taskId)
        ⟨some .scheduled, entry, outcome, file⟩ ⟨some .awaiting, entry, outcome, file⟩
  | drop {entry : Option (Snapshot ρ)} {outcome : Option (JobEnd ρ)}
      {file : Option (FileContent ρ)} : Advance taskId (.drop taskId)
        ⟨some .scheduled, entry, outcome, file⟩ ⟨some .dropped, entry, outcome, file⟩
  | finish {entry : Snapshot ρ} {outcome : Option (JobEnd ρ)} {file : Option (FileContent ρ)}
      (errorId : String) (ending : JobEnd ρ) : Advance taskId (.finish taskId errorId ending)
        ⟨some .awaiting, some entry, outcome, file⟩
        ⟨some .ended, some (TaskManager.record errorId entry ending), some ending, file⟩
  | openFile {entry : Snapshot ρ} {outcome : Option (JobEnd ρ)} {file : Option (FileContent ρ)} :
      Advance taskId (.openFile taskId) ⟨some .ended, some entry, outcome, file⟩
        ⟨some (.writing entry), some entry, outcome, some .torn⟩
  | writeFile {snapshot : Snapshot ρ} {entry : Option (Snapshot ρ)} {outcome : Option (JobEnd ρ)}
      {file : Option (FileContent ρ)} : Advance taskId (.writeFile taskId)
        ⟨some (.writing snapshot), entry, outcome, file⟩
        ⟨none, entry, outcome, some (.document snapshot)⟩
  | failOpen {entry : Option (Snapshot ρ)} {outcome : Option (JobEnd ρ)}
      {file : Option (FileContent ρ)} : Advance taskId (.failWrite taskId)
        ⟨some .ended, entry, outcome, file⟩ ⟨some .escaped, entry, outcome, file⟩
  | failWrite {snapshot : Snapshot ρ} {entry : Option (Snapshot ρ)} {outcome : Option (JobEnd ρ)}
      {file : Option (FileContent ρ)} : Advance taskId (.failWrite taskId)
        ⟨some (.writing snapshot), entry, outcome, file⟩ ⟨some .escaped, entry, outcome, file⟩
  | sweep (now : Int) {v : View ρ} (hwhole : v.file ≠ some .torn) :
      Advance taskId (.cleanupExpired now) v ⟨v.stage, v.entry, v.outcome, none⟩
  | restart (v : View ρ) : Advance taskId .restart v ⟨none, none, v.outcome, v.file⟩

/-- The view of a task, with the stage it is known to be in. -/
theorem view_of_stage {s : Server ρ} {taskId : String} {stage : Stage ρ}
    (hstage : s.manager.tasks.get? taskId = some stage) :
    s.view taskId = ⟨some stage, s.manager.status.get? taskId, s.outcomes.get? taskId,
      s.dir.get? taskId⟩ := by
  simp only [Server.view, hstage]

/-- **Every task is changed in its own steps only**, and then as `Advance` says. -/
theorem serverStep_view {s s' : Server ρ} {a : ServerAct ρ} (h : serverStep s a = some s')
    (taskId : String) : Advance taskId a (s.view taskId) (s'.view taskId) := by
  have hframe : s'.view taskId = s.view taskId → Advance taskId a (s.view taskId)
      (s'.view taskId) := fun heq => heq ▸ .frame a _
  cases a with
  | submit other now =>
      simp only [serverStep] at h
      by_cases hissued : other ∈ s.issued
      · rw [if_pos hissued] at h
        cases h
      · rw [if_neg hissued, Option.some.injEq] at h
        subst h
        by_cases hsame : taskId = other
        · subst hsame
          simp only [Server.view, TaskManager.submit, OrderedDict.get?_set_self]
          exact .submit now (s.view taskId)
        · apply hframe
          simp only [Server.view, TaskManager.submit, OrderedDict.get?_set_ne _ _ hsame]
  | start other =>
      obtain ⟨tm, hstart, rfl⟩ := Option.map_eq_some_iff.mp h
      obtain ⟨hstage, rfl⟩ := TaskManager.start_some hstart
      by_cases hsame : taskId = other
      · subst hsame
        rw [view_of_stage hstage]
        simp only [Server.view, OrderedDict.get?_set_self]
        exact .start
      · apply hframe
        simp only [Server.view, OrderedDict.get?_set_ne _ _ hsame]
  | drop other =>
      obtain ⟨tm, hdrop, rfl⟩ := Option.map_eq_some_iff.mp h
      obtain ⟨hstage, rfl⟩ := TaskManager.drop_some hdrop
      by_cases hsame : taskId = other
      · subst hsame
        rw [view_of_stage hstage]
        simp only [Server.view, OrderedDict.get?_set_self]
        exact .drop
      · apply hframe
        simp only [Server.view, OrderedDict.get?_set_ne _ _ hsame]
  | finish other errorId ending =>
      obtain ⟨tm, hfinish, rfl⟩ := Option.map_eq_some_iff.mp h
      obtain ⟨entry, hstage, hentry, rfl⟩ := TaskManager.finish_some hfinish
      by_cases hsame : taskId = other
      · subst hsame
        rw [view_of_stage hstage, hentry]
        simp only [Server.view, OrderedDict.get?_set_self]
        exact .finish errorId ending
      · apply hframe
        simp only [Server.view, OrderedDict.get?_set_ne _ _ hsame]
  | openFile other =>
      obtain ⟨⟨tm, dir⟩, hopen, rfl⟩ := Option.map_eq_some_iff.mp h
      obtain ⟨entry, hstage, hentry, rfl, rfl⟩ := TaskManager.openFile_some hopen
      by_cases hsame : taskId = other
      · subst hsame
        rw [view_of_stage hstage, hentry]
        simp only [Server.view, OrderedDict.get?_set_self, hentry]
        exact .openFile
      · apply hframe
        simp only [Server.view, OrderedDict.get?_set_ne _ _ hsame]
  | writeFile other =>
      obtain ⟨⟨tm, dir⟩, hwrite, rfl⟩ := Option.map_eq_some_iff.mp h
      obtain ⟨snapshot, hstage, rfl, rfl⟩ := TaskManager.writeFile_some hwrite
      by_cases hsame : taskId = other
      · subst hsame
        rw [view_of_stage hstage]
        simp only [Server.view, OrderedDict.get?_set_self, OrderedDict.get?_erase_self]
        exact .writeFile
      · apply hframe
        simp only [Server.view, OrderedDict.get?_set_ne _ _ hsame,
          OrderedDict.get?_erase_ne _ hsame]
  | failWrite other =>
      obtain ⟨tm, hfail, rfl⟩ := Option.map_eq_some_iff.mp h
      obtain ⟨hstage, rfl⟩ := TaskManager.failWrite_some hfail
      by_cases hsame : taskId = other
      · subst hsame
        rcases hstage with hstage | ⟨snapshot, hstage⟩ <;> rw [view_of_stage hstage] <;>
          simp only [Server.view, OrderedDict.get?_set_self]
        · exact .failOpen
        · exact .failWrite
      · apply hframe
        simp only [Server.view, OrderedDict.get?_set_ne _ _ hsame]
  | cleanupExpired now =>
      cases h
      rcases @TaskManager.cleanupExpired_get? _ s.manager s.dir taskId now with
        hkept | ⟨hgone, hwhole⟩
      · apply hframe
        simp only [Server.view, hkept]
      · simp only [Server.view, hgone]
        exact @Advance.sweep _ _ now (s.view taskId) hwhole
  | restart =>
      cases h
      exact .restart (s.view taskId)

/-- What a step does to the ids: a submission issues a new one, a restart ages all of them. -/
theorem serverStep_issued {s s' : Server ρ} {a : ServerAct ρ} (h : serverStep s a = some s') :
    (∃ taskId now, a = .submit taskId now ∧ taskId ∉ s.issued ∧ s'.issued = taskId :: s.issued ∧
        s'.earlier = s.earlier) ∨
      (∀ taskId now, a ≠ .submit taskId now) ∧ s'.issued = s.issued ∧
        (s'.earlier = s.earlier ∨ a = .restart ∧ s'.earlier = s.issued) := by
  cases a with
  | submit taskId now =>
      simp only [serverStep] at h
      by_cases hissued : taskId ∈ s.issued
      · rw [if_pos hissued] at h
        cases h
      · rw [if_neg hissued, Option.some.injEq] at h
        subst h
        exact .inl ⟨taskId, now, rfl, hissued, rfl, rfl⟩
  | cleanupExpired now =>
      cases h
      exact .inr ⟨fun _ _ heq => (by cases heq), rfl, .inl rfl⟩
  | restart =>
      cases h
      exact .inr ⟨fun _ _ heq => (by cases heq), rfl, .inr ⟨rfl, rfl⟩⟩
  | _ =>
      obtain ⟨_, -, rfl⟩ := Option.map_eq_some_iff.mp h
      exact .inr ⟨fun _ _ heq => (by cases heq), rfl, .inl rfl⟩

/-- An id that has not been issued leaves no trace. -/
theorem Advance.blank {taskId : String} {a : ServerAct ρ} {v : View ρ}
    (h : Advance taskId a ⟨none, none, none, none⟩ v) (hother : ∀ now, a ≠ .submit taskId now) :
    v = ⟨none, none, none, none⟩ := by
  cases h with
  | submit now => exact absurd rfl (hother now)
  | _ => rfl

/-- Only `submit` brings a task into memory. -/
theorem Advance.entry_none {taskId : String} {a : ServerAct ρ} {v v' : View ρ}
    (h : Advance taskId a v v') (hentry : v.entry = none) (hother : ∀ now, a ≠ .submit taskId now) :
    v'.entry = none := by
  cases h with
  | submit now => exact absurd rfl (hother now)
  | finish => cases hentry
  | openFile => cases hentry
  | restart => rfl
  | _ => exact hentry

theorem life_advance {taskId : String} {a : ServerAct ρ} {v v' : View ρ} (h : Life v)
    (hadvance : Advance taskId a v v')
    (hnew : ∀ now, a = .submit taskId now → v = ⟨none, none, none, none⟩)
    (hexception : ∀ errorId e, a = .finish taskId errorId (.raised e) → e.isException = true)
    (hwhole : a = .restart → v.file ≠ some .torn) : Life v' := by
  cases hadvance with
  | frame => exact h
  | submit now =>
      rw [hnew now rfl]
      exact .pending (.inl rfl) rfl rfl
  | start =>
      cases h with
      | pending _ hresult herror => exact .pending (.inr (.inl rfl)) hresult herror
  | drop =>
      cases h with
      | pending _ hresult herror => exact .pending (.inr (.inr rfl)) hresult herror
  | finish errorId ending =>
      cases h with
      | pending _ hresult herror =>
          apply Life.ended
          refine reports_record hresult herror errorId ?_
          rintro e rfl
          exact hexception errorId e rfl
  | openFile =>
      cases h with
      | pending hstage => rcases hstage with h | h | h <;> cases h
      | ended hreports => exact .writing hreports
  | writeFile =>
      cases h with
      | pending hstage => rcases hstage with h | h | h <;> cases h
      | writing hreports =>
          apply Life.settled hreports
          intro content hcontent
          exact (Option.some.inj hcontent).symm
  | failOpen =>
      cases h with
      | pending hstage => rcases hstage with h | h | h <;> cases h
      | ended hreports => exact .escaped hreports (.inl rfl)
  | failWrite =>
      cases h with
      | pending hstage => rcases hstage with h | h | h <;> cases h
      | writing hreports => exact .escaped hreports (.inr rfl)
  | sweep now hfile => exact life_cleanup h none (.inr ⟨rfl, hfile⟩)
  | restart => exact life_restart h (hwhole rfl)

/-! ## 4. The invariant -/

structure Tracked (s : Server ρ) : Prop where
  life : ∀ taskId, Life (s.view taskId)
  unissued : ∀ taskId, taskId ∉ s.issued → s.view taskId = ⟨none, none, none, none⟩
  earlier : ∀ taskId ∈ s.earlier, taskId ∈ s.issued ∧ (s.view taskId).entry = none

theorem tracked_fresh (ttl : Int) : Tracked (Server.fresh ttl : Server ρ) where
  life _ := life_unknown
  unissued _ _ := rfl
  earlier _ hmem := nomatch hmem

/-- An id of the next state is the one just submitted or an earlier one. -/
theorem unissued_step {s s' : Server ρ} {a : ServerAct ρ} (hstep : serverStep s a = some s')
    (hunissued : ∀ taskId, taskId ∉ s.issued → s.view taskId = ⟨none, none, none, none⟩)
    (taskId : String) (hnew : taskId ∉ s'.issued) : s'.view taskId = ⟨none, none, none, none⟩ := by
  have hadvance := serverStep_view hstep taskId
  rcases serverStep_issued hstep with ⟨other, now, rfl, -, hissued, -⟩ | ⟨hother, hissued, -⟩
  · rw [hissued, List.mem_cons, not_or] at hnew
    rw [hunissued taskId hnew.2] at hadvance
    refine hadvance.blank fun _ heq => hnew.1 ?_
    cases heq
    rfl
  · rw [hissued] at hnew
    rw [hunissued taskId hnew] at hadvance
    exact hadvance.blank fun now => hother taskId now

theorem submit_blank {s s' : Server ρ} {a : ServerAct ρ} (hstep : serverStep s a = some s')
    (hunissued : ∀ taskId, taskId ∉ s.issued → s.view taskId = ⟨none, none, none, none⟩)
    {taskId : String} (now : Int) (h : a = .submit taskId now) :
    s.view taskId = ⟨none, none, none, none⟩ := by
  subst h
  rcases serverStep_issued hstep with ⟨other, _, heq, hnew, -⟩ | ⟨hother, -⟩
  · cases heq
    exact hunissued taskId hnew
  · exact absurd rfl (hother taskId now)

theorem tracked_step {s s' : Server ρ} {a : ServerAct ρ} (h : Tracked s)
    (hallowed : Undisturbed s a) (hstep : serverStep s a = some s') : Tracked s' := by
  refine ⟨fun taskId => ?_, unissued_step hstep h.unissued, fun taskId hmem => ?_⟩
  · refine life_advance (h.life taskId) (serverStep_view hstep taskId)
      (submit_blank hstep h.unissued) ?_ ?_
    · rintro errorId e rfl
      exact hallowed
    · rintro rfl htorn
      have := hallowed _ (OrderedDict.get?_eq_some_iff.mp htorn)
      cases this
  · have hadvance := serverStep_view hstep taskId
    rcases serverStep_issued hstep with ⟨other, now, rfl, hnew, hissued, hearlier⟩ |
      ⟨hother, hissued, hearlier | ⟨rfl, hearlier⟩⟩
    · rw [hearlier] at hmem
      obtain ⟨hold, hnone⟩ := h.earlier taskId hmem
      refine ⟨hissued ▸ List.mem_cons_of_mem _ hold, hadvance.entry_none hnone ?_⟩
      rintro _ heq
      cases heq
      exact hnew hold
    · rw [hearlier] at hmem
      obtain ⟨hold, hnone⟩ := h.earlier taskId hmem
      exact ⟨hissued ▸ hold, hadvance.entry_none hnone fun now => hother taskId now⟩
    · rw [hearlier] at hmem
      refine ⟨hissued ▸ hmem, ?_⟩
      cases hstep
      rfl

/-! ## 5. After a restart -/

/-- **Outcomes survive restarts.**  In every undisturbed run, of any number of tasks and
    processes, a task of an earlier process is unknown or reported with its outcome. -/
theorem outcome_survives_restart {ttl : Int} {s : Server ρ}
    (h : Reaches serverStep Undisturbed (.fresh ttl) s) {taskId : String}
    (hearlier : taskId ∈ s.earlier) :
    s.manager.statusOf s.dir taskId = .error (.keyError taskId) ∨
      ∃ outcome entry, s.outcomes.get? taskId = some outcome ∧
        s.manager.statusOf s.dir taskId = .ok entry ∧ Reports outcome entry := by
  have hinv : Tracked s := h.invariant (tracked_fresh ttl)
    fun _ _ _ hinv hallowed hstep => tracked_step hinv hallowed hstep
  have hnone : s.manager.status.get? taskId = none := (hinv.earlier taskId hearlier).2
  obtain ⟨hunknown, hfound⟩ := TaskManager.statusOf_of_not_mem hnone
  have hlife := hinv.life taskId
  simp only [Server.view, hnone] at hlife
  generalize s.manager.tasks.get? taskId = stage at hlife
  generalize houtcome : s.outcomes.get? taskId = outcome at hlife ⊢
  rcases hfile : s.dir.get? taskId with _ | content
  · exact Or.inl (hunknown hfile)
  rw [hfile] at hlife
  cases hlife with
  | away hfile' =>
      obtain ⟨entry, result, rfl, rfl, hreports⟩ := hfile' content rfl
      exact Or.inr ⟨result, entry, rfl, hfound entry hfile, hreports⟩

/-- One job returns, one raises, one is still awaited when the process ends. -/
def threeJobs : List (ServerAct String) :=
  [.submit "a1" 1767225600, .submit "b2" 1767225600, .submit "c3" 1767225601,
    .start "a1", .start "b2", .start "c3",
    .finish "a1" "e1" (.returned (some "{}")), .openFile "a1", .writeFile "a1",
    .finish "b2" "e2" (.raised (.core (.network "timeout"))), .openFile "b2", .writeFile "b2",
    .restart]

theorem outcome_survives_restart_threeJobs :
    ∃ s : Server String, Reaches serverStep Undisturbed (.fresh 3600) s ∧ "a1" ∈ s.earlier ∧
      (s.manager.statusOf s.dir "a1" = .error (.keyError "a1") ∨
        ∃ outcome entry, s.outcomes.get? "a1" = some outcome ∧
          s.manager.statusOf s.dir "a1" = .ok entry ∧ Reports outcome entry) := by
  have hreach : Reaches serverStep Undisturbed (Server.fresh 3600) _ :=
    play_get_reaches threeJobs (by decide +kernel)
  exact ⟨_, hreach, by decide +kernel, outcome_survives_restart hreach (by decide +kernel)⟩

/-- A shutdown cancels the one job while it is awaited. -/
def cancelledJob : List (ServerAct String) :=
  [.submit "a1" 1767225600, .start "a1", .finish "a1" "e1" (.raised (.core .cancelled)),
    .openFile "a1", .writeFile "a1", .restart]

/-- **A cancelled task is reported as running for ever.**  `_persist` mirrors the entry
    that no `except` clause has touched. -/
theorem restart_finds_running :
    ∃ s : Server String, Reaches serverStep Unguarded (.fresh 3600) s ∧ "a1" ∈ s.earlier ∧
      s.manager.statusOf s.dir "a1" = .ok ⟨.running, none, none, none, 1767225600⟩ := by
  refine ⟨_, play_get_reaches cancelledJob (by decide +kernel), ?_⟩
  decide +kernel

/-- A process that ends inside `write_text` leaves a file `status` cannot read. -/
theorem restart_finds_torn_file :
    ∃ s : Server String, Reaches serverStep Unguarded (.fresh 3600) s ∧ "a1" ∈ s.earlier ∧
      s.manager.statusOf s.dir "a1" = .error .jsonDecodeError := by
  refine ⟨_, play_get_reaches [.submit "a1" 1767225600, .start "a1",
    .finish "a1" "e1" (.returned (some "{}")), .openFile "a1", .restart] (by decide +kernel), ?_⟩
  decide +kernel

end FundingTool.TaskRestart
