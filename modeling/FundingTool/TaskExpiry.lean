import Mathlib.Data.Finset.Card
import FundingTool.TaskSnapshots

/-!
# Expired tasks

What `cleanup_expired` leaves of the tasks, in the runs of `TaskSnapshots`.  A sweep removes
files; `_status` keeps the entry of every task of its manager.  So a finished task of an
earlier manager goes with its file, and one of the current manager stays
(`expired_still_answered`): a sweep does what it is for exactly when none of these has expired.
-/

namespace FundingTool.TaskExpiry

open FundingTool.TransitionSystem FundingTool.TaskRestart FundingTool.TaskSnapshots

variable {ρ : Type}

/-! ## 1. What a sweep is for -/

/-- The server after `cleanup_expired`. -/
def swept (s : Server ρ) (now : Int) : Server ρ :=
  { s with dir := s.manager.cleanupExpired s.dir now }

theorem serverStep_cleanupExpired (s : Server ρ) (now : Int) :
    serverStep s (.cleanupExpired now) = some (swept s now) := rfl

/-- A retained task that is not running: it has ended, or its manager has. -/
def Finished (s : Server ρ) (taskId : String) (entry : Snapshot ρ) : Prop :=
  s.manager.statusOf s.dir taskId = .ok entry ∧
    (s.manager.status.get? taskId = none ∨ entry.status ≠ .running)

/-- Created more than `ttl_seconds` before `now`. -/
def Expired (s : Server ρ) (now : Int) (entry : Snapshot ρ) : Prop :=
  s.manager.ttl < now - entry.created

instance (s : Server ρ) (now : Int) (entry : Snapshot ρ) : Decidable (Expired s now entry) :=
  inferInstanceAs (Decidable (_ < _))

/-- The ids `status` knows that satisfy a test on the entry. -/
def tasksWith (s : Server ρ) (p : Snapshot ρ → Bool) : Finset String :=
  (s.manager.status.keys ++ s.dir.keys).toFinset.filter fun taskId =>
    (s.manager.statusOf s.dir taskId).toOption.any p

def retained (s : Server ρ) : Finset String := tasksWith s fun _ => true

def running (s : Server ρ) : Finset String := tasksWith s fun entry => entry.status = .running

/-- Those created within the last `ttl_seconds`. -/
def recent (s : Server ρ) (now : Int) : Finset String :=
  tasksWith s fun entry => !Expired s now entry

/-- **Expired tasks are gone, live ones are not.** -/
structure Swept (s : Server ρ) (now : Int) : Prop where
  gone : ∀ taskId entry, Finished s taskId entry → Expired s now entry →
    (swept s now).manager.statusOf (swept s now).dir taskId = .error (.keyError taskId) ∧
      (swept s now).manager.status.get? taskId = none ∧ (swept s now).dir.get? taskId = none
  untouched : ∀ taskId, (∀ entry, Finished s taskId entry → ¬ Expired s now entry) →
    (swept s now).manager.status.get? taskId = s.manager.status.get? taskId ∧
      (swept s now).dir.get? taskId = s.dir.get? taskId
  unreadable : ∀ taskId, s.dir.get? taskId = some .torn →
    (swept s now).dir.get? taskId = some .torn
  bounded : (retained (swept s now)).card ≤
    (running (swept s now)).card + (recent (swept s now) now).card

/-- No finished task in the memory of the manager has expired. -/
def MemoryFresh (s : Server ρ) (now : Int) : Prop :=
  ∀ taskId entry, s.manager.status.get? taskId = some entry → entry.status ≠ .running →
    ¬ Expired s now entry

/-! ## 2. Files -/

theorem keeps_document {s : Server ρ} {now : Int} {entry : Snapshot ρ} :
    s.manager.keeps now (.document entry) = true ↔ ¬ Expired s now entry := by
  simp only [TaskManager.keeps, Expired, decide_eq_true_eq, Int.not_lt]

theorem get?_swept (s : Server ρ) (now : Int) (taskId : String) :
    (swept s now).dir.get? taskId = (s.dir.get? taskId).filter (s.manager.keeps now) :=
  TaskManager.get?_cleanupExpired now taskId

theorem swept_document {s : Server ρ} {now : Int} {taskId : String} {entry : Snapshot ρ}
    (h : (swept s now).dir.get? taskId = some (.document entry)) : ¬ Expired s now entry := by
  rw [get?_swept] at h
  exact keeps_document.mp (Option.filter_eq_some_iff.mp h).2

/-- The answer of `status` comes from memory, or from a whole file. -/
theorem statusOf_ok {s : Server ρ} {taskId : String} {entry : Snapshot ρ}
    (h : s.manager.statusOf s.dir taskId = .ok entry) :
    s.manager.status.get? taskId = some entry ∨
      s.manager.status.get? taskId = none ∧ s.dir.get? taskId = some (.document entry) := by
  unfold TaskManager.statusOf at h
  rcases hmemory : s.manager.status.get? taskId with _ | kept <;> rw [hmemory] at h
  · rcases hfile : s.dir.get? taskId with _ | _ | snapshot <;> rw [hfile] at h <;> cases h
    exact .inr ⟨rfl, rfl⟩
  · cases h
    exact .inl rfl

theorem mem_tasksWith {s : Server ρ} {p : Snapshot ρ → Bool} {taskId : String} :
    taskId ∈ tasksWith s p ↔
      ∃ entry, s.manager.statusOf s.dir taskId = .ok entry ∧ p entry = true := by
  unfold tasksWith
  rw [Finset.mem_filter, List.mem_toFinset, List.mem_append]
  constructor
  · rintro ⟨-, hany⟩
    rcases hstatus : s.manager.statusOf s.dir taskId with e | entry <;> rw [hstatus] at hany
    · cases hany
    · exact ⟨entry, rfl, hany⟩
  · rintro ⟨entry, hstatus, hp⟩
    refine ⟨?_, by rw [hstatus]; exact hp⟩
    rcases statusOf_ok hstatus with hmemory | ⟨-, hfile⟩
    · exact .inl (List.mem_map_of_mem (OrderedDict.get?_eq_some_iff.mp hmemory))
    · exact .inr (List.mem_map_of_mem (OrderedDict.get?_eq_some_iff.mp hfile))

/-! ## 3. The memory decides -/

/-- A file of a task in memory is that of an ended job, and says what the entry says. -/
theorem Phase.file {v : View ρ} (h : Phase v) {entry snapshot : Snapshot ρ}
    (hentry : v.entry = some entry) (hfile : v.file = some (.document snapshot)) :
    snapshot = entry ∧ entry.status ≠ .running := by
  cases h with
  | away => cases hentry
  | pending => cases hfile
  | ended _ hreports hsame =>
      cases hentry
      exact ⟨hsame snapshot hfile, reports_terminal hreports⟩

theorem expired_still_answered {s : Server ρ} {taskId : String} {entry : Snapshot ρ} (now : Int)
    (hentry : s.manager.status.get? taskId = some entry) :
    (swept s now).manager.statusOf (swept s now).dir taskId = .ok entry :=
  @statusOf_of_mem ρ (swept s now) taskId entry hentry

theorem memoryFresh_of_swept {s : Server ρ} {now : Int} (h : Swept s now) : MemoryFresh s now := by
  intro taskId entry hentry hended hexpired
  have hfinished : Finished s taskId entry := ⟨statusOf_of_mem hentry, .inr hended⟩
  obtain ⟨-, hnone, -⟩ := h.gone taskId entry hfinished hexpired
  exact Option.some_ne_none entry (hentry.symm.trans hnone)

section

variable {s : Server ρ} {now : Int} (hfresh : MemoryFresh s now)

include hfresh

/-- What has expired is no longer in memory, and its file is removed. -/
theorem expired_gone {taskId : String} {entry : Snapshot ρ} (hfinished : Finished s taskId entry)
    (hexpired : Expired s now entry) :
    (swept s now).manager.statusOf (swept s now).dir taskId = .error (.keyError taskId) ∧
      (swept s now).manager.status.get? taskId = none ∧
      (swept s now).dir.get? taskId = none := by
  obtain ⟨hstatus, hended⟩ := hfinished
  rcases statusOf_ok hstatus with hmemory | ⟨hnone, hfile⟩
  · rcases hended with hnone | hended
    · exact absurd (hmemory.symm.trans hnone) (Option.some_ne_none entry)
    · exact absurd hexpired (hfresh taskId entry hmemory hended)
  · have hgone : (swept s now).dir.get? taskId = none := by
      rw [get?_swept, hfile, Option.filter_some, if_neg]
      exact fun hkeeps => keeps_document.mp hkeeps hexpired
    exact ⟨(TaskManager.statusOf_of_not_mem hnone).1 hgone, hnone, hgone⟩

theorem others_untouched (hkept : Kept s) {taskId : String}
    (hother : ∀ entry, Finished s taskId entry → ¬ Expired s now entry) :
    (swept s now).dir.get? taskId = s.dir.get? taskId := by
  rw [get?_swept]
  rcases hfile : s.dir.get? taskId with _ | _ | snapshot
  · rfl
  · rfl
  rw [Option.filter_some, if_pos]
  refine keeps_document.mpr ?_
  rcases hmemory : s.manager.status.get? taskId with _ | entry
  · exact hother snapshot ⟨(TaskManager.statusOf_of_not_mem hmemory).2 snapshot hfile, .inl hmemory⟩
  · obtain ⟨rfl, hended⟩ := Phase.file (hkept.phase taskId) hmemory hfile
    exact hfresh taskId snapshot hmemory hended

theorem retained_bounded : (retained (swept s now)).card ≤
    (running (swept s now)).card + (recent (swept s now) now).card := by
  refine le_trans (Finset.card_le_card ?_) (Finset.card_union_le _ _)
  intro taskId hmem
  obtain ⟨entry, hstatus, -⟩ := mem_tasksWith.mp hmem
  rw [Finset.mem_union]
  by_cases hrunning : entry.status = .running
  · exact .inl (mem_tasksWith.mpr ⟨entry, hstatus, decide_eq_true hrunning⟩)
  · refine .inr (mem_tasksWith.mpr ⟨entry, hstatus, ?_⟩)
    have hlive : ¬ Expired s now entry := by
      rcases statusOf_ok hstatus with hmemory | ⟨-, hfile⟩
      · exact hfresh taskId entry hmemory hrunning
      · exact swept_document hfile
    exact Bool.not_eq_true' _ ▸ decide_eq_false hlive

theorem swept_of_memoryFresh (hkept : Kept s) : Swept s now where
  gone _ _ hfinished hexpired := expired_gone hfresh hfinished hexpired
  untouched _ hother := ⟨rfl, others_untouched hfresh hkept hother⟩
  unreadable taskId htorn := by
    rw [get?_swept, htorn]
    rfl
  bounded := retained_bounded hfresh

end

/-- **What a sweep achieves.**  In every run, of any number of tasks and managers and with any
    clock, a sweep removes the expired tasks and nothing else exactly when none of them has
    its entry in the memory of the manager. -/
theorem swept_iff {ttl : Int} {s : Server ρ} (h : Reaches serverStep Uncancelled (.fresh ttl) s)
    (now : Int) : Swept s now ↔ MemoryFresh s now :=
  ⟨memoryFresh_of_swept, fun hfresh => swept_of_memoryFresh hfresh (kept_reaches h)⟩

/-- A task that ends at once, with its file written. -/
def oneJob : List (ServerAct String) :=
  [.submit "a1" 1767225600, .start "a1", .finish "a1" "e1" (.returned (some "{}")),
    .openFile "a1", .writeFile "a1"]

theorem swept_iff_oneJob :
    ∃ s : Server String, Reaches serverStep Uncancelled (.fresh 3600) s ∧
      (Swept s 1767229200 ↔ MemoryFresh s 1767229200) :=
  have hreach : Reaches serverStep Uncancelled (Server.fresh 3600) _ :=
    play_get_reaches oneJob (by decide +kernel)
  ⟨_, hreach, swept_iff hreach 1767229200⟩

/-- **A second after its time the task is still there**: the file has gone, the entry stays. -/
theorem sweep_keeps_memory :
    ∃ s : Server String, Reaches serverStep Uncancelled (.fresh 3600) s ∧
      ¬ Swept s 1767229201 ∧ (swept s 1767229201).dir.get? "a1" = none ∧
      (swept s 1767229201).manager.statusOf (swept s 1767229201).dir "a1" =
        .ok ⟨.done, none, some "{}", none, 1767225600⟩ := by
  refine ⟨_, play_get_reaches oneJob (by decide +kernel), ?_, by decide +kernel, by decide +kernel⟩
  intro hswept
  refine memoryFresh_of_swept hswept "a1" ⟨.done, none, some "{}", none, 1767225600⟩ ?_ ?_ ?_ <;>
    decide +kernel

end FundingTool.TaskExpiry
