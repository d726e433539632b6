import FundingTool.OrderedDict
import FundingTool.WebErrors

/-!
# The task manager (`web/tasks.py`)

A task's coroutine has one await, the job's own.  Behind it the status entry is updated
and `_persist` mirrors it to `<task_id>.json`.  Each of these is an operation below, so
that a process may end between any two of them.

A job's result is a JSON value, which `json.dumps` and `json.loads` carry over unchanged;
`none` is Python's `None`.  A file whose text is cut off is no JSON document: the text of
an object parses only with its closing brace.
-/

namespace FundingTool

/-! ## 1. Status entries and their files -/

inductive TaskStatus
  | running | done | failed
deriving DecidableEq, Repr

structure TaskError where
  code : WebCode
  message : String
deriving DecidableEq, Repr

/-- The status dict of one task. -/
structure Snapshot (ρ : Type) where
  status : TaskStatus
  progress : Option ρ
  result : Option ρ
  error : Option TaskError
  created : Int
deriving DecidableEq, Repr

/-- `<task_id>.json`: opened and not yet written to its end, or a whole document. -/
inductive FileContent (ρ : Type)
  | torn
  | document (snapshot : Snapshot ρ)
deriving DecidableEq, Repr

def FileContent.isTorn {ρ : Type} : FileContent ρ → Bool
  | .torn => true
  | .document _ => false

abbrev TaskDir (ρ : Type) := OrderedDict String (FileContent ρ)

/-- How `await factory()` ends. -/
inductive JobEnd (ρ : Type)
  | returned (result : Option ρ)
  | raised (e : BaseException)
deriving DecidableEq, Repr

/-! ## 2. The manager -/

/-- Where the coroutine of a task stands. -/
inductive Stage (ρ : Type)
  | scheduled
  | awaiting
  /-- In the `finally` block, before `_persist`. -/
  | ended
  /-- In `write_text`, with the file truncated and this to be written. -/
  | writing (snapshot : Snapshot ρ)
  /-- Cancelled before the first step: nothing of `_run` is executed. -/
  | dropped
  /-- `_persist` has raised: the exception leaves `_run`, and `_tasks` keeps the task. -/
  | escaped
deriving DecidableEq, Repr

/-- `_tasks` and `_status`. -/
structure TaskManager (ρ : Type) where
  ttl : Int
  tasks : OrderedDict String (Stage ρ)
  status : OrderedDict String (Snapshot ρ)

namespace TaskManager

variable {ρ : Type}

/-- `TaskManager(base_dir, ttl_seconds)` -/
def new (ttl : Int) : TaskManager ρ := ⟨ttl, .empty, .empty⟩

def submit (tm : TaskManager ρ) (taskId : String) (now : Int) : TaskManager ρ :=
  { tm with status := tm.status.set taskId ⟨.running, none, none, none, now⟩,
            tasks := tm.tasks.set taskId .scheduled }

/-- The body of `_run` up to its `finally`: only an `Exception` is recorded as a failure. -/
def record (errorId : String) (entry : Snapshot ρ) : JobEnd ρ → Snapshot ρ
  | .returned result => { entry with status := .done, result := result }
  | .raised e =>
      if e.isException then
        let web := mapCoreException errorId e
        { entry with status := .failed, error := some ⟨web.code, web.message⟩ }
      else entry

/-- The first step of a task on the event loop. -/
def start (tm : TaskManager ρ) (taskId : String) : Option (TaskManager ρ) :=
  match tm.tasks.get? taskId with
  | some .scheduled => some { tm with tasks := tm.tasks.set taskId .awaiting }
  | _ => none

/-- `cancel()` on a task the loop has not started. -/
def drop (tm : TaskManager ρ) (taskId : String) : Option (TaskManager ρ) :=
  match tm.tasks.get? taskId with
  | some .scheduled => some { tm with tasks := tm.tasks.set taskId .dropped }
  | _ => none

/-- The job's await ends, by itself or by a `CancelledError`. -/
def finish (tm : TaskManager ρ) (taskId errorId : String) (outcome : JobEnd ρ) :
    Option (TaskManager ρ) :=
  match tm.tasks.get? taskId, tm.status.get? taskId with
  | some .awaiting, some entry =>
      some { tm with status := tm.status.set taskId (record errorId entry outcome),
                     tasks := tm.tasks.set taskId .ended }
  | _, _ => none

/-- `_persist` up to the opened file: the text is made first, then the file truncated. -/
def openFile (tm : TaskManager ρ) (dir : TaskDir ρ) (taskId : String) :
    Option (TaskManager ρ × TaskDir ρ) :=
  match tm.tasks.get? taskId, tm.status.get? taskId with
  | some .ended, some entry =>
      some ({ tm with tasks := tm.tasks.set taskId (.writing entry) }, dir.set taskId .torn)
  | _, _ => none

/-- The rest of `_persist`, and `self._tasks.pop(task_id, None)`. -/
def writeFile (tm : TaskManager ρ) (dir : TaskDir ρ) (taskId : String) :
    Option (TaskManager ρ × TaskDir ρ) :=
  match tm.tasks.get? taskId with
  | some (.writing snapshot) =>
      some ({ tm with tasks := tm.tasks.erase taskId }, dir.set taskId (.document snapshot))
  | _ => none

/-- `write_text` raises, at the open or with the file truncated. -/
def failWrite (tm : TaskManager ρ) (taskId : String) : Option (TaskManager ρ) :=
  match tm.tasks.get? taskId with
  | some .ended => some { tm with tasks := tm.tasks.set taskId .escaped }
  | some (.writing _) => some { tm with tasks := tm.tasks.set taskId .escaped }
  | _ => none

inductive StatusError
  | keyError (taskId : String)
  | jsonDecodeError
deriving DecidableEq, Repr

/-- `status`: the entry in memory, else the file. -/
def statusOf (tm : TaskManager ρ) (dir : TaskDir ρ) (taskId : String) :
    Except StatusError (Snapshot ρ) :=
  match tm.status.get? taskId with
  | some entry => .ok entry
  | none =>
      match dir.get? taskId with
      | some (.document snapshot) => .ok snapshot
      | some .torn => .error .jsonDecodeError
      | none => .error (.keyError taskId)

/-- A file `cleanup_expired` leaves: one it cannot parse, or one not older than the TTL. -/
def keeps (tm : TaskManager ρ) (now : Int) : FileContent ρ → Bool
  | .torn => true
  | .document snapshot => decide (now - snapshot.created ≤ tm.ttl)

def cleanupExpired (tm : TaskManager ρ) (dir : TaskDir ρ) (now : Int) : TaskDir ρ :=
  dir.filter fun _ content => tm.keeps now content

/-! ## 3. What each operation requires and leaves -/

variable {tm tm' : TaskManager ρ} {dir dir' : TaskDir ρ} {taskId errorId : String}
  {outcome : JobEnd ρ}

theorem start_some (h : tm.start taskId = some tm') :
    tm.tasks.get? taskId = some .scheduled ∧
      tm' = { tm with tasks := tm.tasks.set taskId .awaiting } := by
  unfold start at h
  split at h
  · next hstage => exact ⟨hstage, (Option.some.inj h).symm⟩
  · cases h

theorem drop_some (h : tm.drop taskId = some tm') :
    tm.tasks.get? taskId = some .scheduled ∧
      tm' = { tm with tasks := tm.tasks.set taskId .dropped } := by
  unfold drop at h
  split at h
  · next hstage => exact ⟨hstage, (Option.some.inj h).symm⟩
  · cases h

theorem finish_some (h : tm.finish taskId errorId outcome = some tm') :
    ∃ entry, tm.tasks.get? taskId = some .awaiting ∧ tm.status.get? taskId = some entry ∧
      tm' = { tm with status := tm.status.set taskId (record errorId entry outcome),
                      tasks := tm.tasks.set taskId .ended } := by
  unfold finish at h
  split at h
  · next entry hstage hentry => exact ⟨entry, hstage, hentry, (Option.some.inj h).symm⟩
  · cases h

theorem openFile_some (h : tm.openFile dir taskId = some (tm', dir')) :
    ∃ entry, tm.tasks.get? taskId = some .ended ∧ tm.status.get? taskId = some entry ∧
      tm' = { tm with tasks := tm.tasks.set taskId (.writing entry) } ∧
      dir' = dir.set taskId .torn := by
  unfold openFile at h
  split at h
  · next entry hstage hentry =>
      rw [Option.some.injEq, Prod.mk.injEq] at h
      exact ⟨entry, hstage, hentry, h.1.symm, h.2.symm⟩
  · cases h

theorem writeFile_some (h : tm.writeFile dir taskId = some (tm', dir')) :
    ∃ snapshot, tm.tasks.get? taskId = some (.writing snapshot) ∧
      tm' = { tm with tasks := tm.tasks.erase taskId } ∧
      dir' = dir.set taskId (.document snapshot) := by
  unfold writeFile at h
  split at h
  · next snapshot hstage =>
      rw [Option.some.injEq, Prod.mk.injEq] at h
      exact ⟨snapshot, hstage, h.1.symm, h.2.symm⟩
  · cases h

theorem failWrite_some (h : tm.failWrite taskId = some tm') :
    (tm.tasks.get? taskId = some .ended ∨
        ∃ snapshot, tm.tasks.get? taskId = some (.writing snapshot)) ∧
      tm' = { tm with tasks := tm.tasks.set taskId .escaped } := by
  unfold failWrite at h
  split at h
  · next hstage => exact ⟨Or.inl hstage, (Option.some.inj h).symm⟩
  · next snapshot hstage => exact ⟨Or.inr ⟨snapshot, hstage⟩, (Option.some.inj h).symm⟩
  · cases h

theorem get?_cleanupExpired (now : Int) (taskId : String) :
    (tm.cleanupExpired dir now).get? taskId = (dir.get? taskId).filter (tm.keeps now) :=
  OrderedDict.get?_filter dir _ taskId

/-- A sweep leaves a file or removes a whole one. -/
theorem cleanupExpired_get? (now : Int) :
    (tm.cleanupExpired dir now).get? taskId = dir.get? taskId ∨
      (tm.cleanupExpired dir now).get? taskId = none ∧ dir.get? taskId ≠ some .torn := by
  rw [get?_cleanupExpired]
  rcases dir.get? taskId with _ | _ | snapshot
  · exact Or.inl rfl
  · exact Or.inl rfl
  · by_cases hkeeps : tm.keeps now (.document snapshot) = true
    · exact Or.inl (by rw [Option.filter_some, if_pos hkeeps])
    · refine Or.inr ⟨by rw [Option.filter_some, if_neg hkeeps], ?_⟩
      intro htorn
      cases htorn

theorem statusOf_of_not_mem (h : tm.status.get? taskId = none) :
    (dir.get? taskId = none → tm.statusOf dir taskId = .error (.keyError taskId)) ∧
      ∀ snapshot, dir.get? taskId = some (.document snapshot) →
        tm.statusOf dir taskId = .ok snapshot := by
  constructor
  · intro hfile
    simp only [statusOf, h, hfile]
  · intro snapshot hfile
    simp only [statusOf, h, hfile]

end TaskManager

end FundingTool
