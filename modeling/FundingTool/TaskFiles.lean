import FundingTool.JsonRoundTrip
import FundingTool.TaskExpiry

/-!
# The files of the task manager (`web/tasks.py`)

`TaskManager` calls a file torn or a whole document.  Here a file is its text: `_persist` prints
the status dict with `json.dumps`, the file holds a part of that while `write_text` is at it, and
`status` and `cleanup_expired` see what `json.loads` makes of it.  Processes may end, and writes
may fail, with any part written; the text is ASCII, so that its bytes are its characters.

`disk_refines`: the server on texts does what the server on torn and whole files does, and
answers the same.  So `task_files_truthful`: whatever has been cut off, no task is ever reported
with anything but its own job's outcome.
-/

namespace FundingTool.TaskFiles

open FundingTool.TransitionSystem FundingTool.TaskRestart FundingTool.TaskSnapshots
open FundingTool.JsonText

/-! ## 1. The status dict as JSON -/

/-- A dict that is a job's result. -/
abbrev Payload := List (String × Value)

/-- How `time.time()` is printed and read again; `repr` of a float loses nothing. -/
structure Clock where
  print : Int → Number
  read : Number → Int
  read_print : ∀ now, read (print now) = now

def codeText : WebCode → String
  | .webAuthRequired => "web_auth_required"
  | .webAuthLocked => "web_auth_locked"
  | .csrfMismatch => "csrf_mismatch"
  | .validationError => "validation_error"
  | .rangeTooLarge => "range_too_large"
  | .unknownSymbol => "unknown_symbol"
  | .exchangeAuthError => "exchange_auth_error"
  | .exchangeRateLimit => "exchange_rate_limit"
  | .networkError => "network_error"
  | .exchangeError => "exchange_error"
  | .serverError => "server_error"

def statusText : TaskStatus → String
  | .running => "running"
  | .done => "done"
  | .failed => "failed"

def optional {α : Type} (value : α → Value) : Option α → Value
  | some a => value a
  | none => .null

def errorValue (e : TaskError) : Value :=
  .obj [("code", .str (codeText e.code)), ("message", .str e.message)]

section

variable (clock : Clock)

/-- `self._status[task_id]` -/
def members (entry : Snapshot Payload) : List (String × Value) :=
  [("status", .str (statusText entry.status)), ("progress", optional .obj entry.progress),
    ("result", optional .obj entry.result), ("error", optional errorValue entry.error),
    ("created", .num (clock.print entry.created))]

def document (entry : Snapshot Payload) : Value := .obj (members clock entry)

/-- What `_persist` writes. -/
def text (entry : Snapshot Payload) : List Char := dumps .plain (document clock entry)

/-! ## 2. The server on texts -/

abbrev TextDir := OrderedDict String (List Char)

structure DiskServer where
  manager : TaskManager Payload
  dir : TextDir
  issued : List String
  earlier : List String
  outcomes : OrderedDict String (JobEnd Payload)

def DiskServer.fresh (ttl : Int) : DiskServer := ⟨.new ttl, .empty, [], [], .empty⟩

/-- `_persist` up to the opened file. -/
def openFile (tm : TaskManager Payload) (dir : TextDir) (taskId : String) :
    Option (TaskManager Payload × TextDir) :=
  match tm.tasks.get? taskId, tm.status.get? taskId with
  | some .ended, some entry =>
      some ({ tm with tasks := tm.tasks.set taskId (.writing entry) }, dir.set taskId [])
  | _, _ => none

/-- So many characters of the text are in the file, and not yet all. -/
def flush (tm : TaskManager Payload) (dir : TextDir) (taskId : String) (count : Nat) :
    Option TextDir :=
  match tm.tasks.get? taskId with
  | some (.writing entry) =>
      if count < (text clock entry).length then
        some (dir.set taskId ((text clock entry).take count))
      else none
  | _ => none

/-- The rest of `_persist`. -/
def writeFile (tm : TaskManager Payload) (dir : TextDir) (taskId : String) :
    Option (TaskManager Payload × TextDir) :=
  match tm.tasks.get? taskId with
  | some (.writing entry) =>
      some ({ tm with tasks := tm.tasks.erase taskId }, dir.set taskId (text clock entry))
  | _ => none

/-- `(now - data.get("created", 0)) > self._ttl`, with the numbers Python takes words for; what
    is no number raises. -/
def isOlder (ttl now : Int) : Option Value → Bool
  | none => ttl < now
  | some (.num n) => ttl < now - clock.read n
  | some (.word .true) => ttl < now - 1
  | some (.word .false) => ttl < now
  | some (.word .minusInfinity) => true
  | _ => false

/-- A file `cleanup_expired` removes; one that raises is skipped. -/
def isExpired (ttl now : Int) (content : List Char) : Bool :=
  match loads content with
  | some (.obj fields) => isOlder clock ttl now ((Value.obj fields).member "created")
  | _ => false

/-- `status` -/
def DiskServer.statusOf (c : DiskServer) (taskId : String) :
    Except TaskManager.StatusError Value :=
  match c.manager.status.get? taskId with
  | some entry => .ok (document clock entry)
  | none =>
      match c.dir.get? taskId with
      | some content =>
          match loads content with
          | some v => .ok v
          | none => .error .jsonDecodeError
      | none => .error (.keyError taskId)

inductive DiskAct
  | server (a : ServerAct Payload)
  | flush (taskId : String) (count : Nat)

def diskStep (c : DiskServer) : DiskAct → Option DiskServer
  | .server (.submit taskId now) =>
      if taskId ∈ c.issued then none
      else some { c with manager := c.manager.submit taskId now, issued := taskId :: c.issued }
  | .server (.start taskId) => (c.manager.start taskId).map fun tm => { c with manager := tm }
  | .server (.drop taskId) => (c.manager.drop taskId).map fun tm => { c with manager := tm }
  | .server (.finish taskId errorId outcome) =>
      (c.manager.finish taskId errorId outcome).map fun tm =>
        { c with manager := tm, outcomes := c.outcomes.set taskId outcome }
  | .server (.openFile taskId) =>
      (openFile c.manager c.dir taskId).map fun (tm, dir) => { c with manager := tm, dir := dir }
  | .server (.writeFile taskId) =>
      (writeFile clock c.manager c.dir taskId).map fun (tm, dir) =>
        { c with manager := tm, dir := dir }
  | .server (.failWrite taskId) =>
      (c.manager.failWrite taskId).map fun tm => { c with manager := tm }
  | .server (.cleanupExpired now) =>
      some { c with
        dir := c.dir.filter fun _ content => !isExpired clock c.manager.ttl now content }
  | .server .restart => some { c with manager := .new c.manager.ttl, earlier := c.issued }
  | .flush taskId count =>
      (flush clock c.manager c.dir taskId count).map fun dir => { c with dir := dir }

/-- Jobs end with a value or an `Exception`, and no task is cancelled; nothing is asked of the
    moment at which a process ends. -/
def DiskUncancelled (_ : DiskServer) : DiskAct → Prop
  | .server (.drop _) => False
  | .server (.finish _ _ (.raised e)) => e.isException = true
  | _ => True

end

/-! ## 3. Reading the files -/

section

variable {clock : Clock}

theorem text_ne_nil (entry : Snapshot Payload) : text clock entry ≠ [] := by
  intro hnil
  have hread := loads_dumps .plain (document clock entry)
  rw [show dumps .plain (document clock entry) = [] from hnil] at hread
  cases hread

theorem loads_text (entry : Snapshot Payload) :
    loads (text clock entry) = some (document clock entry) :=
  loads_dumps .plain (document clock entry)

/-- What a file is to the manager. -/
def Content (clock : Clock) (content : List Char) : FileContent Payload → Prop
  | .torn => ∃ entry after, text clock entry = content ++ after ∧ after ≠ []
  | .document entry => content = text clock entry

theorem loads_torn {content : List Char} (h : Content clock content .torn) :
    loads content = none := by
  obtain ⟨entry, after, htext, hafter⟩ := h
  exact loads_prefix htext hafter

/-- **The sweep** removes what it removes by the documents. -/
theorem isExpired_eq {content : List Char} {file : FileContent Payload}
    (h : Content clock content file) (tm : TaskManager Payload) (now : Int) :
    isExpired clock tm.ttl now content = !tm.keeps now file := by
  cases file with
  | torn => simp only [isExpired, loads_torn h, TaskManager.keeps, Bool.not_true]
  | document entry =>
      have hcreated : (document clock entry).member "created" =
          some (.num (clock.print entry.created)) := rfl
      rw [show content = text clock entry from h, isExpired, loads_text, document]
      rw [document] at hcreated
      simp only [hcreated, isOlder, clock.read_print, TaskManager.keeps, ← decide_not, Int.not_le]

/-! ## 4. The refinement -/

/-- A file on the disk and the file it is to the manager, if any. -/
inductive SameFile (clock : Clock) : Option (List Char) → Option (FileContent Payload) → Prop
  | none : SameFile clock none none
  | some {content : List Char} {file : FileContent Payload} (h : Content clock content file) :
      SameFile clock (some content) (some file)

/-- The file of one task changes. -/
theorem sameFile_set {dir : TextDir} {dir' : TaskDir Payload} {content : List Char}
    {file : FileContent Payload}
    (h : ∀ taskId, SameFile clock (dir.get? taskId) (dir'.get? taskId))
    (hcontent : Content clock content file) (other taskId : String) :
    SameFile clock ((dir.set other content).get? taskId) ((dir'.set other file).get? taskId) := by
  rw [OrderedDict.get?_set, OrderedDict.get?_set]
  by_cases hsame : taskId = other
  · rw [if_pos hsame, if_pos hsame]
    exact .some hcontent
  · rw [if_neg hsame, if_neg hsame]
    exact h taskId

theorem sameFile_filter {content : Option (List Char)} {file : Option (FileContent Payload)}
    (h : SameFile clock content file) (tm : TaskManager Payload) (now : Int) :
    SameFile clock (content.filter fun content => !isExpired clock tm.ttl now content)
      (file.filter (tm.keeps now)) := by
  cases h with
  | none => exact .none
  | @some content file hcontent =>
      have hexpired := isExpired_eq hcontent tm now
      rw [Option.filter_some, Option.filter_some, hexpired, Bool.not_not]
      by_cases hkeeps : tm.keeps now file = true
      · rw [if_pos hkeeps, if_pos hkeeps]
        exact .some hcontent
      · rw [if_neg hkeeps, if_neg hkeeps]
        exact .none

theorem content_truncated (entry : Snapshot Payload) : Content clock [] .torn :=
  ⟨entry, text clock entry, rfl, text_ne_nil entry⟩

theorem content_take {entry : Snapshot Payload} {count : Nat}
    (h : count < (text clock entry).length) :
    Content clock ((text clock entry).take count) .torn := by
  refine ⟨entry, (text clock entry).drop count, (List.take_append_drop _ _).symm, ?_⟩
  intro hnil
  exact absurd (List.drop_eq_nil_iff.mp hnil) (Nat.not_le.mpr h)

/-- The abstract server with the files of a directory. -/
def withDir (c : DiskServer) (dir : TaskDir Payload) : Server Payload :=
  ⟨c.manager, dir, c.issued, c.earlier, c.outcomes⟩

theorem openFile_some {tm tm' : TaskManager Payload} {dir dir' : TextDir} {taskId : String}
    (h : openFile tm dir taskId = some (tm', dir')) (files : TaskDir Payload) :
    ∃ entry, tm.openFile files taskId = some (tm', files.set taskId .torn) ∧
      tm.status.get? taskId = some entry ∧ dir' = dir.set taskId [] := by
  unfold openFile at h
  split at h
  · next entry hstage hentry =>
      cases h
      exact ⟨entry, by simp only [TaskManager.openFile, hstage, hentry], hentry, rfl⟩
  · cases h

theorem writeFile_some {tm tm' : TaskManager Payload} {dir dir' : TextDir} {taskId : String}
    (h : writeFile clock tm dir taskId = some (tm', dir')) (files : TaskDir Payload) :
    ∃ entry, tm.writeFile files taskId = some (tm', files.set taskId (.document entry)) ∧
      dir' = dir.set taskId (text clock entry) := by
  unfold writeFile at h
  split at h
  · next entry hstage =>
      cases h
      exact ⟨entry, by simp only [TaskManager.writeFile, hstage], rfl⟩
  · cases h

/-- **One step on texts is one step on files.** -/
theorem server_refines {c c' : DiskServer} {files : TaskDir Payload} {a : ServerAct Payload}
    (h : ∀ taskId, SameFile clock (c.dir.get? taskId) (files.get? taskId))
    (hstep : diskStep clock c (.server a) = some c') :
    ∃ files', serverStep (withDir c files) a = some (withDir c' files') ∧
      ∀ taskId, SameFile clock (c'.dir.get? taskId) (files'.get? taskId) := by
  cases a with
  | submit taskId now =>
      simp only [diskStep] at hstep
      by_cases hmem : taskId ∈ c.issued
      · rw [if_pos hmem] at hstep
        cases hstep
      · rw [if_neg hmem, Option.some.injEq] at hstep
        subst hstep
        exact ⟨files, if_neg hmem, h⟩
  | openFile taskId =>
      obtain ⟨⟨tm, dir⟩, hopen, rfl⟩ := Option.map_eq_some_iff.mp hstep
      obtain ⟨entry, habstract, -, rfl⟩ := openFile_some hopen files
      exact ⟨_, Option.map_eq_some_iff.mpr ⟨_, habstract, rfl⟩,
        sameFile_set h (content_truncated entry) taskId⟩
  | writeFile taskId =>
      obtain ⟨⟨tm, dir⟩, hwrite, rfl⟩ := Option.map_eq_some_iff.mp hstep
      obtain ⟨entry, habstract, rfl⟩ := writeFile_some hwrite files
      have hwhole : Content clock (text clock entry) (.document entry) := rfl
      exact ⟨_, Option.map_eq_some_iff.mpr ⟨_, habstract, rfl⟩, sameFile_set h hwhole taskId⟩
  | cleanupExpired now =>
      cases hstep
      refine ⟨_, rfl, fun taskId => ?_⟩
      rw [OrderedDict.get?_filter, TaskManager.get?_cleanupExpired]
      exact sameFile_filter (h taskId) c.manager now
  | restart =>
      cases hstep
      exact ⟨files, rfl, h⟩
  | _ =>
      -- These do not touch the directory.
      obtain ⟨tm, hmanager, rfl⟩ := Option.map_eq_some_iff.mp hstep
      exact ⟨files, Option.map_eq_some_iff.mpr ⟨tm, hmanager, rfl⟩, h⟩

/-- Writing a part of a file is no step of the abstract server. -/
theorem flush_refines {c c' : DiskServer} {files : TaskDir Payload} {taskId : String} {count : Nat}
    (hwriting : ∀ entry, c.manager.tasks.get? taskId = some (.writing entry) →
      files.get? taskId = some .torn)
    (h : ∀ taskId, SameFile clock (c.dir.get? taskId) (files.get? taskId))
    (hstep : diskStep clock c (.flush taskId count) = some c') :
    withDir c' files = withDir c files ∧
      ∀ taskId, SameFile clock (c'.dir.get? taskId) (files.get? taskId) := by
  obtain ⟨dir, hflush, rfl⟩ := Option.map_eq_some_iff.mp hstep
  refine ⟨rfl, fun other => ?_⟩
  unfold flush at hflush
  split at hflush
  · next entry hstage =>
      by_cases hcount : count < (text clock entry).length
      · rw [if_pos hcount, Option.some.injEq] at hflush
        subst hflush
        simp only [OrderedDict.get?_set]
        by_cases hsame : other = taskId
        · rw [if_pos hsame, hsame, hwriting entry hstage]
          exact .some (content_take hcount)
        · rw [if_neg hsame]
          exact h other
      · rw [if_neg hcount] at hflush
        cases hflush
  · cases hflush

/-! ## 5. What the files say -/

/-- The file of a task: cut off while it is written, and otherwise no other document than that of
    its own job's outcome. -/
structure Honest (v : View Payload) : Prop where
  torn : ∀ entry, v.stage = some (.writing entry) → v.file = some .torn
  document : ∀ entry, v.file = some (.document entry) →
    ∃ outcome, v.outcome = some outcome ∧ Reports outcome entry

theorem honest_advance {taskId : String} {a : ServerAct Payload} {v v' : View Payload}
    (hphase : Phase v) (h : Honest v) (hadvance : Advance taskId a v v') : Honest v' := by
  cases hadvance with
  | frame => exact h
  | submit now => exact ⟨fun _ hstage => (by cases hstage), h.document⟩
  | start => exact ⟨fun _ hstage => (by cases hstage), h.document⟩
  | drop => exact ⟨fun _ hstage => (by cases hstage), h.document⟩
  | finish errorId ending =>
      refine ⟨fun _ hstage => (by cases hstage), fun entry hfile => ?_⟩
      cases hphase with
      | pending => cases hfile
      | ended hstage => rcases hstage _ rfl with h | h | h <;> cases h
  | openFile => exact ⟨fun _ _ => rfl, fun _ hfile => (by cases hfile)⟩
  | writeFile =>
      refine ⟨fun _ hstage => (by cases hstage), fun entry hfile => ?_⟩
      cases hphase with
      | pending hstage => rcases hstage with h | h <;> cases h
      | ended hstage hreports =>
          rcases hstage _ rfl with h | h | h <;> cases h
          cases hfile
          exact ⟨_, rfl, hreports⟩
  | failOpen => exact ⟨fun _ hstage => (by cases hstage), h.document⟩
  | failWrite => exact ⟨fun _ hstage => (by cases hstage), h.document⟩
  | sweep now hwhole =>
      exact ⟨fun entry hstage => absurd (h.torn entry hstage) hwhole,
        fun _ hfile => (by cases hfile)⟩
  | restart => exact ⟨fun _ hstage => (by cases hstage), h.document⟩

/-- The documents of a server, and what holds of it. -/
structure Sound (s : Server Payload) : Prop where
  kept : Kept s
  honest : ∀ taskId, Honest (s.view taskId)

theorem sound_fresh (ttl : Int) : Sound (.fresh ttl) :=
  ⟨kept_fresh ttl, fun _ => ⟨fun _ hstage => (by cases hstage), fun _ hfile => (by cases hfile)⟩⟩

theorem sound_step {s s' : Server Payload} {a : ServerAct Payload} (h : Sound s)
    (hallowed : Uncancelled s a) (hstep : serverStep s a = some s') : Sound s' :=
  ⟨kept_step h.kept hallowed hstep, fun taskId =>
    honest_advance (h.kept.phase taskId) (h.honest taskId) (serverStep_view hstep taskId)⟩

theorem sound_reaches {ttl : Int} {s : Server Payload}
    (h : Reaches serverStep Uncancelled (.fresh ttl) s) : Sound s :=
  h.invariant (sound_fresh ttl) fun _ _ _ hinv hallowed hstep => sound_step hinv hallowed hstep

theorem uncancelled_of_disk {c : DiskServer} {s : Server Payload} {a : ServerAct Payload}
    (h : DiskUncancelled c (.server a)) : Uncancelled s a := by
  cases a with
  | drop taskId => exact h
  | finish taskId errorId outcome =>
      cases outcome with
      | returned => trivial
      | raised e => exact h
  | _ => trivial

/-- **The server on texts does what the server on files does**, in every run. -/
theorem disk_refines {ttl : Int} {c : DiskServer}
    (h : Reaches (diskStep clock) DiskUncancelled (.fresh ttl) c) :
    ∃ files, Reaches serverStep Uncancelled (.fresh ttl) (withDir c files) ∧
      ∀ taskId, SameFile clock (c.dir.get? taskId) (files.get? taskId) := by
  induction h with
  | start => exact ⟨.empty, .start, fun _ => .none⟩
  | @step c c' a _ hallowed hstep ih =>
      obtain ⟨files, hreach, hfiles⟩ := ih
      cases a with
      | server a =>
          obtain ⟨files', habstract, hfiles'⟩ := server_refines hfiles hstep
          exact ⟨files', hreach.step (uncancelled_of_disk hallowed) habstract, hfiles'⟩
      | flush taskId count =>
          have hwriting : ∀ entry, c.manager.tasks.get? taskId = some (.writing entry) →
              files.get? taskId = some .torn := ((sound_reaches hreach).honest taskId).torn
          obtain ⟨hsame, hfiles'⟩ := flush_refines hwriting hfiles hstep
          exact ⟨files, hsame ▸ hreach, hfiles'⟩

/-- `status` answers the same on both levels. -/
theorem statusOf_eq {c : DiskServer} {files : TaskDir Payload} {taskId : String}
    (h : SameFile clock (c.dir.get? taskId) (files.get? taskId)) :
    c.statusOf clock taskId = (c.manager.statusOf files taskId).map (document clock) := by
  unfold DiskServer.statusOf TaskManager.statusOf
  rcases c.manager.status.get? taskId with _ | entry
  · generalize c.dir.get? taskId = content at h
    generalize files.get? taskId = file at h
    cases h with
    | none => rfl
    | @some content file hcontent =>
        cases file with
        | torn =>
            simp only [loads_torn hcontent]
            rfl
        | document entry =>
            rw [show content = text clock entry from hcontent]
            simp only [loads_text]
            rfl
  · rfl

theorem sameFile_ascii {content : List Char} {file : Option (FileContent Payload)}
    (h : SameFile clock (some content) file) : ∀ ch ∈ content, ch.toNat < 128 := by
  have htext : ∀ entry, ∀ ch ∈ text clock entry, ch.toNat < 128 :=
    fun entry => ascii_dumps rfl (document clock entry)
  cases h with
  | @some _ file hcontent =>
      cases file with
      | torn =>
          obtain ⟨entry, after, hsplit, -⟩ := hcontent
          exact fun ch hmem => htext entry ch (hsplit ▸ List.mem_append_left after hmem)
      | document entry => exact fun ch hmem => htext entry ch (hcontent ▸ hmem)

/-- An answer about a torn file. -/
theorem statusOf_torn {s : Server Payload} {taskId : String}
    (h : s.manager.statusOf s.dir taskId = .error .jsonDecodeError) :
    s.dir.get? taskId = some .torn := by
  unfold TaskManager.statusOf at h
  rcases hmemory : s.manager.status.get? taskId with _ | entry <;> rw [hmemory] at h
  · rcases hfile : s.dir.get? taskId with _ | _ | entry <;> rw [hfile] at h <;> cases h
  · cases h

/-- What is answered is an entry, in memory or in a file of the server on files. -/
theorem answered_entry {ttl : Int} {c : DiskServer}
    (h : Reaches (diskStep clock) DiskUncancelled (.fresh ttl) c) {taskId : String} {v : Value}
    (hv : c.statusOf clock taskId = .ok v) :
    ∃ files entry, Reaches serverStep Uncancelled (.fresh ttl) (withDir c files) ∧
      v = document clock entry ∧
      (withDir c files).manager.statusOf (withDir c files).dir taskId = .ok entry := by
  obtain ⟨files, hreach, hfiles⟩ := disk_refines h
  rw [statusOf_eq (hfiles taskId)] at hv
  rcases hanswer : (withDir c files).manager.statusOf files taskId with e | entry
  · rw [show c.manager.statusOf files taskId = .error e from hanswer] at hv
    cases hv
  · rw [show c.manager.statusOf files taskId = .ok entry from hanswer] at hv
    exact ⟨files, entry, hreach, (Except.ok.inj hv).symm, hanswer⟩

/-- An entry agrees with the outcome of its own job. -/
theorem Sound.agrees {s : Server Payload} (h : Sound s) {taskId : String}
    {entry : Snapshot Payload} (hanswer : s.manager.statusOf s.dir taskId = .ok entry) :
    Agrees (s.outcomes.get? taskId) entry := by
  rcases TaskExpiry.statusOf_ok hanswer with hentry | ⟨-, hfile⟩
  · exact ((h.kept.phase taskId).agrees hentry).1
  · obtain ⟨outcome, houtcome, hreports⟩ := (h.honest taskId).document entry hfile
    rw [show s.outcomes.get? taskId = some outcome from houtcome]
    exact hreports

/-- A task of this process is answered from memory. -/
theorem current_answered {ttl : Int} {c : DiskServer}
    (h : Reaches (diskStep clock) DiskUncancelled (.fresh ttl) c) {taskId : String}
    (hissued : taskId ∈ c.issued) (hearlier : taskId ∉ c.earlier) :
    ∃ v, c.statusOf clock taskId = .ok v := by
  obtain ⟨files, hreach, hfiles⟩ := disk_refines h
  obtain ⟨entry, -, hanswer⟩ := (sound_reaches hreach).kept.statusOf ⟨hissued, hearlier⟩
  refine ⟨document clock entry, (statusOf_eq (hfiles taskId)).trans ?_⟩
  exact congrArg (Except.map (document clock)) hanswer

/-- What cannot be read is a file that was cut off, of a task of an earlier process. -/
theorem unreadable_torn {ttl : Int} {c : DiskServer}
    (h : Reaches (diskStep clock) DiskUncancelled (.fresh ttl) c) {taskId : String}
    (herror : c.statusOf clock taskId = .error .jsonDecodeError) :
    taskId ∈ c.earlier ∧ ∃ entry content after, c.dir.get? taskId = some content ∧
      text clock entry = content ++ after ∧ after ≠ [] := by
  obtain ⟨files, hreach, hfiles⟩ := disk_refines h
  have hfile : files.get? taskId = some .torn := by
    have hstatus := statusOf_eq (hfiles taskId)
    rw [herror] at hstatus
    rcases hanswer : (withDir c files).manager.statusOf files taskId with e | entry
    · rw [show c.manager.statusOf files taskId = .error e from hanswer] at hstatus
      have he : .jsonDecodeError = e := Except.error.inj hstatus
      exact statusOf_torn (he ▸ hanswer)
    · rw [show c.manager.statusOf files taskId = .ok entry from hanswer] at hstatus
      cases hstatus
  have hissued : taskId ∈ c.issued := by
    by_contra hnew
    have hblank := (sound_reaches hreach).kept.unissued taskId hnew
    have hnone : files.get? taskId = none := congrArg View.file hblank
    cases hnone.symm.trans hfile
  constructor
  · by_contra hearlier
    obtain ⟨v, hv⟩ := current_answered h hissued hearlier
    cases hv.symm.trans herror
  · have hsame := hfiles taskId
    rw [hfile] at hsame
    rcases hcontent : c.dir.get? taskId with _ | content <;> rw [hcontent] at hsame
    · cases hsame
    · cases hsame with
      | some htorn =>
          obtain ⟨entry, after, htext, hafter⟩ := htorn
          exact ⟨entry, content, after, rfl, htext, hafter⟩

/-- What `status` may answer of a task. -/
structure Truthful (clock : Clock) (c : DiskServer) (taskId : String) : Prop where
  /-- A snapshot that agrees with what the task's own job has ended with, if it has. -/
  answer : ∀ v, c.statusOf clock taskId = .ok v →
    ∃ entry, v = document clock entry ∧ Agrees (c.outcomes.get? taskId) entry
  /-- A task of this process is answered, whatever has become of its file. -/
  current : taskId ∈ c.issued → taskId ∉ c.earlier → ∃ v, c.statusOf clock taskId = .ok v
  /-- What cannot be read is the file of a task of an earlier process, and cut off. -/
  unreadable : c.statusOf clock taskId = .error .jsonDecodeError → taskId ∈ c.earlier ∧
    ∃ entry content after, c.dir.get? taskId = some content ∧
      text clock entry = content ++ after ∧ after ≠ []
  /-- The file is ASCII: where its bytes are cut off, its characters are. -/
  ascii : ∀ content, c.dir.get? taskId = some content → ∀ ch ∈ content, ch.toNat < 128

/-- **No file lies.**  In every run, of any number of tasks and processes, and with any part of a
    file written where a process ends or a write fails. -/
theorem task_files_truthful {ttl : Int} {c : DiskServer}
    (h : Reaches (diskStep clock) DiskUncancelled (.fresh ttl) c) (taskId : String) :
    Truthful clock c taskId := by
  constructor
  · intro v hv
    obtain ⟨files, entry, hreach, hdocument, hanswer⟩ := answered_entry h hv
    exact ⟨entry, hdocument, (sound_reaches hreach).agrees hanswer⟩
  · intro hissued hearlier
    exact current_answered h hissued hearlier
  · intro herror
    exact unreadable_torn h herror
  · intro content hcontent
    obtain ⟨files, -, hfiles⟩ := disk_refines h
    exact sameFile_ascii (hcontent ▸ hfiles taskId)

end

/-- A whole number of seconds, as `repr` of its float. -/
def secondsLiteral (now : Int) : List Char := intLiteral now ++ ['.', '0']

theorem isNumber_secondsLiteral (now : Int) : isNumber (secondsLiteral now) = true := by
  obtain ⟨state, hrun, rfl | rfl⟩ := foldlM_intLiteral now <;>
    rw [isNumber, secondsLiteral, List.foldlM_append, hrun] <;> rfl

theorem no_point_intLiteral (now : Int) : ∀ c ∈ intLiteral now, c ≠ '.' := by
  have hdigits : ∀ c ∈ Nat.toDigits 10 now.natAbs, c ≠ '.' := by
    rintro c hc rfl
    cases Nat.isDigit_of_mem_toDigits (by decide) (by decide) hc
  unfold intLiteral
  by_cases hneg : now < 0
  · rw [if_pos hneg]
    exact List.forall_mem_cons.mpr ⟨by decide, hdigits⟩
  · rw [if_neg hneg]
    exact hdigits

def wholeSeconds : Clock where
  print now := ⟨secondsLiteral now, isNumber_secondsLiteral now⟩
  read n := readInt (n.literal.takeWhile (· ≠ '.'))
  read_print now := by
    have hint : (secondsLiteral now).takeWhile (· ≠ '.') = intLiteral now := by
      rw [secondsLiteral, List.takeWhile_append_of_pos fun c hc => by
        exact decide_eq_true (no_point_intLiteral now c hc)]
      exact List.append_nil _
    rw [hint, readInt_intLiteral]

instance (c : DiskServer) : (a : DiskAct) → Decidable (DiskUncancelled c a)
  | .server (.drop _) => .isFalse id
  | .server (.finish _ _ (.raised e)) => inferInstanceAs (Decidable (e.isException = true))
  | .server (.finish _ _ (.returned _)) => .isTrue trivial
  | .server (.submit _ _) => .isTrue trivial
  | .server (.start _) => .isTrue trivial
  | .server (.openFile _) => .isTrue trivial
  | .server (.writeFile _) => .isTrue trivial
  | .server (.failWrite _) => .isTrue trivial
  | .server (.cleanupExpired _) => .isTrue trivial
  | .server .restart => .isTrue trivial
  | .flush _ _ => .isTrue trivial

/-- A process that ends while it writes the file; the next one sweeps the directory. -/
def cutOff : List DiskAct :=
  [.server (.submit "a1" 1767225600), .server (.start "a1"),
    .server (.finish "a1" "e1" (.returned (some [("total", .str "1.5")]))),
    .server (.openFile "a1"), .flush "a1" 60, .server .restart,
    .server (.cleanupExpired 1767325600)]

/-- Where it leaves the disk. -/
def afterCutOff : DiskServer :=
  (play (diskStep wholeSeconds) DiskUncancelled (.fresh 3600) cutOff).get (by decide +kernel)

theorem task_files_truthful_cutOff :
    (afterCutOff.statusOf wholeSeconds "a1").toOption.isNone = true ∧
      Truthful wholeSeconds afterCutOff "a1" := by
  have hreach : Reaches (diskStep wholeSeconds) DiskUncancelled (.fresh 3600) afterCutOff :=
    play_get_reaches cutOff (by decide +kernel)
  exact ⟨by decide +kernel, task_files_truthful hreach "a1"⟩

end FundingTool.TaskFiles
