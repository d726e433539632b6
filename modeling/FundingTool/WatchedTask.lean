import FundingTool.PollProgress
import FundingTool.StatusRoute

/-!
# A task and the page that watches it

The task manager of `TaskRestart` and the hook of `TaskPoll`, with the requests between them.  A
request of the hook is answered by the route in the state the server is in then, or fails on its
way, and the answer is delivered later; meanwhile the server, the page and the other requests go
on in any order.

`watched_truthfully` says what the page shows of its task: a snapshot the server has given, never
another task's, no error but one of the way, an end that stays.  And once the job has ended, four
events of the poll, in whatever company, bring the outcome or such an error to the screen.
-/

namespace FundingTool.WatchedTask

open FundingTool.Http (Json)
open FundingTool.Api (ApiResult truthy)
open FundingTool.TransitionSystem FundingTool.TaskRestart FundingTool.StatusRoute
open FundingTool.TaskSnapshots (OneManager Kept Current Agrees)
open FundingTool.TaskPoll (Hook Request Wait Sound Lively Shows isTerminal resultPath)

variable {ρ : Type}

/-! ## 1. The system -/

structure Session (ρ : Type) where
  server : Server ρ
  hook : Hook
  /-- The answers on their way, under the handles of their requests. -/
  replies : OrderedDict Nat ApiResult
  /-- The errors that requests have failed with. -/
  failures : List Json

def Session.fresh (ttl : Int) : Session ρ := ⟨.fresh ttl, .start, .empty, []⟩

inductive Act (ρ : Type)
  | server (a : ServerAct ρ)
  /-- A rendering, an effect, a timer or the unmounting. -/
  | page (event : TaskPoll.Event)
  /-- The server answers the request. -/
  | serve (handle : Nat) (errorId : String)
  /-- The request fails, or something on its way answers it with an error. -/
  | fail (handle : Nat) (error : Json)
  /-- The answer arrives. -/
  | deliver (handle : Nat)

/-- A request without an answer. -/
def Session.unanswered (s : Session ρ) (handle : Nat) : Option Request :=
  match s.hook.waiting.get? handle, s.replies.get? handle with
  | some (.request r), none => some r
  | _, _ => none

section

variable (payload : ρ → Json)

def sessionStep (s : Session ρ) : Act ρ → Option (Session ρ)
  | .server a => (serverStep s.server a).map fun server => { s with server := server }
  | .page (.answer _ _) => none
  | .page event => (TaskPoll.step s.hook event).map fun hook => { s with hook := hook }
  | .serve handle errorId =>
      (s.unanswered handle).map fun r => { s with
        replies := s.replies.set handle (apiResult (historyResult payload errorId s.server r.path)) }
  | .fail handle error =>
      (s.unanswered handle).map fun _ => { s with
        replies := s.replies.set handle ⟨none, some error⟩, failures := error :: s.failures }
  | .deliver handle =>
      match s.replies.get? handle with
      | some result =>
          (TaskPoll.step s.hook (.answer handle result)).map fun hook =>
            { s with hook := hook, replies := s.replies.erase handle }
      | none => none

end

/-- What a path can have between two slashes; `uuid4().hex` is so. -/
def Segment (taskId : String) : Prop := taskId ≠ "" ∧ '/' ∉ taskId.toList

def Names : ServerAct ρ → Prop
  | .submit taskId _ => Segment taskId
  | _ => True

/-- One manager, whose jobs end with a value or an `Exception`; the page renders the ids the
    server has given, and a failure has an error to show. -/
def Allowed (s : Session ρ) : Act ρ → Prop
  | .server a => OneManager s.server a ∧ Names a
  | .page (.render (some taskId) _) => Current s.server taskId
  | .fail _ error => truthy (some error) = true
  | _ => True

/-- **What a step can do.** -/
inductive Takes (payload : ρ → Json) (s : Session ρ) : Act ρ → Session ρ → Prop
  | server {a : ServerAct ρ} {server : Server ρ} (hstep : serverStep s.server a = some server) :
      Takes payload s (.server a) { s with server := server }
  | page {event : TaskPoll.Event} {hook : Hook}
      (hanswer : ∀ handle result, event ≠ .answer handle result)
      (hstep : TaskPoll.step s.hook event = some hook) :
      Takes payload s (.page event) { s with hook := hook }
  | serve {handle : Nat} {r : Request} (errorId : String)
      (hwait : s.hook.waiting.get? handle = some (.request r))
      (hopen : s.replies.get? handle = none) :
      Takes payload s (.serve handle errorId) { s with
        replies := s.replies.set handle (apiResult (historyResult payload errorId s.server r.path)) }
  | fail {handle : Nat} {r : Request} (error : Json)
      (hwait : s.hook.waiting.get? handle = some (.request r))
      (hopen : s.replies.get? handle = none) :
      Takes payload s (.fail handle error) { s with
        replies := s.replies.set handle ⟨none, some error⟩, failures := error :: s.failures }
  | deliver {handle : Nat} {r : Request} {result : ApiResult} {hook : Hook}
      (hreply : s.replies.get? handle = some result)
      (hwait : s.hook.waiting.get? handle = some (.request r))
      (hstep : TaskPoll.step s.hook (.answer handle result) = some hook) :
      Takes payload s (.deliver handle)
        { s with hook := hook, replies := s.replies.erase handle }

section

variable {payload : ρ → Json}

theorem unanswered_some {s : Session ρ} {handle : Nat} {r : Request}
    (h : s.unanswered handle = some r) :
    s.hook.waiting.get? handle = some (.request r) ∧ s.replies.get? handle = none := by
  unfold Session.unanswered at h
  split at h
  · next hwait hopen => exact ⟨Option.some.inj h ▸ hwait, hopen⟩
  · cases h

theorem step_takes {s s' : Session ρ} {a : Act ρ} (h : sessionStep payload s a = some s') :
    Takes payload s a s' := by
  cases a with
  | server a =>
      obtain ⟨server, hstep, rfl⟩ := Option.map_eq_some_iff.mp h
      exact .server hstep
  | page event =>
      by_cases hanswer : ∃ handle result, event = .answer handle result
      · obtain ⟨handle, result, rfl⟩ := hanswer
        cases h
      · have hstep : (TaskPoll.step s.hook event).map
            (fun hook => { s with hook := hook }) = some s' := by
          rw [← h]
          cases event with
          | answer handle result => exact absurd ⟨handle, result, rfl⟩ hanswer
          | _ => rfl
        obtain ⟨hook, hhook, rfl⟩ := Option.map_eq_some_iff.mp hstep
        exact .page (fun handle result heq => hanswer ⟨handle, result, heq⟩) hhook
  | serve handle errorId =>
      obtain ⟨r, hopen, rfl⟩ := Option.map_eq_some_iff.mp h
      exact .serve errorId (unanswered_some hopen).1 (unanswered_some hopen).2
  | fail handle error =>
      obtain ⟨r, hopen, rfl⟩ := Option.map_eq_some_iff.mp h
      exact .fail error (unanswered_some hopen).1 (unanswered_some hopen).2
  | deliver handle =>
      simp only [sessionStep] at h
      rcases hreply : s.replies.get? handle with _ | result <;> rw [hreply] at h
      · cases h
      · obtain ⟨hook, hhook, rfl⟩ := Option.map_eq_some_iff.mp h
        cases TaskPoll.step_takes hhook with
        | answer _ hwait => exact .deliver hreply hwait hhook

/-! ## 2. The invariant -/

/-- A result for a request: an error of the way, or a snapshot of the task it asks for. -/
def Told (payload : ρ → Json) (s : Session ρ) (r : Request) (result : ApiResult) : Prop :=
  (∃ error ∈ s.failures, truthy (some error) = true ∧ result = ⟨none, some error⟩) ∨
    ∃ taskId entry now, s.hook.taskIdOf r.effect = some taskId ∧
      (s.server.view taskId).entry = some now ∧ TaskSnapshots.Moves entry now ∧
      result = ⟨some (statusBody payload entry), none⟩

structure Watched (payload : ρ → Json) (s : Session ρ) : Prop where
  kept : Kept s.server
  names : ∀ taskId ∈ s.server.issued, Segment taskId
  sound : Sound s.hook
  lively : Lively s.hook
  rendered : ∀ taskId, TaskPoll.Wants s.hook taskId → Current s.server taskId
  effects : ∀ k taskId, s.hook.taskIdOf k = some taskId → Current s.server taskId
  fresh : ∀ handle result, s.replies.get? handle = some result → handle < s.hook.handles
  replies : ∀ handle r result, s.replies.get? handle = some result →
    s.hook.waiting.get? handle = some (.request r) → Told payload s r result
  answered : ∀ r result, (r, result) ∈ s.hook.answered → Told payload s r result

theorem watched_fresh (ttl : Int) : Watched payload (Session.fresh ttl) where
  kept := TaskSnapshots.kept_fresh ttl
  names _ h := absurd h List.not_mem_nil
  sound := TaskPoll.sound_start
  lively := TaskPoll.lively_start
  rendered _ h := by
    obtain ⟨deps, hdeps, -⟩ := h
    cases hdeps
  effects _ _ h := by cases h
  fresh _ _ h := by cases h
  replies _ _ _ h := by cases h
  answered _ _ h := absurd h List.not_mem_nil

/-- What has been told stays so, while entries only move and effects keep their tasks. -/
theorem Told.mono {s s' : Session ρ} (hwatched : Watched payload s)
    (hfailures : ∀ error ∈ s.failures, error ∈ s'.failures)
    (htasks : ∀ k taskId, s.hook.taskIdOf k = some taskId → s'.hook.taskIdOf k = some taskId)
    (hentry : ∀ taskId entry, Current s.server taskId → (s.server.view taskId).entry = some entry →
      ∃ entry', (s'.server.view taskId).entry = some entry' ∧ TaskSnapshots.Moves entry entry')
    {r : Request} {result : ApiResult} (h : Told payload s r result) :
    Told payload s' r result := by
  rcases h with ⟨error, hmem, hrest⟩ | ⟨taskId, entry, now, hid, hnow, hmoves, hresult⟩
  · exact .inl ⟨error, hfailures error hmem, hrest⟩
  · obtain ⟨now', hnow', hmoves'⟩ := hentry taskId now (hwatched.effects _ _ hid) hnow
    exact .inr ⟨taskId, entry, now', htasks _ _ hid, hnow', hmoves.trans hmoves', hresult⟩

/-- The same where the server stands still. -/
theorem Told.still {s s' : Session ρ} (hwatched : Watched payload s)
    (hserver : s'.server = s.server) (hfailures : ∀ error ∈ s.failures, error ∈ s'.failures)
    (htasks : ∀ k taskId, s.hook.taskIdOf k = some taskId → s'.hook.taskIdOf k = some taskId)
    {r : Request} {result : ApiResult} (h : Told payload s r result) :
    Told payload s' r result := by
  refine h.mono hwatched hfailures htasks fun taskId entry _ hentry => ⟨entry, ?_, .inl rfl⟩
  rw [hserver]
  exact hentry

theorem names_step {s s' : Server ρ} {a : ServerAct ρ} (h : ∀ taskId ∈ s.issued, Segment taskId)
    (hnames : Names a) (hstep : serverStep s a = some s') :
    ∀ taskId ∈ s'.issued, Segment taskId := by
  rcases serverStep_issued hstep with ⟨taskId, now, rfl, -, hissued, -⟩ | ⟨-, hissued, -⟩
  · rw [hissued]
    exact List.forall_mem_cons.mpr ⟨hnames, h⟩
  · rw [hissued]
    exact h

/-- A task of the current manager stays one, and its entry moves. -/
theorem entry_moves {s s' : Server ρ} {a : ServerAct ρ} (h : Kept s) (hallowed : OneManager s a)
    (hstep : serverStep s a = some s') {taskId : String} (hcurrent : Current s taskId)
    {entry : Snapshot ρ} (hentry : (s.view taskId).entry = some entry) :
    Current s' taskId ∧ ∃ entry', (s'.view taskId).entry = some entry' ∧
      TaskSnapshots.Moves entry entry' := by
  obtain ⟨hcurrent', hsame | ⟨-, hrunning, entry', hentry', hended⟩⟩ :=
    TaskSnapshots.entry_step h hallowed hstep hcurrent hentry
  · exact ⟨hcurrent', entry, hsame, .inl rfl⟩
  · exact ⟨hcurrent', entry', hentry', .inr ⟨hrunning, hended⟩⟩

theorem current_step {s s' : Server ρ} {a : ServerAct ρ} (h : Kept s) (hallowed : OneManager s a)
    (hstep : serverStep s a = some s') {taskId : String} (hcurrent : Current s taskId) :
    Current s' taskId := by
  obtain ⟨entry, hentry⟩ := Option.ne_none_iff_exists'.mp (h.current taskId hcurrent)
  exact (entry_moves h hallowed hstep hcurrent hentry).1

theorem watched_server {s : Session ρ} {a : ServerAct ρ} {server : Server ρ}
    (h : Watched payload s) (hallowed : OneManager s.server a ∧ Names a)
    (hstep : serverStep s.server a = some server) :
    Watched payload { s with server := server } := by
  obtain ⟨hmanager, hnames⟩ := hallowed
  have hcurrent : ∀ taskId, Current s.server taskId → Current server taskId :=
    fun taskId hcurrent => current_step h.kept hmanager hstep hcurrent
  have htold : ∀ r result, Told payload s r result →
      Told payload { s with server := server } r result := by
    intro r result htold
    refine htold.mono h ?_ ?_ ?_
    · exact fun _ hmem => hmem
    · exact fun _ _ hid => hid
    · intro taskId entry hcurrent hentry
      exact (entry_moves h.kept hmanager hstep hcurrent hentry).2
  exact
    { kept := TaskSnapshots.kept_step h.kept hmanager.uncancelled hstep
      names := names_step h.names hnames hstep
      sound := h.sound
      lively := h.lively
      rendered := fun taskId hwants => hcurrent taskId (h.rendered taskId hwants)
      effects := fun k taskId hid => hcurrent taskId (h.effects k taskId hid)
      fresh := h.fresh
      replies := fun handle r result hreply hwait =>
        htold r result (h.replies handle r result hreply hwait)
      answered := fun r result hmem => htold r result (h.answered r result hmem) }

/-- A step of the hook keeps the invariant, where what it is answered has been told. -/
theorem watched_hook {s : Session ρ} {event : TaskPoll.Event} {hook : Hook}
    {replies : OrderedDict Nat ApiResult} (h : Watched payload s)
    (hallowed : Allowed s (.page event)) (hstep : TaskPoll.step s.hook event = some hook)
    (hreplies : ∀ handle result, replies.get? handle = some result →
      s.replies.get? handle = some result)
    (hanswer : ∀ handle r result, event = .answer handle result →
      s.hook.waiting.get? handle = some (.request r) → Told payload s r result) :
    Watched payload { s with hook := hook, replies := replies } := by
  have hadvances := TaskPoll.advances_step h.sound hstep
  have htold : ∀ r result, Told payload s r result →
      Told payload { s with hook := hook, replies := replies } r result := by
    intro r result htold
    refine htold.still h (by rfl) ?_ hadvances.taskIdOf
    exact fun _ hmem => hmem
  refine
    { kept := h.kept
      names := h.names
      sound := TaskPoll.sound_step h.sound hstep
      lively := TaskPoll.lively_step h.sound h.lively hstep
      rendered := ?_
      effects := ?_
      fresh := fun handle result hreply => Nat.lt_of_lt_of_le
        (h.fresh handle result (hreplies handle result hreply)) hadvances.handles
      replies := ?_
      answered := ?_ }
  · rintro taskId ⟨deps, hdeps, hid⟩
    rcases hadvances.rendered with hsame | hevent
    · exact h.rendered taskId ⟨deps, hsame.symm.trans hdeps, hid⟩
    · rw [hevent deps hdeps, hid] at hallowed
      exact hallowed
  · intro k taskId hid
    rcases hadvances.begun k taskId hid with hid | hwants
    · exact h.effects k taskId hid
    · exact h.rendered taskId hwants
  · intro handle r result hreply hwait
    have hreply := hreplies handle result hreply
    have hold := hadvances.waiting handle _ hwait (h.fresh handle result hreply)
    exact htold r result (h.replies handle r result hreply hold)
  · intro r result hmem
    rcases hadvances.answered with hsame | ⟨handle, r', result', hevent, hwait, hnew⟩
    · exact htold r result (h.answered r result (hsame ▸ hmem))
    · rw [hnew] at hmem
      rcases List.mem_append.mp hmem with hmem | hmem
      · exact htold r result (h.answered r result hmem)
      · cases List.mem_singleton.mp hmem
        exact htold r result (hanswer handle r result hevent hwait)

/-- The answer of the route is told. -/
theorem told_serve {s : Session ρ} (h : Watched payload s) {handle : Nat} {r : Request}
    (hwait : s.hook.waiting.get? handle = some (.request r)) (errorId : String) :
    ∃ taskId entry, s.hook.taskIdOf r.effect = some taskId ∧
      (s.server.view taskId).entry = some entry ∧
      apiResult (historyResult payload errorId s.server r.path) =
        ⟨some (statusBody payload entry), none⟩ := by
  obtain ⟨taskId, hid, hpath⟩ := h.sound.path handle r hwait
  have hcurrent := h.effects _ _ hid
  obtain ⟨hne, hslash⟩ := h.names taskId hcurrent.1
  obtain ⟨entry, hentry, hstatus⟩ := h.kept.statusOf hcurrent
  refine ⟨taskId, entry, hid, hentry, ?_⟩
  rw [hpath]
  exact apiResult_historyResult payload errorId hne hslash hstatus

theorem get?_replies {replies : OrderedDict Nat ApiResult} {handle handle' : Nat}
    {result result' : ApiResult}
    (h : (replies.set handle result).get? handle' = some result') :
    handle' = handle ∧ result' = result ∨ replies.get? handle' = some result' := by
  by_cases hsame : handle' = handle
  · rw [hsame, OrderedDict.get?_set_self, Option.some.injEq] at h
    exact .inl ⟨hsame, h.symm⟩
  · exact .inr (OrderedDict.get?_set_ne replies result hsame ▸ h)

/-- A request gets a reply. -/
theorem watched_reply {s : Session ρ} (h : Watched payload s) {handle : Nat} {r : Request}
    (hwait : s.hook.waiting.get? handle = some (.request r)) {result : ApiResult}
    {failures : List Json} (hfailures : ∀ error ∈ s.failures, error ∈ failures)
    (htold : Told payload { s with failures := failures } r result) :
    Watched payload
      { s with replies := s.replies.set handle result, failures := failures } := by
  have hkept : ∀ r' result', Told payload s r' result' → Told payload
      { s with replies := s.replies.set handle result, failures := failures } r' result' := by
    intro r' result' htold'
    refine htold'.still h (by rfl) hfailures ?_
    exact fun _ _ hid => hid
  refine
    { kept := h.kept
      names := h.names
      sound := h.sound
      lively := h.lively
      rendered := h.rendered
      effects := h.effects
      fresh := ?_
      replies := ?_
      answered := fun r' result' hmem => hkept r' result' (h.answered r' result' hmem) }
  · intro handle' result' hreply
    rcases get?_replies hreply with ⟨rfl, -⟩ | hreply
    · exact h.sound.fresh handle' _ hwait
    · exact h.fresh handle' result' hreply
  · intro handle' r' result' hreply hwait'
    rcases get?_replies hreply with ⟨rfl, rfl⟩ | hreply
    · cases hwait.symm.trans hwait'
      exact htold
    · exact hkept r' result' (h.replies handle' r' result' hreply hwait')

theorem erase_replies {replies : OrderedDict Nat ApiResult} {handle handle' : Nat}
    {result : ApiResult} (h : (replies.erase handle).get? handle' = some result) :
    replies.get? handle' = some result := by
  by_cases hsame : handle' = handle
  · rw [hsame, OrderedDict.get?_erase_self] at h
    cases h
  · exact OrderedDict.get?_erase_ne replies hsame ▸ h

theorem watched_step {s s' : Session ρ} {a : Act ρ} (h : Watched payload s) (hallowed : Allowed s a)
    (hstep : sessionStep payload s a = some s') : Watched payload s' := by
  cases step_takes hstep with
  | server hserver => exact watched_server h hallowed hserver
  | page hanswer hpage =>
      refine watched_hook h hallowed hpage (fun _ _ hreply => hreply) ?_
      intro handle r result hevent
      exact absurd hevent (hanswer handle result)
  | serve errorId hwait =>
      obtain ⟨taskId, entry, hid, hentry, hresult⟩ := told_serve h hwait errorId
      refine watched_reply h hwait (fun _ hmem => hmem) (.inr ?_)
      exact ⟨taskId, entry, entry, hid, hentry, .inl rfl, hresult⟩
  | fail error hwait =>
      refine watched_reply h hwait (fun _ hmem => List.mem_cons_of_mem _ hmem) (.inl ?_)
      exact ⟨error, List.mem_cons_self, hallowed, rfl⟩
  | @deliver handle r result hook hreply hwait hhook =>
      have hanswer : Allowed s (.page (.answer handle result)) := trivial
      refine watched_hook h hanswer hhook (fun _ _ hreply => erase_replies hreply) ?_
      intro handle' r' result' hevent hwait'
      cases hevent
      exact h.replies handle r' result hreply hwait'

theorem watched_reaches {ttl : Int} {s : Session ρ}
    (h : Reaches (sessionStep payload) Allowed (.fresh ttl) s) : Watched payload s :=
  h.invariant (watched_fresh ttl) fun _ _ _ hinv hallowed hstep => watched_step hinv hallowed hstep

/-! ## 3. What is shown -/

theorem ends_snapshot (entry : Snapshot ρ) :
    Hook.ends ⟨some (statusBody payload entry), none⟩ = true ↔ entry.status ≠ .running :=
  isTerminal_statusBody payload entry

theorem ends_failure {error : Json} (h : truthy (some error) = true) :
    Hook.ends ⟨none, some error⟩ = true := by
  simp only [Hook.ends, h, Bool.true_or]

/-- What is shown of a task is a snapshot that has become the present one, or is it still. -/
theorem shown_truthful {s : Session ρ} (h : Watched payload s) :
    s.hook.status = none ∨ ∃ k taskId entry now, s.hook.current = some k ∧
      s.hook.taskIdOf k = some taskId ∧ s.hook.status = some (statusBody payload entry) ∧
      s.server.manager.statusOf s.server.dir taskId = .ok now ∧
      TaskSnapshots.Moves entry now := by
  rcases h.sound.status with hnone | ⟨r, result, hmem, hcurrent, hstatus⟩
  · exact .inl hnone
  rcases h.answered r result hmem with ⟨error, -, -, rfl⟩ | ⟨taskId, entry, now, hid, hnow, hmoves, rfl⟩
  · exact .inl hstatus
  · exact .inr ⟨r.effect, taskId, entry, now, hcurrent, hid, hstatus,
      TaskSnapshots.statusOf_of_mem hnow, hmoves⟩

theorem error_truthful {s : Session ρ} (h : Watched payload s) :
    s.hook.error = none ∨ ∃ error ∈ s.failures, s.hook.error = some error := by
  rcases h.sound.error with hnone | ⟨r, result, hmem, -, herror⟩
  · exact .inl hnone
  rcases h.answered r result hmem with ⟨error, hfailure, -, rfl⟩ | ⟨taskId, entry, now, -, -, -, rfl⟩
  · exact .inr ⟨error, hfailure, herror⟩
  · exact .inl herror

/-- A step of the session is a step of the hook, or leaves it. -/
theorem hook_step {s s' : Session ρ} {a : Act ρ} (h : sessionStep payload s a = some s') :
    s'.hook = s.hook ∨ ∃ event, TaskPoll.step s.hook event = some s'.hook := by
  cases step_takes h with
  | server => exact .inl rfl
  | page _ hpage => exact .inr ⟨_, hpage⟩
  | serve => exact .inl rfl
  | fail => exact .inl rfl
  | deliver _ _ hhook => exact .inr ⟨_, hhook⟩

/-- The current effect of a later state was the current one before. -/
theorem current_before {s s' : Session ρ} {a : Act ρ} (h : Watched payload s)
    (hstep : sessionStep payload s a = some s') {k : Nat} (hlt : k < s.hook.effects.length)
    (hcurrent : s'.hook.current = some k) : s.hook.current = some k := by
  rcases hook_step hstep with hsame | ⟨event, hhook⟩
  · exact hsame ▸ hcurrent
  · exact TaskPoll.current_before h.sound hhook hlt hcurrent

theorem effects_grow {s s' : Session ρ} {a : Act ρ} (h : Watched payload s)
    (hstep : sessionStep payload s a = some s') {k : Nat} {taskId : String}
    (hid : s.hook.taskIdOf k = some taskId) : s'.hook.taskIdOf k = some taskId := by
  rcases hook_step hstep with hsame | ⟨event, hhook⟩
  · exact hsame ▸ hid
  · exact (TaskPoll.advances_step h.sound hhook).taskIdOf k taskId hid

theorem lt_of_taskIdOf {hook : Hook} {k : Nat} {taskId : String}
    (hid : hook.taskIdOf k = some taskId) : k < hook.effects.length := by
  obtain ⟨e, he, -⟩ := Option.map_eq_some_iff.mp hid
  exact (List.getElem?_eq_some_iff.mp he).1

theorem ended_step {s s' : Session ρ} {a : Act ρ} (h : Watched payload s)
    (hstep : sessionStep payload s a = some s') {k : Nat} (hended : TaskPoll.Ended s.hook k) :
    TaskPoll.Ended s'.hook k := by
  rcases hook_step hstep with hsame | ⟨event, hhook⟩
  · exact hsame ▸ hended
  · exact TaskPoll.ended_step h.sound hhook hended

/-- An end that is shown stays, in any continuation with the same effect. -/
theorem shown_reaches {s s' : Session ρ} (h : Watched payload s)
    (hreach : Reaches (sessionStep payload) Allowed s s') {k : Nat} {taskId : String}
    (hid : s.hook.taskIdOf k = some taskId) (hended : TaskPoll.Ended s.hook k) :
    Watched payload s' ∧ s'.hook.taskIdOf k = some taskId ∧ TaskPoll.Ended s'.hook k ∧
      (s'.hook.current = some k →
        s'.hook.status = s.hook.status ∧ s'.hook.error = s.hook.error) := by
  induction hreach with
  | start => exact ⟨h, hid, hended, fun _ => ⟨rfl, rfl⟩⟩
  | step _ hallowed hstep ih =>
      obtain ⟨hwatched, hid', hended', hshown⟩ := ih
      refine ⟨watched_step hwatched hallowed hstep, effects_grow hwatched hstep hid',
        ended_step hwatched hstep hended', fun hcurrent => ?_⟩
      have hbefore := current_before hwatched hstep (lt_of_taskIdOf hid') hcurrent
      obtain ⟨hstatus, herror⟩ := hshown hbefore
      rcases hook_step hstep with hsame | ⟨event, hhook⟩
      · rw [hsame]
        exact ⟨hstatus, herror⟩
      · obtain ⟨hstatus', herror'⟩ :=
          TaskPoll.shown_kept hwatched.sound hhook hended' hbefore hcurrent
        exact ⟨hstatus'.trans hstatus, herror'.trans herror⟩

/-- A terminal status that is shown comes from the answer that has ended the effect. -/
theorem ended_of_shown {s : Session ρ} (h : Watched payload s) {k : Nat}
    (hcurrent : s.hook.current = some k)
    (hterminal : isTerminal (Api.member s.hook.status "status") = true) :
    TaskPoll.Ended s.hook k := by
  rcases h.sound.status with hnone | ⟨r, result, hmem, hcurrent', hstatus⟩
  · rw [hnone] at hterminal
    cases hterminal
  have heffect := Option.some.inj (hcurrent'.symm.trans hcurrent)
  refine ⟨r, result, hmem, heffect, ?_⟩
  rcases h.answered r result hmem with ⟨error, -, htruthy, rfl⟩ | ⟨_, entry, _, -, -, -, rfl⟩
  · exact ends_failure htruthy
  · rw [hstatus] at hterminal
    exact hterminal

/-! ## 4. What is left to do -/

/-- The events of the effect that are still to come, once its task's job has ended. -/
inductive Left (s : Session ρ) (k : Nat) : Nat → Prop
  | finished (hended : TaskPoll.Ended s.hook k) : Left s k 0
  | arriving {handle : Nat} {r : Request} {result : ApiResult}
      (hwait : s.hook.waiting.get? handle = some (.request r)) (heffect : r.effect = k)
      (hreply : s.replies.get? handle = some result) (hends : Hook.ends result = true) :
      Left s k 1
  | asked {handle : Nat} {r : Request}
      (hwait : s.hook.waiting.get? handle = some (.request r)) (heffect : r.effect = k)
      (hreply : s.replies.get? handle = none) : Left s k 2
  | resting {handle : Nat} (hwait : s.hook.waiting.get? handle = some (.timer k)) : Left s k 3
  /-- The answer on its way was given before the job ended. -/
  | stale {handle : Nat} {r : Request} {result : ApiResult}
      (hwait : s.hook.waiting.get? handle = some (.request r)) (heffect : r.effect = k)
      (hreply : s.replies.get? handle = some result) (hends : Hook.ends result = false) :
      Left s k 4

theorem left_exists {s : Session ρ} (h : Watched payload s) {k : Nat}
    (hcurrent : s.hook.current = some k) : ∃ n, n ≤ 4 ∧ Left s k n := by
  rcases h.lively.going k hcurrent with ⟨handle, w, hwait, heffect⟩ | hended
  · cases w with
    | timer k' =>
        cases heffect
        exact ⟨3, by decide, .resting hwait⟩
    | request r =>
        rcases hreply : s.replies.get? handle with _ | result
        · exact ⟨2, by decide, .asked hwait heffect hreply⟩
        · by_cases hends : Hook.ends result = true
          · exact ⟨1, by decide, .arriving hwait heffect hreply hends⟩
          · exact ⟨4, by decide, .stale hwait heffect hreply (Bool.eq_false_iff.mpr hends)⟩
  · exact ⟨0, by decide, .finished hended⟩

/-- An event that the effect is waiting for, or that the request it is waiting for is. -/
def Own (k : Nat) (s : Session ρ) (a : Act ρ) : Prop :=
  s.hook.current = some k ∧ ∃ handle w, s.hook.waiting.get? handle = some w ∧ w.effect = k ∧
    (a = .page (.fire handle) ∨ (∃ errorId, a = .serve handle errorId) ∨
      (∃ error, a = .fail handle error) ∨ a = .deliver handle)

/-- The session, once the job of the effect's task has ended. -/
structure Ending (payload : ρ → Json) (k : Nat) (taskId : String) (outcome : JobEnd ρ)
    (s : Session ρ) : Prop where
  watched : Watched payload s
  task : s.hook.taskIdOf k = some taskId
  outcome : s.server.outcomes.get? taskId = some outcome

/-- An outcome is never replaced. -/
theorem outcome_kept {s s' : Server ρ} {a : ServerAct ρ} (h : Kept s)
    (hstep : serverStep s a = some s') {taskId : String} {outcome : JobEnd ρ}
    (houtcome : s.outcomes.get? taskId = some outcome) :
    s'.outcomes.get? taskId = some outcome := by
  have hphase := h.phase taskId
  have hadvance := serverStep_view hstep taskId
  have hview : (s.view taskId).outcome = some outcome := houtcome
  change (s'.view taskId).outcome = some outcome
  generalize s.view taskId = v at *
  generalize s'.view taskId = v' at *
  cases hadvance with
  | finish =>
      cases hphase with
      | pending => cases hview
      | ended hstage => rcases hstage _ rfl with h | h | h <;> cases h
  | _ => exact hview

theorem ending_step {s s' : Session ρ} {a : Act ρ} {k : Nat} {taskId : String}
    {outcome : JobEnd ρ} (h : Ending payload k taskId outcome s) (hallowed : Allowed s a)
    (hstep : sessionStep payload s a = some s') : Ending payload k taskId outcome s' where
  watched := watched_step h.watched hallowed hstep
  task := effects_grow h.watched hstep h.task
  outcome := by
    cases step_takes hstep with
    | server hserver => exact outcome_kept h.watched.kept hserver h.outcome
    | _ => exact h.outcome

/-- The entry of a task whose job has ended reports its outcome. -/
theorem Ending.reports {s : Session ρ} {k : Nat} {taskId : String} {outcome : JobEnd ρ}
    (h : Ending payload k taskId outcome s) {entry : Snapshot ρ}
    (hentry : (s.server.view taskId).entry = some entry) : Reports outcome entry := by
  have hagrees := ((h.watched.kept.phase taskId).agrees hentry).1
  have houtcome : (s.server.view taskId).outcome = some outcome := h.outcome
  rw [houtcome] at hagrees
  exact hagrees

/-- What the server answers now ends the effect. -/
theorem Ending.serve_ends {s : Session ρ} {k : Nat} {taskId : String} {outcome : JobEnd ρ}
    (h : Ending payload k taskId outcome s) {handle : Nat} {r : Request}
    (hwait : s.hook.waiting.get? handle = some (.request r)) (heffect : r.effect = k)
    (errorId : String) :
    Hook.ends (apiResult (historyResult payload errorId s.server r.path)) = true := by
  obtain ⟨other, entry, hid, hentry, hresult⟩ := told_serve h.watched hwait errorId
  rw [heffect, h.task, Option.some.injEq] at hid
  subst hid
  rw [hresult, ends_snapshot]
  exact TaskSnapshots.reports_terminal (h.reports hentry)

/-- An answer that does not end the live effect sets its timer. -/
theorem resting_deliver {s : Session ρ} (h : Watched payload s) {handle : Nat} {r : Request}
    {result : ApiResult} {hook : Hook} (hcurrent : s.hook.current = some r.effect)
    (hwait : s.hook.waiting.get? handle = some (.request r))
    (hstep : TaskPoll.step s.hook (.answer handle result) = some hook)
    (hends : Hook.ends result = false) :
    ∃ next, hook.waiting.get? next = some (.timer r.effect) := by
  have hlt := h.sound.inRange _ hcurrent
  have he : s.hook.effects[r.effect]? = some s.hook.effects[r.effect] :=
    List.getElem?_eq_getElem hlt
  have hlive := (h.sound.live _ _ he).mpr hcurrent
  have hresume := @TaskPoll.resume_live (s.hook.arrive handle r result) r.effect _ he hlive result
  rw [hends, if_neg Bool.false_ne_true] at hresume
  cases TaskPoll.step_takes hstep with
  | answer _ hwait' =>
      cases hwait.symm.trans hwait'
      rw [hresume]
      exact ⟨_, OrderedDict.get?_set_self _ _ _⟩

/-- An answer that ends an effect has ended it. -/
theorem ended_deliver {s : Session ρ} {handle : Nat} {r : Request}
    {result : ApiResult} {hook : Hook}
    (hwait : s.hook.waiting.get? handle = some (.request r))
    (hstep : TaskPoll.step s.hook (.answer handle result) = some hook)
    (hends : Hook.ends result = true) : TaskPoll.Ended hook r.effect := by
  cases TaskPoll.step_takes hstep with
  | answer _ hwait' =>
      cases hwait.symm.trans hwait'
      obtain ⟨-, -, hanswered, -⟩ :=
        TaskPoll.resume_frame (s.hook.arrive handle r result) r.effect result
      refine ⟨r, result, ?_, rfl, hends⟩
      rw [hanswered]
      exact List.mem_append_right _ (List.mem_singleton.mpr rfl)

/-- A timer of the live effect sends a request, which has no reply yet. -/
theorem asked_fire {s : Session ρ} (h : Watched payload s) {handle k : Nat} {hook : Hook}
    (hwait : s.hook.waiting.get? handle = some (.timer k))
    (hstep : TaskPoll.step s.hook (.fire handle) = some hook) :
    Left { s with hook := hook } k 2 := by
  obtain ⟨hcurrent, e, he, -⟩ := h.sound.timer handle k hwait
  have hlive := (h.sound.live k e he).mpr hcurrent
  have hreply : s.replies.get? s.hook.handles = none := by
    rcases hreply : s.replies.get? s.hook.handles with _ | result
    · rfl
    · exact absurd (h.fresh _ result hreply) (Nat.lt_irrefl _)
  cases TaskPoll.step_takes hstep with
  | fire hwait' =>
      cases hwait.symm.trans hwait'
      have htick : (s.hook.remove handle).tick k =
          (s.hook.remove handle).request ⟨k, resultPath e.taskId⟩ := by
        simp only [Hook.tick, Hook.remove, he, hlive, Bool.false_eq_true, if_false]
      refine @Left.asked ρ _ k s.hook.handles ⟨k, resultPath e.taskId⟩ ?_ rfl hreply
      rw [htick]
      exact OrderedDict.get?_set_self _ _ _

/-- What an event can do with a request: give it a reply, or deliver that. -/
theorem request_step {s s' : Session ρ} {a : Act ρ} {handle : Nat} {r : Request}
    (hwait : s.hook.waiting.get? handle = some (.request r))
    (hevent : a = .page (.fire handle) ∨ (∃ errorId, a = .serve handle errorId) ∨
      (∃ error, a = .fail handle error) ∨ a = .deliver handle)
    (hstep : sessionStep payload s a = some s') :
    (∃ result, s.replies.get? handle = none ∧ s'.hook = s.hook ∧
      s'.replies.get? handle = some result ∧
      ((∃ errorId, result = apiResult (historyResult payload errorId s.server r.path)) ∨
        ∃ error, a = .fail handle error ∧ result = ⟨none, some error⟩)) ∨
    ∃ result, s.replies.get? handle = some result ∧
      TaskPoll.step s.hook (.answer handle result) = some s'.hook := by
  have htakes := step_takes hstep
  rcases hevent with rfl | ⟨errorId, rfl⟩ | ⟨error, rfl⟩ | rfl
  · cases htakes with
    | page _ hpage =>
        cases TaskPoll.step_takes hpage with
        | fire hwait' => cases hwait.symm.trans hwait'
  · cases htakes with
    | serve _ hwait' hopen =>
        cases hwait.symm.trans hwait'
        exact .inl ⟨_, hopen, rfl, OrderedDict.get?_set_self _ _ _, .inl ⟨errorId, rfl⟩⟩
  · cases htakes with
    | fail _ _ hopen =>
        exact .inl ⟨_, hopen, rfl, OrderedDict.get?_set_self _ _ _, .inr ⟨error, rfl, rfl⟩⟩
  · cases htakes with
    | deliver hreply _ hhook => exact .inr ⟨_, hreply, hhook⟩

/-- **An event of the effect takes one from what is left.** -/
theorem left_own {s s' : Session ρ} {a : Act ρ} {k n : Nat} {taskId : String}
    {outcome : JobEnd ρ} (h : Ending payload k taskId outcome s) (hleft : Left s k n)
    (hallowed : Allowed s a) (hown : Own k s a) (hstep : sessionStep payload s a = some s') :
    ∃ m, n = m + 1 ∧ Left s' k m := by
  obtain ⟨hcurrent, other, w, hother, hw, hevent⟩ := hown
  have hsound := h.watched.sound
  -- What the effect awaits is what the event is about.
  have hsame : ∀ handle w', s.hook.waiting.get? handle = some w' → w'.effect = k →
      other = handle := by
    intro handle w' hwait heffect
    exact hsound.single other handle w w' hother hwait (hw.symm ▸ hcurrent)
      (heffect.trans hw.symm)
  cases hleft with
  | finished hended =>
      obtain ⟨r, result, hmem, heffect, hends⟩ := hended
      have hgoing := hsound.going other w hother (hw.symm ▸ hcurrent) r result hmem
        (heffect.trans hw.symm)
      cases hgoing.symm.trans hends
  | @arriving handle r result hwait heffect hreply hends =>
      cases hsame handle _ hwait heffect
      rcases request_step hwait hevent hstep with ⟨_, hopen, -⟩ | ⟨_, hreply', hhook⟩
      · cases hreply.symm.trans hopen
      · cases hreply.symm.trans hreply'
        exact ⟨0, rfl, .finished (heffect ▸ ended_deliver hwait hhook hends)⟩
  | @asked handle r hwait heffect hreply =>
      cases hsame handle _ hwait heffect
      rcases request_step hwait hevent hstep with ⟨result, -, hhook, hgiven, hresult⟩ | ⟨_, hreply', -⟩
      · refine ⟨1, rfl, .arriving (hhook ▸ hwait) heffect hgiven ?_⟩
        rcases hresult with ⟨errorId, rfl⟩ | ⟨error, rfl, rfl⟩
        · exact h.serve_ends hwait heffect errorId
        · exact ends_failure hallowed
      · cases hreply.symm.trans hreply'
  | @resting handle hwait =>
      cases hsame handle _ hwait rfl
      have htakes := step_takes hstep
      rcases hevent with rfl | ⟨errorId, rfl⟩ | ⟨error, rfl⟩ | rfl
      · cases htakes with
        | page _ hpage => exact ⟨2, rfl, asked_fire h.watched hwait hpage⟩
      · cases htakes with
        | serve _ hwait' => cases hwait.symm.trans hwait'
      · cases htakes with
        | fail _ hwait' => cases hwait.symm.trans hwait'
      · cases htakes with
        | deliver _ hwait' => cases hwait.symm.trans hwait'
  | @stale handle r result hwait heffect hreply hends =>
      cases hsame handle _ hwait heffect
      rcases request_step hwait hevent hstep with ⟨_, hopen, -⟩ | ⟨_, hreply', hhook⟩
      · cases hreply.symm.trans hopen
      · cases hreply.symm.trans hreply'
        obtain ⟨next, hnext⟩ :=
          resting_deliver h.watched (heffect.symm ▸ hcurrent) hwait hhook hends
        exact ⟨3, rfl, .resting (heffect ▸ hnext)⟩

/-- What the effect awaits is not touched by the events of others. -/
theorem other_keeps {s s' : Session ρ} {a : Act ρ} {handle : Nat} {w : Wait}
    (h : Watched payload s) (hwait : s.hook.waiting.get? handle = some w)
    (hcurrent : s.hook.current = some w.effect) (hcurrent' : s'.hook.current = some w.effect)
    (hother : ¬ Own w.effect s a) (hstep : sessionStep payload s a = some s') :
    s'.hook.waiting.get? handle = some w ∧
      s'.replies.get? handle = s.replies.get? handle := by
  have hevent : ∀ a', (a' = .page (.fire handle) ∨ (∃ errorId, a' = .serve handle errorId) ∨
      (∃ error, a' = .fail handle error) ∨ a' = .deliver handle) → a ≠ a' := by
    rintro a' hevent rfl
    exact hother ⟨hcurrent, handle, w, hwait, rfl, hevent⟩
  cases step_takes hstep with
  | server => exact ⟨hwait, rfl⟩
  | @page event hook hanswer hpage =>
      refine ⟨TaskPoll.wait_kept h.sound hpage hwait hcurrent hcurrent' (hanswer handle) ?_, rfl⟩
      rintro rfl
      exact hevent _ (.inl rfl) rfl
  | @serve other r errorId =>
      have hne : handle ≠ other := by
        rintro rfl
        exact hevent _ (.inr (.inl ⟨errorId, rfl⟩)) rfl
      exact ⟨hwait, OrderedDict.get?_set_ne _ _ hne⟩
  | @fail other r error =>
      have hne : handle ≠ other := by
        rintro rfl
        exact hevent _ (.inr (.inr (.inl ⟨error, rfl⟩))) rfl
      exact ⟨hwait, OrderedDict.get?_set_ne _ _ hne⟩
  | @deliver other r result hook _ _ hhook =>
      have hne : handle ≠ other := by
        rintro rfl
        exact hevent _ (.inr (.inr (.inr rfl))) rfl
      refine ⟨TaskPoll.wait_kept h.sound hhook hwait hcurrent hcurrent' ?_ ?_,
        OrderedDict.get?_erase_ne _ hne⟩
      · intro result' heq
        cases heq
        exact hne rfl
      · intro heq
        cases heq

/-- **No other event changes what is left**, while the effect is the current one. -/
theorem left_other {s s' : Session ρ} {a : Act ρ} {k n : Nat} (h : Watched payload s)
    (hleft : Left s k n) (hcurrent : s.hook.current = some k)
    (hcurrent' : s'.hook.current = some k) (hother : ¬ Own k s a)
    (hstep : sessionStep payload s a = some s') : Left s' k n := by
  cases hleft with
  | finished hended => exact .finished (ended_step h hstep hended)
  | arriving hwait heffect hreply hends =>
      subst heffect
      obtain ⟨hwait', hreplies⟩ := other_keeps h hwait hcurrent hcurrent' hother hstep
      exact .arriving hwait' rfl (hreplies.trans hreply) hends
  | asked hwait heffect hreply =>
      subst heffect
      obtain ⟨hwait', hreplies⟩ := other_keeps h hwait hcurrent hcurrent' hother hstep
      exact .asked hwait' rfl (hreplies.trans hreply)
  | resting hwait =>
      exact .resting (other_keeps h hwait hcurrent hcurrent' hother hstep).1
  | stale hwait heffect hreply hends =>
      subst heffect
      obtain ⟨hwait', hreplies⟩ := other_keeps h hwait hcurrent hcurrent' hother hstep
      exact .stale hwait' rfl (hreplies.trans hreply) hends

/-- As long as something is left, one of the effect's events can occur. -/
theorem left_enabled {s : Session ρ} {k n : Nat} (hleft : Left s k (n + 1))
    (hcurrent : s.hook.current = some k) :
    ∃ a s', Allowed s a ∧ Own k s a ∧ sessionStep payload s a = some s' := by
  have hdeliver : ∀ {handle : Nat} {r : Request} {result : ApiResult},
      s.hook.waiting.get? handle = some (.request r) → r.effect = k →
      s.replies.get? handle = some result →
      ∃ a s', Allowed s a ∧ Own k s a ∧ sessionStep payload s a = some s' := by
    intro handle r result hwait heffect hreply
    obtain ⟨s', hstep⟩ : ∃ s', sessionStep payload s (.deliver handle) = some s' := by
      simp only [sessionStep, hreply, TaskPoll.step, hwait, Option.map_some]
      exact ⟨_, rfl⟩
    exact ⟨.deliver handle, s', trivial,
      ⟨hcurrent, handle, .request r, hwait, heffect, .inr (.inr (.inr rfl))⟩, hstep⟩
  cases hleft with
  | arriving hwait heffect hreply => exact hdeliver hwait heffect hreply
  | @asked handle r hwait heffect hreply =>
      obtain ⟨s', hstep⟩ : ∃ s', sessionStep payload s (.serve handle "") = some s' := by
        simp only [sessionStep, Session.unanswered, hwait, hreply, Option.map_some]
        exact ⟨_, rfl⟩
      exact ⟨.serve handle "", s', trivial,
        ⟨hcurrent, handle, .request r, hwait, heffect, .inr (.inl ⟨"", rfl⟩)⟩, hstep⟩
  | @resting handle hwait =>
      obtain ⟨s', hstep⟩ : ∃ s', sessionStep payload s (.page (.fire handle)) = some s' := by
        simp only [sessionStep, TaskPoll.step, hwait, Option.map_some]
        exact ⟨_, rfl⟩
      exact ⟨.page (.fire handle), s', trivial,
        ⟨hcurrent, handle, .timer k, hwait, rfl, .inl rfl⟩, hstep⟩
  | stale hwait heffect hreply => exact hdeliver hwait heffect hreply

/-- The outcome is shown, or an error of the way. -/
def Concluded (payload : ρ → Json) (s : Session ρ) (outcome : JobEnd ρ) : Prop :=
  (∃ entry, Reports outcome entry ∧ s.hook.status = some (statusBody payload entry)) ∨
    ∃ error ∈ s.failures, s.hook.error = some error

theorem Ending.concluded {s : Session ρ} {k : Nat} {taskId : String} {outcome : JobEnd ρ}
    (h : Ending payload k taskId outcome s) (hcurrent : s.hook.current = some k)
    (hended : TaskPoll.Ended s.hook k) : Concluded payload s outcome := by
  obtain ⟨r, result, hmem, heffect, hends⟩ := hended
  have hshows := h.watched.lively.shown r result hmem (heffect.symm ▸ hcurrent) hends
  rcases h.watched.answered r result hmem with
    ⟨error, hfailure, htruthy, rfl⟩ | ⟨other, entry, now, hid, hnow, hmoves, rfl⟩
  · exact .inr ⟨error, hfailure, hshows.1 htruthy⟩
  · rw [heffect, h.task, Option.some.injEq] at hid
    subst hid
    -- A terminal entry does not move any more, so that it is the present one.
    rcases hmoves with rfl | ⟨hrunning, -⟩
    · exact .inl ⟨now, h.reports hnow, hshows.2 rfl⟩
    · exact absurd hrunning ((ends_snapshot entry).mp hends)

/-! ## 5. What the page shows, in every run -/

/-- What holds of the page in a state and its whole future. -/
structure Truthful (payload : ρ → Json) (s : Session ρ) : Prop where
  /-- A status is a snapshot of the task of the current effect, the present one or, if the task
      has ended since, that of the running task. -/
  shown : s.hook.status = none ∨ ∃ k taskId entry now, s.hook.current = some k ∧
    s.hook.taskIdOf k = some taskId ∧ s.hook.status = some (statusBody payload entry) ∧
    s.server.manager.statusOf s.server.dir taskId = .ok now ∧ TaskSnapshots.Moves entry now
  /-- The server gives no error: what is shown as one has come about on the way. -/
  error : s.hook.error = none ∨ ∃ error ∈ s.failures, s.hook.error = some error
  /-- A terminal status stays as long as its effect. -/
  stays : ∀ k s', s.hook.current = some k → Reaches (sessionStep payload) Allowed s s' →
    s'.hook.current = some k → isTerminal (Api.member s.hook.status "status") = true →
    s'.hook.status = s.hook.status ∧ s'.hook.error = s.hook.error
  /-- When the job has ended, at most four events of its effect are left, of which one can always
      occur; then the page shows the outcome, or an error of the way. -/
  arrives : ∀ k taskId outcome, s.hook.current = some k → s.hook.taskIdOf k = some taskId →
    s.server.outcomes.get? taskId = some outcome → ∃ bound, bound ≤ 4 ∧
      ∀ count s', ReachesIn (sessionStep payload) Allowed (Own k) s count s' →
        s'.hook.current = some k → count ≤ bound ∧
          (count = bound → Concluded payload s' outcome) ∧
          (count < bound →
            ∃ a s'', Allowed s' a ∧ Own k s' a ∧ sessionStep payload s' a = some s'')

/-- The rank: what is left, as long as the effect is the current one. -/
def Remains (payload : ρ → Json) (k : Nat) (taskId : String) (outcome : JobEnd ρ) (s : Session ρ)
    (n : Nat) : Prop :=
  Ending payload k taskId outcome s ∧ (s.hook.current = some k → Left s k n)

theorem remains_reaches {s s' : Session ρ} {k count n : Nat} {taskId : String}
    {outcome : JobEnd ρ} (h : Remains payload k taskId outcome s n)
    (hreach : ReachesIn (sessionStep payload) Allowed (Own k) s count s') :
    ∃ m, n = m + count ∧ Remains payload k taskId outcome s' m := by
  refine hreach.rank ?_ ?_ h
  · rintro s a s' n ⟨hending, hleft⟩ hallowed hown hstep
    obtain ⟨m, hm, hleft'⟩ := left_own hending (hleft hown.1) hallowed hown hstep
    exact ⟨m, hm, ending_step hending hallowed hstep, fun _ => hleft'⟩
  · rintro s a s' n ⟨hending, hleft⟩ hallowed hown hstep
    refine ⟨ending_step hending hallowed hstep, fun hcurrent' => ?_⟩
    have hcurrent := current_before hending.watched hstep (lt_of_taskIdOf hending.task) hcurrent'
    exact left_other hending.watched (hleft hcurrent) hcurrent hcurrent' hown hstep

/-- **The page tells the truth about its task**, in every run of any number of tasks and
    requests. -/
theorem watched_truthfully {ttl : Int} {s : Session ρ}
    (h : Reaches (sessionStep payload) Allowed (.fresh ttl) s) : Truthful payload s := by
  have hwatched := watched_reaches h
  refine
    { shown := shown_truthful hwatched
      error := error_truthful hwatched
      stays := ?_
      arrives := ?_ }
  · intro k s' hcurrent hreach hcurrent' hterminal
    have hended := ended_of_shown hwatched hcurrent hterminal
    obtain ⟨e, he⟩ : ∃ e, s.hook.effects[k]? = some e :=
      ⟨_, List.getElem?_eq_getElem (hwatched.sound.inRange k hcurrent)⟩
    have hid : s.hook.taskIdOf k = some e.taskId := Option.map_eq_some_iff.mpr ⟨e, he, rfl⟩
    exact (shown_reaches hwatched hreach hid hended).2.2.2 hcurrent'
  · intro k taskId outcome hcurrent hid houtcome
    obtain ⟨bound, hbound, hleft⟩ := left_exists hwatched hcurrent
    refine ⟨bound, hbound, fun count s' hreach hcurrent' => ?_⟩
    have hstart : Remains payload k taskId outcome s bound :=
      ⟨⟨hwatched, hid, houtcome⟩, fun _ => hleft⟩
    obtain ⟨m, hm, hending, hleft'⟩ := remains_reaches hstart hreach
    refine ⟨by omega, fun hcount => ?_, fun hcount => ?_⟩
    · have hzero : m = 0 := by omega
      subst hzero
      cases hleft' hcurrent' with
      | finished hended => exact hending.concluded hcurrent' hended
    · obtain ⟨m', rfl⟩ := Nat.exists_eq_succ_of_ne_zero (show m ≠ 0 by omega)
      exact left_enabled (hleft' hcurrent') hcurrent'

end

instance (taskId : String) : Decidable (Segment taskId) := inferInstanceAs (Decidable (_ ∧ _))

instance : (a : ServerAct ρ) → Decidable (Names a)
  | .submit taskId _ => inferInstanceAs (Decidable (Segment taskId))
  | .start _ => .isTrue trivial
  | .drop _ => .isTrue trivial
  | .finish _ _ _ => .isTrue trivial
  | .openFile _ => .isTrue trivial
  | .writeFile _ => .isTrue trivial
  | .failWrite _ => .isTrue trivial
  | .cleanupExpired _ => .isTrue trivial
  | .restart => .isTrue trivial

instance (s : Server ρ) : (a : ServerAct ρ) → Decidable (OneManager s a)
  | .restart => .isFalse id
  | .drop _ => .isFalse id
  | .finish _ _ (.raised e) => inferInstanceAs (Decidable (e.isException = true))
  | .finish _ _ (.returned _) => .isTrue trivial
  | .submit _ _ => .isTrue trivial
  | .start _ => .isTrue trivial
  | .openFile _ => .isTrue trivial
  | .writeFile _ => .isTrue trivial
  | .failWrite _ => .isTrue trivial
  | .cleanupExpired _ => .isTrue trivial

instance (s : Session ρ) : (a : Act ρ) → Decidable (Allowed s a)
  | .server _ => inferInstanceAs (Decidable (_ ∧ _))
  | .page (.render (some _) _) => inferInstanceAs (Decidable (_ ∧ _))
  | .page (.render none _) => .isTrue trivial
  | .page .unmount => .isTrue trivial
  | .page .effects => .isTrue trivial
  | .page (.answer _ _) => .isTrue trivial
  | .page (.fire _) => .isTrue trivial
  | .serve _ _ => .isTrue trivial
  | .fail _ _ => inferInstanceAs (Decidable (_ = true))
  | .deliver _ => .isTrue trivial

/-- The payload of a history without records. -/
def noRecords : Json := .obj [("by_symbol", .obj []), ("by_month", .obj []), ("records", .arr [])]

/-- The job ends while the answer that it is running is on its way. -/
def staleReply : List (Act Json) :=
  [.server (.submit "a1" 1767225600), .server (.start "a1"), .page (.render (some "a1") 2000),
    .page .effects, .serve 0 "", .server (.finish "a1" "" (.returned (some noRecords)))]

theorem watched_truthfully_staleReply :
    ∃ s, Reaches (sessionStep id) Allowed (.fresh 3600) s ∧ s.hook.current = some 0 ∧
      s.hook.taskIdOf 0 = some "a1" ∧
      s.server.outcomes.get? "a1" = some (.returned (some noRecords)) ∧ Truthful id s := by
  have hreach : Reaches (sessionStep id) Allowed (Session.fresh 3600) _ :=
    play_get_reaches staleReply (by decide +kernel)
  exact ⟨_, hreach, rfl, rfl, rfl, watched_truthfully hreach⟩

end FundingTool.WatchedTask
