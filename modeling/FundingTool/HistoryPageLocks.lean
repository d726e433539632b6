import FundingTool.HistoryPage
import Mathlib.Tactic.ByContra

/-!
# When the query button stays disabled

`busy` is set by a click and cleared when `POST /history` is answered; a query whose token
request fails is never posted, and `busy` stays.  Polling ends with a terminal status, or with
an error of a poll; after an error the task is still there and its status is not terminal, so
the page counts as polling for ever.  An answer that cannot be rendered takes the page away.

Without one of these, whatever the answers, their order and their delays: when nothing is
outstanding the button is enabled.
-/

namespace FundingTool.HistoryPage

open FundingTool.TransitionSystem

/-! ## 1. The answers that do harm -/

/-- A query awaits `csrfStore.getToken()`. -/
def Page.awaitsToken (p : Page) : Bool :=
  match p.query with
  | some (.awaitsToken _) => true
  | _ => false

/-- The list, or the error that the page shows in its place. -/
def accountsRender (reply : Reply (List (Option Account))) : Bool :=
  match request reply with
  | .error e => e.renders
  | .ok data => (data.getD []).all Option.isSome

def postRenders (reply : Reply (Option String)) : Bool :=
  match request reply with
  | .error e => e.renders
  | .ok _ => true

/-- No error, and a snapshot that can be rendered, if there is one. -/
def pollGoesOn (reply : Reply Snapshot) : Bool :=
  match request reply with
  | .error _ => false
  | .ok data => data.all Snapshot.renders

/-- Neither does the token request of a query fail, nor is a poll of the current task
    answered with an error, nor is anything answered that cannot be rendered. -/
def Harmless (p : Page) : PageAct → Prop
  | .tokenAnswer reply => p.awaitsToken = true → (fetchToken reply).isSome = true
  | .accountsAnswer reply => accountsRender reply = true
  | .postAnswer reply => postRenders reply = true
  | .pollAnswer effect reply => effect = p.effect → pollGoesOn reply = true
  | _ => True

instance (p : Page) : ∀ a, Decidable (Harmless p a)
  | .tokenAnswer reply =>
      inferInstanceAs (Decidable (p.awaitsToken = true → (fetchToken reply).isSome = true))
  | .accountsAnswer reply => inferInstanceAs (Decidable (accountsRender reply = true))
  | .postAnswer reply => inferInstanceAs (Decidable (postRenders reply = true))
  | .pollAnswer effect reply =>
      inferInstanceAs (Decidable (effect = p.effect → pollGoesOn reply = true))
  | .click | .edit .. | .dismiss | .getToken | .timeout => .isTrue trivial

/-! ## 2. What a page keeps -/

/-- The polls under way and timers of the effect that is not cancelled. -/
def Page.working (p : Page) : Nat := p.polls.count p.effect + p.timer.toNat

/-- Effects are numbered in order, so the polls under way belong to the last or to earlier
    ones. -/
def Page.Numbered (p : Page) : Prop := ∀ effect ∈ p.polls, effect ≤ p.effect

/-- A page that has met no harm: `busy` and `isPolling` say what is under way. -/
structure Page.Sound (p : Page) : Prop where
  older : p.Numbered
  single : p.working ≤ 1
  polling : p.isPolling = true ↔ p.working ≠ 0
  submitting : p.busy = true ↔ p.query ≠ none
  fetching : ∀ req, p.query = some (.awaitsToken req) → p.inflight = true
  untasked : p.busy = true → p.taskId = none

/-- The page is there, and what it shows can be rendered. -/
structure Page.Shown (p : Page) : Prop where
  present : p.gone = false
  accounts : p.accounts.all Option.isSome = true
  error : ∀ e, p.error = some e → e.renders = true
  status : ∀ s, p.status = some s → s.renders = true

/-- The button is disabled, and nothing is under way that would enable it. -/
structure Page.Stuck (p : Page) : Prop where
  unsubmitted : p.query = none
  idle : p.working = 0
  disabled : p.enabled = false

theorem enabled_iff (p : Page) :
    p.enabled = true ↔ p.gone = false ∧ p.busy = false ∧ p.isPolling = false := by
  unfold Page.enabled
  cases p.gone <;> cases p.busy <;> cases p.isPolling <;> simp

theorem isPolling_of_none {p : Page} (h : p.taskId = none) : p.isPolling = false := by
  simp [Page.isPolling, h]

theorem Page.Sound.idle_of_query {p : Page} (h : p.Sound) {query : Query}
    (hquery : p.query = some query) : p.busy = true ∧ p.taskId = none ∧ p.working = 0 := by
  have hbusy : p.busy = true :=
    h.submitting.mpr (by rw [hquery]; exact Option.some_ne_none query)
  have htask := h.untasked hbusy
  refine ⟨hbusy, htask, ?_⟩
  by_contra hworking
  have hpolling := h.polling.mpr hworking
  rw [isPolling_of_none htask] at hpolling
  cases hpolling

/-- An enabled page neither submits nor polls. -/
theorem Page.Sound.enabled_iff_idle {p : Page} (h : p.Sound) :
    p.enabled = true ↔ p.gone = false ∧ p.query = none ∧ p.working = 0 := by
  rw [enabled_iff, ← Bool.not_eq_true p.busy, ← Bool.not_eq_true p.isPolling, h.submitting,
    h.polling, not_not, not_not]

theorem sound_mounted (start stop : String) (token : Option String) (inflight : Bool) :
    (Page.mounted start stop token inflight).Sound where
  older := nofun
  single := Nat.zero_le _
  polling := iff_of_false Bool.false_ne_true (not_not.mpr rfl)
  submitting := iff_of_false Bool.false_ne_true (not_not.mpr rfl)
  fetching := nofun
  untasked := fun _ => rfl

/-! ## 3. Another task -/

theorem count_next {p : Page} (h : p.Numbered) : p.polls.count (p.effect + 1) = 0 := by
  rw [List.count_eq_zero]
  intro hmem
  exact Nat.not_succ_le_self _ (h _ hmem)

@[simp] theorem setTaskId_busy (p : Page) (taskId : Option String) :
    (p.setTaskId taskId).busy = p.busy := by
  unfold Page.setTaskId
  split <;> rfl

@[simp] theorem setTaskId_taskId (p : Page) (taskId : Option String) :
    (p.setTaskId taskId).taskId = taskId := by
  unfold Page.setTaskId
  split
  · assumption
  · rfl

/-- Giving up a task that is not polled any more. -/
theorem setTaskId_none {p : Page} (h : p.Numbered) (hidle : p.working = 0) :
    (p.setTaskId none).Numbered ∧ (p.setTaskId none).working = 0 := by
  unfold Page.setTaskId
  by_cases hsame : p.taskId = none
  · rw [if_pos hsame]
    exact ⟨h, hidle⟩
  · rw [if_neg hsame]
    refine ⟨fun effect hmem => Nat.le_succ_of_le (h effect hmem), ?_⟩
    simp only [Page.working, Option.isSome_none, Bool.false_eq_true, if_false, count_next h]
    rfl

/-- Taking up a task, where there was none: its first poll is sent. -/
theorem setTaskId_some {p : Page} (h : p.Numbered) (htask : p.taskId = none) (taskId : String) :
    (p.setTaskId (some taskId)).Numbered ∧ (p.setTaskId (some taskId)).working = 1 ∧
      (p.setTaskId (some taskId)).isPolling = true := by
  unfold Page.setTaskId
  rw [if_neg (by rw [htask]; exact nofun)]
  refine ⟨?_, ?_, ?_⟩
  · intro effect hmem
    simp only [Option.isSome_some, if_true, List.mem_cons] at hmem
    rcases hmem with rfl | hmem
    · exact Nat.le_refl _
    · exact Nat.le_succ_of_le (h effect hmem)
  · simp only [Page.working, Option.isSome_some, if_true, List.count_cons_self, count_next h]
    rfl
  · simp [Page.isPolling, Page.statusText]

/-! ## 4. Steps that do no harm -/

/-- A step that touches neither the query nor the polls. -/
theorem Page.Sound.congr {p p' : Page} (h : p.Sound) (hpolls : p'.polls = p.polls)
    (heffect : p'.effect = p.effect) (htimer : p'.timer = p.timer) (hquery : p'.query = p.query)
    (hbusy : p'.busy = p.busy) (htask : p'.taskId = p.taskId) (hstatus : p'.status = p.status)
    (hinflight : p.inflight = true → p'.inflight = true) : p'.Sound := by
  have hworking : p'.working = p.working := by
    simp only [Page.working, hpolls, heffect, htimer]
  have hpolling : p'.isPolling = p.isPolling := by
    unfold Page.isPolling Page.statusText
    rw [htask, hstatus]
  constructor
  · unfold Page.Numbered; rw [hpolls, heffect]; exact h.older
  · rw [hworking]; exact h.single
  · rw [hworking, hpolling]; exact h.polling
  · rw [hquery, hbusy]; exact h.submitting
  · rw [hquery]; exact fun req hreq => hinflight (h.fetching req hreq)
  · rw [hbusy, htask]; exact h.untasked

/-- A page that submits a query, with no task. -/
theorem sound_submitting {p : Page} (holder : p.Numbered) (hworking : p.working = 0)
    (htask : p.taskId = none) (hbusy : p.busy = true) (hquery : p.query ≠ none)
    (hfetching : ∀ req, p.query = some (.awaitsToken req) → p.inflight = true) : p.Sound where
  older := holder
  single := by rw [hworking]; exact Nat.zero_le 1
  polling := by
    rw [isPolling_of_none htask, hworking]
    exact iff_of_false Bool.false_ne_true (not_not.mpr rfl)
  submitting := iff_of_true hbusy hquery
  fetching := hfetching
  untasked := fun _ => htask

/-- A page that submits no query. -/
theorem sound_resting {p : Page} (holder : p.Numbered) (hsingle : p.working ≤ 1)
    (hpolling : p.isPolling = true ↔ p.working ≠ 0) (hbusy : p.busy = false)
    (hquery : p.query = none) : p.Sound where
  older := holder
  single := hsingle
  polling := hpolling
  submitting := by
    rw [hbusy]
    exact iff_of_false Bool.false_ne_true (not_not.mpr hquery)
  fetching := by rw [hquery]; exact nofun
  untasked := by rw [hbusy]; exact nofun

theorem sound_post {p : Page} (h : p.Numbered) (hworking : p.working = 0)
    (htask : p.taskId = none) (hbusy : p.busy = true) (req : HistoryRequest) :
    (p.post req).Sound := by
  unfold Page.post
  rcases truthy p.token with _ | token
  · exact sound_submitting h hworking htask hbusy (Option.some_ne_none _) fun _ _ => rfl
  · exact sound_submitting h hworking htask hbusy (Option.some_ne_none _) nofun

theorem sound_run {p : Page} (h : p.Sound) (henabled : p.enabled = true) : p.run.Sound := by
  have hworking : p.working = 0 := (h.enabled_iff_idle.mp henabled).2.2
  have hbusy : p.busy = false := ((enabled_iff p).mp henabled).2.1
  unfold Page.run
  rw [if_neg (by rw [hbusy]; exact Bool.false_ne_true)]
  by_cases hinvalid : p.accountName = "" ∨ p.start = "" ∨ p.stop = ""
  · rw [if_pos hinvalid]
    exact h.congr rfl rfl rfl rfl rfl rfl rfl id
  · rw [if_neg hinvalid]
    have hsubmitted : Page.Numbered { p with busy := true, error := none } := h.older
    obtain ⟨hnumbered, hidle⟩ := setTaskId_none hsubmitted hworking
    exact sound_post hnumbered hidle (setTaskId_taskId _ _) (setTaskId_busy _ _) _

theorem sound_posted {p : Page} (h : p.Sound) {req : HistoryRequest}
    (hquery : p.query = some (.posted req)) (reply : Reply (Option String)) :
    (p.posted reply).Sound := by
  obtain ⟨-, htask, hworking⟩ := h.idle_of_query hquery
  unfold Page.posted
  rcases request reply with e | data
  · exact sound_resting h.older h.single h.polling rfl rfl
  · simp only
    rcases truthy (data.getD none) with _ | taskId
    · exact sound_resting h.older h.single h.polling rfl rfl
    · obtain ⟨hnumbered, hone, hpolls⟩ := setTaskId_some h.older htask taskId
      have hsingle : (p.setTaskId (some taskId)).working ≤ 1 := Nat.le_of_eq hone
      have hpolling : (p.setTaskId (some taskId)).isPolling = true ↔
          (p.setTaskId (some taskId)).working ≠ 0 := by
        rw [hone]
        exact iff_of_true hpolls Nat.one_ne_zero
      exact sound_resting hnumbered hsingle hpolling rfl rfl

/-- A token that no query awaits. -/
theorem tokenAnswered_other {p : Page} (hquery : ∀ req, p.query ≠ some (.awaitsToken req))
    (reply : Reply (Option String)) :
    ∃ token, p.tokenAnswered reply = { p with token := token, inflight := false } := by
  unfold Page.tokenAnswered
  split
  · exact absurd ‹p.query = _› (hquery _)
  · exact ⟨_, rfl⟩
  · exact absurd ‹p.query = _› (hquery _)
  · exact ⟨p.token, rfl⟩

theorem sound_tokenAnswered {p : Page} (h : p.Sound) {reply : Reply (Option String)}
    (hharmless : Harmless p (.tokenAnswer reply)) : (p.tokenAnswered reply).Sound := by
  by_cases hwaits : ∃ req, p.query = some (.awaitsToken req)
  · obtain ⟨req, hquery⟩ := hwaits
    obtain ⟨hbusy, htask, hworking⟩ := h.idle_of_query hquery
    have hfetched : (fetchToken reply).isSome = true :=
      hharmless (by simp only [Page.awaitsToken, hquery])
    obtain ⟨token, hfetch⟩ := Option.isSome_iff_exists.mp hfetched
    simp only [Page.tokenAnswered, hfetch, hquery]
    exact sound_submitting h.older hworking htask hbusy (Option.some_ne_none _) nofun
  · have hquery : ∀ req, p.query ≠ some (.awaitsToken req) := fun req hreq => hwaits ⟨req, hreq⟩
    obtain ⟨token, hanswered⟩ := tokenAnswered_other hquery reply
    rw [hanswered]
    exact ⟨h.older, h.single, h.polling, h.submitting, fun req hreq => absurd hreq (hquery req),
      h.untasked⟩

theorem sound_accountsAnswered {p : Page} (h : p.Sound) (reply : Reply (List (Option Account))) :
    (p.accountsAnswered reply).Sound := by
  unfold Page.accountsAnswered
  rcases request reply with e | data
  · exact h.congr rfl rfl rfl rfl rfl rfl rfl id
  · exact h.congr rfl rfl rfl rfl rfl rfl rfl id

/-- A poll of the current effect that is answered was the only thing under way. -/
theorem Page.Sound.polls_once {p : Page} (h : p.Sound) (hmem : p.effect ∈ p.polls) :
    (p.polls.erase p.effect).count p.effect = 0 ∧ p.timer = false ∧ p.isPolling = true ∧
      p.query = none := by
  have hpositive : 0 < p.polls.count p.effect := List.count_pos_iff.mpr hmem
  have hsingle := h.single
  unfold Page.working at hsingle
  have hworking : p.working ≠ 0 := by
    unfold Page.working
    omega
  refine ⟨?_, ?_, h.polling.mpr hworking, ?_⟩
  · rw [List.count_erase_self]
    omega
  · by_contra htimer
    rw [(Bool.not_eq_false _).mp htimer, Bool.toNat_true] at hsingle
    omega
  · by_contra hquery
    obtain ⟨query, hquery⟩ := Option.ne_none_iff_exists'.mp hquery
    exact hworking (h.idle_of_query hquery).2.2

/-- A poll of an effect that is cancelled. -/
theorem working_cancelled (p : Page) {effect : Nat} (hne : effect ≠ p.effect) :
    Page.working { p with polls := p.polls.erase effect } = p.working := by
  simp only [Page.working, List.count_erase_of_ne (Ne.symm hne)]

theorem sound_cancelled {p : Page} (h : p.Sound) {effect : Nat} (hne : effect ≠ p.effect) :
    Page.Sound { p with polls := p.polls.erase effect } := by
  refine ⟨fun e hmem => h.older e (List.mem_of_mem_erase hmem), ?_, ?_, h.submitting, h.fetching,
    h.untasked⟩
  · rw [working_cancelled p hne]; exact h.single
  · rw [working_cancelled p hne]; exact h.polling

/-- The task has no snapshot yet: the next poll is in two seconds. -/
theorem sound_waiting {p : Page} (h : p.Sound) (hmem : p.effect ∈ p.polls) :
    Page.Sound { p with polls := p.polls.erase p.effect, timer := true } := by
  obtain ⟨hcount, -, hpolling, hquery⟩ := h.polls_once hmem
  have hone : Page.working { p with polls := p.polls.erase p.effect, timer := true } = 1 := by
    simp only [Page.working, hcount]
    rfl
  refine ⟨fun e he => h.older e (List.mem_of_mem_erase he), Nat.le_of_eq hone, ?_, h.submitting,
    h.fetching, h.untasked⟩
  rw [hone]
  exact iff_of_true hpolling Nat.one_ne_zero

/-- A snapshot: polling goes on until the status is terminal. -/
theorem sound_snapshot {p : Page} (h : p.Sound) (hmem : p.effect ∈ p.polls) (s : Snapshot) :
    Page.Sound { p with
      polls := p.polls.erase p.effect
      status := some s
      timer := !isTerminal s.status } := by
  obtain ⟨hcount, -, hpolling, -⟩ := h.polls_once hmem
  have htask : p.taskId.isSome = true := by
    unfold Page.isPolling at hpolling
    exact (Bool.and_eq_true_iff.mp hpolling).1
  have hworking : Page.working { p with
      polls := p.polls.erase p.effect
      status := some s
      timer := !isTerminal s.status } = (!isTerminal s.status).toNat := by
    simp only [Page.working, hcount, Nat.zero_add]
  have hgoesOn : Page.isPolling { p with
      polls := p.polls.erase p.effect
      status := some s
      timer := !isTerminal s.status } = !isTerminal s.status := by
    simp [Page.isPolling, Page.statusText, htask, isTerminal]
  refine ⟨fun e he => h.older e (List.mem_of_mem_erase he), ?_, ?_, h.submitting, h.fetching,
    h.untasked⟩
  · rw [hworking]
    exact Bool.toNat_le _
  · rw [hworking, hgoesOn]
    cases isTerminal s.status <;> simp

theorem sound_polled {p : Page} (h : p.Sound) {effect : Nat} (hmem : effect ∈ p.polls)
    {reply : Reply Snapshot} (hharmless : Harmless p (.pollAnswer effect reply)) :
    (p.polled effect reply).Sound := by
  unfold Page.polled
  by_cases hcancelled : effect ≠ p.effect
  · rw [if_pos hcancelled]
    exact sound_cancelled h hcancelled
  · have hcurrent : effect = p.effect := not_not.mp hcancelled
    have hanswered := hharmless hcurrent
    subst hcurrent
    rw [if_neg hcancelled]
    rcases hreply : request reply with e | _ | s
    · rw [pollGoesOn, hreply] at hanswered
      cases hanswered
    · exact sound_waiting h hmem
    · exact sound_snapshot h hmem s

theorem working_timeout {p : Page} (htimer : p.timer = true) :
    Page.working { p with timer := false, polls := p.effect :: p.polls } = p.working := by
  simp only [Page.working, List.count_cons_self, htimer]
  rfl

theorem sound_timeout {p : Page} (h : p.Sound) (htimer : p.timer = true) :
    Page.Sound { p with timer := false, polls := p.effect :: p.polls } := by
  refine ⟨?_, ?_, ?_, h.submitting, h.fetching, h.untasked⟩
  · intro effect hmem
    rcases List.mem_cons.mp hmem with rfl | hmem
    · exact Nat.le_refl _
    · exact h.older effect hmem
  · rw [working_timeout htimer]; exact h.single
  · rw [working_timeout htimer]; exact h.polling

theorem sound_handle {p p' : Page} {a : PageAct} (h : p.Sound) (hharmless : Harmless p a)
    (hstep : p.handle a = some p') : p'.Sound := by
  cases a with
  | click =>
      simp only [Page.handle, Option.ite_none_right_eq_some, Option.some.injEq] at hstep
      obtain ⟨henabled, rfl⟩ := hstep
      exact sound_run h henabled
  | edit accountName start stop symbol =>
      simp only [Page.handle, Option.some.injEq] at hstep
      rw [← hstep]
      exact h.congr rfl rfl rfl rfl rfl rfl rfl id
  | dismiss =>
      simp only [Page.handle, Option.some.injEq] at hstep
      rw [← hstep]
      exact h.congr rfl rfl rfl rfl rfl rfl rfl id
  | getToken =>
      rcases htoken : truthy p.token with _ | token
      · simp only [Page.handle, htoken, Option.some.injEq] at hstep
        rw [← hstep]
        exact h.congr rfl rfl rfl rfl rfl rfl rfl fun _ => rfl
      · simp only [Page.handle, htoken, Option.some.injEq] at hstep
        rw [← hstep]
        exact h
  | tokenAnswer reply =>
      simp only [Page.handle, Option.ite_none_right_eq_some, Option.some.injEq] at hstep
      obtain ⟨hinflight, rfl⟩ := hstep
      exact sound_tokenAnswered h hharmless
  | accountsAnswer reply =>
      simp only [Page.handle, Option.ite_none_right_eq_some, Option.some.injEq] at hstep
      obtain ⟨hrequested, rfl⟩ := hstep
      exact sound_accountsAnswered h reply
  | postAnswer reply =>
      rcases hquery : p.query with _ | req | req
      · simp only [Page.handle, hquery, reduceCtorEq] at hstep
      · simp only [Page.handle, hquery, reduceCtorEq] at hstep
      · simp only [Page.handle, hquery, Option.some.injEq] at hstep
        rw [← hstep]
        exact sound_posted h hquery reply
  | pollAnswer effect reply =>
      simp only [Page.handle, Option.ite_none_right_eq_some, Option.some.injEq] at hstep
      obtain ⟨hmem, rfl⟩ := hstep
      exact sound_polled h hmem hharmless
  | timeout =>
      simp only [Page.handle, Option.ite_none_right_eq_some, Option.some.injEq] at hstep
      obtain ⟨htimer, rfl⟩ := hstep
      exact sound_timeout h htimer

/-! ## 5. What can be rendered -/

/-- What is shown changes in nothing that is rendered. -/
theorem Page.Shown.congr {p p' : Page} (h : p.Shown) (hgone : p'.gone = p.gone)
    (haccounts : p'.accounts = p.accounts) (herror : p'.error = p.error)
    (hstatus : p'.status = p.status) : p'.Shown :=
  ⟨hgone ▸ h.present, haccounts ▸ h.accounts, herror ▸ h.error, hstatus ▸ h.status⟩

theorem shown_setTaskId {p : Page} (h : p.Shown) (taskId : Option String) :
    (p.setTaskId taskId).Shown := by
  unfold Page.setTaskId
  split
  · exact h
  · exact ⟨h.present, h.accounts, h.error, nofun⟩

theorem shown_error {p : Page} (h : p.Shown) {e : ApiError} (he : e.renders = true) :
    Page.Shown { p with error := some e } := by
  refine ⟨h.present, h.accounts, ?_, h.status⟩
  rintro _ ⟨⟩
  exact he

theorem shown_post {p : Page} (h : p.Shown) (req : HistoryRequest) : (p.post req).Shown := by
  unfold Page.post
  split <;> exact h.congr rfl rfl rfl rfl

theorem shown_run {p : Page} (h : p.Shown) : p.run.Shown := by
  unfold Page.run
  split
  · exact h
  · split
    · exact shown_error h (by decide)
    · have hcleared : Page.Shown { p with busy := true, error := none } :=
        ⟨h.present, h.accounts, nofun, h.status⟩
      exact shown_post (shown_setTaskId hcleared none) _

theorem shown_tokenAnswered {p : Page} (h : p.Shown) (reply : Reply (Option String)) :
    (p.tokenAnswered reply).Shown := by
  unfold Page.tokenAnswered
  split <;> exact h.congr rfl rfl rfl rfl

theorem shown_accountsAnswered {p : Page} (h : p.Shown) {reply : Reply (List (Option Account))}
    (hharmless : accountsRender reply = true) : (p.accountsAnswered reply).Shown := by
  unfold accountsRender at hharmless
  unfold Page.accountsAnswered
  rcases hreply : request reply with e | data <;> rw [hreply] at hharmless
  · exact (shown_error h hharmless).congr rfl rfl rfl rfl
  · exact ⟨h.present, hharmless, h.error, h.status⟩

theorem shown_posted {p : Page} (h : p.Shown) {reply : Reply (Option String)}
    (hharmless : postRenders reply = true) : (p.posted reply).Shown := by
  unfold postRenders at hharmless
  unfold Page.posted
  rcases hreply : request reply with e | data <;> rw [hreply] at hharmless
  · exact (shown_error h hharmless).congr rfl rfl rfl rfl
  · simp only
    split
    · exact (shown_setTaskId h _).congr rfl rfl rfl rfl
    · exact h.congr rfl rfl rfl rfl

theorem shown_polled {p : Page} (h : p.Shown) {effect : Nat} {reply : Reply Snapshot}
    (hharmless : effect = p.effect → pollGoesOn reply = true) : (p.polled effect reply).Shown := by
  unfold Page.polled
  by_cases hcancelled : effect ≠ p.effect
  · rw [if_pos hcancelled]
    exact h.congr rfl rfl rfl rfl
  · have hanswered := hharmless (not_not.mp hcancelled)
    unfold pollGoesOn at hanswered
    rw [if_neg hcancelled]
    rcases hreply : request reply with e | _ | s <;> rw [hreply] at hanswered
    · cases hanswered
    · exact h.congr rfl rfl rfl rfl
    · refine ⟨h.present, h.accounts, h.error, ?_⟩
      rintro _ ⟨⟩
      exact hanswered

theorem shown_handle {p p' : Page} {a : PageAct} (h : p.Shown) (hharmless : Harmless p a)
    (hstep : p.handle a = some p') : p'.Shown := by
  cases a with
  | click =>
      simp only [Page.handle, Option.ite_none_right_eq_some, Option.some.injEq] at hstep
      obtain ⟨-, rfl⟩ := hstep
      exact shown_run h
  | edit accountName start stop symbol =>
      cases hstep
      exact h.congr rfl rfl rfl rfl
  | dismiss =>
      cases hstep
      exact ⟨h.present, h.accounts, nofun, h.status⟩
  | getToken =>
      simp only [Page.handle] at hstep
      split at hstep <;> cases hstep <;> exact h.congr rfl rfl rfl rfl
  | tokenAnswer reply =>
      simp only [Page.handle, Option.ite_none_right_eq_some, Option.some.injEq] at hstep
      obtain ⟨-, rfl⟩ := hstep
      exact shown_tokenAnswered h reply
  | accountsAnswer reply =>
      simp only [Page.handle, Option.ite_none_right_eq_some, Option.some.injEq] at hstep
      obtain ⟨-, rfl⟩ := hstep
      exact shown_accountsAnswered h hharmless
  | postAnswer reply =>
      simp only [Page.handle] at hstep
      split at hstep
      · cases hstep
        exact shown_posted h hharmless
      · cases hstep
  | pollAnswer effect reply =>
      simp only [Page.handle, Option.ite_none_right_eq_some, Option.some.injEq] at hstep
      obtain ⟨-, rfl⟩ := hstep
      exact shown_polled h hharmless
  | timeout =>
      simp only [Page.handle, Option.ite_none_right_eq_some, Option.some.injEq] at hstep
      obtain ⟨-, rfl⟩ := hstep
      exact h.congr rfl rfl rfl rfl

/-- Nothing that is shown throws. -/
theorem Page.Shown.render_eq {p : Page} (h : p.Shown) : p.render = p := by
  have haccounts : p.accounts.any Option.isNone = false := by
    rw [List.any_eq_false]
    intro account hmem
    have hsome := List.all_eq_true.mp h.accounts account hmem
    rw [Option.isNone_iff_eq_none]
    rintro rfl
    cases hsome
  have herror : p.error.any (fun e => !e.renders) = false := by
    rcases herror : p.error with _ | e
    · rfl
    · rw [Option.any_some, h.error e herror, Bool.not_true]
  have hstatus : p.statusText.any isPrototype = false ∧
      p.result.any (fun r => !r.renders) = false := by
    unfold Page.result Page.statusText
    rcases hstatus : p.status with _ | s
    · exact ⟨rfl, rfl⟩
    · have hrenders := h.status s hstatus
      unfold Snapshot.renders at hrenders
      obtain ⟨hlabel, hresult⟩ := Bool.and_eq_true_iff.mp hrenders
      refine ⟨by simpa using hlabel, ?_⟩
      by_cases hdone : s.status = "done"
      · rcases hr : s.result with _ | r
        · simp [hdone, hr]
        · simpa [hdone, hr] using hresult
      · simp [hdone]
  have hcalm : p.throws = false := by
    unfold Page.throws
    rw [haccounts, herror, hstatus.1, hstatus.2, Bool.and_false]
    rfl
  rw [Page.render, hcalm, if_neg Bool.false_ne_true]

/-- A harmless step of a sound page that is shown. -/
theorem sound_step {p p' : Page} {a : PageAct} (h : p.Sound) (hshown : p.Shown)
    (hharmless : Harmless p a) (hstep : pageStep p a = some p') : p'.Sound ∧ p'.Shown := by
  rw [pageStep, hshown.present, if_neg Bool.false_ne_true] at hstep
  obtain ⟨q, hq, rfl⟩ := Option.map_eq_some_iff.mp hstep
  have hnext := shown_handle hshown hharmless hq
  rw [hnext.render_eq]
  exact ⟨sound_handle h hharmless hq, hnext⟩

/-! ## 6. Steps that do harm -/

/-- The button is there no more, or disabled for good. -/
def Page.Lost (p : Page) : Prop := p.gone = true ∨ p.Stuck

theorem Page.Lost.disabled {p : Page} (h : p.Lost) : p.enabled = false := by
  rcases h with hgone | hstuck
  · rw [Page.enabled, hgone]
    rfl
  · exact hstuck.disabled

theorem Page.Stuck.render {p : Page} (h : p.Stuck) : p.render.Lost := by
  unfold Page.render
  split
  · exact .inl rfl
  · exact .inr h

/-- A query is submitted, and its task polled twice. -/
def queried : List PageAct :=
  [.accountsAnswer (.ok (some [some ⟨some "main"⟩])), .click,
    .tokenAnswer (.ok (some (some "T1"))), .postAnswer (.ok (some (some "task-1"))),
    .pollAnswer 1 (.ok (some ⟨"running", none⟩)), .timeout]

/-- So it does when the token of the first query cannot be fetched. -/
theorem locked_by_token_failure :
    ∃ p, Reaches pageStep Unguarded (.mounted "2026-01-01" "2026-02-01" none false) p ∧
      p.quiet = true ∧ p.enabled = false := by
  have hreach : Reaches pageStep Unguarded (.mounted "2026-01-01" "2026-02-01" none false) _ :=
    play_get_reaches [.accountsAnswer (.ok (some [some ⟨some "main"⟩])), .click,
      .tokenAnswer (.failure "Failed to fetch")] (by decide +kernel)
  exact ⟨_, hreach, by decide +kernel, by decide +kernel⟩

/-- And the page goes with a result that has nothing of what is rendered. -/
theorem gone_with_empty_result :
    ∃ p, Reaches pageStep Unguarded (.mounted "2026-01-01" "2026-02-01" none false) p ∧
      p.quiet = true ∧ p.gone = true := by
  have hreach : Reaches pageStep Unguarded (.mounted "2026-01-01" "2026-02-01" none false) _ :=
    play_get_reaches (queried ++ [.pollAnswer 1 (.ok (some ⟨"done", some ⟨none, none, none⟩⟩))])
      (by decide +kernel)
  exact ⟨_, hreach, by decide +kernel, by decide +kernel⟩

end FundingTool.HistoryPage
