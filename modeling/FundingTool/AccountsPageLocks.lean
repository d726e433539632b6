import FundingTool.AccountsPage

/-!
# What the accounts page locks

A delete button is disabled while its account is in `deleting`, the form while it is `busy`.  A
deletion keeps its account there until the list has been loaded after it.  `locks_exact`: whatever
comes in between, each of these locks is held exactly while one request holds it, so it is
released when that request is over, and a second request is not sent before.

The exception is a form whose `getToken()` has rejected: its `busy` is never cleared.
-/

namespace FundingTool.AccountsPage

open FundingTool.AccountRoutes FundingTool.TransitionSystem

/-! ## 1. Locks -/

inductive Lock
  /-- The delete button of an account. -/
  | account (name : String)
  | form
deriving DecidableEq, Repr

def Request.lock : Request → Option Lock
  | .load _ deleted => deleted.map .account
  | .delete name => some (.account name)
  | .submit _ => some .form

/-- The request holds the lock: it is not over, or it is a form's that has been given up. -/
def Flight.holds (lock : Lock) (f : Flight) : Bool :=
  f.request.lock == some lock && (f.course.isOpen || f.course == .dropped && lock == .form)

def Page.locked (p : Page) : Lock → Bool
  | .account name => p.deleting.contains name
  | .form => p.busy

structure Exact (s : Site) : Prop where
  holders : ∀ lock, s.sent.countP (Flight.holds lock) = (s.page.locked lock).toNat
  form : s.page.busy = true → s.page.showForm = true

section Locks

variable {s : Site}

/-- A request takes another course. -/
theorem count_withCourse (lock : Lock) {i : Nat} {f : Flight} (hi : s.sent[i]? = some f)
    (course : Course) :
    (s.withCourse i f course).sent.countP (Flight.holds lock) + (f.holds lock).toNat =
      s.sent.countP (Flight.holds lock) +
        (Flight.holds lock { f with course := course }).toNat := by
  obtain ⟨hlt, hget⟩ := List.getElem?_eq_some_iff.mp hi
  have hle := List.boole_getElem_le_countP (p := Flight.holds lock) hlt
  have hset := List.countP_set (p := Flight.holds lock) (a := { f with course := course }) hlt
  rw [hget] at hle hset
  rw [Site.withCourse, hset]
  generalize s.sent.countP (Flight.holds lock) = count at hle ⊢
  generalize Flight.holds lock { f with course := course } = after
  generalize f.holds lock = before at hle ⊢
  cases before <;> cases after <;> simp at hle ⊢ <;> omega

/-- The request sent next, if there is one, takes the lock. -/
def acquires (next : Option Request) (lock : Lock) : Bool :=
  match next with
  | some r => r.lock == some lock
  | none => false

theorem count_turned (lock : Lock) (turn : Page × Option Request) :
    (s.turned turn).sent.countP (Flight.holds lock) =
      s.sent.countP (Flight.holds lock) + (acquires turn.2 lock).toNat := by
  obtain ⟨page, _ | r⟩ := turn
  · simp [Site.turned, acquires]
  · simp only [Site.turned, acquires, List.countP_append, Option.map_some, Option.toList_some,
      List.countP_singleton, Flight.holds, Course.isOpen, Bool.true_or, Bool.and_true]
    cases r.lock == some lock <;> rfl

theorem holds_of_isOpen {f : Flight} (hopen : f.course.isOpen = true) (lock : Lock) :
    f.holds lock = acquires (some f.request) lock := by
  simp [Flight.holds, hopen, acquires]

/-- A request that holds a lock has locked it. -/
theorem Exact.locked (h : Exact s) {f : Flight} (hf : f ∈ s.sent) {lock : Lock}
    (hholds : f.holds lock = true) : s.page.locked lock = true := by
  have hpos : 0 < s.sent.countP (Flight.holds lock) := List.countP_pos_iff.mpr ⟨f, hf, hholds⟩
  rw [h.holders lock] at hpos
  cases hlocked : s.page.locked lock with
  | true => rfl
  | false =>
      rw [hlocked] at hpos
      cases hpos

/-! ## 2. Every step -/

/-- **A request is over**, and what goes on takes over its lock or leaves it free. -/
theorem exact_closed (h : Exact s) {i : Nat} {f : Flight} (hi : s.sent[i]? = some f)
    (hopen : f.course.isOpen = true) {course : Course}
    (hclosed : ∀ lock, Flight.holds lock { f with course := course } = false)
    {turn : Page × Option Request}
    (hlocked : ∀ lock, turn.1.locked lock =
      ((s.page.locked lock && !acquires (some f.request) lock) || acquires turn.2 lock))
    (htaken : ∀ lock, acquires turn.2 lock = true → acquires (some f.request) lock = true)
    (hform : turn.1.busy = true → turn.1.showForm = true) :
    Exact ((s.withCourse i f course).turned turn) := by
  refine ⟨?_, hform⟩
  intro lock
  have hcount := count_withCourse lock hi course
  have hbefore := h.holders lock
  have hholds : f.holds lock = acquires (some f.request) lock := holds_of_isOpen hopen lock
  have hheld : f.holds lock = true → s.page.locked lock = true :=
    h.locked (List.mem_of_getElem? hi)
  rw [count_turned, show ((s.withCourse i f course).turned turn).page = turn.1 from rfl,
    hlocked lock]
  rw [hclosed lock] at hcount
  rw [hholds] at hcount hheld
  rcases htook : acquires (some f.request) lock
  · have hnone : acquires turn.2 lock = false := by
      rw [Bool.eq_false_iff]
      intro htakes
      rw [htaken lock htakes] at htook
      cases htook
    rw [htook, Bool.toNat_false] at hcount
    rw [hnone, Bool.not_false, Bool.and_true, Bool.or_false, Bool.toNat_false]
    omega
  · rw [htook, Bool.toNat_true, Bool.toNat_false] at hcount
    rw [hheld htook, Bool.toNat_true] at hbefore
    rw [Bool.not_true, Bool.and_false, Bool.false_or]
    omega

/-- A turn of the page in which a request takes a lock that was free, or none does. -/
theorem exact_turned (h : Exact s) {turn : Page × Option Request}
    (hlocked : ∀ lock, turn.1.locked lock = (s.page.locked lock || acquires turn.2 lock))
    (hfree : ∀ lock, acquires turn.2 lock = true → s.page.locked lock = false)
    (hform : turn.1.busy = true → turn.1.showForm = true) : Exact (s.turned turn) := by
  refine ⟨?_, hform⟩
  intro lock
  rw [count_turned, show (s.turned turn).page = turn.1 from rfl, hlocked lock, h.holders lock]
  rcases htakes : acquires turn.2 lock
  · rw [Bool.or_false, Bool.toNat_false, Nat.add_zero]
  · rw [hfree lock htakes]
    rfl

theorem locked_released (p : Page) (deleted : Option String) (lock : Lock) :
    (p.released deleted).locked lock =
      (p.locked lock && !(deleted.map Lock.account == some lock)) := by
  rcases deleted with _ | deleted
  · exact (Bool.and_true _).symm
  · cases lock with
    | account name =>
        rw [Bool.eq_iff_iff]
        simp only [Page.released, Page.locked, List.contains_iff_mem, List.mem_filter,
          decide_eq_true_eq, Bool.and_eq_true, Bool.not_eq_true', beq_eq_false_iff_ne,
          Option.map_some, ne_eq, Option.some.injEq, Lock.account.injEq]
        exact and_congr_right fun _ => not_congr eq_comm
    | form => exact (Bool.and_true _).symm

theorem locked_loaded (p : Page) (id : Nat) (answer : Answer) (lock : Lock) :
    (p.loaded id answer).locked lock = p.locked lock := by
  unfold Page.loaded
  split
  · cases answer <;> cases lock <;> rfl
  · rfl

theorem form_loaded (p : Page) (id : Nat) (answer : Answer) (deleted : Option String) :
    ((p.loaded id answer).released deleted).busy = p.busy ∧
      ((p.loaded id answer).released deleted).showForm = p.showForm := by
  unfold Page.loaded
  split
  · cases answer <;> cases deleted <;> exact ⟨rfl, rfl⟩
  · cases deleted <;> exact ⟨rfl, rfl⟩

theorem exact_settle (h : Exact s) {i : Nat} {f : Flight} (hi : s.sent[i]? = some f)
    (hopen : f.course.isOpen = true) (answer : Answer) : Exact (s.settle i f answer) := by
  have hclosed : ∀ lock, Flight.holds lock { f with course := .settled answer s.now } = false := by
    intro lock
    simp [Flight.holds, Course.isOpen]
  have hheld : ∀ lock, acquires (some f.request) lock = true → s.page.locked lock = true := by
    intro lock hacquires
    refine h.locked (List.mem_of_getElem? hi) ?_
    rw [holds_of_isOpen hopen, hacquires]
  unfold Site.settle
  rcases hrequest : f.request with ⟨id, deleted⟩ | name | payload <;> rw [hrequest] at hheld
  · obtain ⟨hbusy, hshow⟩ := form_loaded s.page id answer deleted
    refine exact_closed h hi hopen hclosed ?_ nofun ?_
    · intro lock
      rw [hrequest]
      refine ((locked_released _ deleted lock).trans ?_).trans (Bool.or_false _).symm
      rw [locked_loaded]
      rfl
    · intro hbusy'
      exact hshow.trans (h.form (hbusy.symm.trans hbusy'))
  · rcases answer with e | response
    · refine exact_closed h hi hopen hclosed ?_ nofun h.form
      intro lock
      rw [hrequest]
      refine ((locked_released _ (some name) lock).trans ?_).trans (Bool.or_false _).symm
      cases lock <;> rfl
    · -- The account stays locked until the list is loaded.
      refine exact_closed h hi hopen hclosed ?_ ?_ h.form
      · intro lock
        rw [hrequest]
        change s.page.locked lock = (s.page.locked lock && !acquires (some (.delete name)) lock ||
          acquires (some (.delete name)) lock)
        rcases hacquires : acquires (some (.delete name)) lock
        · rw [Bool.not_false, Bool.and_true, Bool.or_false]
        · rw [hheld lock hacquires, Bool.or_true]
      · intro lock hacquires
        rw [hrequest]
        exact hacquires
  · have hfree : ∀ lock, (s.page.withForm false).locked lock =
        (s.page.locked lock && !acquires (some (.submit payload)) lock) := by
      intro lock
      cases lock with
      | account name => exact (Bool.and_true _).symm
      | form => exact (Bool.and_false _).symm
    rcases answer with e | response
    · refine exact_closed h hi hopen hclosed ?_ nofun nofun
      intro lock
      rw [hrequest]
      refine Eq.trans ?_ ((hfree lock).trans (Bool.or_false _).symm)
      cases lock <;> rfl
    · simp only [Page.answered]
      split
      · refine exact_closed h hi hopen hclosed ?_ nofun nofun
        intro lock
        rw [hrequest]
        refine Eq.trans ?_ ((hfree lock).trans (Bool.or_false _).symm)
        cases lock <;> rfl
      · refine exact_closed h hi hopen hclosed ?_ nofun nofun
        intro lock
        rw [hrequest]
        refine Eq.trans ?_ ((hfree lock).trans (Bool.or_false _).symm)
        cases lock <;> rfl

theorem exact_dropped (h : Exact s) {i : Nat} {f : Flight} (hi : s.sent[i]? = some f)
    (hcourse : f.course = .underway) (hwrite : f.request.isWrite = true) :
    Exact ((s.withCourse i f .dropped).turned (s.page.dropped f.request, none)) := by
  have hopen : f.course.isOpen = true := by
    rw [hcourse]
    rfl
  rcases hrequest : f.request with ⟨id, deleted⟩ | name | payload
  · rw [hrequest] at hwrite
    cases hwrite
  · refine exact_closed h hi hopen ?_ ?_ nofun h.form
    · intro lock
      rw [hrequest]
      cases lock <;> simp [Flight.holds, Course.isOpen, Request.lock]
    · intro lock
      rw [hrequest]
      exact (locked_released _ (some name) lock).trans (Bool.or_false _).symm
  · -- The request of the form is over, and its lock is not released.
    refine ⟨?_, h.form⟩
    intro lock
    have hcount := count_withCourse lock hi .dropped
    have hsame : Flight.holds lock { f with course := .dropped } = f.holds lock := by
      rw [holds_of_isOpen hopen, hrequest]
      simp only [Flight.holds]
      cases lock <;> rfl
    rw [hsame] at hcount
    rw [count_turned]
    exact (Nat.add_right_cancel hcount).trans (h.holders lock)

theorem exact_handleDelete (h : Exact s) (name : String) :
    Exact (s.turned (s.page.handleDelete name)) := by
  unfold Page.handleDelete
  split
  · exact exact_turned h (fun lock => (Bool.or_false _).symm) nofun h.form
  · next hfree =>
      refine exact_turned h ?_ ?_ h.form
      · intro lock
        cases lock with
        | account other =>
            rw [Bool.eq_iff_iff]
            simp only [Page.locked, acquires, Request.lock, List.contains_iff_mem, Bool.or_eq_true,
              beq_iff_eq, List.mem_append, List.mem_singleton, Option.some.injEq,
              Lock.account.injEq]
            exact or_congr_right eq_comm
        | form => exact (Bool.or_false _).symm
      · intro lock hacquires
        simp only [acquires, Request.lock, beq_iff_eq, Option.some.injEq] at hacquires
        subst hacquires
        simpa [Page.locked] using hfree

theorem exact_handleSubmit (h : Exact s) (hform : s.page.showForm = true)
    (payload : AccountCreateRequest) : Exact (s.turned (s.page.handleSubmit payload)) := by
  unfold Page.handleSubmit
  split
  · exact exact_turned h (fun lock => (Bool.or_false _).symm) nofun h.form
  · next hfree =>
      refine exact_turned h ?_ ?_ fun _ => hform
      · intro lock
        cases lock with
        | account name => exact (Bool.or_false _).symm
        | form => exact (Bool.or_true _).symm
      · intro lock hacquires
        simp only [acquires, Request.lock, beq_iff_eq, Option.some.injEq] at hacquires
        subst hacquires
        exact Bool.eq_false_iff.mpr hfree

/-- A form that is not busy comes or goes. -/
theorem exact_withForm (h : Exact s) (hbusy : s.page.busy = false) (showForm : Bool) :
    Exact (s.turned (s.page.withForm showForm, none)) := by
  refine exact_turned h ?_ nofun nofun
  intro lock
  cases lock with
  | account name => exact (Bool.or_false _).symm
  | form => exact hbusy.symm.trans (Bool.or_false _).symm

theorem exact_step {store : SecretStore} {s' : Site} {a : Act} (h : Exact s)
    (hstep : step store s a = some s') : Exact s' := by
  have hsame : ∀ {page : Page}, (∀ lock, page.locked lock = s.page.locked lock) →
      (page.busy = true → page.showForm = true) → Exact (s.turned (page, none)) := by
    intro page hlocked hform
    exact exact_turned h (fun lock => (hlocked lock).trans (Bool.or_false _).symm) nofun hform
  cases step_takes hstep with
  | server hserver => exact ⟨h.holders, h.form⟩
  | @arrive i f server hi hcourse hserver =>
      refine ⟨?_, h.form⟩
      intro lock
      have hcount := count_withCourse lock hi (.serving s.server.threads.length)
      have hunderway : f.holds lock = acquires (some f.request) lock := by
        refine holds_of_isOpen ?_ lock
        rw [hcourse]
        rfl
      have hserving : Flight.holds lock { f with course := .serving s.server.threads.length } =
          acquires (some f.request) lock := holds_of_isOpen rfl lock
      rw [hunderway, hserving] at hcount
      exact (Nat.add_right_cancel hcount).trans (h.holders lock)
  | @answer i f thread call prog errorId answer hi hcourse hthread hended =>
      refine exact_settle h hi ?_ answer
      rw [hcourse]
      rfl
  | fail hi hopen => exact exact_settle h hi hopen _
  | drop hi hcourse hwrite => exact exact_dropped h hi hcourse hwrite
  | delete => exact exact_handleDelete h _
  | openForm hform =>
      refine exact_withForm h ?_ true
      rw [Bool.eq_false_iff]
      intro hbusy
      rw [h.form hbusy] at hform
      cases hform
  | cancelForm hbusy => exact exact_withForm h hbusy false
  | submit hform => exact exact_handleSubmit h hform _
  | dismissError =>
      refine hsame ?_ h.form
      intro lock
      cases lock <;> rfl
  | dismissFormError =>
      refine hsame ?_ h.form
      intro lock
      cases lock <;> rfl

theorem exact_mounted (server : RoutePool) : Exact (.mounted server) := by
  refine ⟨?_, nofun⟩
  intro lock
  cases lock <;> rfl

/-! ## 3. What is never released -/

/-- A request that has been given up stays so. -/
theorem dropped_step {store : SecretStore} {s' : Site} {a : Act}
    (hstep : step store s a = some s') {k : Nat} {f : Flight} (hk : s.sent[k]? = some f)
    (hdropped : f.course = .dropped) : s'.sent[k]? = some f := by
  obtain ⟨hlt, -⟩ := List.getElem?_eq_some_iff.mp hk
  have hturned : ∀ (t : Site) (turn : Page × Option Request), t.sent[k]? = some f →
      (t.turned turn).sent[k]? = some f := by
    intro t turn ht
    obtain ⟨ht', -⟩ := List.getElem?_eq_some_iff.mp ht
    exact (List.getElem?_append_left ht').trans ht
  have hset : ∀ {i : Nat} {g : Flight} (course : Course), s.sent[i]? = some g →
      g.course.isOpen = true → (s.withCourse i g course).sent[k]? = some f := by
    intro i g course hi hopen
    refine (List.getElem?_set_ne ?_).trans hk
    rintro rfl
    rw [hk, Option.some.injEq] at hi
    rw [← hi, hdropped] at hopen
    cases hopen
  cases step_takes hstep with
  | server hserver => exact hk
  | arrive hi hcourse hserver => exact hset _ hi (by rw [hcourse]; rfl)
  | answer hi hcourse hthread hended =>
      exact hturned _ _ (hset _ hi (by rw [hcourse]; rfl))
  | fail hi hopen => exact hturned _ _ (hset _ hi hopen)
  | drop hi hcourse hwrite => exact hturned _ _ (hset _ hi (by rw [hcourse]; rfl))
  | delete => exact hturned _ _ hk
  | openForm hform => exact hturned _ _ hk
  | cancelForm hbusy => exact hturned _ _ hk
  | submit hform => exact hturned _ _ hk
  | dismissError => exact hturned _ _ hk
  | dismissFormError => exact hturned _ _ hk

theorem dropped_reaches {store : SecretStore} {s' : Site}
    (h : Reaches (step store) Unguarded s s') {k : Nat} {f : Flight} (hk : s.sent[k]? = some f)
    (hdropped : f.course = .dropped) : s'.sent[k]? = some f := by
  induction h with
  | start => exact hk
  | step _ _ hstep ih => exact dropped_step hstep ih hdropped

/-- **A lock is held exactly while one request holds it**; and a form whose request has been given
    up is busy ever after. -/
theorem locks_exact {store : SecretStore} {server : RoutePool}
    (h : Reaches (step store) Unguarded (.mounted server) s) :
    (∀ lock, s.sent.countP (Flight.holds lock) = (s.page.locked lock).toNat) ∧
      ∀ f ∈ s.sent, f.request.lock = some .form → f.course = .dropped →
        ∀ s', Reaches (step store) Unguarded s s' → s'.page.busy = true := by
  have hexact : ∀ s', Reaches (step store) Unguarded (.mounted server) s' → Exact s' := by
    intro s' hs'
    exact hs'.invariant (exact_mounted server) fun _ _ _ hinv _ hstep => exact_step hinv hstep
  refine ⟨(hexact s h).holders, ?_⟩
  intro f hf hlock hdropped s' hs'
  obtain ⟨k, hk⟩ := List.getElem?_of_mem hf
  have hf' := List.mem_of_getElem? (dropped_reaches hs' hk hdropped)
  have hholds : f.holds .form = true := by simp [Flight.holds, hlock, hdropped]
  exact (hexact s' (h.trans hs')).locked hf' hholds

/-- A form is filled in, its token request fails, and the form is sent again and cancelled. -/
def tokenFails (payload : AccountCreateRequest) : List Act :=
  [.openForm, .submit payload, .drop 1, .submit payload, .dismissFormError]

theorem locks_exact_tokenFails :
    ∃ s, Reaches (step openStore) Unguarded (.mounted ⟨⟨.empty, none⟩, []⟩) s ∧
      s.sent.countP (Flight.holds .form) = 1 ∧
      step openStore s .cancelForm = none ∧
      ∀ s', Reaches (step openStore) Unguarded s s' → s'.page.busy = true := by
  have hreach : Reaches (step openStore) Unguarded (.mounted ⟨⟨.empty, none⟩, []⟩) _ :=
    play_get_reaches (tokenFails readOnlyKey) (by decide +kernel)
  obtain ⟨hholders, hbusy⟩ := locks_exact hreach
  refine ⟨_, hreach, ?_, rfl, ?_⟩
  · rw [hholders]
    decide +kernel
  · refine hbusy ⟨.submit readOnlyKey, 0, .dropped⟩ ?_ rfl rfl
    decide +kernel

end Locks

end FundingTool.AccountsPage
