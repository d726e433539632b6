import FundingTool.AccountsPage

/-!
# What the accounts page shows

An answer tells of a moment between the sending of its request and its arrival.  The load
numbered last was sent after every confirmation the page has got, since a confirmation sends a
load; so its list is younger than every write the page knows of, whatever older answers are still
on their way.
-/

namespace FundingTool.AccountsPage

open FundingTool.AccountRoutes FundingTool.Interaction FundingTool.TransitionSystem
open FundingTool.Timeline (extends_next)

/-! ## 1. What an answer tells -/

/-- What `list_accounts` answers. -/
def listed (db : SecretDb) : List AccountOut := (SecretStore.listAccounts db).map recordToOut

def Has (name : String) (db : SecretDb) : Prop := db.accounts.get? name ≠ none

def Appears (name : String) (before after : SecretDb) : Prop :=
  ¬ Has name before ∧ Has name after

def Vanishes (name : String) (before after : SecretDb) : Prop :=
  Has name before ∧ ¬ Has name after

/-- The change takes place in the step after the moment. -/
def ChangesAt (line : Timeline SecretDb) (moment : Nat)
    (change : SecretDb → SecretDb → Prop) : Prop :=
  ∃ before after, line.at? moment = some before ∧ line.at? (moment + 1) = some after ∧
    change before after

def Changed (line : Timeline SecretDb) (since till : Nat)
    (change : SecretDb → SecretDb → Prop) : Prop :=
  ∃ moment, since ≤ moment ∧ moment < till ∧ ChangesAt line moment change

/-- What a response says of the time from the sending of the request to its own arrival. -/
def Tells (line : Timeline SecretDb) (since till : Nat) : Request → Response → Prop
  | .load .., response => ∃ moment db, since ≤ moment ∧ moment ≤ till ∧
      line.at? moment = some db ∧ response = .accounts (listed db)
  | .delete name, response => response = .noContent ∧ Changed line since till (Vanishes name)
  | .submit payload, response =>
      (∃ account, response = .created account) ∧ Changed line since till (Appears payload.name)

theorem mem_listed_iff {name : String} {db : SecretDb} :
    (∃ account ∈ listed db, account.name = name) ↔ Has name db := by
  simp only [listed, SecretStore.listAccounts, List.mem_map, List.mem_insertionSort, Has, ne_eq,
    Option.ne_none_iff_exists', OrderedDict.get?_eq_some_iff]
  constructor
  · rintro ⟨account, ⟨record, ⟨entry, hentry, rfl⟩, rfl⟩, rfl⟩
    exact ⟨entry.2, hentry⟩
  · rintro ⟨row, hrow⟩
    exact ⟨_, ⟨_, ⟨(name, row), hrow, rfl⟩, rfl⟩, rfl⟩

theorem Changed.mono {line later : Timeline SecretDb} {since till till' : Nat}
    {change : SecretDb → SecretDb → Prop} (h : Changed line since till change)
    (hlater : line.Extends later) (htill : till ≤ till') : Changed later since till' change := by
  obtain ⟨moment, hsince, hlt, before, after, hbefore, hafter, hchange⟩ := h
  exact ⟨moment, hsince, Nat.lt_of_lt_of_le hlt htill, before, after, hlater.at? hbefore,
    hlater.at? hafter, hchange⟩

theorem Tells.mono {line later : Timeline SecretDb} {since till till' : Nat} {r : Request}
    {response : Response} (h : Tells line since till r response) (hlater : line.Extends later)
    (htill : till ≤ till') : Tells later since till' r response := by
  cases r with
  | load id deleted =>
      obtain ⟨moment, db, hsince, hle, hat, hresponse⟩ := h
      exact ⟨moment, db, hsince, Nat.le_trans hle htill, hlater.at? hat, hresponse⟩
  | delete name => exact ⟨h.1, h.2.mono hlater htill⟩
  | submit payload => exact ⟨h.1, h.2.mono hlater htill⟩

/-- The change an operation makes now. -/
theorem changed_next {line : Timeline SecretDb} {since : Nat} (hsince : since ≤ line.now)
    {db : SecretDb} {change : SecretDb → SecretDb → Prop} (hchange : change line.present db) :
    Changed (line.next db) since (line.next db).now change := by
  refine ⟨line.now, hsince, by rw [Timeline.now_next]; exact Nat.lt_succ_self _, line.present, db,
    (extends_next line db).at? line.at?_now, line.at?_next db, hchange⟩

/-! ## 2. What the routes promise -/

section Routes

variable {store : SecretStore}

abbrev Assures (store : SecretStore) {α : Type} (Post : Timeline SecretDb → α → Prop)
    (prog : Route α) (line : Timeline SecretDb) : Prop :=
  prog.Promises (AccountRoutes.perform store) Post line

abbrev Promised (store : SecretStore) (since : Nat) (r : Request) (prog : Route Response)
    (line : Timeline SecretDb) : Prop :=
  Assures store (fun line response => Tells line since line.now r response) prog line

theorem lasting_tells (since : Nat) (r : Request) :
    Prog.Lasting fun (line : Timeline SecretDb) response => Tells line since line.now r response :=
  fun _ _ _ hlater h => h.mono hlater hlater.now_le

theorem lasting_changed (since : Nat) (change : SecretDb → SecretDb → Prop) :
    Prog.Lasting fun (line : Timeline SecretDb) (_ : Unit) =>
      Changed line since line.now change :=
  fun _ _ _ hlater h => h.mono hlater hlater.now_le

theorem list_promised {since id : Nat} {deleted : Option String} {line : Timeline SecretDb}
    (hsince : since ≤ line.now) :
    Promised store since (.load id deleted) listAccountsRoute line := by
  intro later c hlater
  have hle : since ≤ later.now := Nat.le_trans hsince hlater.now_le
  refine ⟨later.now, later.present, hle, ?_, (extends_next later _).at? later.at?_now, rfl⟩
  exact (extends_next later _).now_le

theorem delete_promised {since : Nat} {name : String} {line : Timeline SecretDb}
    (hsince : since ≤ line.now) :
    Promised store since (.delete name) (deleteAccountRoute name) line := by
  intro later c hlater
  have hle : since ≤ later.now := Nat.le_trans hsince hlater.now_le
  simp only [AccountRoutes.perform]
  rcases hdelete : SecretStore.deleteAccount name later.present with e | db
  · trivial
  · refine ⟨rfl, changed_next hle ⟨?_, ?_⟩⟩
    · intro hnone
      simp only [SecretStore.deleteAccount, hnone, reduceCtorEq] at hdelete
    · rw [SecretStore.deleteAccount_ok hdelete, Has, not_not]
      exact OrderedDict.get?_erase_self _ _

theorem create_promised {since : Nat} {payload : AccountCreateRequest}
    {line : Timeline SecretDb} (hsince : since ≤ line.now) :
    Promised store since (.submit payload) (createAccount payload) line := by
  have hverify : Assures store (fun _ _ => True) (verifyCredentials payload.creds) line :=
    fun _ _ _ => trivial
  refine hverify.bind ?_
  intro line₁ answer hline₁ _
  have hreport : Assures store (fun _ _ => True) (Prog.ofExcept (verified answer)) line₁ :=
    Prog.Promises.ofExcept fun _ _ => trivial
  refine hreport.bind ?_
  intro line₂ report hline₂ _
  have hle : since ≤ line₂.now :=
    Nat.le_trans hsince (Nat.le_trans hline₁.now_le hline₂.now_le)
  have hadd : Assures store
      (fun line added => added = .ok () → Changed line since line.now (Appears payload.name))
      (addAccount payload.name payload.label payload.creds) line₂ := by
    intro later c hlater
    simp only [AccountRoutes.perform]
    rcases hadd : store.addAccount payload.name payload.label payload.creds c.nonce c.now
      later.present with e | db
    · exact fun herror => absurd herror (by simp)
    · intro _
      obtain ⟨cipher, -, hfree, -, rfl⟩ := SecretStore.addAccount_ok hadd
      refine changed_next (Nat.le_trans hle hlater.now_le) ⟨not_not.mpr hfree, ?_⟩
      rw [Has, OrderedDict.get?_set_self]
      exact Option.some_ne_none _
  refine hadd.bind ?_
  intro line₃ added _ hadded
  have hinserted : Assures store
      (fun line _ => Changed line since line.now (Appears payload.name))
      (Prog.ofExcept (inserted added)) line₃ := by
    refine Prog.Promises.ofExcept ?_
    intro _ hok
    cases added with
    | ok _ => exact hadded rfl
    | error e => cases hok
  refine hinserted.bind ?_
  intro line₄ _ _ hchanged
  have hupdate : Assures store
      (fun line _ => Changed line since line.now (Appears payload.name))
      (updatePermissions payload.name (mapPermissionReport report)) line₄ := by
    intro later c hlater
    exact lasting_changed since _ _ _ () (hlater.trans (extends_next later _)) hchanged
  refine hupdate.bind ?_
  intro line₅ _ _ hchanged
  have hlist : Assures store
      (fun line _ => Changed line since line.now (Appears payload.name)) listAccounts line₅ := by
    intro later c hlater
    exact lasting_changed since _ _ _ () (hlater.trans (extends_next later _)) hchanged
  refine hlist.bind ?_
  intro line₆ records _ hchanged
  split
  · trivial
  · exact ⟨⟨_, rfl⟩, hchanged⟩

theorem program_promised {since : Nat} (r : Request) {line : Timeline SecretDb}
    (hsince : since ≤ line.now) : Promised store since r r.call.program line := by
  cases r with
  | load id deleted => exact list_promised hsince
  | delete name => exact delete_promised hsince
  | submit payload => exact create_promised hsince

end Routes

/-! ## 3. The requests -/

/-- What is known of a request, from the server's side. -/
structure Kept (store : SecretStore) (server : RoutePool) (line : Timeline SecretDb)
    (f : Flight) : Prop where
  sentAt : f.sentAt ≤ line.now
  serving : ∀ thread, f.course = .serving thread → ∃ prog,
    server.threads[thread]? = some (f.request.call, prog) ∧
      Promised store f.sentAt f.request prog line
  settled : ∀ response moment, f.course = .settled (.ok response) moment →
    moment ≤ line.now ∧ Tells line f.sentAt moment f.request response

section Requests

variable {store : SecretStore} {s : Site} {f : Flight}

theorem kept_sent (s : Site) (r : Request) :
    Kept store s.server s.timeline ⟨r, s.now, .underway⟩ where
  sentAt := Nat.le_refl _
  serving _ h := by cases h
  settled _ _ h := by cases h

/-- A step of the server keeps what is known of every request. -/
theorem kept_moved {a : PoolAct AccountCall RouteChoice RouteError} {server : RoutePool}
    (h : Kept store s.server s.timeline f)
    (hserver : (routeMachine store).step s.server a = some server) :
    Kept store server (s.moved server).timeline f where
  sentAt := Nat.le_trans h.sentAt (extends_next s.timeline server.state).now_le
  serving thread hcourse := by
    obtain ⟨prog, hthread, hprog⟩ := h.serving thread hcourse
    exact Machine.promises_step (lasting_tells f.sentAt f.request) hserver rfl hthread hprog
  settled response moment hcourse := by
    obtain ⟨hle, htells⟩ := h.settled response moment hcourse
    have hlater : s.timeline.Extends (s.moved server).timeline := extends_next _ _
    exact ⟨Nat.le_trans hle hlater.now_le, htells.mono hlater (Nat.le_refl _)⟩

theorem kept_arrived {server : RoutePool} (h : Kept store s.server s.timeline f)
    (hserver : (routeMachine store).step s.server (.spawn f.request.call) = some server) :
    Kept store server (s.moved server).timeline
      { f with course := .serving s.server.threads.length } where
  sentAt := (kept_moved h hserver).sentAt
  serving thread hcourse := by
    simp only [Course.serving.injEq] at hcourse
    subst hcourse
    simp only [Machine.step, Option.some.injEq] at hserver
    subst hserver
    refine ⟨f.request.call.program, ?_, ?_⟩
    · simp only [List.getElem?_concat_length]
      rfl
    · exact program_promised f.request
        (Nat.le_trans h.sentAt (extends_next s.timeline _).now_le)
  settled response moment hcourse := by cases hcourse

/-- An answer with a response comes from the route, which has kept its promise. -/
theorem kept_settled {answer : Answer} (h : Kept store s.server s.timeline f)
    (hanswer : ∀ response, answer = .ok response →
      Tells s.timeline f.sentAt s.now f.request response) :
    Kept store s.server s.timeline { f with course := .settled answer s.now } where
  sentAt := h.sentAt
  serving thread hcourse := by cases hcourse
  settled response moment hcourse := by
    simp only [Course.settled.injEq] at hcourse
    obtain ⟨hok, rfl⟩ := hcourse
    exact ⟨Nat.le_refl _, hanswer response hok⟩

theorem kept_dropped (h : Kept store s.server s.timeline f) :
    Kept store s.server s.timeline { f with course := .dropped } where
  sentAt := h.sentAt
  serving thread hcourse := by cases hcourse
  settled response moment hcourse := by cases hcourse

theorem tells_ended {thread : Nat} {call : AccountCall} {prog : Route Response}
    (h : Kept store s.server s.timeline f) (hcourse : f.course = .serving thread)
    (hthread : s.server.threads[thread]? = some (call, prog)) {errorId : String}
    {answer : Answer} (hended : ended errorId prog = some answer) {response : Response}
    (hok : answer = .ok response) : Tells s.timeline f.sentAt s.now f.request response := by
  obtain ⟨prog', hthread', hprog⟩ := h.serving thread hcourse
  rw [hthread, Option.some.injEq, Prod.mk.injEq] at hthread'
  obtain ⟨-, rfl⟩ := hthread'
  subst hok
  cases prog with
  | ret response' =>
      simp only [ended, Option.some.injEq, Except.ok.injEq] at hended
      subst hended
      exact hprog
  | raise e => cases hended
  | call o k => cases hended

end Requests

/-! ## 4. The order of the loads -/

def Flight.Confirmed (f : Flight) (moment : Nat) : Prop :=
  f.request.isWrite = true ∧ ∃ response, f.course = .settled (.ok response) moment

/-- The load numbered last. -/
def Site.Latest (s : Site) (f : Flight) : Prop :=
  ∃ deleted, f.request = .load s.page.loadId deleted

/-- The load numbered last has been answered with a list. -/
def Site.AtRest (s : Site) : Prop :=
  ∃ f ∈ s.sent, s.Latest f ∧ ∃ response moment, f.course = .settled (.ok response) moment

structure Ordered (s : Site) : Prop where
  ids : ∀ f ∈ s.sent, ∀ id deleted, f.request = .load id deleted → id ≤ s.page.loadId
  latest : ∀ f ∈ s.sent, s.Latest f → ∀ g ∈ s.sent, ∀ moment, g.Confirmed moment →
    moment ≤ f.sentAt
  shown : ∀ accs, s.page.accs = some accs → ∃ moment db, s.timeline.at? moment = some db ∧
    accs = listed db ∧ (s.AtRest → ∀ g ∈ s.sent, ∀ u, g.Confirmed u → u ≤ moment)
  rests : s.AtRest → s.page.accs ≠ none

/-- The request was there before, and if it has been answered since, it is a load that another
    one has superseded; or it is a write just sent. -/
def Carries (s : Site) (f' : Flight) : Prop :=
  (∃ f ∈ s.sent, f'.request = f.request ∧ f'.sentAt = f.sentAt ∧
    (f.request.isWrite = true ∨ s.Latest f → ∀ response moment,
      f'.course = .settled (.ok response) moment → f.course = .settled (.ok response) moment)) ∨
  f'.request.isWrite = true ∧ f'.course = .underway

section Order

variable {s s' : Site}

theorem Carries.confirmed {f' : Flight} (h : Carries s f') {moment : Nat}
    (hconfirmed : f'.Confirmed moment) : ∃ f ∈ s.sent, f.Confirmed moment := by
  obtain ⟨hwrite, response, hcourse⟩ := hconfirmed
  rcases h with ⟨f, hf, hrequest, -, hsettled⟩ | ⟨-, hunderway⟩
  · rw [hrequest] at hwrite
    exact ⟨f, hf, hwrite, response, hsettled (.inl hwrite) response moment hcourse⟩
  · rw [hunderway] at hcourse
    cases hcourse

theorem Carries.load {f' : Flight} (h : Carries s f') {id : Nat} {deleted : Option String}
    (hload : f'.request = .load id deleted) : ∃ f ∈ s.sent, f.request = .load id deleted ∧
      f'.sentAt = f.sentAt ∧ (id = s.page.loadId → ∀ response moment,
        f'.course = .settled (.ok response) moment →
          f.course = .settled (.ok response) moment) := by
  rcases h with ⟨f, hf, hrequest, hsentAt, hsettled⟩ | ⟨hwrite, -⟩
  · rw [hrequest] at hload
    refine ⟨f, hf, hload, hsentAt, ?_⟩
    rintro rfl
    exact hsettled (.inr ⟨deleted, hload⟩)
  · rw [hload] at hwrite
    cases hwrite

/-- **What leaves the list and the numbers alone** keeps the order. -/
theorem Ordered.carry (h : Ordered s) (haccs : s'.page.accs = s.page.accs)
    (hid : s'.page.loadId = s.page.loadId) (hline : s.timeline.Extends s'.timeline)
    (hsent : ∀ f' ∈ s'.sent, Carries s f') : Ordered s' := by
  have hrest : s'.AtRest → s.AtRest := by
    rintro ⟨f', hf', ⟨deleted, hload⟩, response, moment, hcourse⟩
    obtain ⟨f, hf, hload, -, hsettled⟩ := (hsent f' hf').load hload
    exact ⟨f, hf, ⟨deleted, hid ▸ hload⟩, response, moment, hsettled hid response moment hcourse⟩
  have hconfirmed : ∀ g' ∈ s'.sent, ∀ moment, g'.Confirmed moment →
      ∃ g ∈ s.sent, g.Confirmed moment := fun g' hg' moment => (hsent g' hg').confirmed
  refine ⟨?_, ?_, ?_, ?_⟩
  · intro f' hf' id deleted hload
    obtain ⟨f, hf, hload, -⟩ := (hsent f' hf').load hload
    rw [hid]
    exact h.ids f hf id deleted hload
  · rintro f' hf' ⟨deleted, hload⟩ g' hg' moment hg'moment
    obtain ⟨f, hf, hload, hsentAt, -⟩ := (hsent f' hf').load hload
    obtain ⟨g, hg, hgmoment⟩ := hconfirmed g' hg' moment hg'moment
    rw [hsentAt]
    exact h.latest f hf ⟨deleted, hid ▸ hload⟩ g hg moment hgmoment
  · intro accs hshown
    obtain ⟨moment, db, hat, hlisted, hyoung⟩ := h.shown accs (haccs ▸ hshown)
    refine ⟨moment, db, hline.at? hat, hlisted, ?_⟩
    intro hat' g' hg' u hg'u
    obtain ⟨g, hg, hgu⟩ := hconfirmed g' hg' u hg'u
    exact hyoung (hrest hat') g hg u hgu
  · intro hat
    rw [haccs]
    exact h.rests (hrest hat)

theorem carries_old {f : Flight} (hf : f ∈ s.sent) : Carries s f :=
  .inl ⟨f, hf, rfl, rfl, fun _ _ _ h => h⟩

/-- A course that confirms nothing. -/
theorem carries_withCourse {i : Nat} {f : Flight} (hi : s.sent[i]? = some f) {course : Course}
    (hcourse : f.request.isWrite = true ∨ s.Latest f →
      ∀ response moment, course ≠ .settled (.ok response) moment) :
    ∀ f' ∈ (s.withCourse i f course).sent, Carries s f' := by
  intro f' hf'
  rcases List.mem_or_eq_of_mem_set hf' with hold | rfl
  · exact carries_old hold
  · refine .inl ⟨f, List.mem_of_getElem? hi, rfl, rfl, ?_⟩
    intro hmatters response moment h
    exact absurd h (hcourse hmatters response moment)

/-- A turn of the page that sends no load. -/
theorem carries_turned {sent : List Flight} (hsent : ∀ f' ∈ sent, Carries s f')
    {turn : Page × Option Request} {moment : Nat}
    (hturn : ∀ r, turn.2 = some r → r.isWrite = true) :
    ∀ f' ∈ sent ++ (turn.2.map fun r => (⟨r, moment, .underway⟩ : Flight)).toList,
      Carries s f' := by
  intro f' hf'
  rcases List.mem_append.mp hf' with hold | hnew
  · exact hsent f' hold
  · obtain ⟨r, hr, rfl⟩ := Option.map_eq_some_iff.mp (Option.mem_toList.mp hnew)
    exact .inr ⟨hturn r hr, rfl⟩

theorem Ordered.turned (h : Ordered s) {turn : Page × Option Request}
    (haccs : turn.1.accs = s.page.accs) (hid : turn.1.loadId = s.page.loadId)
    (hturn : ∀ r, turn.2 = some r → r.isWrite = true) : Ordered (s.turned turn) :=
  h.carry haccs hid (.refl _) (carries_turned (fun _ => carries_old) hturn)

/-- An answer that confirms nothing and brings no list. -/
theorem Ordered.settled (h : Ordered s) {i : Nat} {f : Flight} (hi : s.sent[i]? = some f)
    {course : Course} (hcourse : f.request.isWrite = true ∨ s.Latest f →
      ∀ response moment, course ≠ .settled (.ok response) moment) {page : Page}
    (haccs : page.accs = s.page.accs) (hid : page.loadId = s.page.loadId) :
    Ordered ((s.withCourse i f course).turned (page, none)) := by
  have hquiet : ∀ r, ((page, none) : Page × Option Request).2 = some r → r.isWrite = true := nofun
  exact h.carry haccs hid (.refl _) (carries_turned (carries_withCourse hi hcourse) hquiet)

/-- **A confirmation sends a load**, which is numbered last and younger than it. -/
theorem Ordered.confirmed (h : Ordered s) {i : Nat} {f : Flight}
    (hwrite : f.request.isWrite = true) {answer : Answer}
    (hpast : ∀ g ∈ (s.withCourse i f (.settled answer s.now)).sent, ∀ moment,
      g.Confirmed moment → moment ≤ s.now)
    {page : Page} (haccs : page.accs = s.page.accs) (hid : page.loadId = s.page.loadId)
    (deleted : Option String) :
    Ordered ((s.withCourse i f (.settled answer s.now)).turned (page.load deleted)) := by
  let sent := (s.withCourse i f (.settled answer s.now)).sent
  let fresh : Flight := ⟨.load (page.loadId + 1) deleted, s.now, .underway⟩
  have hsent : ∀ g ∈ sent ++ [fresh], g ∈ sent ∨ g = fresh := by
    intro g hg
    exact (List.mem_append.mp hg).imp_right List.mem_singleton.mp
  have hfresh : ∀ moment, ¬ fresh.Confirmed moment := by
    rintro moment ⟨hload, -⟩
    cases hload
  have hids : ∀ g ∈ sent, ∀ id deleted, g.request = .load id deleted → id ≤ page.loadId := by
    intro g hg id deleted hload
    rw [hid]
    rcases List.mem_or_eq_of_mem_set hg with hold | rfl
    · exact h.ids g hold id deleted hload
    · rw [show f.request = .load id deleted from hload] at hwrite
      cases hwrite
  have hlatest : ∀ g ∈ sent ++ [fresh], ∀ deleted,
      g.request = .load (page.loadId + 1) deleted → g = fresh := by
    intro g hg deleted hload
    rcases hsent g hg with hold | hnew
    · have hle := hids g hold _ _ hload
      omega
    · exact hnew
  have hunrested : ¬ Site.AtRest
      ((s.withCourse i f (.settled answer s.now)).turned (page.load deleted)) := by
    rintro ⟨g, hg, ⟨deleted', hload⟩, response, moment, hcourse⟩
    rw [hlatest g hg deleted' hload] at hcourse
    cases hcourse
  refine ⟨?_, ?_, ?_, fun hat => absurd hat hunrested⟩
  · intro g hg id deleted' hload
    rcases hsent g hg with hold | rfl
    · exact Nat.le_succ_of_le (hids g hold id deleted' hload)
    · cases hload
      exact Nat.le_refl _
  · rintro g hg ⟨deleted', hload⟩ g' hg' moment hconfirmed
    rw [hlatest g hg deleted' hload]
    rcases hsent g' hg' with hold | rfl
    · exact hpast g' hold moment hconfirmed
    · exact absurd hconfirmed (hfresh moment)
  · intro accs hshown
    obtain ⟨moment, db, hat, hlisted, -⟩ := h.shown accs (haccs ▸ hshown)
    exact ⟨moment, db, hat, hlisted, fun hat => absurd hat hunrested⟩

/-- **The answer to the load numbered last** is a list younger than every confirmation. -/
theorem Ordered.listed (h : Ordered s) {i : Nat} {f : Flight} (hi : s.sent[i]? = some f)
    (hlatest : s.Latest f) {response : Response}
    (htells : Tells s.timeline f.sentAt s.now f.request response) {page : Page}
    (haccs : page.accs = some (accountsOf response)) (hid : page.loadId = s.page.loadId) :
    Ordered ((s.withCourse i f (.settled (.ok response) s.now)).turned (page, none)) := by
  obtain ⟨deleted, hload⟩ := hlatest
  have hsent : ∀ g ∈ (s.withCourse i f (.settled (.ok response) s.now)).sent,
      g ∈ s.sent ∨ g = { f with course := .settled (.ok response) s.now } :=
    fun g hg => List.mem_or_eq_of_mem_set hg
  have hconfirmed : ∀ g ∈ (s.withCourse i f (.settled (.ok response) s.now)).sent, ∀ moment,
      g.Confirmed moment → g ∈ s.sent := by
    rintro g hg moment ⟨hwrite, -⟩
    refine (hsent g hg).resolve_right ?_
    rintro rfl
    simp only [hload] at hwrite
    cases hwrite
  rw [hload] at htells
  obtain ⟨moment, db, hsince, -, hat, rfl⟩ := htells
  have hturned : ((s.withCourse i f (.settled (.ok (.accounts (AccountsPage.listed db)))
      s.now)).turned (page, none)).sent = _ := List.append_nil _
  refine ⟨?_, ?_, ?_, ?_⟩
  · intro g hg id deleted' hg'
    rw [hturned] at hg
    rw [Site.turned, hid]
    rcases hsent g hg with hold | rfl
    · exact h.ids g hold id deleted' hg'
    · exact h.ids f (List.mem_of_getElem? hi) id deleted' hg'
  · rintro g hg ⟨deleted', hg'⟩ g' hgsent' u hgu
    rw [hturned] at hg hgsent'
    rw [Site.turned, hid] at hg'
    have hold' := hconfirmed g' hgsent' u hgu
    rcases hsent g hg with hold | rfl
    · exact h.latest g hold ⟨deleted', hg'⟩ g' hold' u hgu
    · exact h.latest f (List.mem_of_getElem? hi) ⟨deleted', hg'⟩ g' hold' u hgu
  · intro accs hshown
    rw [Site.turned, haccs, Option.some.injEq] at hshown
    refine ⟨moment, db, hat, hshown.symm, ?_⟩
    intro _ g hg u hgu
    rw [hturned] at hg
    have hle := h.latest f (List.mem_of_getElem? hi) ⟨deleted, hload⟩ g (hconfirmed g hg u hgu)
      u hgu
    exact Nat.le_trans hle hsince
  · intro _
    rw [Site.turned, haccs]
    exact Option.some_ne_none _

end Order

/-! ## 5. Every step -/

structure Sound (store : SecretStore) (s : Site) : Prop where
  kept : ∀ f ∈ s.sent, Kept store s.server s.timeline f
  ordered : Ordered s

section Steps

variable {store : SecretStore} {s s' : Site}

theorem kept_withCourse (h : ∀ f ∈ s.sent, Kept store s.server s.timeline f) {i : Nat}
    {f : Flight} {course : Course}
    (hf : Kept store s.server s.timeline { f with course := course }) :
    ∀ g ∈ (s.withCourse i f course).sent, Kept store s.server s.timeline g := by
  intro g hg
  rcases List.mem_or_eq_of_mem_set hg with hold | rfl
  · exact h g hold
  · exact hf

theorem kept_turned (h : ∀ f ∈ s.sent, Kept store s.server s.timeline f)
    (turn : Page × Option Request) :
    ∀ g ∈ (s.turned turn).sent, Kept store s.server s.timeline g := by
  intro g hg
  rcases List.mem_append.mp hg with hold | hnew
  · exact h g hold
  · obtain ⟨r, -, rfl⟩ := Option.map_eq_some_iff.mp (Option.mem_toList.mp hnew)
    exact kept_sent s r

/-- A turn of the page that sends no load keeps everything. -/
theorem sound_turned (h : Sound store s) {turn : Page × Option Request}
    (haccs : turn.1.accs = s.page.accs) (hid : turn.1.loadId = s.page.loadId)
    (hturn : ∀ r, turn.2 = some r → r.isWrite = true) : Sound store (s.turned turn) :=
  ⟨kept_turned h.kept turn, h.ordered.turned haccs hid hturn⟩

theorem released_accs (p : Page) (deleted : Option String) :
    (p.released deleted).accs = p.accs := by
  cases deleted <;> rfl

theorem released_loadId (p : Page) (deleted : Option String) :
    (p.released deleted).loadId = p.loadId := by
  cases deleted <;> rfl

theorem confirmed_past (h : Sound store s) {i : Nat} {f : Flight} {answer : Answer} :
    ∀ g ∈ (s.withCourse i f (.settled answer s.now)).sent, ∀ moment,
      g.Confirmed moment → moment ≤ s.now := by
  rintro g hg moment ⟨-, response, hcourse⟩
  rcases List.mem_or_eq_of_mem_set hg with hold | rfl
  · exact ((h.kept g hold).settled response moment hcourse).1
  · cases hcourse
    exact Nat.le_refl _

/-- **An answer arrives**: of a load, with the list or an error; of a write, with a confirmation
    or an error. -/
theorem sound_settle (h : Sound store s) {i : Nat} {f : Flight} (hi : s.sent[i]? = some f)
    {answer : Answer} (hanswer : ∀ response, answer = .ok response →
      Tells s.timeline f.sentAt s.now f.request response) : Sound store (s.settle i f answer) := by
  refine ⟨kept_turned (s := s.withCourse i f _) (kept_withCourse h.kept ?_) _, ?_⟩
  · exact kept_settled (h.kept f (List.mem_of_getElem? hi)) hanswer
  have hsame : ∀ {page : Page}, page.accs = s.page.accs → page.loadId = s.page.loadId →
      (f.request.isWrite = true ∨ s.Latest f → ∀ response, answer ≠ .ok response) →
      Ordered ((s.withCourse i f (.settled answer s.now)).turned (page, none)) := by
    intro page haccs hid herror
    refine h.ordered.settled hi ?_ haccs hid
    intro hmatters response moment hcourse
    cases hcourse
    exact herror hmatters response rfl
  unfold Site.settle
  rcases hrequest : f.request with ⟨id, deleted⟩ | name | payload
  · simp only [Page.answered, Page.loaded]
    by_cases hid : id = s.page.loadId
    · rw [if_pos hid]
      rcases answer with e | response
      · exact hsame (released_accs _ _) (released_loadId _ _) fun _ => nofun
      · exact h.ordered.listed hi ⟨deleted, hid ▸ hrequest⟩ (hanswer response rfl)
          (released_accs _ _) (released_loadId _ _)
    · rw [if_neg hid]
      -- An answer to an older load is passed over, whatever it says.
      refine hsame (released_accs _ _) (released_loadId _ _) ?_
      rintro (hwrite | ⟨deleted', hlatest⟩)
      · rw [hrequest] at hwrite
        cases hwrite
      · rw [hrequest] at hlatest
        cases hlatest
        exact absurd rfl hid
  · rcases answer with e | response
    · exact hsame rfl rfl fun _ => nofun
    · refine h.ordered.confirmed ?_ (confirmed_past h) rfl rfl (some name)
      rw [hrequest]
      rfl
  · rcases answer with e | response
    · exact hsame rfl rfl fun _ => nofun
    · have htells := hanswer response rfl
      rw [hrequest] at htells
      obtain ⟨⟨account, rfl⟩, -⟩ := htells
      have hwrite : f.request.isWrite = true := by
        rw [hrequest]
        rfl
      have haccs : (s.page.withForm false).accs = s.page.accs := rfl
      exact h.ordered.confirmed hwrite (confirmed_past h) haccs rfl none

theorem sound_step {a : Act} (h : Sound store s) (hstep : step store s a = some s') :
    Sound store s' := by
  cases step_takes hstep with
  | @server a server hserver =>
      refine ⟨fun f hf => kept_moved (h.kept f hf) hserver, ?_⟩
      exact h.ordered.carry rfl rfl (extends_next _ _) fun f hf => carries_old hf
  | @arrive i f server hi hcourse hserver =>
      have hf := h.kept f (List.mem_of_getElem? hi)
      refine ⟨?_, ?_⟩
      · refine kept_withCourse (s := s.moved server) ?_ (kept_arrived hf hserver)
        exact fun g hg => kept_moved (h.kept g hg) hserver
      · refine h.ordered.carry rfl rfl (extends_next _ _) ?_
        exact carries_withCourse hi fun _ => nofun
  | @answer i f thread call prog errorId answer hi hcourse hthread hended =>
      refine sound_settle h hi ?_
      intro response hok
      exact tells_ended (h.kept f (List.mem_of_getElem? hi)) hcourse hthread hended hok
  | fail hi hopen =>
      refine sound_settle h hi ?_
      intro response hok
      cases hok
  | @drop i f hi hcourse hwrite =>
      refine ⟨kept_turned (s := s.withCourse i f _) (kept_withCourse h.kept ?_) _, ?_⟩
      · exact kept_dropped (h.kept f (List.mem_of_getElem? hi))
      · refine h.ordered.settled hi ?_ ?_ ?_
        · intro _ response moment hcourse
          cases hcourse
        · cases f.request <;> rfl
        · cases f.request <;> rfl
  | @delete name =>
      unfold Page.handleDelete
      split
      · exact sound_turned h rfl rfl nofun
      · refine sound_turned h rfl rfl ?_
        intro r hr
        cases hr
        rfl
  | openForm => exact sound_turned h rfl rfl nofun
  | cancelForm => exact sound_turned h rfl rfl nofun
  | @submit payload =>
      unfold Page.handleSubmit
      split
      · exact sound_turned h rfl rfl nofun
      · refine sound_turned h rfl rfl ?_
        intro r hr
        cases hr
        rfl
  | dismissError => exact sound_turned h rfl rfl nofun
  | dismissFormError => exact sound_turned h rfl rfl nofun

theorem sound_mounted (server : RoutePool) : Sound store (.mounted server) := by
  let bare : Site := { server := server, past := [], page := .initial, sent := [] }
  have hsent : ∀ f ∈ (Site.mounted server).sent, f = ⟨.load 1 none, 0, .underway⟩ :=
    fun f hf => List.mem_singleton.mp hf
  have hconfirmed : ∀ f ∈ (Site.mounted server).sent, ∀ moment, ¬ f.Confirmed moment := by
    rintro f hf moment ⟨hwrite, -⟩
    rw [hsent f hf] at hwrite
    cases hwrite
  refine ⟨kept_turned (s := bare) (fun _ hf => absurd hf List.not_mem_nil) _, ?_, ?_, ?_, ?_⟩
  · intro f hf id deleted hload
    rw [hsent f hf] at hload
    cases hload
    exact Nat.le_refl _
  · intro f _ _ g hg moment h
    exact absurd h (hconfirmed g hg moment)
  · intro accs hshown
    cases hshown
  · rintro ⟨f, hf, -, response, moment, hcourse⟩
    rw [hsent f hf] at hcourse
    cases hcourse

theorem sound_reaches {server : RoutePool}
    (h : Reaches (step store) Unguarded (.mounted server) s) : Sound store s :=
  h.invariant (sound_mounted server) fun _ _ _ hinv _ hstep => sound_step hinv hstep

end Steps

/-! ## 6. What is shown -/

/-- The account is shown. -/
def Page.Shows (p : Page) (name : String) : Prop :=
  ∃ accs, p.accs = some accs ∧ ∃ account ∈ accs, account.name = name

structure UpToDate (s : Site) : Prop where
  /-- What is shown is a list the database had; at rest, one it had after everything that has
      been confirmed. -/
  shown : ∀ accs, s.page.accs = some accs → ∃ moment db, s.timeline.at? moment = some db ∧
    accs = listed db ∧ (s.AtRest → ∀ g ∈ s.sent, ∀ u, g.Confirmed u → u ≤ moment)
  /-- At rest, a deleted account is shown only if it has come back. -/
  deleted : s.AtRest → ∀ f ∈ s.sent, ∀ name response u, f.request = .delete name →
    f.course = .settled (.ok response) u → s.page.Shows name →
      ∃ removed added, f.sentAt ≤ removed ∧ removed < u ∧ removed < added ∧
        ChangesAt s.timeline removed (Vanishes name) ∧ ChangesAt s.timeline added (Appears name)
  /-- At rest, a created account is not shown only if it has gone again. -/
  created : s.AtRest → ∀ f ∈ s.sent, ∀ payload response u, f.request = .submit payload →
    f.course = .settled (.ok response) u → ¬ s.page.Shows payload.name →
      ∃ added removed, f.sentAt ≤ added ∧ added < u ∧ added < removed ∧
        ChangesAt s.timeline added (Appears payload.name) ∧
        ChangesAt s.timeline removed (Vanishes payload.name)

section Shown

variable {store : SecretStore} {s : Site}

/-- At rest the page shows the names of a database younger than the confirmation. -/
theorem Sound.shows_iff (h : Sound store s) (hrest : s.AtRest) {f : Flight} (hf : f ∈ s.sent)
    {u : Nat} (hconfirmed : f.Confirmed u) :
    ∃ moment db, s.timeline.at? moment = some db ∧ u ≤ moment ∧
      ∀ name, s.page.Shows name ↔ Has name db := by
  obtain ⟨accs, haccs⟩ := Option.ne_none_iff_exists'.mp (h.ordered.rests hrest)
  obtain ⟨moment, db, hat, rfl, hyoung⟩ := h.ordered.shown accs haccs
  refine ⟨moment, db, hat, hyoung hrest f hf u hconfirmed, ?_⟩
  intro name
  rw [← mem_listed_iff]
  constructor
  · rintro ⟨accs', haccs', hname⟩
    rw [haccs, Option.some.injEq] at haccs'
    rw [haccs']
    exact hname
  · intro hname
    exact ⟨_, haccs, hname⟩

theorem Sound.deleted (h : Sound store s) (hrest : s.AtRest) {f : Flight} (hf : f ∈ s.sent)
    {name : String} {response : Response} {u : Nat} (hrequest : f.request = .delete name)
    (hcourse : f.course = .settled (.ok response) u) (hshows : s.page.Shows name) :
    ∃ removed added, f.sentAt ≤ removed ∧ removed < u ∧ removed < added ∧
      ChangesAt s.timeline removed (Vanishes name) ∧
      ChangesAt s.timeline added (Appears name) := by
  have hconfirmed : f.Confirmed u := ⟨by rw [hrequest]; rfl, response, hcourse⟩
  obtain ⟨-, htells⟩ := (h.kept f hf).settled response u hcourse
  rw [hrequest] at htells
  obtain ⟨-, removed, hsince, hlt, before, after, hbefore, hafter, hhas, hgone⟩ := htells
  obtain ⟨moment, db, hat, hle, hiff⟩ := h.shows_iff hrest hf hconfirmed
  have hback : ¬ ¬ Has name db := not_not.mpr ((hiff name).mp hshows)
  obtain ⟨added, hfirst, -, a, b, ha, hb, hnot, hnow⟩ :=
    Timeline.exists_loss (P := fun db => ¬ Has name db) hafter hgone (by omega) hat hback
  exact ⟨removed, added, hsince, hlt, hfirst, ⟨before, after, hbefore, hafter, hhas, hgone⟩,
    a, b, ha, hb, hnot, not_not.mp hnow⟩

theorem Sound.created (h : Sound store s) (hrest : s.AtRest) {f : Flight} (hf : f ∈ s.sent)
    {payload : AccountCreateRequest} {response : Response} {u : Nat}
    (hrequest : f.request = .submit payload) (hcourse : f.course = .settled (.ok response) u)
    (hshows : ¬ s.page.Shows payload.name) :
    ∃ added removed, f.sentAt ≤ added ∧ added < u ∧ added < removed ∧
      ChangesAt s.timeline added (Appears payload.name) ∧
      ChangesAt s.timeline removed (Vanishes payload.name) := by
  have hconfirmed : f.Confirmed u := ⟨by rw [hrequest]; rfl, response, hcourse⟩
  obtain ⟨-, htells⟩ := (h.kept f hf).settled response u hcourse
  rw [hrequest] at htells
  obtain ⟨-, added, hsince, hlt, before, after, hbefore, hafter, hfree, hhas⟩ := htells
  obtain ⟨moment, db, hat, hle, hiff⟩ := h.shows_iff hrest hf hconfirmed
  have hgone : ¬ Has payload.name db := fun hhas => hshows ((hiff payload.name).mpr hhas)
  obtain ⟨removed, hfirst, -, a, b, ha, hb, hnow, hnot⟩ :=
    Timeline.exists_loss hafter hhas (by omega) hat hgone
  exact ⟨added, removed, hsince, hlt, hfirst, ⟨before, after, hbefore, hafter, hfree, hhas⟩,
    a, b, ha, hb, hnow, hnot⟩

/-- **The page does not fall behind what it has been told.**  Whatever order the requests, the
    answers and the other clients take. -/
theorem up_to_date {server : RoutePool}
    (h : Reaches (step store) Unguarded (.mounted server) s) : UpToDate s := by
  have hsound := sound_reaches h
  refine ⟨hsound.ordered.shown, ?_, ?_⟩
  · intro hrest f hf name response u hrequest hcourse hshows
    exact hsound.deleted hrest hf hrequest hcourse hshows
  · intro hrest f hf payload response u hrequest hcourse hshows
    exact hsound.created hrest hf hrequest hcourse hshows

end Shown

/-! ## 7. An answer that comes too late -/

def someChoice : RouteChoice := ⟨.timeout, List.replicate 12 0, 1767225600000000⟩

def someRow : AccountRow :=
  openStore.newRow "" ⟨"readonly1", "secret-one", none⟩ [] ⟨[], [], .canary⟩ 1767225600000000

def twoAccounts : RoutePool := ⟨⟨(OrderedDict.empty.set "a" someRow).set "b" someRow, none⟩, []⟩

/-- Both accounts are deleted; the list read between the two deletions arrives last. -/
def lateAnswer : List Act :=
  [.arrive 0, .server (.advance 0 someChoice), .answer 0 "", .delete "a", .delete "b",
    .arrive 1, .server (.advance 1 someChoice), .answer 1 "", .arrive 3,
    .server (.advance 2 someChoice), .arrive 2, .server (.advance 3 someChoice), .answer 2 "",
    .arrive 4, .server (.advance 4 someChoice), .answer 4 "", .answer 3 ""]

theorem up_to_date_lateAnswer :
    ∃ s, Reaches (step openStore) Unguarded (.mounted twoAccounts) s ∧ UpToDate s ∧
      s.page.accs = some [] ∧ s.page.deleting = [] ∧
      ∃ account, s.sent[3]? =
        some ⟨.load 2 (some "a"), 4, .settled (.ok (.accounts [account])) 10⟩ := by
  have hreach : Reaches (step openStore) Unguarded (.mounted twoAccounts) _ :=
    play_get_reaches lateAnswer (by decide +kernel)
  refine ⟨_, hreach, up_to_date hreach, by decide +kernel, by decide +kernel, ?_⟩
  exact ⟨⟨"b", "", 1767225600000000, "readon", ⟨none, none, none⟩⟩, by decide +kernel⟩

end FundingTool.AccountsPage
