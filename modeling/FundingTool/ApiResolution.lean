import FundingTool.ApiClient
import FundingTool.TransitionSystem

/-!
# Which operations resolve

An operation of `api` should resolve to a result that carries an error with a code unless it
succeeded.  `writeRequest` awaits the token outside the `try` of `request`, so a write rejects
with its token; and `parseError` hands on any `error` of a body, with a code or without.

`operations_resolve` says that nothing else goes wrong, in any order of answers and with any
number of operations in flight, and that no operation is left unsettled for want of anything
but an answer.
-/

namespace FundingTool.Api

open FundingTool.Http (Json)
open FundingTool.TransitionSystem

/-! ## 1. Right ends -/

/-- The test that `parseError` itself makes of `detail`. -/
def CarriesCode (error : Value) : Prop := truthy (member error "code") = true

/-- A settled operation has resolved, with an error that carries a code unless it
    succeeded. -/
def Phase.Right : Phase → Prop
  | .settled .succeeded outcome => ∃ data, outcome = .resolved ⟨data, none⟩
  | .settled _ outcome => ∃ e, outcome = .resolved ⟨none, some e⟩ ∧ CarriesCode (some e)
  | _ => True

def Phase.Settled (phase : Phase) : Prop := ∃ cause outcome, phase = .settled cause outcome

/-- A token for every flight, and a code in every `error` of a body that refuses. -/
def Page.answered (page : Page) : Event → Bool
  | .tokenFetched _ (.rejected _) => false
  | .tokenFetched _ (.responded status) => isOk status
  | .tokenRead _ (.error _) => false
  | .tokenRead _ (.ok .null) => false
  | .read i (.ok body) =>
      match page.calls[i]? with
      | some (_, .parsing _) =>
          !truthy (member body "error") || truthy (member (member body "error") "code")
      | _ => true
  | _ => true

/-- What is asked of the answers of a run. -/
def Answered (page : Page) (e : Event) : Prop := page.answered e = true

instance (page : Page) (e : Event) : Decidable (Answered page e) :=
  inferInstanceAs (Decidable (_ = _))

/-- Whether an event settles or continues something that is there already. -/
def Event.isAnswer : Event → Bool
  | .get _ => false
  | .write _ _ _ => false
  | .refresh => false
  | _ => true

/-- Nothing is left to settle or continue. -/
def Page.Quiet (page : Page) : Prop := ∀ e : Event, e.isAnswer = true → page.step e = none

/-! ## 2. What is left to do -/

def Flight.rank : Flight → Nat
  | .fetching => 4
  | .reading => 3
  | .fetched _ => 2
  | .stored _ => 1
  | .settled _ => 0

def Phase.rank : Phase → Nat
  | .cached _ => 3
  | .waiting _ => 3
  | .fetching _ => 2
  | .parsing _ => 1
  | .reading => 1
  | .settled _ _ => 0

/-- No more answers than this are still to come. -/
def Page.work (page : Page) : Nat :=
  (page.flights.map Flight.rank).sum + (page.calls.map fun call => call.2.rank).sum

/-- The flight brings a token, if it brings anything. -/
def Flight.Brings : Flight → Prop
  | .fetched (.error _) => False
  | .stored (.error _) => False
  | .settled (.error _) => False
  | _ => True

/-- An operation that has just begun. -/
def Phase.Begun (page : Page) : Phase → Prop
  | .cached _ => True
  | .waiting flight => page.inflight = some flight
  | .fetching _ => True
  | _ => False

/-! ## 3. The steps -/

/-- What an event does: it begins something, moves one flight on, or moves one operation
    on. -/
inductive Move (page page' : Page) (e : Event) : Prop
  | begins (flights : List Flight) (calls : List (Call × Phase))
      (kind : e.isAnswer = false)
      (flights_eq : page'.flights = page.flights ++ flights)
      (calls_eq : page'.calls = page.calls ++ calls)
      (fresh : ∀ f ∈ flights, f = .fetching)
      (begun : ∀ call ∈ calls, call.2.Begun page')
      (inflight : page'.inflight = page.inflight ∨
        flights ≠ [] ∧ page'.inflight = some page.flights.length)
  | flies (f : Nat) (old new : Flight)
      (kind : e.isAnswer = true)
      (at_old : page.flights[f]? = some old)
      (flights_eq : page'.flights = page.flights.set f new)
      (calls_eq : page'.calls = page.calls)
      (inflight : page'.inflight = page.inflight ∨ page'.inflight = none)
      (nearer : new.rank < old.rank)
      (brings : Answered page e → old.Brings → new.Brings)
  | goes (i : Nat) (call : Call) (old new : Phase)
      (kind : e.isAnswer = true)
      (at_old : page.calls[i]? = some (call, old))
      (calls_eq : page'.calls = page.calls.set i (call, new))
      (flights_eq : page'.flights = page.flights)
      (inflight : page'.inflight = page.inflight)
      (nearer : new.rank < old.rank)
      (sent : ∀ f, new ≠ .waiting f)
      (right : Answered page e → (∀ f ∈ page.flights, f.Brings) → new.Right)

theorem carriesCode_apiError (code message : String) (h : code ≠ "") :
    CarriesCode (some (apiError code message)) := by
  show truthy (some (.str code)) = true
  exact decide_eq_true h

theorem right_networkError {cause : Cause} (h : ∀ outcome, (Phase.settled cause outcome).Right ↔
    ∃ e, outcome = .resolved ⟨none, some e⟩ ∧ CarriesCode (some e)) (e : Rejection) :
    (Phase.settled cause (networkError e)).Right :=
  (h _).mpr ⟨_, rfl, carriesCode_apiError _ _ (by decide)⟩

/-- `parseError` gives an error, and one with a code unless the body's own has none. -/
theorem parseError_code (status : Nat) (json : Except Rejection Json)
    (h : ∀ body, json = .ok body → truthy (member body "error") = true →
      CarriesCode (member body "error")) :
    ∃ e, parseError status json = some e ∧ CarriesCode (some e) := by
  have hserver : CarriesCode (some (apiError "server_error" ("HTTP " ++ toString status))) :=
    carriesCode_apiError _ _ (by decide)
  rcases json with e | body
  · exact ⟨_, rfl, hserver⟩
  · unfold parseError
    simp only
    by_cases herror : truthy (member body "error") = true
    · rw [if_pos herror]
      rcases hmember : member (some body) "error" with _ | e
      · rw [hmember] at herror
        cases herror
      · exact ⟨e, rfl, hmember ▸ h body rfl herror⟩
    · rw [if_neg herror]
      by_cases hdetail : truthy (member (member body "detail") "code") = true
      · rw [if_pos hdetail]
        rcases hmember : member (some body) "detail" with _ | e
        · rw [hmember] at hdetail
          cases hdetail
        · exact ⟨e, rfl, hmember ▸ hdetail⟩
      · rw [if_neg hdetail]
        exact ⟨_, rfl, hserver⟩

variable {page page' : Page} {e : Event}

/-- A token is cached, or awaited from the flight that `_inflight` then is. -/
theorem getToken_cases (page : Page) :
    (page.getToken = (page, .cached page.token)) ∨
      (∃ flight, page.inflight = some flight ∧ page.getToken = (page, .waiting flight)) ∨
      page.inflight = none ∧
        page.getToken = (page.fetchToken, .waiting page.flights.length) := by
  unfold Page.getToken
  by_cases hcached : truthy page.token = true
  · exact Or.inl (if_pos hcached)
  · rw [if_neg hcached]
    rcases page.inflight with _ | flight
    · exact Or.inr (Or.inr ⟨rfl, rfl⟩)
    · exact Or.inr (Or.inl ⟨flight, rfl, rfl⟩)

theorem move_write {method path : String} {body : Value}
    (h : page.step (.write method path body) = some page') :
    Move page page' (.write method path body) := by
  rw [Page.step] at h
  rcases getToken_cases page with hget | ⟨flight, hinflight, hget⟩ | ⟨-, hget⟩
  · rw [hget] at h
    cases h
    refine .begins [] [_] rfl (List.append_nil _).symm rfl ?_ ?_ (Or.inl rfl)
    · exact fun f hf => absurd hf List.not_mem_nil
    · exact List.forall_mem_singleton.mpr trivial
  · rw [hget] at h
    cases h
    refine .begins [] [_] rfl (List.append_nil _).symm rfl ?_ ?_ (Or.inl rfl)
    · exact fun f hf => absurd hf List.not_mem_nil
    · exact List.forall_mem_singleton.mpr hinflight
  · rw [hget] at h
    cases h
    refine .begins [.fetching] [_] rfl rfl rfl ?_ ?_ (Or.inr ⟨List.cons_ne_nil _ _, rfl⟩)
    · exact fun f hf => List.mem_singleton.mp hf
    · exact List.forall_mem_singleton.mpr rfl

theorem move_resumed {i : Nat} (h : page.step (.resumed i) = some page') :
    Move page page' (.resumed i) := by
  rw [Page.step] at h
  rcases hcall : page.calls[i]? with _ | ⟨call, old⟩
  · rw [hcall] at h
    cases h
  · rw [hcall] at h
    simp only [Option.map_eq_some_iff] at h
    obtain ⟨new, hresume, rfl⟩ := h
    have hmove : new.rank < old.rank ∧ (∀ f, new ≠ .waiting f) ∧
        ((∀ f ∈ page.flights, f.Brings) → new.Right) := by
      rcases old with token | flight | request | status | _ | ⟨cause, outcome⟩
      · cases hresume
        exact ⟨Nat.lt_succ_self 2, fun f hf => (by cases hf), fun _ => trivial⟩
      · rw [Page.resume] at hresume
        rcases hflight : page.flights[flight]? with _ | f
        · rw [hflight] at hresume
          cases hresume
        · rw [hflight] at hresume
          rcases f with _ | _ | token | token | (e | token)
          · cases hresume
          · cases hresume
          · cases hresume
          · cases hresume
          · cases hresume
            refine ⟨Nat.succ_pos 2, fun f hf => (by cases hf), fun hbrings => ?_⟩
            exact (hbrings _ (List.mem_of_getElem? hflight)).elim
          · cases hresume
            exact ⟨Nat.lt_succ_self 2, fun f hf => (by cases hf), fun _ => trivial⟩
      · cases hresume
      · cases hresume
      · cases hresume
      · cases hresume
    exact .goes i call old new rfl hcall rfl rfl rfl hmove.1 hmove.2.1 fun _ => hmove.2.2

theorem rank_afterFetch (answer : Fetched) :
    (Flight.afterFetch answer).rank < Flight.fetching.rank := by
  rcases answer with message | status
  · exact Nat.lt_of_succ_lt (Nat.lt_succ_self 3)
  · simp only [Flight.afterFetch]
    by_cases hok : isOk status = true
    · rw [if_pos hok]
      exact Nat.lt_succ_self 3
    · rw [if_neg hok]
      exact Nat.lt_of_succ_lt (Nat.lt_succ_self 3)

theorem brings_afterFetch {f : Nat} {answer : Fetched}
    (h : Answered page (.tokenFetched f answer)) : (Flight.afterFetch answer).Brings := by
  rcases answer with message | status
  · cases h
  · have hok : isOk status = true := h
    simp only [Flight.afterFetch]
    rw [if_pos hok]
    trivial

theorem rank_afterJson (json : Except Rejection Json) :
    (Flight.afterJson json).rank < Flight.reading.rank := by
  rcases json with _ | (_ | _ | _ | _ | _ | _ | _) <;> exact Nat.lt_succ_self 2

theorem brings_afterJson {f : Nat} {json : Except Rejection Json}
    (h : Answered page (.tokenRead f json)) : (Flight.afterJson json).Brings := by
  rcases json with _ | (_ | _ | _ | _ | _ | _ | _)
  · cases h
  · cases h
  all_goals trivial

/-- An operation whose `fetch` has settled is one answer at most from its end. -/
theorem move_fetched (answer : Fetched) :
    (Phase.afterFetch answer).rank < 2 ∧ (∀ f, Phase.afterFetch answer ≠ .waiting f) ∧
      (Phase.afterFetch answer).Right := by
  rcases answer with message | status
  · exact ⟨Nat.succ_pos 1, fun f hf => (by cases hf), right_networkError (fun _ => Iff.rfl) _⟩
  · simp only [Phase.afterFetch]
    by_cases hok : isOk status = true
    · rw [if_pos hok]
      by_cases hempty : status = 204
      · rw [if_pos hempty]
        exact ⟨Nat.succ_pos 1, fun f hf => (by cases hf), none, rfl⟩
      · rw [if_neg hempty]
        exact ⟨Nat.lt_succ_self 1, fun f hf => (by cases hf), trivial⟩
    · rw [if_neg hok]
      exact ⟨Nat.lt_succ_self 1, fun f hf => (by cases hf), trivial⟩

/-- **The inversion of a step.** -/
theorem step_move (h : page.step e = some page') : Move page page' e := by
  cases e with
  | get path =>
      cases h
      refine .begins [] [_] rfl (List.append_nil _).symm rfl ?_ ?_ (Or.inl rfl)
      · exact fun f hf => absurd hf List.not_mem_nil
      · exact List.forall_mem_singleton.mpr trivial
  | write method path body => exact move_write h
  | refresh =>
      cases h
      refine .begins [.fetching] [] rfl rfl (List.append_nil _).symm ?_ ?_
        (Or.inr ⟨List.cons_ne_nil _ _, rfl⟩)
      · exact fun f hf => List.mem_singleton.mp hf
      · exact fun call hcall => absurd hcall List.not_mem_nil
  | tokenFetched f answer =>
      rw [Page.step] at h
      rcases hold : page.flights[f]? with _ | (_ | _ | _ | _ | _) <;> rw [hold] at h <;> cases h
      exact .flies f _ _ rfl hold rfl rfl (Or.inl rfl) (rank_afterFetch answer)
        fun hanswer _ => brings_afterFetch hanswer
  | tokenRead f json =>
      rw [Page.step] at h
      rcases hold : page.flights[f]? with _ | (_ | _ | _ | _ | _) <;> rw [hold] at h <;> cases h
      exact .flies f _ _ rfl hold rfl rfl (Or.inl rfl) (rank_afterJson json)
        fun hanswer _ => brings_afterJson hanswer
  | tokenStored f =>
      rw [Page.step] at h
      rcases hold : page.flights[f]? with _ | (_ | _ | token | _ | _) <;> rw [hold] at h <;>
        cases h
      rcases token with message | token
      · exact .flies f _ _ rfl hold rfl rfl (Or.inl rfl) (Nat.lt_succ_self 1) fun _ h => h
      · exact .flies f _ _ rfl hold rfl rfl (Or.inl rfl) (Nat.lt_succ_self 1) fun _ h => h
  | tokenSettled f =>
      rw [Page.step] at h
      rcases hold : page.flights[f]? with _ | (_ | _ | _ | token | _) <;> rw [hold] at h <;>
        cases h
      rcases token with message | token
      · exact .flies f _ _ rfl hold rfl rfl (Or.inr rfl) (Nat.lt_succ_self 0) fun _ h => h
      · exact .flies f _ _ rfl hold rfl rfl (Or.inr rfl) (Nat.lt_succ_self 0) fun _ h => h
  | resumed i => exact move_resumed h
  | fetched i answer =>
      rw [Page.step] at h
      rcases hold : page.calls[i]? with _ | ⟨call, (_ | _ | _ | _ | _ | _)⟩ <;>
        rw [hold] at h <;> cases h
      obtain ⟨hrank, hsent, hright⟩ := move_fetched answer
      exact .goes i call _ _ rfl hold rfl rfl rfl hrank hsent fun _ _ => hright
  | read i json =>
      rw [Page.step] at h
      rcases hold : page.calls[i]? with _ | ⟨call, (_ | _ | _ | status | _ | _)⟩ <;>
        rw [hold] at h <;> cases h
      · -- `parseError`
        refine .goes i call _ _ rfl hold rfl rfl rfl (Nat.lt_succ_self 0)
          (fun f hf => by cases hf) fun hanswer _ => ?_
        obtain ⟨error, hparse, hcode⟩ := parseError_code status json fun body hbody herror => by
          subst hbody
          rw [Answered, Page.answered, hold] at hanswer
          show truthy (member (member (some body) "error") "code") = true
          simpa only [herror, Bool.not_true, Bool.false_or] using hanswer
        exact ⟨error, by rw [hparse], hcode⟩
      · refine .goes i call _ _ rfl hold rfl rfl rfl ?_ ?_ fun _ _ => ?_
        · rcases json with _ | _ <;> exact Nat.lt_succ_self 0
        · rcases json with _ | _ <;> exact fun f hf => by cases hf
        · rcases json with message | body
          · exact right_networkError (fun _ => Iff.rfl) message
          · exact ⟨some body, rfl⟩

/-! ## 4. Runs -/

/-- Every flight that is referred to exists. -/
structure Linked (page : Page) : Prop where
  waiting : ∀ call ∈ page.calls, ∀ f, call.2 = .waiting f → f < page.flights.length
  inflight : ∀ f, page.inflight = some f → f < page.flights.length

/-- Every flight brings a token, and every operation that has ended has ended right. -/
structure Kept (page : Page) : Prop where
  brings : ∀ f ∈ page.flights, f.Brings
  right : ∀ call ∈ page.calls, call.2.Right

theorem linked_start (token : Value) : Linked (.start token) where
  waiting _ hcall := absurd hcall List.not_mem_nil
  inflight _ h := by cases h

theorem kept_start (token : Value) : Kept (.start token) where
  brings _ hf := absurd hf List.not_mem_nil
  right _ hcall := absurd hcall List.not_mem_nil

theorem Linked.step (h : Linked page) (hstep : page.step e = some page') : Linked page' := by
  rcases step_move hstep with
    ⟨flights, calls, -, hflights, hcalls, -, hbegun, hinflight⟩ |
      ⟨f, old, new, -, -, hflights, hcalls, hinflight, -, -⟩ |
      ⟨i, call, old, new, -, -, hcalls, hflights, hinflight, -, hsent, -⟩
  · have hlonger : page.flights.length ≤ page'.flights.length := by
      rw [hflights, List.length_append]
      exact Nat.le_add_right _ _
    have hlink : ∀ f, page'.inflight = some f → f < page'.flights.length := by
      intro f hf
      rcases hinflight with hsame | ⟨hne, hnew⟩
      · exact Nat.lt_of_lt_of_le (h.inflight f (hsame ▸ hf)) hlonger
      · rw [hnew] at hf
        cases hf
        rw [hflights, List.length_append]
        exact Nat.lt_add_of_pos_right (List.length_pos_iff.mpr hne)
    refine ⟨fun call hcall f hf => ?_, hlink⟩
    rw [hcalls, List.mem_append] at hcall
    rcases hcall with hcall | hcall
    · exact Nat.lt_of_lt_of_le (h.waiting call hcall f hf) hlonger
    · have hown := hbegun call hcall
      rw [hf] at hown
      exact hlink f hown
  · have hlength : page'.flights.length = page.flights.length := by
      rw [hflights, List.length_set]
    refine ⟨fun call hcall f hf => ?_, fun f hf => ?_⟩
    · rw [hlength]
      exact h.waiting call (hcalls ▸ hcall) f hf
    · rw [hlength]
      rcases hinflight with hsame | hnone
      · exact h.inflight f (hsame ▸ hf)
      · rw [hnone] at hf
        cases hf
  · refine ⟨fun c hc f hf => ?_, fun f hf => ?_⟩
    · rw [hflights]
      rw [hcalls] at hc
      rcases List.mem_or_eq_of_mem_set hc with hc | rfl
      · exact h.waiting c hc f hf
      · exact absurd hf (hsent f)
    · rw [hflights]
      exact h.inflight f (hinflight ▸ hf)

theorem Kept.step (h : Kept page) (hanswered : Answered page e)
    (hstep : page.step e = some page') : Kept page' := by
  rcases step_move hstep with
    ⟨flights, calls, -, hflights, hcalls, hfresh, hbegun, -⟩ |
      ⟨f, old, new, -, hold, hflights, hcalls, -, -, hbrings⟩ |
      ⟨i, call, old, new, -, -, hcalls, hflights, -, -, -, hright⟩
  · refine ⟨fun f hf => ?_, fun call hcall => ?_⟩
    · rw [hflights, List.mem_append] at hf
      rcases hf with hf | hf
      · exact h.brings f hf
      · rw [hfresh f hf]
        trivial
    · rw [hcalls, List.mem_append] at hcall
      rcases hcall with hcall | hcall
      · exact h.right call hcall
      · have hown := hbegun call hcall
        obtain ⟨call, phase⟩ := call
        cases phase
        case parsing => exact hown.elim
        case settled => exact hown.elim
        all_goals trivial
  · refine ⟨fun g hg => ?_, hcalls ▸ h.right⟩
    rw [hflights] at hg
    rcases List.mem_or_eq_of_mem_set hg with hg | rfl
    · exact h.brings g hg
    · exact hbrings hanswered (h.brings old (List.mem_of_getElem? hold))
  · refine ⟨hflights ▸ h.brings, fun c hc => ?_⟩
    rw [hcalls] at hc
    rcases List.mem_or_eq_of_mem_set hc with hc | rfl
    · exact h.right c hc
    · exact hright hanswered h.brings

/-- Replacing an item by a smaller one. -/
theorem sum_map_set_lt {α : Type} (f : α → Nat) {items : List α} {i : Nat} {old new : α}
    (hold : items[i]? = some old) (hlt : f new < f old) :
    ((items.set i new).map f).sum < (items.map f).sum := by
  induction items generalizing i with
  | nil => cases hold
  | cons item items ih =>
      rcases i with _ | i
      · rw [List.getElem?_cons_zero] at hold
        cases hold
        simp only [List.set_cons_zero, List.map_cons, List.sum_cons]
        omega
      · rw [List.getElem?_cons_succ] at hold
        simp only [List.set_cons_succ, List.map_cons, List.sum_cons]
        exact Nat.add_lt_add_left (ih hold) _

/-- Every answer leaves less to do. -/
theorem work_step (hanswer : e.isAnswer = true) (hstep : page.step e = some page') :
    page'.work < page.work := by
  unfold Page.work
  rcases step_move hstep with
    ⟨flights, calls, hkind, -, -, -, -, -⟩ |
      ⟨f, old, new, -, hold, hflights, hcalls, -, hnearer, -⟩ |
      ⟨i, call, old, new, -, hold, hcalls, hflights, -, hnearer, -, -⟩
  · rw [hanswer] at hkind
    cases hkind
  · rw [hflights, hcalls]
    exact Nat.add_lt_add_right (sum_map_set_lt Flight.rank hold hnearer) _
  · rw [hflights, hcalls]
    have hless : (call, new).2.rank < (call, old).2.rank := hnearer
    exact Nat.add_lt_add_left (sum_map_set_lt (fun call => call.2.rank) hold hless) _

theorem length_le_work {events : List Event} (hanswers : ∀ e ∈ events, e.isAnswer = true)
    (hplay : play Page.step Unguarded page events = some page') :
    events.length ≤ page.work := by
  induction events generalizing page with
  | nil => exact Nat.zero_le _
  | cons e events ih =>
      have hallowed : Unguarded page e := trivial
      rw [play, if_pos hallowed] at hplay
      rcases hstep : page.step e with _ | next
      · rw [hstep] at hplay
        cases hplay
      · rw [hstep] at hplay
        have hless := work_step (hanswers e List.mem_cons_self) hstep
        have hrest := ih (fun e he => hanswers e (List.mem_cons_of_mem _ he)) hplay
        exact Nat.succ_le_of_lt (Nat.lt_of_le_of_lt hrest hless)

/-- **No operation is left behind**: while one is not settled, there is an answer to wait for
    or a continuation to run. -/
theorem settled_of_quiet (h : Linked page) (hquiet : page.Quiet) :
    ∀ call ∈ page.calls, call.2.Settled := by
  rintro ⟨call, phase⟩ hcall
  obtain ⟨i, hi⟩ := List.mem_iff_getElem?.mp hcall
  rcases phase with token | flight | request | status | _ | ⟨cause, outcome⟩
  · have hnone := hquiet (.resumed i) rfl
    simp [Page.step, hi, Page.resume] at hnone
  · have hlt := h.waiting _ hcall flight rfl
    obtain ⟨f, hf⟩ : ∃ f, page.flights[flight]? = some f := ⟨_, List.getElem?_eq_getElem hlt⟩
    rcases f with _ | _ | token | token | token
    · have hnone := hquiet (.tokenFetched flight (.responded 200)) rfl
      simp [Page.step, hf] at hnone
    · have hnone := hquiet (.tokenRead flight (.ok .null)) rfl
      simp [Page.step, hf] at hnone
    · have hnone := hquiet (.tokenStored flight) rfl
      simp [Page.step, hf] at hnone
    · have hnone := hquiet (.tokenSettled flight) rfl
      simp [Page.step, hf] at hnone
    · have hnone := hquiet (.resumed i) rfl
      rcases token with message | token
      · simp [Page.step, hi, Page.resume, hf] at hnone
      · simp [Page.step, hi, Page.resume, hf] at hnone
  · have hnone := hquiet (.fetched i (.responded 200)) rfl
    simp [Page.step, hi] at hnone
  · have hnone := hquiet (.read i (.ok .null)) rfl
    simp [Page.step, hi] at hnone
  · have hnone := hquiet (.read i (.ok .null)) rfl
    simp [Page.step, hi] at hnone
  · exact ⟨cause, outcome, rfl⟩

/-- **Every operation resolves**, and to an error with a code unless it succeeded, in every run
    in which the token is always answered and every body that refuses carries a code. -/
theorem operations_resolve {token : Value}
    (h : Reaches Page.step Answered (.start token) page) :
    (∀ call ∈ page.calls, call.2.Right) ∧
      (page.Quiet → ∀ call ∈ page.calls, call.2.Settled) ∧
      ∀ events page', (∀ e ∈ events, e.isAnswer = true) →
        play Page.step Unguarded page events = some page' → events.length ≤ page.work := by
  have hkept : Linked page ∧ Kept page :=
    @Reaches.invariant _ _ Page.step Answered _ page (fun page => Linked page ∧ Kept page)
      ⟨linked_start token, kept_start token⟩
      (fun _ _ _ hinv hanswered hstep => ⟨hinv.1.step hstep, hinv.2.step hanswered hstep⟩) h
  exact ⟨hkept.2.right, settled_of_quiet hkept.1, fun events page' => length_le_work⟩

/-- One write whose token comes and whose request is refused by the network. -/
def writeOnce : List Event :=
  [.post "/backtest" none, .tokenFetched 0 (.responded 200),
    .tokenRead 0 (.ok (.obj [("token", .str "t")])), .tokenStored 0, .tokenSettled 0, .resumed 0,
    .fetched 0 (.rejected "Failed to fetch")]

theorem operations_resolve_writeOnce :
    ∃ page, Reaches Page.step Answered (.start none) page ∧ page.calls.length = 1 ∧
      (∀ call ∈ page.calls, call.2.Right) ∧
      (page.Quiet → ∀ call ∈ page.calls, call.2.Settled) ∧
      ∀ events page', (∀ e ∈ events, e.isAnswer = true) →
        play Page.step Unguarded page events = some page' → events.length ≤ page.work := by
  have hreach := @play_get_reaches _ _ Page.step Answered (.start none) _ writeOnce (by decide)
  exact ⟨_, hreach, by decide, operations_resolve hreach⟩

/-- A write rejects when its token cannot be fetched; and a read resolves to an error without a
    code when the body has one. -/
theorem post_rejects :
    (∃ page call, Reaches Page.step Unguarded (.start none) page ∧
        (call, Phase.settled .tokenRejected (.rejected "Failed to fetch")) ∈ page.calls) ∧
      ∃ page call cause error, Reaches Page.step Unguarded (.start none) page ∧
        (call, Phase.settled cause (.resolved ⟨none, some error⟩)) ∈ page.calls ∧
        ¬ CarriesCode (some error) := by
  have hwrite := @play_get_reaches _ _ Page.step Unguarded (.start none) _
    [.post "/backtest" none, .tokenFetched 0 (.rejected "Failed to fetch"), .tokenStored 0,
      .tokenSettled 0, .resumed 0] (by decide)
  have hread := @play_get_reaches _ _ Page.step Unguarded (.start none) _
    [.get "/symbols", .fetched 0 (.responded 502),
      .read 0 (.ok (.obj [("error", .str "bad gateway")]))] (by decide)
  exact ⟨⟨_, _, hwrite, List.mem_cons_self⟩, _, _, _, _, hread, List.mem_cons_self,
    Bool.false_ne_true⟩

end FundingTool.Api
