import FundingTool.AuthVerifier
import FundingTool.LeastRecentlyUsed
import FundingTool.TransitionSystem

/-!
# Lockout and the bound on the states

`verify` keeps the states of at most `state_max` addresses and forgets the one unused for
longest, its failures and its lock with it.  Calls one after the other, from any addresses and
with a clock that does not go back:

  * there are never more states than `state_max` after a call;
  * a lock that an address has earned refuses all its calls for `lockout_secs`, as long as
    fewer than `state_max` other addresses call between two calls of it;
  * other addresses touch its state only by having it forgotten.
-/

namespace FundingTool.AuthCapacity

open FundingTool.TransitionSystem FundingTool.AuthVerifier FundingTool.OrderedDict

/-! ## 1. Calls in a row -/

/-- A call of `verify`, with the two readings of the clock. -/
structure VerifyCall where
  ip : String
  header : Option String
  checked : Int
  recorded : Int

variable (v : Verifier)

def VerifyCall.run (call : VerifyCall) (states : IpStates) : IpStates × Verifier.Answer :=
  v.verify call.ip call.header call.checked call.recorded states

/-- The states, the last reading of the clock, and the failures of every address since its
    last success, counted while its state is not forgotten. -/
structure AuthRun where
  states : IpStates
  clock : Int
  streak : String → Nat

def AuthRun.start (clock : Int) : AuthRun := ⟨OrderedDict.empty, clock, fun _ => 0⟩

/-- The failures of the caller after its call. -/
def countAnswer (failures : Nat) : Verifier.Answer → Nat
  | .raised .webAuthRequired => failures + 1
  | .returned _ => 0
  | _ => failures

def next (s : AuthRun) (call : VerifyCall) : AuthRun where
  states := (call.run v s.states).1
  clock := call.recorded
  streak := fun ip =>
    if (call.run v s.states).1.get? ip = none then 0
    else if ip = call.ip then countAnswer (s.streak ip) (call.run v s.states).2
    else s.streak ip

/-- The clock does not go back. -/
def OnTime : Int → List VerifyCall → Prop
  | _, [] => True
  | clock, call :: rest =>
      clock ≤ call.checked ∧ call.checked ≤ call.recorded ∧ OnTime call.recorded rest

instance decidableOnTime :
    (clock : Int) → (calls : List VerifyCall) → Decidable (OnTime clock calls)
  | _, [] => .isTrue trivial
  | _, call :: rest =>
      have := decidableOnTime call.recorded rest
      inferInstanceAs (Decidable (_ ∧ _ ∧ _))

def step (s : AuthRun) (call : VerifyCall) : Option AuthRun :=
  if OnTime s.clock [call] then some (next v s call) else none

/-! ## 2. What one call does -/

/-- `checkpw` takes the password of this header, if there is one to compare. -/
def Checkable (header : Option String) : Prop :=
  ∀ user pw, v.credentialsOf header = some (user, pw) → v.checkpw pw ≠ none

/-- **One call** is refused by a lock; or it records a failure, or it clears the failures, or
    `checkpw` raises; the caller is the address used last. -/
theorem verify_cases (ip : String) (header : Option String) (checked recorded : Int)
    (states : IpStates) :
    (checked < (Verifier.stateOf states ip).lockedUntil ∧
      v.verify ip header checked recorded states =
        (states.setLast ip (Verifier.stateOf states ip), .raised .webAuthLocked)) ∨
    ((Verifier.stateOf states ip).lockedUntil ≤ checked ∧
      (Checkable v header ∧
          (v.verify ip header checked recorded states =
              ((states.setLast ip (v.failed recorded (Verifier.stateOf states ip))).evictOver
                v.stateMax, .raised .webAuthRequired) ∨
            v.verify ip header checked recorded states =
              ((states.setLast ip .fresh).evictOver v.stateMax, .returned v.username)) ∨
        ¬ Checkable v header ∧
          v.verify ip header checked recorded states =
            (states.setLast ip (Verifier.stateOf states ip), .escaped))) := by
  have hfail : v.recordFailure ip recorded (states.setLast ip (Verifier.stateOf states ip)) =
      (states.setLast ip (v.failed recorded (Verifier.stateOf states ip))).evictOver
        v.stateMax := by
    simp only [Verifier.recordFailure, get?_setLast, if_true, Option.getD_some, setLast_setLast]
    rfl
  have hsucceed : v.recordSuccess ip (states.setLast ip (Verifier.stateOf states ip)) =
      (states.setLast ip .fresh).evictOver v.stateMax := by
    simp only [Verifier.recordSuccess, setLast_setLast]
    rfl
  unfold Verifier.verify Verifier.lockCheck
  by_cases hlocked : (Verifier.stateOf states ip).lockedUntil > checked
  · refine Or.inl ⟨hlocked, ?_⟩
    exact if_pos (decide_eq_true hlocked)
  · refine Or.inr ⟨Int.not_lt.mp hlocked, ?_⟩
    have hopen : ¬ decide ((Verifier.stateOf states ip).lockedUntil > checked) = true :=
      fun h => hlocked (of_decide_eq_true h)
    rcases hheader : v.credentialsOf header with _ | ⟨user, pw⟩
    · have hcheckable : Checkable v header := by
        intro user pw hsome
        rw [hheader] at hsome
        cases hsome
      refine Or.inl ⟨hcheckable, Or.inl ?_⟩
      rw [← hfail]
      exact if_neg hopen
    · rcases hpw : v.checkpw pw with _ | pwOk
      · refine Or.inr ⟨fun hcheckable => hcheckable user pw hheader hpw, ?_⟩
        have hcompare : v.compare user pw = none := by
          simp only [Verifier.compare, hpw, Option.map_none]
        simp only [hcompare]
        exact if_neg hopen
      · have hcheckable : Checkable v header := by
          intro user' pw' hsome
          rw [hheader] at hsome
          obtain ⟨rfl, rfl⟩ := Prod.mk.inj (Option.some.inj hsome)
          rw [hpw]
          exact Option.some_ne_none pwOk
        have hcompare : v.compare user pw = some (decide (user = v.username) && pwOk) := by
          simp only [Verifier.compare, hpw, Option.map_some]
        refine Or.inl ⟨hcheckable, ?_⟩
        rcases hok : decide (user = v.username) && pwOk with _ | _
        · refine Or.inl ?_
          rw [← hfail]
          simp only [hcompare, hok]
          exact if_neg hopen
        · refine Or.inr ?_
          rw [← hsucceed]
          simp only [hcompare, hok]
          exact if_neg hopen

/-- The same, when `checkpw` never raises. -/
theorem run_cases (hchecks : ∀ pw, v.checkpw pw ≠ none) (call : VerifyCall) (states : IpStates) :
    (call.checked < (Verifier.stateOf states call.ip).lockedUntil ∧
      call.run v states = (states.setLast call.ip (Verifier.stateOf states call.ip),
        .raised .webAuthLocked)) ∨
    ((Verifier.stateOf states call.ip).lockedUntil ≤ call.checked ∧
      (call.run v states = ((states.setLast call.ip (v.failed call.recorded
          (Verifier.stateOf states call.ip))).evictOver v.stateMax, .raised .webAuthRequired) ∨
        call.run v states =
          ((states.setLast call.ip .fresh).evictOver v.stateMax, .returned v.username))) := by
  rcases verify_cases v call.ip call.header call.checked call.recorded states with
    hlocked | ⟨hopen, ⟨-, hrun⟩ | ⟨hnot, -⟩⟩
  · exact Or.inl hlocked
  · exact Or.inr ⟨hopen, hrun⟩
  · exact absurd (fun _ pw _ => hchecks pw) hnot

variable {v}

/-- The states of the other addresses, after a call, are as before or forgotten. -/
theorem run_other (hchecks : ∀ pw, v.checkpw pw ≠ none) (call : VerifyCall) (states : IpStates)
    {ip : String} (hne : ip ≠ call.ip) :
    (call.run v states).1.get? ip = states.get? ip ∨ (call.run v states).1.get? ip = none := by
  have hset : ∀ st, (states.setLast call.ip st).get? ip = states.get? ip := by
    intro st
    rw [get?_setLast, if_neg hne]
  rcases run_cases v hchecks call states with ⟨-, hrun⟩ | ⟨-, hrun | hrun⟩
  · rw [hrun]
    exact Or.inl (hset _)
  · rw [hrun]
    exact (get?_evictOver _ _ ip).imp_left (Eq.trans · (hset _))
  · rw [hrun]
    exact (get?_evictOver _ _ ip).imp_left (Eq.trans · (hset _))

/-! ## 3. What every run keeps -/

structure Sound (v : Verifier) (s : AuthRun) : Prop where
  clock : 0 ≤ s.clock
  bounded : s.states.entries.length ≤ v.stateMax
  counted : ∀ ip, (Verifier.stateOf s.states ip).failures = s.streak ip

theorem stateOf_of_get? {states : IpStates} {ip : String} {st : IpState}
    (h : states.get? ip = some st) : Verifier.stateOf states ip = st := by
  rw [Verifier.stateOf, h, Option.getD_some]

theorem stateOf_of_none {states : IpStates} {ip : String} (h : states.get? ip = none) :
    Verifier.stateOf states ip = .fresh := by
  rw [Verifier.stateOf, h, Option.getD_none]

/-- A lock is found in a state that was there, so nothing is added. -/
theorem bounded_run (hchecks : ∀ pw, v.checkpw pw ≠ none) {call : VerifyCall} {states : IpStates}
    (hclock : 0 ≤ call.checked) (h : states.entries.length ≤ v.stateMax) :
    (call.run v states).1.entries.length ≤ v.stateMax := by
  have hset : ∀ st, (states.setLast call.ip st).entries.length ≤ v.stateMax + 1 :=
    fun st => Nat.le_trans (length_setLast states call.ip st) (Nat.add_le_add_right h 1)
  rcases run_cases v hchecks call states with ⟨hlocked, hrun⟩ | ⟨-, hrun | hrun⟩
  · rw [hrun]
    rcases hget : states.get? call.ip with _ | st
    · rw [stateOf_of_none hget] at hlocked
      exact absurd (Int.lt_of_le_of_lt hclock hlocked) (Int.lt_irrefl 0)
    · exact Nat.le_trans (length_setLast_of_mem hget _) h
  · rw [hrun]
    exact length_evictOver (hset _)
  · rw [hrun]
    exact length_evictOver (hset _)

/-- The failures kept for the caller are those counted. -/
theorem counted_own (hchecks : ∀ pw, v.checkpw pw ≠ none) (call : VerifyCall) (states : IpStates)
    {st : IpState} (hget : (call.run v states).1.get? call.ip = some st) :
    st.failures =
      countAnswer (Verifier.stateOf states call.ip).failures (call.run v states).2 := by
  have hset : ∀ new, (states.setLast call.ip new).get? call.ip = some new := by
    intro new
    rw [get?_setLast, if_pos rfl]
  rcases run_cases v hchecks call states with ⟨-, hrun⟩ | ⟨-, hrun | hrun⟩
  · rw [hrun, hset, Option.some.injEq] at hget
    rw [hrun, ← hget]
    rfl
  · rw [hrun] at hget ⊢
    rcases get?_evictOver v.stateMax (states.setLast call.ip (v.failed call.recorded
      (Verifier.stateOf states call.ip))) call.ip with hkept | hnone
    · simp only [hkept, hset, Option.some.injEq] at hget
      rw [← hget]
      rfl
    · simp only [hnone, reduceCtorEq] at hget
  · rw [hrun] at hget ⊢
    rcases get?_evictOver v.stateMax (states.setLast call.ip .fresh) call.ip with hkept | hnone
    · simp only [hkept, hset, Option.some.injEq] at hget
      rw [← hget]
      rfl
    · simp only [hnone, reduceCtorEq] at hget

theorem sound_next (hchecks : ∀ pw, v.checkpw pw ≠ none) {s : AuthRun} (h : Sound v s)
    {call : VerifyCall} (hchecked : s.clock ≤ call.checked)
    (hrecorded : call.checked ≤ call.recorded) : Sound v (next v s call) := by
  have hnow : 0 ≤ call.checked := Int.le_trans h.clock hchecked
  refine ⟨Int.le_trans hnow hrecorded, bounded_run hchecks hnow h.bounded, ?_⟩
  intro ip
  simp only [next]
  rcases hget : (call.run v s.states).1.get? ip with _ | st
  · rw [if_pos rfl, stateOf_of_none hget]
    rfl
  · rw [if_neg (Option.some_ne_none st), stateOf_of_get? hget]
    by_cases hown : ip = call.ip
    · rw [if_pos hown, ← h.counted ip]
      subst hown
      exact counted_own hchecks call s.states hget
    · rw [if_neg hown, ← h.counted ip]
      rcases run_other hchecks call s.states hown with hsame | hnone
      · rw [hsame] at hget
        rw [stateOf_of_get? hget]
      · rw [hnone] at hget
        cases hget

theorem sound_reaches (hchecks : ∀ pw, v.checkpw pw ≠ none) {clock : Int} (hclock : 0 ≤ clock)
    {s : AuthRun} (h : Reaches (step v) Unguarded (.start clock) s) : Sound v s := by
  have hstart : Sound v (.start clock) := ⟨hclock, Nat.zero_le _, fun _ => rfl⟩
  apply h.invariant hstart
  intro s call s' hs _ hstep
  unfold step at hstep
  by_cases htime : OnTime s.clock [call]
  · rw [if_pos htime, Option.some.injEq] at hstep
    rw [← hstep]
    exact sound_next hchecks hs htime.1 htime.2.1
  · rw [if_neg htime] at hstep
    cases hstep

/-! ## 4. A lock holds -/

/-- A lock, or any state, that was found: the caller is the address used last. -/
theorem usedBefore_own (hchecks : ∀ pw, v.checkpw pw ≠ none) {call : VerifyCall}
    {states : IpStates} {st : IpState} {since : List String}
    (h : states.UsedBefore call.ip st since) (hlocked : call.checked < st.lockedUntil) :
    (call.run v states).1.UsedBefore call.ip st [] ∧
      (call.run v states).2 = .raised .webAuthLocked := by
  have hstate := stateOf_of_get? h.get?
  rcases run_cases v hchecks call states with ⟨-, hrun⟩ | ⟨hopen, -⟩
  · rw [hrun, hstate]
    exact ⟨usedBefore_setLast_self states call.ip st, rfl⟩
  · rw [hstate] at hopen
    exact absurd hlocked (Int.not_lt.mpr hopen)

/-- A call of another address. -/
theorem usedBefore_other (hchecks : ∀ pw, v.checkpw pw ≠ none) {call : VerifyCall}
    {states : IpStates} {ip : String} {st : IpState} {since : List String}
    (h : states.UsedBefore ip st since) (hne : call.ip ≠ ip)
    (hfew : distinct (since ++ [call.ip]) < v.stateMax) :
    (call.run v states).1.UsedBefore ip st (since ++ [call.ip]) := by
  rcases run_cases v hchecks call states with ⟨-, hrun⟩ | ⟨-, hrun | hrun⟩
  · rw [hrun]
    exact h.setLast hne _
  · rw [hrun]
    exact (h.setLast hne _).evictOver hfew
  · rw [hrun]
    exact (h.setLast hne _).evictOver hfew

def callers (calls : List VerifyCall) : List String := calls.map VerifyCall.ip

/-- Between two calls of an address fewer others than there is room for: in every stretch of
    the calls that the address does not take part in. -/
def FewOthers (v : Verifier) (ip : String) (calls : List VerifyCall) : Prop :=
  ∀ stretch, stretch <:+: calls → ip ∉ callers stretch → distinct (callers stretch) < v.stateMax

/-- The same, with the addresses that have called since its last call. -/
def FewSince (v : Verifier) (ip : String) (since : List String) (calls : List VerifyCall) : Prop :=
  ∀ stretch, stretch <+: calls → ip ∉ callers stretch →
    distinct (since ++ callers stretch) < v.stateMax

theorem OnTime.last {clock : Int} {calls : List VerifyCall} {last : VerifyCall}
    (h : OnTime clock (calls ++ [last])) : clock ≤ last.checked := by
  induction calls generalizing clock with
  | nil => exact h.1
  | cons call rest ih => exact Int.le_trans h.1 (Int.le_trans h.2.1 (ih h.2.2))

/-- **A lock holds**: whoever calls in between, the address is refused while its lock lasts
    and its state is not forgotten. -/
theorem locked_throughout (hchecks : ∀ pw, v.checkpw pw ≠ none) {ip : String} {st : IpState}
    {s : AuthRun} {since : List String} {later : List VerifyCall} {last : VerifyCall}
    (hused : s.states.UsedBefore ip st since) (hsince : FewSince v ip since later)
    (hfew : FewOthers v ip later) (htime : OnTime s.clock (later ++ [last])) (hlast : last.ip = ip)
    (hlocked : last.checked < st.lockedUntil) :
    (last.run v (later.foldl (next v) s).states).2 = .raised .webAuthLocked := by
  induction later generalizing s since with
  | nil =>
      subst hlast
      exact (usedBefore_own hchecks hused hlocked).2
  | cons call rest ih =>
      obtain ⟨-, hrecorded, hrest⟩ := htime
      have hfewRest : FewOthers v ip rest :=
        fun stretch hstretch => hfew stretch (hstretch.trans (List.suffix_cons _ _).isInfix)
      by_cases hown : call.ip = ip
      · subst hown
        have hnow : call.checked < st.lockedUntil :=
          Int.lt_of_le_of_lt (Int.le_trans hrecorded (OnTime.last hrest)) hlocked
        have hfresh : FewSince v call.ip [] rest :=
          fun stretch hstretch => hfewRest stretch hstretch.isInfix
        exact ih (usedBefore_own hchecks hused hnow).1 hfresh hfewRest hrest
      · have hsinceRest : FewSince v ip (since ++ [call.ip]) rest := by
          intro stretch hstretch habsent
          have hmore := hsince (call :: stretch) (List.cons_prefix_cons.mpr ⟨rfl, hstretch⟩)
            fun hmem => (List.mem_cons.mp hmem).elim (fun heq => hown heq.symm) habsent
          rw [List.append_assoc]
          exact hmore
        have hone : distinct (since ++ [call.ip]) < v.stateMax := by
          have hempty := hsinceRest [] List.nil_prefix (by simp [callers])
          rw [callers, List.map_nil, List.append_nil] at hempty
          exact hempty
        exact ih (usedBefore_other hchecks hused hown hone) hsinceRest hfewRest hrest

/-- A failing call that reaches the maximum locks. -/
theorem locks_of_streak (hchecks : ∀ pw, v.checkpw pw ≠ none) {s : AuthRun} (h : Sound v s)
    {call : VerifyCall} (hfails : (call.run v s.states).2 = .raised .webAuthRequired)
    (hmany : v.lockoutMax ≤ (next v s call).streak call.ip) (hroom : 0 < v.stateMax) :
    ∃ st, (next v s call).states.UsedBefore call.ip st [] ∧
      st.lockedUntil = call.recorded + v.lockout := by
  rcases run_cases v hchecks call s.states with ⟨-, hrun⟩ | ⟨-, hrun | hrun⟩
  · rw [hrun] at hfails
    cases hfails
  · have hused := (usedBefore_setLast_self s.states call.ip
      (v.failed call.recorded (Verifier.stateOf s.states call.ip))).evictOver hroom
    refine ⟨_, by rw [next, hrun]; exact hused, ?_⟩
    simp only [next, hrun, hused.get?, reduceCtorEq, if_false, if_true, countAnswer] at hmany
    rw [← h.counted] at hmany
    simp only [Verifier.failed]
    exact if_pos hmany
  · rw [hrun] at hfails
    cases hfails

/-- **Lockout within capacity.**  In every run, whatever the arguments of the constructor:
    the states stay within `state_max`; an address that fails with at least `lockout_max`
    failures since its last success is refused for `lockout_secs`, while fewer than
    `state_max` others call between two calls of it; and the other addresses change its
    failures and its lock only by having them forgotten. -/
theorem lockout_holds (hchecks : ∀ pw, v.checkpw pw ≠ none) {clock : Int} (hclock : 0 ≤ clock)
    {s : AuthRun} (h : Reaches (step v) Unguarded (.start clock) s) :
    s.states.entries.length ≤ v.stateMax ∧
      (∀ call later last, OnTime s.clock (call :: later ++ [last]) →
        (call.run v s.states).2 = .raised .webAuthRequired →
        v.lockoutMax ≤ (next v s call).streak call.ip → FewOthers v call.ip later →
        last.ip = call.ip → last.checked < call.recorded + v.lockout →
        (last.run v (later.foldl (next v) (next v s call)).states).2 = .raised .webAuthLocked) ∧
      ∀ call ip, ip ≠ call.ip → (next v s call).states.get? ip = s.states.get? ip ∨
        (next v s call).states.get? ip = none := by
  have hsound := sound_reaches hchecks hclock h
  refine ⟨hsound.bounded, ?_, fun call ip hne => run_other hchecks call s.states hne⟩
  intro call later last htime hfails hmany hfew hlast hwithin
  have hroom : 0 < v.stateMax := hfew [] List.nil_infix (by simp [callers])
  obtain ⟨st, hused, hlock⟩ := locks_of_streak hchecks hsound hfails hmany hroom
  rw [← hlock] at hwithin
  exact locked_throughout hchecks hused (fun stretch hstretch => hfew stretch hstretch.isInfix)
    hfew htime.2.2 hlast hwithin

/-- Two failures lock an address for a minute; there is room for two addresses. -/
def smallVerifier : Verifier where
  username := "user"
  lockoutMax := 2
  lockoutSecs := 60
  stateMax := 2
  decode := fun text => if text = "dXNlcjpwdw==" then some "user:pw" else none
  checkpw := fun pw => some (decide (pw = "pw"))

def withoutHeader (ip : String) (now : Int) : VerifyCall := ⟨ip, none, now, now⟩

theorem lockout_holds_secondFailure :
    ∃ s, Reaches (step smallVerifier) Unguarded (.start 0) s ∧ s.streak "10.0.0.1" = 1 ∧
      (VerifyCall.run smallVerifier ⟨"10.0.0.1", some "Basic dXNlcjpwdw==", 4, 4⟩
        ([withoutHeader "10.0.0.2" 3].foldl (next smallVerifier)
          (next smallVerifier s (withoutHeader "10.0.0.1" 2))).states).2 =
        .raised .webAuthLocked := by
  have hreach : Reaches (step smallVerifier) Unguarded (.start 0) _ :=
    play_get_reaches [withoutHeader "10.0.0.1" 1] (by decide +kernel)
  have hfew : FewOthers smallVerifier "10.0.0.1" [withoutHeader "10.0.0.2" 3] := by
    intro stretch hstretch _
    have hlength : distinct (callers stretch) ≤ (callers stretch).length :=
      (List.dedup_sublist _).length_le
    rw [callers, List.length_map] at hlength
    exact Nat.lt_of_le_of_lt (Nat.le_trans hlength hstretch.length_le) (by decide)
  obtain ⟨-, hlocked, -⟩ := lockout_holds (fun _ => Option.some_ne_none _) (Int.le_refl 0) hreach
  refine ⟨_, hreach, by decide +kernel,
    hlocked (withoutHeader "10.0.0.1" 2) _ _ ?_ ?_ ?_ hfew rfl ?_⟩
  · decide +kernel
  · decide +kernel
  · decide +kernel
  · decide +kernel

end FundingTool.AuthCapacity
