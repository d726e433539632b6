import FundingTool.PermissionCheck

/-!
# Receive windows

A signed request carries the clock reading made just before it is handed to `get_json`,
and the exchange accepts it for five seconds from then.  The retry loop sends the same
request again after each attempt that passes, so an attempt is late when the attempts and
the sleeps before it have taken more than that.  `sent_inTime_iff` says that this is the
only way to be late.
-/

namespace FundingTool.Http

open FundingTool.Interaction

variable {float : String → Option Delay} {client : HttpClient} {wire : Wire}

/-! ## 1. When the attempts of a call are sent -/

/-- The time the first `k` attempts of a call and the sleeps after them take, when its first
    attempt is the `i`-th of all. -/
def elapsed (float : String → Option Delay) (client : HttpClient) (wire : Wire) :
    Nat → Nat → Nat → Rat
  | _, _, 0 => 0
  | attempt, i, k + 1 =>
      (wire.attempts i).duration +
        sleepTime float client wire attempt (i + 1) (askedDelay (wire.outcome i)) +
        elapsed float client wire (attempt + 1) (i + 1) k

/-- The log after one more attempt. -/
def World.after (w : World) (request : Request) (seconds : Rat) : World :=
  ⟨w.sent ++ [⟨request, w.now⟩], w.now + seconds⟩

theorem World.length_sent_after (w : World) (request : Request) (seconds : Rat) :
    (w.after request seconds).sent.length = w.sent.length + 1 := List.length_append

/-- A turn that passes leads to the next. -/
theorem run_attemptsFrom_of_passes {attempt : Nat} {w : World}
    (h : Passes float client wire.nanRaises attempt (wire.outcome w.sent.length))
    (request : Request) (n : Nat) (last : Option Failure) :
    ∃ failure, (attemptsFrom float client request (n + 1) attempt last).run perform wire w =
      (attemptsFrom float client request n (attempt + 1) (some failure)).run perform wire
        (w.after request ((wire.attempts w.sent.length).duration +
          sleepTime float client wire attempt (w.sent.length + 1)
            (askedDelay (wire.outcome w.sent.length)))) := by
  obtain ⟨failure, hverdict, -⟩ := assess_retry h.1
  have hsend : (send request).run perform wire w =
      (w.after request (wire.attempts w.sent.length).duration,
        .ok (wire.outcome w.sent.length)) := rfl
  have hsleep := @run_sleep float client wire attempt (askedDelay (wire.outcome w.sent.length))
    (w.after request (wire.attempts w.sent.length).duration)
  rw [World.length_sent_after, (sleepEnding_ok_iff attempt _ _).mpr h.2] at hsleep
  refine ⟨failure, ?_⟩
  rw [attemptsFrom, Prog.run_bind_ok hsend, hverdict]
  simp only
  rw [Prog.run_bind_ok hsleep]
  simp only [World.after, add_assoc]

/-- A turn that does not pass is the last. -/
theorem sent_attemptsFrom_of_not_passes {attempt : Nat} {w : World}
    (h : ¬ Passes float client wire.nanRaises attempt (wire.outcome w.sent.length))
    (request : Request) (n : Nat) (last : Option Failure) :
    ((attemptsFrom float client request (n + 1) attempt last).run perform wire w).1.sent =
      w.sent ++ [⟨request, w.now⟩] := by
  have hsend : (send request).run perform wire w =
      (w.after request (wire.attempts w.sent.length).duration,
        .ok (wire.outcome w.sent.length)) := rfl
  rw [attemptsFrom, Prog.run_bind_ok hsend]
  by_cases hretry : Retryable (wire.outcome w.sent.length)
  · -- the sleep does not end
    obtain ⟨failure, hverdict, -⟩ := assess_retry hretry
    have hsleep := @run_sleep float client wire attempt (askedDelay (wire.outcome w.sent.length))
      (w.after request (wire.attempts w.sent.length).duration)
    rw [World.length_sent_after] at hsleep
    rw [hverdict]
    simp only
    rcases hending : sleepEnding float client wire attempt (w.sent.length + 1)
      (askedDelay (wire.outcome w.sent.length)) with e | u
    · rw [hending] at hsleep
      rw [Prog.run_bind_error hsleep]
      rfl
    · exact absurd ⟨hretry, (sleepEnding_ok_iff attempt _ _).mp hending⟩ h
  · obtain ⟨result, hverdict⟩ : ∃ result, assess (wire.outcome w.sent.length) = .stop result := by
      rcases assess_stop hretry with ⟨result, hverdict, -⟩ | ⟨hverdict, -⟩
      · exact ⟨result, hverdict⟩
      · exact ⟨_, hverdict⟩
    rw [hverdict]
    rcases result with e | json <;> rfl

theorem forall_sent_after (P : Sent → Prop) (w : World) (request : Request) (seconds : Rat) :
    (∀ sent ∈ (w.after request seconds).sent, P sent) ↔
      (∀ sent ∈ w.sent, P sent) ∧ P ⟨request, w.now⟩ := by
  rw [World.after, List.forall_mem_append, List.forall_mem_singleton]

/-- An attempt is sent when all before it have passed, once their time is over. -/
theorem forall_sent_attemptsFrom_iff (P : Sent → Prop) (request : Request) (n attempt : Nat)
    (last : Option Failure) (w : World) :
    (∀ sent ∈ ((attemptsFrom float client request n attempt last).run perform wire w).1.sent,
        P sent) ↔
      (∀ sent ∈ w.sent, P sent) ∧ ∀ k, k < n →
        (∀ j, j < k → Passes float client wire.nanRaises (attempt + j)
          (wire.outcome (w.sent.length + j))) →
        P ⟨request, w.now + elapsed float client wire attempt w.sent.length k⟩ := by
  induction n generalizing attempt last w with
  | zero => exact ⟨fun h => ⟨h, fun k hk => absurd hk (Nat.not_lt_zero k)⟩, fun h => h.1⟩
  | succ n ih =>
      have hzero : P ⟨request, w.now + elapsed float client wire attempt w.sent.length 0⟩ ↔
          P ⟨request, w.now⟩ := by rw [elapsed, add_zero]
      have hfirst : (∀ j, j < 0 → Passes float client wire.nanRaises (attempt + j)
          (wire.outcome (w.sent.length + j))) := fun j hj => absurd hj (Nat.not_lt_zero j)
      rw [Nat.forall_lt_succ_left, forall_prop_of_true hfirst, hzero]
      by_cases hpasses : Passes float client wire.nanRaises attempt (wire.outcome w.sent.length)
      · obtain ⟨failure, hrun⟩ := run_attemptsFrom_of_passes hpasses request n last
        rw [hrun, ih, forall_sent_after, and_assoc]
        refine and_congr_right fun _ => and_congr_right fun _ => forall_congr' fun k =>
          imp_congr_right fun _ => ?_
        have hpassed : (∀ j, j < k → Passes float client wire.nanRaises (attempt + 1 + j)
              (wire.outcome (w.sent.length + 1 + j))) ↔
            ∀ j, j < k + 1 → Passes float client wire.nanRaises (attempt + j)
              (wire.outcome (w.sent.length + j)) := by
          rw [Nat.forall_lt_succ_left]
          simp only [Nat.add_zero, hpasses, true_and, Nat.add_assoc, Nat.add_comm 1]
        rw [World.length_sent_after, hpassed, World.after, elapsed, add_assoc w.now]
      · rw [sent_attemptsFrom_of_not_passes hpasses, List.forall_mem_append,
          List.forall_mem_singleton]
        refine and_congr_right fun _ => (and_iff_left ?_).symm
        exact fun k _ hpassed => absurd (hpassed 0 (Nat.succ_pos k)) hpasses

theorem forall_sent_getJson_iff (P : Sent → Prop) (request : Request) (w : World) :
    (∀ sent ∈ ((getJson float client request).run perform wire w).1.sent, P sent) ↔
      (∀ sent ∈ w.sent, P sent) ∧ ∀ k, k < client.retryAttempts →
        (∀ j, j < k → Passes float client wire.nanRaises j (wire.outcome (w.sent.length + j))) →
        P ⟨request, w.now + elapsed float client wire 0 w.sent.length k⟩ := by
  rw [getJson, forall_sent_attemptsFrom_iff]
  simp only [Nat.zero_add]

/-! ## 2. Calls in time -/

def CallOp.IsSigned : CallOp → Prop
  | .getJson request => request.credentials.isSome = true
  | .localMs => False

/-- The exchange, whose clock is `offset` milliseconds ahead, accepts a signed attempt. -/
def Sent.InTime (offset : Int) (sent : Sent) : Prop :=
  sent.request.credentials.isSome = true →
    ∃ timestamp, sent.request.number "timestamp" = some timestamp ∧
      sent.request.number "recvWindow" = some 5000 ∧
      sent.time * 1000 + offset ≤ timestamp + 5000

/-- A signed call carries the reading of the clock at which it begins. -/
def Stamped (offset : Int) : CallOp × World → Prop
  | (.getJson request, w) => request.credentials.isSome = true →
      request.number "timestamp" = some (⌊w.now * 1000⌋ + offset) ∧
        request.number "recvWindow" = some 5000
  | (.localMs, _) => True

/-- No attempt of a signed call is sent after more than five seconds; what the clock reading
    cuts off counts as well. -/
def Timely (float : String → Option Delay) (client : HttpClient) (wire : Wire)
    (call : CallOp × World) : Prop :=
  call.1.IsSigned → ∀ k, k < client.retryAttempts →
    (∀ j, j < k → Passes float client wire.nanRaises j
      (wire.outcome (call.2.sent.length + j))) →
    Int.fract (call.2.now * 1000) + elapsed float client wire 0 call.2.sent.length k * 1000 ≤ 5000

theorem inTime_iff {offset : Int} {request : Request} {now : Rat}
    (hsigned : request.credentials.isSome = true)
    (htimestamp : request.number "timestamp" = some (⌊now * 1000⌋ + offset))
    (hwindow : request.number "recvWindow" = some 5000) (seconds : Rat) :
    Sent.InTime offset ⟨request, now + seconds⟩ ↔ Int.fract (now * 1000) + seconds * 1000 ≤ 5000 := by
  have hfract : Int.fract (now * 1000) = now * 1000 - ⌊now * 1000⌋ := rfl
  rw [hfract]
  constructor
  · intro h
    obtain ⟨timestamp, htimestamp', -, hle⟩ := h hsigned
    rw [htimestamp, Option.some.injEq] at htimestamp'
    rw [← htimestamp', Int.cast_add] at hle
    linarith only [hle]
  · intro h _
    refine ⟨_, htimestamp, hwindow, ?_⟩
    rw [Int.cast_add]
    linarith only [h]

/-- A stamped call keeps the log in time exactly when it is timely. -/
theorem timely_iff {offset : Int} {o : CallOp} {w : World} (h : Stamped offset (o, w)) :
    (∀ sent ∈ ((carryOut float client o).run perform wire w).1.sent, sent.InTime offset) ↔
      (∀ sent ∈ w.sent, sent.InTime offset) ∧ Timely float client wire (o, w) := by
  cases o with
  | localMs => exact (and_iff_left fun hsigned => hsigned.elim).symm
  | getJson request =>
      rw [run_carryOut_getJson, forall_sent_getJson_iff]
      refine and_congr_right fun _ => ?_
      by_cases hsigned : request.credentials.isSome = true
      · have hk := fun k => inTime_iff hsigned (h hsigned).1 (h hsigned).2
          (elapsed float client wire 0 w.sent.length k)
        simp only [hk]
        exact ⟨fun h _ => h, fun h => h hsigned⟩
      · exact iff_of_true (fun _ _ _ hsigned' => absurd hsigned' hsigned)
          fun hsigned' => absurd hsigned' hsigned

/-- The calls of a run, each with the state in which it begins. -/
def callsOf {α : Type} (float : String → Option Delay) (client : HttpClient) (wire : Wire)
    (p : Calls α) (w : World) : List (CallOp × World) :=
  p.begins (carryOut float client) perform wire w

/-- Where all calls are stamped, the run is in time exactly when they are timely. -/
theorem forall_sent_inTime_iff {α : Type} {offset : Int} {p : Calls α} {w : World}
    (h : ∀ call ∈ callsOf float client wire p w, Stamped offset call) :
    (∀ sent ∈ ((overHttp float client p).run perform wire w).1.sent, sent.InTime offset) ↔
      (∀ sent ∈ w.sent, sent.InTime offset) ∧
        ∀ call ∈ callsOf float client wire p w, Timely float client wire call :=
  Prog.run_interpret_iff (fun w : World => ∀ sent ∈ w.sent, sent.InTime offset) fun call hcall =>
    timely_iff (h call hcall)

/-! ## 3. What the callers stamp -/

theorem forall_callsOf_bind {α β : Type} {K : CallOp × World → Prop} {p : Calls α}
    {f : α → Calls β} {w : World} (hp : ∀ call ∈ callsOf float client wire p w, K call)
    (hf : ∀ a w', (overHttp float client p).run perform wire w = (w', .ok a) →
      ∀ call ∈ callsOf float client wire (f a) w', K call) :
    ∀ call ∈ callsOf float client wire (p >>= f) w, K call :=
  Prog.forall_begins_bind id hp hf

theorem stamped_readClock_bind {α : Type} {offset : Int} {f : Int → Calls α} {w : World}
    (h : ∀ call ∈ callsOf float client wire (f ⌊w.now * 1000⌋) w, Stamped offset call) :
    ∀ call ∈ callsOf float client wire (readClock >>= f) w, Stamped offset call := by
  have hcalls : callsOf float client wire (readClock >>= f) w =
      (.localMs, w) :: callsOf float client wire (f ⌊w.now * 1000⌋) w := rfl
  rw [hcalls, List.forall_mem_cons]
  exact ⟨trivial, h⟩

theorem callsOf_tryFetch (request : Request) (w : World) :
    callsOf float client wire (tryFetch request) w = [(.getJson request, w)] := by
  rw [callsOf, tryFetch, Prog.begins, run_carryOut_getJson]
  rfl

theorem callsOf_fetch (request : Request) (w : World) :
    callsOf float client wire (fetch request) w = [(.getJson request, w)] := by
  rw [callsOf, fetch, Prog.begins, run_carryOut_getJson]
  simp only
  rcases ((getJson float client request).run perform wire w).2 with e | json <;> rfl

theorem stamped_signedRequest {offset : Int} {credentials : ApiCredentials} {path : String}
    {w : World} : Stamped offset (.getJson (signedRequest credentials path
      (accountParams (⌊w.now * 1000⌋ + offset))), w) :=
  fun _ => ⟨rfl, rfl⟩

/-- The calls of the permission check are stamped, if the offset is exact. -/
theorem stamped_verifyCredentials {int : Json → Option Int} {credentials : ApiCredentials}
    {offset : Int} {w : World}
    (hexact : ∀ computed, ((overHttp float client (computeTimeOffset int)).run perform wire w).2 =
      .ok computed → computed = offset) :
    ∀ call ∈ callsOf float client wire (verifyCredentials int credentials) w,
      Stamped offset call := by
  rw [verifyCredentials]
  refine forall_callsOf_bind ?_ fun computed w₁ hcomputed => ?_
  · -- the call for the time is not signed
    rw [computeTimeOffset]
    refine forall_callsOf_bind ?_ fun server w₁ _ => stamped_readClock_bind ?_
    · rw [callsOf_fetch, List.forall_mem_singleton]
      exact fun hsigned => absurd hsigned (by decide)
    · rcases serverTime int server with _ | ms <;> exact List.forall_mem_nil _
  · obtain rfl := hexact computed (by rw [hcomputed])
    refine forall_callsOf_bind (stamped_readClock_bind ?_) fun balance w₂ _ =>
      forall_callsOf_bind (stamped_readClock_bind ?_) fun restrictions w₃ _ => ?_
    · rw [callsOf_fetch, List.forall_mem_singleton]
      exact stamped_signedRequest
    · rw [callsOf_tryFetch, List.forall_mem_singleton]
      exact stamped_signedRequest
    · rcases readRestrictions restrictions with e | report <;> exact List.forall_mem_nil _

open FundingIncome (IncomeItem incomePage)

theorem stamped_incomePage {int : Json → Option Int} {readItems : Json → Option (List IncomeItem)}
    (credentials : ApiCredentials) (endMs offset : Int) (symbol : Option String) (cursorMs : Int)
    (w : World) :
    ∀ call ∈ callsOf float client wire
      ((incomePage credentials endMs offset symbol cursorMs).interpret (incomeCall int readItems)
        .tool) w, Stamped offset call := by
  refine stamped_readClock_bind (forall_callsOf_bind (forall_callsOf_bind ?_ ?_) ?_)
  · rw [callsOf_tryFetch, List.forall_mem_singleton]
    exact fun _ => ⟨rfl, rfl⟩
  · rintro (e | json) w₁ -
    · cases e <;> exact List.forall_mem_nil _
    · rw [toolErrors]
      rcases readItems json with _ | items <;> exact List.forall_mem_nil _
  · rintro (e | items) w₁ - <;> exact List.forall_mem_nil _

theorem stamped_incomeCalls {int : Json → Option Int} {readItems : Json → Option (List IncomeItem)}
    (budget : Int → Int → Nat) (credentials : ApiCredentials) (start stop offset : Int)
    (symbol : Option String) (w : World) :
    ∀ call ∈ callsOf float client wire
      (incomeCalls int readItems budget credentials start stop offset symbol) w,
      Stamped offset call := by
  rw [incomeCalls, FundingIncome.iterIncomePagesWithin, Prog.interpret_bind, Prog.interpret_pages]
  refine forall_callsOf_bind ?_ fun items w₁ _ => List.forall_mem_nil _
  exact Prog.forall_begins_pages id (stamped_incomePage credentials (toMs stop) offset symbol) _ _ _ _
    _ _ _

/-! ## 4. Receive windows -/

/-- **When signed attempts are in time.**  In every run of the income loop, and of the
    permission check if its offset is exact, all attempts go out within the receive window
    exactly when every signed call that begins is timely.  Timestamps are whole milliseconds;
    those of the source are from November 2004 to January 2038 (`TimeUtil`). -/
theorem sent_inTime_iff (float : String → Option Delay) (wire : Wire) (int : Json → Option Int)
    (credentials : ApiCredentials) (offset : Int) (w : World) :
    (∀ (client : HttpClient) (readItems : Json → Option (List IncomeItem))
        (budget : Int → Int → Nat) (start stop : Int) (symbol : Option String),
      (∀ sent ∈ ((overHttp float client (incomeCalls int readItems budget credentials start stop
          offset symbol)).run perform wire w).1.sent, sent.InTime offset) ↔
        (∀ sent ∈ w.sent, sent.InTime offset) ∧
          ∀ call ∈ callsOf float client wire (incomeCalls int readItems budget credentials start
            stop offset symbol) w, Timely float client wire call) ∧
    ((∀ computed, ((overHttp float {} (computeTimeOffset int)).run perform wire w).2 =
        .ok computed → computed = offset) →
      ((∀ sent ∈ ((overHttp float {} (verifyCredentials int credentials)).run perform wire w).1.sent,
          sent.InTime offset) ↔
        (∀ sent ∈ w.sent, sent.InTime offset) ∧
          ∀ call ∈ callsOf float {} wire (verifyCredentials int credentials) w,
            Timely float {} wire call)) := by
  constructor
  · intro client readItems budget start stop symbol
    exact forall_sent_inTime_iff
      (stamped_incomeCalls budget credentials start stop offset symbol w)
  · intro hexact
    exact forall_sent_inTime_iff (stamped_verifyCredentials hexact)

/-- The answers arrive at once. -/
theorem sent_inTime_iff_prompt :
    ∀ call ∈ callsOf (fun _ => none) {} (Wire.scripted [(serverClock, 0)] emptyArray)
      (verifyCredentials intOf goodKey) ⟨[], 0⟩,
      Timely (fun _ => none) {} (Wire.scripted [(serverClock, 0)] emptyArray) call := by
  have hiff := (sent_inTime_iff (fun _ => none) (Wire.scripted [(serverClock, 0)] emptyArray) intOf
    goodKey 1700000000000 ⟨[], 0⟩).2 ?_
  · refine (hiff.mp ?_).2
    have hsent : ((overHttp (fun _ => none) {} (verifyCredentials intOf goodKey)).run perform
        (Wire.scripted [(serverClock, 0)] emptyArray) ⟨[], 0⟩).1.sent =
        [⟨⟨"/fapi/v1/time", [], none⟩, 0⟩,
          ⟨signedRequest goodKey "/fapi/v3/balance" (accountParams 1700000000000), 0⟩,
          ⟨signedRequest goodKey "/sapi/v1/account/apiRestrictions"
            (accountParams 1700000000000), 0⟩] := by decide +kernel
    rw [hsent]
    simp only [List.forall_mem_cons]
    refine ⟨fun hsigned => absurd hsigned (by decide), fun _ => ⟨_, rfl, rfl, ?_⟩,
      fun _ => ⟨_, rfl, rfl, ?_⟩, List.forall_mem_nil _⟩
    · norm_num
    · norm_num
  · intro computed hcomputed
    have hrun : ((overHttp (fun _ => none) {} (computeTimeOffset intOf)).run perform
        (Wire.scripted [(serverClock, 0)] emptyArray) ⟨[], 0⟩).2 = .ok 1700000000000 := by
      decide +kernel
    rw [hrun] at hcomputed
    exact (Except.ok.inj hcomputed).symm

/-- A read timeout of fifteen seconds: the same query string is sent again after sixteen. -/
theorem verifyCredentials_stale :
    ((overHttp (fun _ => none) {} (computeTimeOffset intOf)).run perform
        (Wire.scripted [(serverClock, 0), (.error "ReadTimeout", 15)] emptyArray) ⟨[], 0⟩).2 =
      .ok 1700000000000 ∧
    ∃ sent ∈ ((overHttp (fun _ => none) {} (verifyCredentials intOf goodKey)).run perform
        (Wire.scripted [(serverClock, 0), (.error "ReadTimeout", 15)] emptyArray) ⟨[], 0⟩).1.sent,
      ¬ sent.InTime 1700000000000 := by
  refine ⟨by decide +kernel,
    ⟨signedRequest goodKey "/fapi/v3/balance" (accountParams 1700000000000), 16⟩,
    by decide +kernel, ?_⟩
  intro h
  obtain ⟨timestamp, htimestamp, -, hle⟩ := h rfl
  cases htimestamp
  norm_num at hle

end FundingTool.Http
