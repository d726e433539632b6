import FundingTool.HttpClient
import Mathlib.Tactic.Linarith

/-!
# The outcomes of `get_json`

A retryable outcome is followed by another attempt, as long as there are any; any other
ends the call.  Two things are not mapped to an error of the tool: a body that is no JSON
on a response below 400, and a sleep that does not end (an infinite `Retry-After`, or a
backoff that is no float).  `getJson_outcome_iff` says that nothing else is missing.
-/

namespace FundingTool.Http

open FundingTool.Interaction

/-! ## 1. Retryable outcomes -/

/-- A Binance code or a status that says the key is not accepted. -/
def Response.IsAuth (resp : Response) : Prop :=
  (∃ c ∈ extractBinanceCode resp, c ∈ binanceAuthCodes) ∨ resp.statusCode = 401 ∨
    resp.statusCode = 403

instance (resp : Response) : Decidable resp.IsAuth := inferInstanceAs (Decidable (_ ∨ _))

/-- The exchange asks to wait. -/
def Response.IsRateLimit (resp : Response) : Prop :=
  extractBinanceCode resp = some binanceRateLimitCode ∨ resp.statusCode = 429

instance (resp : Response) : Decidable resp.IsRateLimit := inferInstanceAs (Decidable (_ ∨ _))

def Response.IsServerError (resp : Response) : Prop :=
  500 ≤ resp.statusCode ∧ resp.statusCode < 600

instance (resp : Response) : Decidable resp.IsServerError := inferInstanceAs (Decidable (_ ∧ _))

/-- Transport errors, rate limits and server errors, unless the key is not accepted. -/
def Retryable : Outcome → Prop
  | .error _ => True
  | .ok resp => ¬ resp.IsAuth ∧ (resp.IsRateLimit ∨ resp.IsServerError)

/-- The error that says what a retryable outcome was. -/
def matchingError : Outcome → FundingToolError
  | .error text => .network text
  | .ok resp =>
      if resp.IsRateLimit then .rateLimit (toString resp.statusCode ++ ": " ++ resp.text)
      else .exchange (toString resp.statusCode ++ ": " ++ resp.text)

/-- How a call may end on an outcome that is not retryable. -/
inductive Concludes : Outcome → Except HttpError Json → Prop
  | auth {resp : Response} {message : String} : resp.IsAuth →
      Concludes (.ok resp) (.error (.tool (.authentication message)))
  | fatal {resp : Response} {message : String} : ¬ resp.IsAuth → 400 ≤ resp.statusCode →
      Concludes (.ok resp) (.error (.tool (.exchange message)))
  | body {resp : Response} {json : Json} : ¬ resp.IsAuth → resp.statusCode < 400 →
      resp.json = some json → Concludes (.ok resp) (.ok json)

/-- A response that is neither an error nor JSON. -/
def Undecodable : Outcome → Prop
  | .error _ => False
  | .ok resp => ¬ resp.IsAuth ∧ ¬ resp.IsRateLimit ∧ resp.statusCode < 400 ∧ resp.json = none

/-- The header a retryable outcome is slept with: only a rate limit is asked for one. -/
def askedDelay : Outcome → Option String
  | .error _ => none
  | .ok resp => if resp.IsRateLimit then resp.retryAfter else none

/-- The branches of the loop, by what they ask about the response. -/
theorem assess_ok (resp : Response) :
    assess (.ok resp) =
      if resp.IsAuth then
        .stop (.error (.tool (.authentication (toString resp.statusCode ++ " code=" ++
          codeText resp ++ ": " ++ resp.text))))
      else if resp.IsRateLimit then
        .retry (.rateLimit (toString resp.statusCode ++ ": " ++ resp.text)) resp.retryAfter
      else if resp.statusCode = 418 then
        .stop (.error (.tool (.exchange ("418 IP banned: " ++ resp.text))))
      else if resp.IsServerError then
        .retry (.exchange (toString resp.statusCode ++ ": " ++ resp.text)) none
      else if 400 ≤ resp.statusCode then
        .stop (.error (.tool (.exchange (toString resp.statusCode ++ ": " ++ resp.text))))
      else
        match resp.json with
        | some body => .stop (.ok body)
        | none => .stop (.error .jsonDecode) := rfl

theorem assess_retry {outcome : Outcome} (h : Retryable outcome) :
    ∃ failure, assess outcome = .retry failure (askedDelay outcome) ∧
      finalError (some failure) = matchingError outcome := by
  rcases outcome with text | resp
  · exact ⟨_, rfl, rfl⟩
  · obtain ⟨hauth, hkind⟩ := h
    rw [assess_ok, matchingError, askedDelay, if_neg hauth]
    by_cases hlimit : resp.IsRateLimit
    · rw [if_pos hlimit, if_pos hlimit, if_pos hlimit]
      exact ⟨_, rfl, rfl⟩
    · have hserver := hkind.resolve_left hlimit
      have hbanned : ¬ resp.statusCode = 418 := by
        rintro heq
        rw [Response.IsServerError, heq] at hserver
        omega
      rw [if_neg hlimit, if_neg hlimit, if_neg hlimit, if_neg hbanned, if_pos hserver]
      exact ⟨_, rfl, rfl⟩

/-- What ends a call, except for a body that is no JSON. -/
theorem assess_stop {outcome : Outcome} (h : ¬ Retryable outcome) :
    (∃ result, assess outcome = .stop result ∧ ¬ Undecodable outcome ∧ Concludes outcome result) ∨
      assess outcome = .stop (.error .jsonDecode) ∧ Undecodable outcome := by
  rcases outcome with text | resp
  · exact absurd trivial h
  · rw [assess_ok]
    by_cases hauth : resp.IsAuth
    · rw [if_pos hauth]
      exact Or.inl ⟨_, rfl, fun hu => hu.1 hauth, .auth hauth⟩
    · have hlimit : ¬ resp.IsRateLimit := fun hlimit => h ⟨hauth, Or.inl hlimit⟩
      have hserver : ¬ resp.IsServerError := fun hserver => h ⟨hauth, Or.inr hserver⟩
      rw [if_neg hauth, if_neg hlimit]
      by_cases hbanned : resp.statusCode = 418
      · rw [if_pos hbanned]
        refine Or.inl ⟨_, rfl, ?_, .fatal hauth (by omega)⟩
        rintro ⟨-, -, hlow, -⟩
        omega
      · rw [if_neg hbanned, if_neg hserver]
        by_cases hhigh : 400 ≤ resp.statusCode
        · rw [if_pos hhigh]
          refine Or.inl ⟨_, rfl, ?_, .fatal hauth hhigh⟩
          rintro ⟨-, -, hlow, -⟩
          omega
        · rw [if_neg hhigh]
          rcases hjson : resp.json with _ | json
          · exact Or.inr ⟨rfl, hauth, hlimit, not_le.mp hhigh, hjson⟩
          · refine Or.inl ⟨_, rfl, ?_, .body hauth (not_le.mp hhigh) hjson⟩
            rintro ⟨-, -, -, hnone⟩
            rw [hjson] at hnone
            cases hnone

theorem Undecodable.not_retryable {outcome : Outcome} (h : Undecodable outcome) :
    ¬ Retryable outcome := by
  rcases outcome with text | resp
  · exact h.elim
  · obtain ⟨-, hlimit, hlow, -⟩ := h
    rintro ⟨-, hkind | hkind⟩
    · exact hlimit hkind
    · have := hkind.1
      omega

/-! ## 2. Sleeping -/

/-- What leaves `get_json` without being an error of the tool. -/
def HttpError.IsStray : HttpError → Prop
  | .tool _ => False
  | _ => True

variable (float : String → Option Delay) (client : HttpClient) (wire : Wire)

/-- The delay a header asks for, where it is not empty and can be read. -/
def requested (retryAfter : Option String) : Option Delay :=
  (retryAfter.filter fun text => decide (text ≠ "")).bind float

/-- The backoff after an attempt is a float, and finite. -/
def BackoffEnds (attempt : Nat) : Prop :=
  attempt < 1024 ∧ client.retryBaseSleep * 2 ^ attempt < floatBound

/-- With a base of one second every power that is a float will do. -/
theorem backoffEnds_default {attempt : Nat} (h : attempt < 1024) : BackoffEnds {} attempt := by
  have hpow : (2 : Rat) ^ attempt < 2 ^ 1024 := pow_lt_pow_right₀ one_lt_two h
  refine ⟨h, ?_⟩
  rwa [floatBound, Nat.cast_pow, Nat.cast_ofNat, one_mul]

/-- The sleep after an attempt ends, and nothing is raised. -/
def SleepEnds (nanRaises : Bool) (attempt : Nat) (retryAfter : Option String) : Prop :=
  match requested float retryAfter with
  | none => BackoffEnds client attempt
  | some (.finite _) => True
  | some (.infinity negative) => negative = true
  | some .nan => nanRaises = true → BackoffEnds client attempt

/-- How the backoff after the `i`-th request of all ends. -/
def backoffEnding (attempt i : Nat) : Except HttpError Unit := do
  let delay ← exponential client attempt
  (wire.waking (delay.plus (wire.jitter i))).2.ending

/-- How long it takes. -/
def backoffTime (attempt i : Nat) : Rat :=
  match exponential client attempt with
  | .error _ => 0
  | .ok delay => (wire.waking (delay.plus (wire.jitter i))).1

/-- How `_sleep` ends. -/
def sleepEnding (attempt i : Nat) (retryAfter : Option String) : Except HttpError Unit :=
  match requested float retryAfter with
  | none => backoffEnding client wire attempt i
  | some delay =>
      match (wire.waking delay).2 with
      | .woke => .ok ()
      | .valueError => backoffEnding client wire attempt i
      | .never => .error .asleep

/-- How long `_sleep` takes. -/
def sleepTime (attempt i : Nat) (retryAfter : Option String) : Rat :=
  match requested float retryAfter with
  | none => backoffTime client wire attempt i
  | some delay =>
      if (wire.waking delay).2 = .valueError then
        (wire.waking delay).1 + backoffTime client wire attempt i
      else (wire.waking delay).1

variable {float client wire}

theorem run_backoff (attempt : Nat) (w : World) :
    (backoff client attempt).run perform wire w =
      ({ w with now := w.now + backoffTime client wire attempt w.sent.length },
        backoffEnding client wire attempt w.sent.length) := by
  rw [backoff, backoffTime, backoffEnding]
  rcases exponential client attempt with e | delay
  · simp only [Prog.ofExcept, add_zero]
    rfl
  · have hsleep : (asyncSleep (delay.plus (wire.jitter w.sent.length))).run perform wire w =
        ({ w with now := w.now + (wire.waking (delay.plus (wire.jitter w.sent.length))).1 },
          .ok (wire.waking (delay.plus (wire.jitter w.sent.length))).2) := rfl
    have huniform : uniform.run perform wire w = (w, .ok (wire.jitter w.sent.length)) := rfl
    simp only [Prog.ofExcept, Prog.ret_bind]
    rw [Prog.run_bind_ok huniform, Prog.run_bind_ok hsleep]
    rcases hending : (wire.waking (delay.plus (wire.jitter w.sent.length))).2.ending with e | u
    · simp only [Prog.run_raise]
      exact congrArg _ hending.symm
    · simp only [Prog.run_ret]
      exact congrArg _ hending.symm

/-- A sleep takes its time and changes nothing else. -/
theorem run_sleep (attempt : Nat) (retryAfter : Option String) (w : World) :
    (sleep float client attempt retryAfter).run perform wire w =
      ({ w with now := w.now + sleepTime float client wire attempt w.sent.length retryAfter },
        sleepEnding float client wire attempt w.sent.length retryAfter) := by
  rw [sleep, sleepTime, sleepEnding]
  rcases hdelay : requested float retryAfter with _ | delay
  · rw [requested] at hdelay
    rw [hdelay]
    exact run_backoff attempt w
  · rw [requested] at hdelay
    have hsleep : (asyncSleep delay).run perform wire w =
        ({ w with now := w.now + (wire.waking delay).1 }, .ok (wire.waking delay).2) := rfl
    rw [hdelay]
    simp only
    rw [Prog.run_bind_ok hsleep]
    rcases hwaking : (wire.waking delay).2 with _ | _ | _
    · rfl
    · simp [run_backoff, add_assoc]
    · rfl

/-- A backoff ends exactly when it is a finite float. -/
theorem backoffEnding_ok_iff (attempt i : Nat) :
    backoffEnding client wire attempt i = .ok () ↔ BackoffEnds client attempt := by
  rw [backoffEnding, exponential, BackoffEnds]
  by_cases hpower : 1024 ≤ attempt
  · rw [if_pos hpower]
    exact iff_of_false (fun h => by cases h) fun h => absurd h.1 (Nat.not_lt.mpr hpower)
  · have hlt := Nat.not_le.mp hpower
    rw [if_neg hpower]
    by_cases hover : (floatBound : Rat) ≤ client.retryBaseSleep * 2 ^ attempt
    · rw [if_pos hover]
      exact iff_of_false (fun h => by cases h) fun h => absurd h.2 (not_lt.mpr hover)
    · rw [if_neg hover]
      by_cases hunder : client.retryBaseSleep * 2 ^ attempt ≤ -(floatBound : Rat)
      · rw [if_pos hunder]
        exact iff_of_true rfl ⟨hlt, not_le.mp hover⟩
      · rw [if_neg hunder]
        exact iff_of_true rfl ⟨hlt, not_le.mp hover⟩

theorem backoffEnding_stray {attempt i : Nat} {e : HttpError}
    (h : backoffEnding client wire attempt i = .error e) : e.IsStray := by
  rw [backoffEnding] at h
  rcases hdelay : exponential client attempt with e' | delay
  · rw [hdelay] at h
    simp only [bind, Except.bind, Except.error.injEq] at h
    subst h
    rw [exponential] at hdelay
    split at hdelay
    · cases hdelay
      trivial
    · split at hdelay
      · cases hdelay
      · split at hdelay <;> cases hdelay
  · rw [hdelay] at h
    simp only [bind, Except.bind] at h
    rcases hwaking : (wire.waking (delay.plus (wire.jitter i))).2 with _ | _ | _ <;>
      rw [hwaking] at h <;> cases h <;> trivial

theorem sleepEnding_ok_iff (attempt i : Nat) (retryAfter : Option String) :
    sleepEnding float client wire attempt i retryAfter = .ok () ↔
      SleepEnds float client wire.nanRaises attempt retryAfter := by
  rw [sleepEnding, SleepEnds]
  rcases requested float retryAfter with _ | seconds | negative | _
  · exact backoffEnding_ok_iff attempt i
  · exact iff_of_true rfl trivial
  · cases negative with
    | true => exact iff_of_true rfl rfl
    | false => exact iff_of_false (fun h => by cases h) Bool.false_ne_true
  · simp only [Wire.waking]
    cases wire.nanRaises with
    | true => exact (backoffEnding_ok_iff attempt i).trans (true_imp_iff.symm.trans (by simp))
    | false => exact iff_of_true rfl fun h => absurd h Bool.false_ne_true

theorem sleepEnding_stray {attempt i : Nat} {retryAfter : Option String} {e : HttpError}
    (h : sleepEnding float client wire attempt i retryAfter = .error e) : e.IsStray := by
  rw [sleepEnding] at h
  rcases hdelay : requested float retryAfter with _ | delay
  · rw [hdelay] at h
    exact backoffEnding_stray h
  · rw [hdelay] at h
    simp only at h
    rcases hwaking : (wire.waking delay).2 with _ | _ | _ <;> rw [hwaking] at h
    · cases h
    · exact backoffEnding_stray h
    · cases h
      trivial

/-! ## 3. The loop -/

/-- The outcomes the surroundings choose. -/
def Wire.outcome (wire : Wire) (i : Nat) : Outcome := (wire.attempts i).outcome

/-- What the turns of the loop come to, from the `i`-th request of all on: how many
    requests are sent, and the result. -/
def turns (float : String → Option Delay) (client : HttpClient) (wire : Wire) :
    Nat → Nat → Nat → Option Failure → Nat × Except HttpError Json
  | 0, _, _, last => (0, .error (.tool (finalError last)))
  | n + 1, attempt, i, _ =>
      match assess (wire.outcome i) with
      | .stop result => (1, result)
      | .retry failure retryAfter =>
          match sleepEnding float client wire attempt (i + 1) retryAfter with
          | .error e => (1, .error e)
          | .ok _ =>
              let rest := turns float client wire n (attempt + 1) (i + 1) (some failure)
              (rest.1 + 1, rest.2)

theorem run_attemptsFrom (request : Request) (n attempt : Nat) (last : Option Failure) (w : World) :
    ((attemptsFrom float client request n attempt last).run perform wire w).2 =
        (turns float client wire n attempt w.sent.length last).2 ∧
      ((attemptsFrom float client request n attempt last).run perform wire w).1.sent.length =
        w.sent.length + (turns float client wire n attempt w.sent.length last).1 := by
  induction n generalizing attempt last w with
  | zero => exact ⟨rfl, rfl⟩
  | succ n ih =>
      have hsend : (send request).run perform wire w =
          (⟨w.sent ++ [⟨request, w.now⟩], w.now + (wire.attempts w.sent.length).duration⟩,
            .ok (wire.outcome w.sent.length)) := rfl
      rw [attemptsFrom, Prog.run_bind_ok hsend, turns]
      rcases hverdict : assess (wire.outcome w.sent.length) with result | ⟨failure, retryAfter⟩
      · refine ⟨?_, ?_⟩
        · rcases result with e | json <;> rfl
        · rcases result with e | json <;> simp [Prog.ofExcept]
      · simp only
        rw [Prog.run_bind, run_sleep]
        simp only [List.length_append, List.length_singleton]
        rcases hending : sleepEnding float client wire attempt (w.sent.length + 1) retryAfter
          with e | u
        · exact ⟨rfl, by simp⟩
        · have hrest := ih (attempt + 1) (some failure)
          simp only
          constructor
          · rw [(hrest _).1, List.length_append, List.length_singleton]
          · rw [(hrest _).2, List.length_append, List.length_singleton]
            omega

/-- Retryable, and the sleep that follows ends. -/
def Passes (float : String → Option Delay) (client : HttpClient) (nanRaises : Bool) (attempt : Nat)
    (outcome : Outcome) : Prop :=
  Retryable outcome ∧ SleepEnds float client nanRaises attempt (askedDelay outcome)

/-- Either all attempts pass, or there is a first that does not. -/
theorem all_or_first (good : Nat → Prop) (n : Nat) :
    (∀ j, j < n → good j) ∨ ∃ k, k < n ∧ (∀ j, j < k → good j) ∧ ¬ good k := by
  induction n with
  | zero => exact Or.inl fun j hj => absurd hj (Nat.not_lt_zero j)
  | succ n ih =>
      rcases ih with hall | ⟨k, hk, hbefore, hnot⟩
      · by_cases hgood : good n
        · left
          intro j hj
          rcases Nat.lt_succ_iff_lt_or_eq.mp hj with hlt | rfl
          · exact hall j hlt
          · exact hgood
        · exact Or.inr ⟨n, Nat.lt_succ_self n, hall, hgood⟩
      · exact Or.inr ⟨k, Nat.lt_succ_of_lt hk, hbefore, hnot⟩

/-- Where what retryable outcomes have is asked of all that are reached, only the first that
    is not retryable counts. -/
theorem forall_reached_iff {o : Nat → Outcome} {P : Nat → Prop} {n k : Nat} (hk : k < n)
    (hbefore : ∀ j, j < k → Retryable (o j)) (hfirst : ¬ Retryable (o k))
    (hretryable : ∀ j, Retryable (o j) → P j) :
    (∀ k', k' < n → (∀ j, j < k' → Retryable (o j)) → P k') ↔ P k := by
  refine ⟨fun h => h k hk hbefore, ?_⟩
  intro h k' _ hbefore'
  rcases Nat.lt_trichotomy k' k with hlt | rfl | hgt
  · exact hretryable k' (hbefore k' hlt)
  · exact h
  · exact absurd (hbefore' k hgt) hfirst

section Turns

theorem turns_of_passes {n attempt i : Nat}
    (h : Passes float client wire.nanRaises attempt (wire.outcome i)) (last : Option Failure) :
    ∃ failure, finalError (some failure) = matchingError (wire.outcome i) ∧
      turns float client wire (n + 1) attempt i last =
        ((turns float client wire n (attempt + 1) (i + 1) (some failure)).1 + 1,
          (turns float client wire n (attempt + 1) (i + 1) (some failure)).2) := by
  obtain ⟨failure, hverdict, hfinal⟩ := assess_retry h.1
  have hending := (sleepEnding_ok_iff attempt (i + 1) _).mpr h.2
  refine ⟨failure, hfinal, ?_⟩
  rw [turns, hverdict]
  simp only
  rw [hending]

/-- Attempts that pass lead to the first that does not. -/
theorem turns_of_first {n attempt i k : Nat} {last : Option Failure}
    {result : Except HttpError Json}
    (hbefore : ∀ j, j < k → Passes float client wire.nanRaises (attempt + j) (wire.outcome (i + j)))
    (hk : k < n)
    (hfirst : ∀ m last, turns float client wire (m + 1) (attempt + k) (i + k) last = (1, result)) :
    turns float client wire n attempt i last = (k + 1, result) := by
  induction n generalizing attempt i k last with
  | zero => exact absurd hk (Nat.not_lt_zero k)
  | succ n ih =>
      cases k with
      | zero => exact hfirst n last
      | succ k =>
          obtain ⟨failure, -, hturns⟩ :=
            @turns_of_passes float client wire n attempt i (hbefore 0 (Nat.succ_pos k)) last
          have hrest : turns float client wire n (attempt + 1) (i + 1) (some failure) =
              (k + 1, result) := by
            refine ih (fun j hj => ?_) (Nat.lt_of_succ_lt_succ hk) fun m last => ?_
            · rw [Nat.add_assoc, Nat.add_assoc, Nat.add_comm 1]
              exact hbefore (j + 1) (Nat.succ_lt_succ hj)
            · rw [Nat.add_assoc, Nat.add_assoc, Nat.add_comm 1]
              exact hfirst m last
          rw [hturns, hrest]

/-- When all attempts pass, the last one names the error. -/
theorem turns_of_all {n attempt i : Nat} {last : Option Failure}
    (hall : ∀ j, j < n + 1 →
      Passes float client wire.nanRaises (attempt + j) (wire.outcome (i + j))) :
    turns float client wire (n + 1) attempt i last =
      (n + 1, .error (.tool (matchingError (wire.outcome (i + n))))) := by
  induction n generalizing attempt i last with
  | zero =>
      obtain ⟨failure, hfinal, hturns⟩ :=
        @turns_of_passes float client wire 0 attempt i (hall 0 (Nat.succ_pos 0)) last
      rw [hturns, turns, hfinal]
      rfl
  | succ n ih =>
      obtain ⟨failure, -, hturns⟩ :=
        @turns_of_passes float client wire (n + 1) attempt i (hall 0 (Nat.succ_pos _)) last
      have hrest : turns float client wire (n + 1) (attempt + 1) (i + 1) (some failure) =
          (n + 1, .error (.tool (matchingError (wire.outcome (i + 1 + n))))) := by
        refine ih fun j hj => ?_
        rw [Nat.add_assoc, Nat.add_assoc, Nat.add_comm 1]
        exact hall (j + 1) (Nat.succ_lt_succ hj)
      rw [hturns, hrest, Nat.add_assoc i, Nat.add_comm 1 n]

theorem turns_sent_le (n attempt i : Nat) (last : Option Failure) :
    (turns float client wire n attempt i last).1 ≤ n := by
  induction n generalizing attempt i last with
  | zero => exact Nat.le_refl 0
  | succ n ih =>
      rw [turns]
      rcases assess (wire.outcome i) with result | ⟨failure, retryAfter⟩
      · exact Nat.succ_le_succ (Nat.zero_le n)
      · simp only
        rcases sleepEnding float client wire attempt (i + 1) retryAfter with e | u
        · exact Nat.succ_le_succ (Nat.zero_le n)
        · exact Nat.succ_le_succ (ih _ _ _)

end Turns

/-! ## 4. Closed outcomes -/

/-- The call ends at the first outcome that is not retryable, with its body or the error it
    stands for, or after `n` retryable ones with the error matching the last. -/
def Closed (n : Nat) (o : Nat → Outcome) (sent : Nat) (result : Except HttpError Json) : Prop :=
  (∃ k, k < n ∧ (∀ j, j < k → Retryable (o j)) ∧ ¬ Retryable (o k) ∧ sent = k + 1 ∧
    Concludes (o k) result) ∨
  (∀ j, j < n → Retryable (o j)) ∧ sent = n ∧
    result = .error (.tool (matchingError (o (n - 1))))

/-- The outcome that decides is no undecodable body, and every sleep before it ends. -/
structure Decodable (float : String → Option Delay) (client : HttpClient) (nanRaises : Bool)
    (o : Nat → Outcome) : Prop where
  body : ∀ k, k < client.retryAttempts → (∀ j, j < k → Retryable (o j)) → ¬ Undecodable (o k)
  delay : ∀ k, k < client.retryAttempts → (∀ j, j < k → Retryable (o j)) → Retryable (o k) →
    SleepEnds float client nanRaises k (askedDelay (o k))

theorem Concludes.not_stray {outcome : Outcome} {e : HttpError}
    (h : Concludes outcome (.error e)) : ¬ e.IsStray := by
  cases h with
  | auth _ => exact id
  | fatal _ _ => exact id

/-- Neither a raw exception nor an endless sleep is a closed outcome. -/
theorem Closed.not_stray {n sent : Nat} {o : Nat → Outcome} {e : HttpError}
    (h : Closed n o sent (.error e)) : ¬ e.IsStray := by
  rcases h with ⟨k, -, -, -, -, hconcludes⟩ | ⟨-, -, hresult⟩
  · exact hconcludes.not_stray
  · cases hresult
    exact id

section Cases

variable {i k : Nat}

/-- All attempts are spent. -/
theorem closed_of_spent (hattempts : 0 < client.retryAttempts)
    (hall : ∀ j, j < client.retryAttempts →
      Passes float client wire.nanRaises (0 + j) (wire.outcome (i + j))) :
    Decodable float client wire.nanRaises (fun j => wire.outcome (i + j)) ∧
      Closed client.retryAttempts (fun j => wire.outcome (i + j))
        (turns float client wire client.retryAttempts 0 i none).1
        (turns float client wire client.retryAttempts 0 i none).2 := by
  have hturns : turns float client wire client.retryAttempts 0 i none =
      (client.retryAttempts,
        .error (.tool (matchingError (wire.outcome (i + (client.retryAttempts - 1)))))) := by
    obtain ⟨n, hn⟩ := Nat.exists_eq_succ_of_ne_zero hattempts.ne'
    rw [hn] at hall ⊢
    exact turns_of_all hall
  rw [hturns]
  refine ⟨⟨?_, ?_⟩, Or.inr ⟨fun j hj => (hall j hj).1, rfl, rfl⟩⟩
  · exact fun k hk _ hundecodable => hundecodable.not_retryable (hall k hk).1
  · intro k hk _ _
    have hends := (hall k hk).2
    rwa [Nat.zero_add] at hends

/-- The sleep after an attempt does not end. -/
theorem stray_of_sleep (hk : k < client.retryAttempts)
    (hbefore : ∀ j, j < k → Passes float client wire.nanRaises (0 + j) (wire.outcome (i + j)))
    (hretry : Retryable (wire.outcome (i + k)))
    (hends : ¬ SleepEnds float client wire.nanRaises (0 + k) (askedDelay (wire.outcome (i + k)))) :
    ¬ Decodable float client wire.nanRaises (fun j => wire.outcome (i + j)) ∧
      ∃ e, e.IsStray ∧ (turns float client wire client.retryAttempts 0 i none).2 = .error e := by
  obtain ⟨failure, hverdict, -⟩ := assess_retry hretry
  obtain ⟨e, hending⟩ : ∃ e, sleepEnding float client wire (0 + k) (i + k + 1)
      (askedDelay (wire.outcome (i + k))) = .error e := by
    rcases hending : sleepEnding float client wire (0 + k) (i + k + 1)
      (askedDelay (wire.outcome (i + k))) with e | u
    · exact ⟨e, rfl⟩
    · exact absurd ((sleepEnding_ok_iff _ _ _).mp hending) hends
  have hturns : turns float client wire client.retryAttempts 0 i none = (k + 1, .error e) := by
    refine turns_of_first hbefore hk fun m last => ?_
    rw [turns, hverdict]
    simp only
    rw [hending]
  rw [hturns]
  rw [Nat.zero_add] at hends
  exact ⟨fun h => hends (h.delay k hk (fun j hj => (hbefore j hj).1) hretry), e,
    sleepEnding_stray hending, rfl⟩

/-- An outcome that is not retryable decides. -/
theorem closed_or_stray_of_stop (hk : k < client.retryAttempts)
    (hbefore : ∀ j, j < k → Passes float client wire.nanRaises (0 + j) (wire.outcome (i + j)))
    (hretry : ¬ Retryable (wire.outcome (i + k))) :
    Decodable float client wire.nanRaises (fun j => wire.outcome (i + j)) ∧
        Closed client.retryAttempts (fun j => wire.outcome (i + j))
          (turns float client wire client.retryAttempts 0 i none).1
          (turns float client wire client.retryAttempts 0 i none).2 ∨
      ¬ Decodable float client wire.nanRaises (fun j => wire.outcome (i + j)) ∧
        ∃ e, e.IsStray ∧ (turns float client wire client.retryAttempts 0 i none).2 = .error e := by
  have hretryable : ∀ j, j < k → Retryable (wire.outcome (i + j)) :=
    fun j hj => (hbefore j hj).1
  rcases assess_stop hretry with ⟨result, hverdict, hdecodable, hconcludes⟩ |
    ⟨hverdict, hundecodable⟩
  · have hturns : turns float client wire client.retryAttempts 0 i none = (k + 1, result) := by
      refine turns_of_first hbefore hk fun m last => ?_
      rw [turns, hverdict]
    rw [hturns]
    refine Or.inl ⟨⟨?_, ?_⟩, Or.inl ⟨k, hk, hretryable, hretry, rfl, hconcludes⟩⟩
    · exact (forall_reached_iff hk hretryable hretry fun j hj hundecodable =>
        hundecodable.not_retryable hj).mpr hdecodable
    · intro k' _ hbefore' hretry'
      rcases Nat.lt_trichotomy k' k with hlt | rfl | hgt
      · have hends := (hbefore k' hlt).2
        rwa [Nat.zero_add] at hends
      · exact absurd hretry' hretry
      · exact absurd (hbefore' k hgt) hretry
  · have hturns : turns float client wire client.retryAttempts 0 i none =
        (k + 1, .error .jsonDecode) := by
      refine turns_of_first hbefore hk fun m last => ?_
      rw [turns, hverdict]
    rw [hturns]
    exact Or.inr ⟨fun h => h.body k hk hretryable hundecodable, .jsonDecode, trivial, rfl⟩

end Cases

/-- Either the outcomes are decodable and the turns closed, or the turns end astray. -/
theorem turns_closed_or_stray (hattempts : 0 < client.retryAttempts) (i : Nat) :
    Decodable float client wire.nanRaises (fun j => wire.outcome (i + j)) ∧
        Closed client.retryAttempts (fun j => wire.outcome (i + j))
          (turns float client wire client.retryAttempts 0 i none).1
          (turns float client wire client.retryAttempts 0 i none).2 ∨
      ¬ Decodable float client wire.nanRaises (fun j => wire.outcome (i + j)) ∧
        ∃ e, e.IsStray ∧ (turns float client wire client.retryAttempts 0 i none).2 = .error e := by
  rcases all_or_first (fun j => Passes float client wire.nanRaises (0 + j) (wire.outcome (i + j)))
    client.retryAttempts with hall | ⟨k, hk, hbefore, hfirst⟩
  · exact Or.inl (closed_of_spent hattempts hall)
  · by_cases hretry : Retryable (wire.outcome (i + k))
    · exact Or.inr (stray_of_sleep hk hbefore hretry fun hends => hfirst ⟨hretry, hends⟩)
    · exact closed_or_stray_of_stop hk hbefore hretry

theorem turns_closed_iff (hattempts : 0 < client.retryAttempts) (i : Nat) :
    Closed client.retryAttempts (fun j => wire.outcome (i + j))
        (turns float client wire client.retryAttempts 0 i none).1
        (turns float client wire client.retryAttempts 0 i none).2 ↔
      Decodable float client wire.nanRaises fun j => wire.outcome (i + j) := by
  rcases @turns_closed_or_stray float client wire hattempts i with ⟨hdecodable, hclosed⟩ |
    ⟨hnot, e, hstray, hresult⟩
  · exact iff_of_true hclosed hdecodable
  · refine iff_of_false (fun hclosed => ?_) hnot
    rw [hresult] at hclosed
    exact hclosed.not_stray hstray

/-- **When the outcomes of `get_json` are closed.**  It never sends more requests than it
    has attempts; and it ends as it should exactly when the response that decides is not an
    undecodable body and every sleep before it ends. -/
theorem getJson_outcome_iff (float : String → Option Delay) (client : HttpClient)
    (hattempts : 0 < client.retryAttempts) (request : Request) (wire : Wire) (w : World) :
    ∃ sent, ((getJson float client request).run perform wire w).1.sent.length =
        w.sent.length + sent ∧ sent ≤ client.retryAttempts ∧
      (Closed client.retryAttempts (fun j => wire.outcome (w.sent.length + j)) sent
          ((getJson float client request).run perform wire w).2 ↔
        Decodable float client wire.nanRaises fun j => wire.outcome (w.sent.length + j)) := by
  obtain ⟨hresult, hlength⟩ :=
    @run_attemptsFrom float client wire request client.retryAttempts 0 none w
  refine ⟨_, hlength, turns_sent_le _ _ _ _, ?_⟩
  rw [getJson, hresult]
  exact turns_closed_iff hattempts w.sent.length

/-- Given outcomes with their durations, and then one outcome for ever. -/
def Wire.scripted (script : List (Outcome × Nat)) (after : Outcome) : Wire where
  attempts i := ⟨(script.getD i (after, 0)).1, (script.getD i (after, 0)).2, Nat.cast_nonneg _⟩
  jitter _ := 0
  jitter_nonneg _ := le_refl 0
  nanRaises := true

/-- When the script is over. -/
theorem Wire.scripted_outcome (script : List (Outcome × Nat)) (after : Outcome) (j : Nat) :
    (Wire.scripted script after).outcome (script.length + j) = after := by
  have hget : script.getD (script.length + j) (after, 0) = (after, 0) := by
    rw [List.getD, List.getElem?_eq_none (Nat.le_add_right _ _), Option.getD_none]
  exact congrArg Prod.fst hget

def serverDown : Outcome := .ok ⟨503, "Service Unavailable", none, none⟩

def emptyArray : Outcome := .ok ⟨200, "[]", some (.arr []), none⟩

/-- Status 200 and the page of a proxy. -/
def proxyPage : Outcome := .ok ⟨200, "<html></html>", none, none⟩

/-- A server that comes back at the second attempt. -/
theorem getJson_outcome_iff_recovering :
    ∃ sent, sent ≤ 3 ∧ Closed 3 (fun j => (Wire.scripted [(serverDown, 0)] emptyArray).outcome j) sent
      ((getJson (fun _ => none) {} ⟨"/fapi/v1/time", [], none⟩).run perform
        (Wire.scripted [(serverDown, 0)] emptyArray) ⟨[], 0⟩).2 := by
  obtain ⟨sent, -, hle, hclosed⟩ := getJson_outcome_iff (fun _ => none) {} (by decide)
    ⟨"/fapi/v1/time", [], none⟩ (Wire.scripted [(serverDown, 0)] emptyArray) ⟨[], 0⟩
  simp only [List.length_nil, Nat.zero_add] at hclosed
  refine ⟨sent, hle, hclosed.mpr ⟨?_, ?_⟩⟩
  · rintro (_ | k) _ _ ⟨_, _, hlow, hnone⟩
    · revert hlow
      decide
    · cases hnone
  · rintro k hk - -
    have hbackoff := backoffEnds_default (hk.trans (by decide : 3 < 1024))
    rcases k with _ | k <;> exact hbackoff

/-- A page that is no JSON leaves as the exception of the decoder. -/
theorem getJson_proxyPage :
    ((getJson (fun _ => none) {} ⟨"/fapi/v1/time", [], none⟩).run perform
        (Wire.scripted [] proxyPage) ⟨[], 0⟩).2 = .error .jsonDecode ∧
      ∀ sent, ¬ Closed 3 (Wire.scripted [] proxyPage).outcome sent
        ((getJson (fun _ => none) {} ⟨"/fapi/v1/time", [], none⟩).run perform
          (Wire.scripted [] proxyPage) ⟨[], 0⟩).2 :=
  ⟨rfl, fun _ hclosed => (Closed.not_stray hclosed : ¬ HttpError.IsStray .jsonDecode) trivial⟩

end FundingTool.Http
