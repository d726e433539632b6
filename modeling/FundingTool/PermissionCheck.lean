import FundingTool.HttpOutcomes
import FundingTool.SignedCalls

/-!
# The advisory permission check

When the time and the balance can be read, what is left of `verify_credentials` is the
call for the flags.  It may fail, but the `except` names one class of errors: a key that
is not accepted there, a rate limit or a transport error at the last attempt leave the
check (`verifyCredentials_readOk_iff`).
-/

namespace FundingTool.Http

open FundingTool.Interaction

/-! ## 1. Outcomes that do no harm -/

def RejectsKey : Outcome → Prop
  | .error _ => False
  | .ok resp => resp.IsAuth

theorem Retryable.not_rejectsKey {outcome : Outcome} (h : Retryable outcome) :
    ¬ RejectsKey outcome := by
  rcases outcome with text | resp
  · exact id
  · exact h.1

/-- Of the call's outcomes the one that decides is decodable and does not reject the key;
    and if all attempts are spent, the last is a server error. -/
structure Harmless (float : String → Option Delay) (client : HttpClient) (nanRaises : Bool)
    (o : Nat → Outcome) : Prop extends Decodable float client nanRaises o where
  key : ∀ k, k < client.retryAttempts → (∀ j, j < k → Retryable (o j)) → ¬ RejectsKey (o k)
  spent : (∀ j, j < client.retryAttempts → Retryable (o j)) →
    ∃ resp, o (client.retryAttempts - 1) = .ok resp ∧ ¬ resp.IsRateLimit

/-- A result the check makes a report of. -/
def Reports (result : Except HttpError Json) : Prop :=
  ∀ e, result = .error e → isExchangeError e = true

theorem HttpError.IsStray.not_isExchangeError {e : HttpError} (h : e.IsStray) :
    ¬ isExchangeError e = true := by
  cases e with
  | tool error => exact h.elim
  | _ => exact Bool.false_ne_true

theorem matchingError_isExchange_iff (outcome : Outcome) :
    isExchangeError (.tool (matchingError outcome)) = true ↔
      ∃ resp, outcome = .ok resp ∧ ¬ resp.IsRateLimit := by
  rcases outcome with text | resp
  · refine iff_of_false Bool.false_ne_true ?_
    rintro ⟨resp, heq, -⟩
    cases heq
  · by_cases hlimit : resp.IsRateLimit
    · rw [matchingError, if_pos hlimit]
      refine iff_of_false Bool.false_ne_true ?_
      rintro ⟨resp', heq, hnot⟩
      cases heq
      exact hnot hlimit
    · rw [matchingError, if_neg hlimit]
      exact iff_of_true rfl ⟨resp, rfl, hlimit⟩

/-- How a call may end, and whether the key was rejected. -/
theorem Concludes.reports_iff {outcome : Outcome} {result : Except HttpError Json}
    (h : Concludes outcome result) : Reports result ↔ ¬ RejectsKey outcome := by
  cases h with
  | auth hauth => exact iff_of_false (fun h => Bool.false_ne_true (h _ rfl)) fun h => h hauth
  | fatal hauth _ =>
      refine iff_of_true ?_ hauth
      rintro e heq
      cases heq
      rfl
  | body hauth _ _ => exact iff_of_true (fun _ h => by cases h) hauth

/-- A closed call is reported on exactly when its outcomes do no harm. -/
theorem Closed.reports_iff {float : String → Option Delay} {client : HttpClient} {nanRaises : Bool}
    {o : Nat → Outcome} {sent : Nat} {result : Except HttpError Json}
    (hdecodable : Decodable float client nanRaises o) (h : Closed client.retryAttempts o sent result) :
    Reports result ↔ Harmless float client nanRaises o := by
  rcases h with ⟨k, hk, hbefore, hfirst, -, hconcludes⟩ | ⟨hall, -, rfl⟩
  · have hkey := forall_reached_iff hk hbefore hfirst fun j => Retryable.not_rejectsKey
    rw [hconcludes.reports_iff, ← hkey]
    exact ⟨fun h => ⟨hdecodable, h, fun hall => absurd (hall k hk) hfirst⟩, fun h => h.key⟩
  · have hspent := matchingError_isExchange_iff (o (client.retryAttempts - 1))
    constructor
    · intro h
      refine ⟨hdecodable, ?_, fun _ => hspent.mp (h _ rfl)⟩
      exact fun k hk _ => (hall k hk).not_rejectsKey
    · rintro h e heq
      cases heq
      exact hspent.mpr (h.spent hall)

theorem getJson_reports_iff {float : String → Option Delay} {client : HttpClient}
    (hattempts : 0 < client.retryAttempts) (request : Request) (wire : Wire) (w : World) :
    Reports ((getJson float client request).run perform wire w).2 ↔
      Harmless float client wire.nanRaises fun j => wire.outcome (w.sent.length + j) := by
  obtain ⟨hresult, -⟩ :=
    @run_attemptsFrom float client wire request client.retryAttempts 0 none w
  rw [getJson, hresult]
  rcases @turns_closed_or_stray float client wire hattempts w.sent.length with
    ⟨hdecodable, hclosed⟩ | ⟨hnot, e, hstray, hresult⟩
  · exact hclosed.reports_iff hdecodable
  · rw [hresult]
    refine iff_of_false (fun h => ?_) fun h => hnot h.toDecodable
    exact hstray.not_isExchangeError (h e rfl)

/-! ## 2. The check -/

/-- What the check owes a key that can read: a report that says so, with the flags left open
    where they could not be read. -/
def Advises (restrictions : Except HttpError Json) (result : Except HttpError PermissionReport) :
    Prop :=
  ∃ report, result = .ok report ∧ report.readOk = true ∧
    ((∀ fields, restrictions ≠ .ok (.obj fields)) → report.tradingEnabled = none ∧
      report.withdrawalsEnabled = none ∧ report.spotTradingEnabled = none)

theorem advises_readRestrictions_iff (restrictions : Except HttpError Json) :
    Advises restrictions (readRestrictions restrictions) ↔ Reports restrictions := by
  rcases restrictions with e | json
  · by_cases hexchange : isExchangeError e = true
    · have hread : readRestrictions (.error e) = .ok readOnlyReport := if_pos hexchange
      refine iff_of_true ⟨readOnlyReport, hread, rfl, fun _ => ⟨rfl, rfl, rfl⟩⟩ ?_
      rintro e' heq
      cases heq
      exact hexchange
    · have hread : readRestrictions (.error e) = .error e := if_neg hexchange
      refine iff_of_false ?_ fun h => hexchange (h e rfl)
      rintro ⟨report, hreport, -⟩
      rw [hread] at hreport
      cases hreport
  · refine iff_of_true ?_ fun _ h => by cases h
    cases json with
    | obj fields => exact ⟨reportOf fields, rfl, rfl, fun h => absurd rfl (h fields)⟩
    | _ => exact ⟨readOnlyReport, rfl, rfl, fun _ => ⟨rfl, rfl, rfl⟩⟩

section Check

variable {int : Json → Option Int} {float : String → Option Delay} {credentials : ApiCredentials}
  {wire : Wire}

/-- Once the time and the balance are read, the call for the flags decides. -/
theorem run_verifyCredentials {w w₁ w₂ w₃ : World} {offset : Int} {balance : Json}
    {restrictions : Except HttpError Json}
    (htime : (overHttp float {} (computeTimeOffset int)).run perform wire w = (w₁, .ok offset))
    (hbalance : (overHttp float {} (fetchBalance credentials offset)).run perform wire w₁ =
      (w₂, .ok balance))
    (hrestrictions : (overHttp float {} (tryRestrictions credentials offset)).run perform wire w₂ =
      (w₃, .ok restrictions)) :
    (overHttp float {} (verifyCredentials int credentials)).run perform wire w =
      (w₃, readRestrictions restrictions) := by
  rw [verifyCredentials, overHttp_bind, Prog.run_bind_ok htime, overHttp_bind,
    Prog.run_bind_ok hbalance, overHttp_bind, Prog.run_bind_ok hrestrictions]
  rcases readRestrictions restrictions with e | report <;> rfl

/-- **When the permission check does not fail a good key.**  If the time and the balance can
    be read, it returns a report with `read_ok`, its flags open where they could not be read,
    exactly when the outcomes of the call for the flags do no harm. -/
theorem verifyCredentials_readOk_iff (int : Json → Option Int) (float : String → Option Delay)
    (credentials : ApiCredentials) (wire : Wire) (w w₁ w₂ : World) (offset : Int) (balance : Json)
    (htime : (overHttp float {} (computeTimeOffset int)).run perform wire w = (w₁, .ok offset))
    (hbalance : (overHttp float {} (fetchBalance credentials offset)).run perform wire w₁ =
      (w₂, .ok balance)) :
    ∃ w₃ restrictions,
      (overHttp float {} (tryRestrictions credentials offset)).run perform wire w₂ =
        (w₃, .ok restrictions) ∧
      (Advises restrictions
          ((overHttp float {} (verifyCredentials int credentials)).run perform wire w).2 ↔
        Harmless float {} wire.nanRaises fun j => wire.outcome (w₂.sent.length + j)) := by
  have hrestrictions := (run_readClock_bind (fun now => tryFetch (signedRequest credentials
    "/sapi/v1/account/apiRestrictions" (accountParams (now + offset)))) w₂).trans
      (@run_tryFetch float {} wire _ w₂)
  refine ⟨_, _, hrestrictions, ?_⟩
  rw [run_verifyCredentials htime hbalance hrestrictions, advises_readRestrictions_iff]
  exact getJson_reports_iff (by decide) _ wire w₂

end Check

/-- The server's clock. -/
def serverClock : Outcome :=
  .ok ⟨200, "\x7b\"serverTime\":1700000000000\x7d",
    some (.obj [("serverTime", .int 1700000000000)]), none⟩

/-- The endpoint is not there. -/
def notFound : Outcome := .ok ⟨404, "", none, none⟩

/-- Status 400 and the code of a key that lacks a permission. -/
def keyRejected : Outcome :=
  .ok ⟨400, "\x7b\"code\":-2015\x7d", some (.obj [("code", .int (-2015))]), none⟩

/-- `int` of a JSON number. -/
def intOf : Json → Option Int
  | .int n => some n
  | _ => none

def goodKey : ApiCredentials := ⟨"key", "secret", none⟩

theorem harmless_notFound (float : String → Option Delay) (nanRaises : Bool) {o : Nat → Outcome}
    (h : ∀ j, o j = notFound) : Harmless float {} nanRaises o := by
  have hfatal : ¬ Retryable notFound := by
    rintro ⟨-, hlimit | hserver⟩
    · exact absurd hlimit (by decide)
    · exact absurd hserver (by decide)
  refine ⟨⟨?_, ?_⟩, ?_, ?_⟩
  · rintro k - - hundecodable
    rw [h k] at hundecodable
    exact absurd hundecodable.2.2.1 (by decide)
  · rintro k - - hretryable
    rw [h k] at hretryable
    exact absurd hretryable hfatal
  · rintro k - - hkey
    rw [h k] at hkey
    have haccepted : ¬ Response.IsAuth ⟨404, "", none, none⟩ := by decide
    exact haccepted hkey
  · intro hall
    have hretryable := hall 0 (by decide)
    rw [h 0] at hretryable
    exact absurd hretryable hfatal

/-- An account without the endpoint for the flags. -/
theorem verifyCredentials_readOk_iff_notFound :
    ∃ report, ((overHttp (fun _ => none) {} (verifyCredentials intOf goodKey)).run perform
        (Wire.scripted [(serverClock, 0), (emptyArray, 0)] notFound) ⟨[], 0⟩).2 = .ok report ∧
      report.readOk = true := by
  obtain ⟨w₃, restrictions, -, hiff⟩ := verifyCredentials_readOk_iff intOf (fun _ => none) goodKey
    (Wire.scripted [(serverClock, 0), (emptyArray, 0)] notFound) ⟨[], 0⟩ _ _ _ _ rfl rfl
  obtain ⟨report, hreport, hread, -⟩ :=
    hiff.mpr (harmless_notFound _ _ fun j => Wire.scripted_outcome _ _ j)
  exact ⟨report, hreport, hread⟩

/-- The code of a rejected key at the third call leaves the check as an error. -/
theorem verifyCredentials_keyRejected :
    ∃ w₁ w₂ offset balance,
      (overHttp (fun _ => none) {} (computeTimeOffset intOf)).run perform
          (Wire.scripted [(serverClock, 0), (emptyArray, 0)] keyRejected) ⟨[], 0⟩ =
        (w₁, .ok offset) ∧
      (overHttp (fun _ => none) {} (fetchBalance goodKey offset)).run perform
          (Wire.scripted [(serverClock, 0), (emptyArray, 0)] keyRejected) w₁ =
        (w₂, .ok balance) ∧
      ((overHttp (fun _ => none) {} (verifyCredentials intOf goodKey)).run perform
          (Wire.scripted [(serverClock, 0), (emptyArray, 0)] keyRejected) ⟨[], 0⟩).2 =
        .error (.tool (.authentication "400 code=-2015: \x7b\"code\":-2015\x7d")) :=
  ⟨_, _, _, _, rfl, rfl, rfl⟩

end FundingTool.Http
