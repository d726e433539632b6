import FundingTool.HttpClient

/-!
# The API client of the pages (`api.ts`, `csrfStore.ts`)

Every operation is an async function.  It runs up to its next `await` in one piece, and goes
on when what it awaits is settled: a `fetch`, a `res.json()`, or the promise of a CSRF token,
which all writes share while it is in flight.  The answers come in any order, and so do the
continuations.
-/

namespace FundingTool.Api

open FundingTool.Http (Json)

/-! ## 1. JavaScript values -/

/-- A value of JSON, or `undefined`. -/
abbrev Value := Option Json

/-- Whether `if (v)` takes its branch. -/
def truthy : Value → Bool
  | none => false
  | some .null => false
  | some (.bool b) => b
  | some (.int n) => n ≠ 0
  | some (.float (.finite _ coefficient _)) => coefficient ≠ 0
  | some (.float _) => true
  | some (.str s) => s ≠ ""
  | some (.arr _) => true
  | some (.obj _) => true

/-- `v?.name`; of two members of one name `JSON.parse` keeps the last. -/
def member (v : Value) (name : String) : Value :=
  match v with
  | some (.obj fields) => fields.reverse.lookup name
  | _ => none

/-- What a promise of JSON or of a response rejects with: an `Error` with its message. -/
abbrev Rejection := String

/-- How a `fetch` settles. -/
inductive Fetched
  | rejected (e : Rejection)
  | responded (status : Nat)
deriving DecidableEq, Repr

/-- `res.ok` -/
def isOk (status : Nat) : Bool := 200 ≤ status && status ≤ 299

/-! ## 2. Results -/

/-- `ApiResult`; a member that is not set is `undefined`. -/
structure ApiResult where
  data : Value
  error : Value

def apiError (code message : String) : Json :=
  .obj [("code", .str code), ("message", .str message)]

/-- `parseError` -/
def parseError (status : Nat) (json : Except Rejection Json) : Value :=
  match json with
  | .error _ => some (apiError "server_error" ("HTTP " ++ toString status))
  | .ok body =>
      if truthy (member body "error") then member body "error"
      else if truthy (member (member body "detail") "code") then member body "detail"
      else some (apiError "server_error" ("HTTP " ++ toString status))

/-- How the promise of an operation settles. -/
inductive Outcome
  | resolved (result : ApiResult)
  | rejected (e : Rejection)

/-- The end of `request` in its `catch`. -/
def networkError (e : Rejection) : Outcome :=
  .resolved ⟨none, some (apiError "network_error" e)⟩

/-! ## 3. The token store -/

/-- How far the promise behind `_inflight` has come. -/
inductive Flight
  /-- `fetchToken` awaits its `fetch`. -/
  | fetching
  /-- `fetchToken` awaits `res.json()`. -/
  | reading
  /-- `fetchToken` has settled. -/
  | fetched (token : Except Rejection Value)
  /-- The callback of `.then` has run, if it is to run. -/
  | stored (token : Except Rejection Value)
  /-- The callback of `.finally` has run, and the promise has settled. -/
  | settled (token : Except Rejection Value)

/-- `fetchToken` after its `fetch`. -/
def Flight.afterFetch : Fetched → Flight
  | .rejected e => .fetched (.error e)
  | .responded status =>
      if isOk status then .reading
      else .fetched (.error ("csrf fetch failed: " ++ toString status))

/-- `fetchToken` after `res.json()`: a member of `null` is a `TypeError`. -/
def Flight.afterJson : Except Rejection Json → Flight
  | .error e => .fetched (.error e)
  | .ok .null => .fetched (.error "Cannot read properties of null (reading 'token')")
  | .ok body => .fetched (.ok (member body "token"))

/-! ## 4. The operations -/

/-- What `request` was asked for; a write has a token in its header. -/
structure Request where
  method : String
  path : String
  token : Option Value
  body : Value

/-- How the operation ended, beside its outcome. -/
inductive Cause
  /-- `getToken()` rejected. -/
  | tokenRejected
  /-- `fetch` rejected. -/
  | fetchRejected
  /-- The response was not ok. -/
  | refused (status : Nat) (json : Except Rejection Json)
  /-- The body of an ok response was not JSON. -/
  | unreadable
  /-- An ok response without a body, or with one of JSON. -/
  | succeeded

/-- Where an operation stands. -/
inductive Phase
  /-- `writeRequest` awaits `getToken()`, which returned a cached token. -/
  | cached (token : Value)
  /-- `writeRequest` awaits `getToken()`, which returned the promise in flight. -/
  | waiting (flight : Nat)
  /-- `request` awaits its `fetch`. -/
  | fetching (request : Request)
  /-- `request` awaits `res.json()` in `parseError`. -/
  | parsing (status : Nat)
  /-- `request` awaits `res.json()`. -/
  | reading
  | settled (cause : Cause) (outcome : Outcome)

/-- An operation of `api`. -/
structure Call where
  method : String
  path : String
  body : Value

/-- `request` up to its `fetch`; a `get` has no token. -/
def Call.send (call : Call) (token : Option Value) : Phase :=
  .fetching ⟨call.method, call.path, token, call.body⟩

/-- `request` after its `fetch`. -/
def Phase.afterFetch : Fetched → Phase
  | .rejected e => .settled .fetchRejected (networkError e)
  | .responded status =>
      if isOk status then
        if status = 204 then .settled .succeeded (.resolved ⟨none, none⟩) else .reading
      else .parsing status

/-- The end of `request` after its `res.json()`. -/
def Phase.afterJson : Except Rejection Json → Phase
  | .error e => .settled .unreadable (networkError e)
  | .ok json => .settled .succeeded (.resolved ⟨some json, none⟩)

/-- The end of `request` after its `parseError`. -/
def Phase.afterError (status : Nat) (json : Except Rejection Json) : Phase :=
  .settled (.refused status json) (.resolved ⟨none, parseError status json⟩)

/-! ## 5. The page -/

/-- `_token`, `_inflight` as the number of a flight, the flights and the operations so far. -/
structure Page where
  token : Value
  inflight : Option Nat
  flights : List Flight
  calls : List (Call × Phase)

def Page.start (token : Value) : Page := ⟨token, none, [], []⟩

inductive Event
  /-- `api.get(path)` -/
  | get (path : String)
  /-- `writeRequest(method, path, body)` -/
  | write (method path : String) (body : Value)
  /-- `csrfStore.refresh()` -/
  | refresh
  /-- The `fetch` of a flight settles. -/
  | tokenFetched (flight : Nat) (answer : Fetched)
  /-- Its `res.json()` settles. -/
  | tokenRead (flight : Nat) (json : Except Rejection Json)
  /-- The callback of `.then` runs, or is passed over. -/
  | tokenStored (flight : Nat)
  /-- The callback of `.finally` runs. -/
  | tokenSettled (flight : Nat)
  /-- `writeRequest` goes on after its `getToken()`. -/
  | resumed (call : Nat)
  /-- The `fetch` of an operation settles. -/
  | fetched (call : Nat) (answer : Fetched)
  /-- Its `res.json()` settles. -/
  | read (call : Nat) (json : Except Rejection Json)

/-- `api.post(path, body)` -/
def Event.post (path : String) (body : Value) : Event := .write "POST" path body

/-- `api.delete(path)` -/
def Event.delete (path : String) : Event := .write "DELETE" path none

namespace Page

def setFlight (page : Page) (flight : Nat) (f : Flight) : Page :=
  { page with flights := page.flights.set flight f }

def setPhase (page : Page) (i : Nat) (call : Call) (phase : Phase) : Page :=
  { page with calls := page.calls.set i (call, phase) }

/-- `_inflight = fetchToken()…` -/
def fetchToken (page : Page) : Page :=
  { page with inflight := some page.flights.length, flights := page.flights ++ [.fetching] }

/-- `getToken()`, for a write that is then to be awaited. -/
def getToken (page : Page) : Page × Phase :=
  if truthy page.token then (page, .cached page.token)
  else
    match page.inflight with
    | some flight => (page, .waiting flight)
    | none => (page.fetchToken, .waiting page.flights.length)

/-- `writeRequest` after its `await`; `none` while the promise is not settled. -/
def resume (page : Page) (call : Call) : Phase → Option Phase
  | .cached token => some (call.send (some token))
  | .waiting flight =>
      match page.flights[flight]? with
      | some (.settled (.ok token)) => some (call.send (some token))
      | some (.settled (.error e)) => some (.settled .tokenRejected (.rejected e))
      | _ => none
  | _ => none

/-- The callback of `.then`. -/
def store (page : Page) : Except Rejection Value → Page
  | .ok token => { page with token := token }
  | .error _ => page

/-- One piece of code between two awaits; `none` where the event cannot occur. -/
def step (page : Page) : Event → Option Page
  | .get path =>
      let call : Call := ⟨"GET", path, none⟩
      some { page with calls := page.calls ++ [(call, call.send none)] }
  | .write method path body =>
      let (page', phase) := page.getToken
      some { page' with calls := page'.calls ++ [(⟨method, path, body⟩, phase)] }
  | .refresh => some { page with token := none }.fetchToken
  | .tokenFetched flight answer =>
      match page.flights[flight]? with
      | some .fetching => some (page.setFlight flight (.afterFetch answer))
      | _ => none
  | .tokenRead flight json =>
      match page.flights[flight]? with
      | some .reading => some (page.setFlight flight (.afterJson json))
      | _ => none
  | .tokenStored flight =>
      match page.flights[flight]? with
      | some (.fetched token) => some ((page.store token).setFlight flight (.stored token))
      | _ => none
  | .tokenSettled flight =>
      match page.flights[flight]? with
      | some (.stored token) =>
          some ({ page with inflight := none }.setFlight flight (.settled token))
      | _ => none
  | .resumed i =>
      match page.calls[i]? with
      | some (call, phase) => (page.resume call phase).map (page.setPhase i call)
      | none => none
  | .fetched i answer =>
      match page.calls[i]? with
      | some (call, .fetching _) => some (page.setPhase i call (.afterFetch answer))
      | _ => none
  | .read i json =>
      match page.calls[i]? with
      | some (call, .parsing status) => some (page.setPhase i call (.afterError status json))
      | some (call, .reading) => some (page.setPhase i call (.afterJson json))
      | _ => none

end Page

end FundingTool.Api
