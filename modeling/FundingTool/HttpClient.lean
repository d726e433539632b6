import FundingTool.Interaction
import FundingTool.Models
import Mathlib.Data.Rat.Floor

/-!
# The HTTP client (`infra/http.py`)

`get_json` sends a request up to `retry_attempts` times and sleeps between the attempts.
Its operations are the request, the random jitter, the sleep and, for its callers, the
clock.  `perform` lets the surroundings choose the outcome and the duration of each
attempt; the state keeps what has been sent, and when.

`Retry-After` is read with `float`, a parameter, so that nothing depends on which texts
it accepts.
-/

namespace FundingTool.Http

open FundingTool.Interaction

/-! ## 1. JSON and responses -/

/-- What `resp.json()` returns. -/
inductive Json where
  | null
  | bool (b : Bool)
  | int (n : Int)
  | float (x : Decimal)
  | str (s : String)
  | arr (items : List Json)
  | obj (fields : List (String × Json))
deriving Repr

structure Response where
  statusCode : Int
  text : String
  /-- `resp.json()`, where it does not raise. -/
  json : Option Json
  /-- The header `Retry-After`. -/
  retryAfter : Option String

/-- The value of a query parameter, before it is printed. -/
inductive Param where
  | text (s : String)
  | number (n : Int)
deriving DecidableEq, Repr

/-- A request.  One that carries credentials is signed: its key and its signature are
    determined by them and the parameters. -/
structure Request where
  path : String
  params : List (String × Param)
  credentials : Option ApiCredentials
deriving DecidableEq, Repr

/-- The number under a name in the query string. -/
def Request.number (request : Request) (name : String) : Option Int :=
  match request.params.lookup name with
  | some (.number n) => some n
  | _ => none

/-- The outcome of one request: a `TransportError` with its text, or a response. -/
abbrev Outcome := Except String Response

/-- What leaves `get_json`. -/
inductive HttpError where
  | tool (e : FundingToolError)
  /-- `json.JSONDecodeError`, or whatever else `resp.json()` raises. -/
  | jsonDecode
  /-- The `ValueError` of `asyncio.sleep(nan)`. -/
  | sleepNan
  /-- The `OverflowError` of a power of two that is no float. -/
  | overflow
  /-- `KeyError`, `TypeError` or `ValueError`, of a caller that does not find what it expects
      in the body. -/
  | malformed
  /-- No error of the source: a sleep of infinite length, after which nothing happens. -/
  | asleep
deriving DecidableEq, Repr

/-! ## 2. Operations -/

/-- A number of seconds, as a float. -/
inductive Delay where
  | finite (seconds : Rat)
  | infinity (negative : Bool)
  | nan
deriving DecidableEq, Repr

def Delay.plus : Delay → Rat → Delay
  | .finite seconds, more => .finite (seconds + more)
  | delay, _ => delay

/-- How a sleep ends. -/
inductive Waking where
  | woke
  | valueError
  | never
deriving DecidableEq, Repr

/-- `await asyncio.sleep(delay)` with nothing around it. -/
def Waking.ending : Waking → Except HttpError Unit
  | .woke => .ok ()
  | .valueError => .error .sleepNan
  | .never => .error .asleep

inductive HttpOp where
  /-- `self._client.get(path, params=params, headers=headers)` -/
  | get (request : Request)
  /-- `random.uniform(0, 0.1)` -/
  | uniform
  /-- `asyncio.sleep(delay)` -/
  | sleep (delay : Delay)
  /-- `int(datetime.now(UTC).timestamp() * 1000)` -/
  | localMs

def HttpOp.Resp : HttpOp → Type
  | .get _ => Outcome
  | .uniform => Rat
  | .sleep _ => Waking
  | .localMs => Int

abbrev Async := Prog HttpOp HttpOp.Resp HttpError

def send (request : Request) : Async Outcome := .call (.get request) .ret

def uniform : Async Rat := .call .uniform .ret

def asyncSleep (delay : Delay) : Async Waking := .call (.sleep delay) .ret

def localMs : Async Int := .call .localMs .ret

/-! ## 3. `get_json` -/

/-- The arguments of `HttpClient` that `get_json` uses, with their defaults. -/
structure HttpClient where
  retryAttempts : Nat := 3
  retryBaseSleep : Rat := 1

/-- `_BINANCE_RATE_LIMIT_CODE` -/
def binanceRateLimitCode : Int := -1003

/-- `_BINANCE_AUTH_CODES` -/
def binanceAuthCodes : List Int := [-2014, -2015, -1022, -1099, -2008]

/-- The JSON value under `code`; a `bool` is an `int`. -/
def extractBinanceCode (resp : Response) : Option Int :=
  match resp.json with
  | some (.obj fields) =>
      match fields.lookup "code" with
      | some (.int n) => some n
      | some (.bool b) => some (if b then 1 else 0)
      | _ => none
  | _ => none

/-- The code as it is printed. -/
def codeText (resp : Response) : String :=
  match resp.json with
  | some (.obj fields) =>
      match fields.lookup "code" with
      | some (.int n) => toString n
      | some (.bool b) => if b then "True" else "False"
      | _ => "None"
  | _ => "None"

/-- `last_exc` -/
inductive Failure where
  | transport (text : String)
  | rateLimit (message : String)
  | exchange (message : String)
deriving DecidableEq, Repr

/-- What one attempt comes to: the end of the loop, or another turn after a sleep. -/
inductive Verdict where
  | stop (result : Except HttpError Json)
  | retry (failure : Failure) (retryAfter : Option String)

/-- The body of the loop after the request, branch by branch. -/
def assess : Outcome → Verdict
  | .error text => .retry (.transport text) none
  | .ok resp =>
      let code := extractBinanceCode resp
      let status := toString resp.statusCode
      if (∃ c ∈ code, c ∈ binanceAuthCodes) ∨ resp.statusCode = 401 ∨ resp.statusCode = 403 then
        .stop (.error (.tool (.authentication (status ++ " code=" ++ codeText resp ++ ": " ++ resp.text))))
      else if code = some binanceRateLimitCode ∨ resp.statusCode = 429 then
        .retry (.rateLimit (status ++ ": " ++ resp.text)) resp.retryAfter
      else if resp.statusCode = 418 then
        .stop (.error (.tool (.exchange ("418 IP banned: " ++ resp.text))))
      else if 500 ≤ resp.statusCode ∧ resp.statusCode < 600 then
        .retry (.exchange (status ++ ": " ++ resp.text)) none
      else if 400 ≤ resp.statusCode then
        .stop (.error (.tool (.exchange (status ++ ": " ++ resp.text))))
      else
        match resp.json with
        | some body => .stop (.ok body)
        | none => .stop (.error .jsonDecode)

/-- After the loop. -/
def finalError : Option Failure → FundingToolError
  | some (.rateLimit message) => .rateLimit message
  | some (.exchange message) => .exchange message
  | some (.transport text) => .network text
  | none => .network "unknown network failure"

variable (float : String → Option Delay) (client : HttpClient)

/-- Floats are smaller than this. -/
def floatBound : Nat := 2 ^ 1024

/-- `self._retry_base_sleep * (2 ** attempt)`: the power has to be a float, and a product
    out of range is infinite. -/
def exponential (attempt : Nat) : Except HttpError Delay :=
  if 1024 ≤ attempt then .error .overflow
  else if (floatBound : Rat) ≤ client.retryBaseSleep * 2 ^ attempt then .ok (.infinity false)
  else if client.retryBaseSleep * 2 ^ attempt ≤ -(floatBound : Rat) then .ok (.infinity true)
  else .ok (.finite (client.retryBaseSleep * 2 ^ attempt))

/-- The exponential backoff of `_sleep`. -/
def backoff (attempt : Nat) : Async Unit := do
  let delay ← Prog.ofExcept (exponential client attempt)
  let jitter ← uniform
  let waking ← asyncSleep (delay.plus jitter)
  Prog.ofExcept waking.ending

/-- `_sleep`: a `Retry-After` that can be read replaces the backoff. -/
def sleep (attempt : Nat) (retryAfter : Option String) : Async Unit :=
  match (retryAfter.filter fun text => decide (text ≠ "")).bind float with
  | none => backoff client attempt
  | some delay => do
      let waking ← asyncSleep delay
      match waking with
      | .woke => pure ()
      | .valueError => backoff client attempt
      | .never => .raise .asleep

/-- The turns of the loop that are left, from the given attempt on. -/
def attemptsFrom (request : Request) : Nat → Nat → Option Failure → Async Json
  | 0, _, last => .raise (.tool (finalError last))
  | n + 1, attempt, _ => do
      let outcome ← send request
      match assess outcome with
      | .stop result => Prog.ofExcept result
      | .retry failure retryAfter => do
          sleep float client attempt retryAfter
          attemptsFrom request n (attempt + 1) (some failure)

def getJson (request : Request) : Async Json :=
  attemptsFrom float client request client.retryAttempts 0 none

/-! ## 4. The surroundings -/

/-- One attempt: how it ends and how long it takes, in seconds. -/
structure Attempt where
  outcome : Outcome
  duration : Rat
  nonneg : 0 ≤ duration

/-- The attempts in turn, the jitter drawn after each of them, and whether `asyncio.sleep`
    refuses a NaN. -/
structure Wire where
  attempts : Nat → Attempt
  jitter : Nat → Rat
  jitter_nonneg : ∀ i, 0 ≤ jitter i
  nanRaises : Bool

/-- A request that has been sent, and the time. -/
structure Sent where
  request : Request
  time : Rat
deriving DecidableEq

structure World where
  sent : List Sent
  now : Rat
deriving DecidableEq

/-- How a sleep ends, and after how many seconds. -/
def Wire.waking (wire : Wire) : Delay → Rat × Waking
  | .finite seconds => (max 0 seconds, .woke)
  | .infinity true => (0, .woke)
  | .infinity false => (0, .never)
  | .nan => (0, if wire.nanRaises then .valueError else .woke)

def perform : (o : HttpOp) → Wire → World → World × o.Resp
  | .get request, wire, w =>
      let attempt := wire.attempts w.sent.length
      ({ sent := w.sent ++ [⟨request, w.now⟩], now := w.now + attempt.duration }, attempt.outcome)
  | .uniform, wire, w => (w, wire.jitter w.sent.length)
  | .sleep delay, wire, w =>
      ({ w with now := w.now + (wire.waking delay).1 }, (wire.waking delay).2)
  | .localMs, _, w => (w, ⌊w.now * 1000⌋)

end FundingTool.Http
