import FundingTool.TransitionSystem

/-!
# The history page (`HistoryPage.tsx`, `useTaskPoll.ts`, `api.ts`, `csrfStore.ts`)

A mounted `HistoryPage` with the hook `useTaskPoll` and the module state of `csrfStore`.  What
comes from outside is one step: a click, an edit of the form, the answer to a request, a timer.
A step runs the continuation it resumes up to its next await, and the renderings and effects
that its `set…` calls entail; React has run them before the next event is handled (once: this
is the production build, where `StrictMode` repeats nothing).

A response body has the declared type, where the body, a field, an account or a record may be
missing or null; a record that is there is whole.  Of what the page displays there is left what
rendering it can throw on.  No error boundary is above the page: when a rendering throws, React
takes the whole root away, and the requests under way are answered to nobody.
-/

namespace FundingTool.HistoryPage

/-! ## 1. `api.ts` -/

structure ApiError where
  code : String
  message : String
deriving DecidableEq, Repr

/-- How a request is answered. -/
inductive Reply (α : Type)
  /-- A success status; no data for a status 204 or a body that is null. -/
  | ok (data : Option α)
  /-- Another status, with `error` and `detail` of its body, where it has them. -/
  | status (status : Nat) (error detail : Option ApiError)
  /-- `fetch` rejects, or a body that should be JSON is not. -/
  | failure (message : String)
deriving DecidableEq, Repr

variable {α : Type}

def parseError (status : Nat) (error detail : Option ApiError) : ApiError :=
  match error, detail.filter fun d => d.code ≠ "" with
  | some e, _ => e
  | none, some d => d
  | none, none => ⟨"server_error", "HTTP " ++ toString status⟩

/-- `request`: never rejects. -/
def request : Reply α → Except ApiError (Option α)
  | .ok data => .ok data
  | .status status error detail => .error (parseError status error detail)
  | .failure message => .error ⟨"network_error", message⟩

/-- `fetchToken`: `none` when it rejects; the body's token may be missing. -/
def fetchToken : Reply (Option String) → Option (Option String)
  | .ok (some token) => some token
  | _ => none

/-- The characters `trim()` removes. -/
def isJsSpace (c : Char) : Bool :=
  let n := c.toNat
  (9 ≤ n && n ≤ 13) || n == 32 || n == 0xA0 || n == 0x1680 || (0x2000 ≤ n && n ≤ 0x200A) ||
    n == 0x2028 || n == 0x2029 || n == 0x202F || n == 0x205F || n == 0x3000 || n == 0xFEFF

def trim (text : String) : String :=
  String.ofList (((text.toList.dropWhile isJsSpace).reverse.dropWhile isJsSpace).reverse)

/-- A text that is there and not empty, as `if (text)` sees it. -/
def truthy (text : Option String) : Option String := text.filter fun t => t ≠ ""

/-! ## 2. The page -/

/-- A listed account: its name, where it has one. -/
structure Account where
  name : Option String
deriving DecidableEq, Repr

structure IncomeRecord where
  timestamp : String
  symbol : String
  amountUsdt : String
  tranId : String
deriving DecidableEq, Repr

/-- The result of a task, as far as it is there. -/
structure HistoryPayload where
  bySymbol : Option (List (String × String))
  byMonth : Option (List (String × String))
  records : Option (List (Option IncomeRecord))
deriving DecidableEq, Repr

/-- A snapshot of a task; `""` for a status that is missing. -/
structure Snapshot where
  status : String
  result : Option HistoryPayload
deriving DecidableEq, Repr

structure HistoryRequest where
  accountName : String
  start : String
  stop : String
  symbol : Option String
deriving DecidableEq, Repr

/-- Where a call of `run` stands: it awaits `csrfStore.getToken()`, or the response. -/
inductive Query
  | awaitsToken (req : HistoryRequest)
  | posted (req : HistoryRequest)
deriving DecidableEq, Repr

structure Page where
  /-- The root has been taken away. -/
  gone : Bool
  -- The state of `HistoryPage`.
  accounts : List (Option Account)
  accountName : String
  start : String
  stop : String
  symbol : String
  busy : Bool
  error : Option ApiError
  taskId : Option String
  -- The state of `useTaskPoll`.
  status : Option Snapshot
  pollError : Option ApiError
  -- `_token` and `_inflight` of `csrfStore`.
  token : Option String
  inflight : Bool
  -- What is under way: `/accounts`, `run`, and the polls, each of one effect of `useTaskPoll`.
  -- Effects are numbered; only the last one is not cancelled, and only it can have a timer.
  accountsRequested : Bool
  query : Option Query
  effect : Nat
  polls : List Nat
  timer : Bool
deriving DecidableEq

/-- The page when it has been mounted; `csrfStore` is shared and may be at work already. -/
def Page.mounted (start stop : String) (token : Option String) (inflight : Bool) : Page where
  gone := false
  accounts := []
  accountName := ""
  start := start
  stop := stop
  symbol := ""
  busy := false
  error := none
  taskId := none
  status := none
  pollError := none
  token := token
  inflight := inflight
  accountsRequested := true
  query := none
  effect := 0
  polls := []
  timer := false

def isTerminal (status : String) : Bool := status = "done" || status = "failed"

/-- `status?.status` -/
def Page.statusText (p : Page) : Option String := p.status.map Snapshot.status

/-- `isPolling` -/
def Page.isPolling (p : Page) : Bool :=
  p.taskId.isSome && !(p.statusText = some "done" || p.statusText = some "failed")

/-- The query button is there and not disabled. -/
def Page.enabled (p : Page) : Bool := !p.gone && !(p.busy || p.isPolling)

/-- `result` -/
def Page.result (p : Page) : Option HistoryPayload :=
  if p.statusText = some "done" then p.status.bind Snapshot.result else none

/-! ## 3. Rendering -/

/-- A key under which `ERROR` and the labels of `taskStatusLabel` have the prototype of all objects,
    which React does not take for a child. -/
def isPrototype (key : String) : Bool := key = "__proto__"

def ApiError.renders (e : ApiError) : Bool := !isPrototype e.code

/-- `result.records.length`, `Object.keys(result.by_month)` and `Object.entries(bySymbol)`, and the
    rows of `HistoryTable`. -/
def HistoryPayload.renders (r : HistoryPayload) : Bool :=
  r.byMonth.isSome && r.bySymbol.isSome &&
    r.records.any fun records => records.all Option.isSome

def Snapshot.renders (s : Snapshot) : Bool :=
  !isPrototype s.status && (s.status ≠ "done" || s.result.all HistoryPayload.renders)

/-- The rendering of the page throws. -/
def Page.throws (p : Page) : Bool :=
  p.accounts.any Option.isNone || p.error.any (fun e => !e.renders) ||
    p.isPolling && p.statusText.any isPrototype || p.result.any (fun r => !r.renders)

/-- The effects are cleaned up. -/
def Page.unmounted (p : Page) : Page :=
  { p with gone := true, effect := p.effect + 1, timer := false }

def Page.render (p : Page) : Page := if p.throws then p.unmounted else p

/-! ## 4. State changes with effects -/

/-- `setTaskId`, and on a change the effect of `useTaskPoll`: the one before is cancelled, and
    with a task the first poll is sent. -/
def Page.setTaskId (p : Page) (taskId : Option String) : Page :=
  if p.taskId = taskId then p
  else { p with
    taskId := taskId
    status := none
    pollError := none
    effect := p.effect + 1
    polls := if taskId.isSome then (p.effect + 1) :: p.polls else p.polls
    timer := false }

/-- `setError` in `useTaskPoll`, which the page shows. -/
def Page.setPollError (p : Page) (e : ApiError) : Page :=
  { p with pollError := some e, error := some e }

/-- `writeRequest`: the token is there, or it is fetched, unless it is already. -/
def Page.post (p : Page) (req : HistoryRequest) : Page :=
  match truthy p.token with
  | some _ => { p with query := some (.posted req) }
  | none => { p with query := some (.awaitsToken req), inflight := true }

/-! ## 5. Steps -/

/-- `run`, up to its first await. -/
def Page.run (p : Page) : Page :=
  if p.busy then p
  else if p.accountName = "" ∨ p.start = "" ∨ p.stop = "" then
    { p with error := some ⟨"validation_error", "请填写账户和起止时间"⟩ }
  else
    let req : HistoryRequest := ⟨p.accountName, p.start, p.stop, truthy (some (trim p.symbol))⟩
    ({ p with busy := true, error := none }.setTaskId none).post req

/-- `run`, from the response on. -/
def Page.posted (p : Page) (reply : Reply (Option String)) : Page :=
  match request reply with
  | .error e => { p with error := some e, busy := false, query := none }
  | .ok data =>
      match truthy (data.getD none) with
      | some taskId => { p.setTaskId (some taskId) with busy := false, query := none }
      | none => { p with busy := false, query := none }

/-- The token request has an answer; a query that awaits the token goes on, or is dropped with
    its exception. -/
def Page.tokenAnswered (p : Page) (reply : Reply (Option String)) : Page :=
  match fetchToken reply, p.query with
  | some token, some (.awaitsToken req) =>
      { p with token := token, inflight := false, query := some (.posted req) }
  | some token, _ => { p with token := token, inflight := false }
  | none, some (.awaitsToken _) => { p with inflight := false, query := none }
  | none, _ => { p with inflight := false }

/-- `list[0].name`, which is not looked at where it throws: so does the rendering. -/
def firstName (accounts : List (Option Account)) : String :=
  (accounts.head?.join.bind Account.name).getD ""

def Page.accountsAnswered (p : Page) (reply : Reply (List (Option Account))) : Page :=
  match request reply with
  | .error e => { p with error := some e, accountsRequested := false }
  | .ok data =>
      let accounts := data.getD []
      { p with
        accounts := accounts
        accountName := if p.accountName = "" then firstName accounts else p.accountName
        accountsRequested := false }

/-- `tick`, from the response on. -/
def Page.polled (p : Page) (effect : Nat) (reply : Reply Snapshot) : Page :=
  let p := { p with polls := p.polls.erase effect }
  if effect ≠ p.effect then p
  else
    match request reply with
    | .error e => p.setPollError e
    | .ok none => { p with timer := true }
    | .ok (some snapshot) =>
        { p with status := some snapshot, timer := !isTerminal snapshot.status }

inductive PageAct
  | click
  | edit (accountName start stop symbol : String)
  | dismiss
  /-- `App` asks for a token. -/
  | getToken
  | tokenAnswer (reply : Reply (Option String))
  | accountsAnswer (reply : Reply (List (Option Account)))
  /-- The response to `POST /history`, with its `task_id`. -/
  | postAnswer (reply : Reply (Option String))
  | pollAnswer (effect : Nat) (reply : Reply Snapshot)
  | timeout

/-- A step of the page that is there. -/
def Page.handle (p : Page) : PageAct → Option Page
  | .click => if p.enabled then some p.run else none
  | .edit accountName start stop symbol => some { p with
      accountName := accountName
      start := start
      stop := stop
      symbol := symbol }
  | .dismiss => some { p with error := none }
  | .getToken =>
      match truthy p.token with
      | some _ => some p
      | none => some { p with inflight := true }
  | .tokenAnswer reply => if p.inflight then some (p.tokenAnswered reply) else none
  | .accountsAnswer reply => if p.accountsRequested then some (p.accountsAnswered reply) else none
  | .postAnswer reply =>
      match p.query with
      | some (.posted _) => some (p.posted reply)
      | _ => none
  | .pollAnswer effect reply => if effect ∈ p.polls then some (p.polled effect reply) else none
  | .timeout =>
      if p.timer then some { p with timer := false, polls := p.effect :: p.polls } else none

/-- A step when the root has been taken away: an answer comes to code that does nothing with it,
    but a query that awaits the token is still sent. -/
def Page.outlive (p : Page) : PageAct → Option Page
  | .tokenAnswer reply => if p.inflight then some (p.tokenAnswered reply) else none
  | .accountsAnswer _ =>
      if p.accountsRequested then some { p with accountsRequested := false } else none
  | .postAnswer _ =>
      match p.query with
      | some (.posted _) => some { p with query := none }
      | _ => none
  | .pollAnswer effect _ =>
      if effect ∈ p.polls then some { p with polls := p.polls.erase effect } else none
  | _ => none

def pageStep (p : Page) (a : PageAct) : Option Page :=
  if p.gone then p.outlive a else (p.handle a).map Page.render

/-- No request is outstanding and no timer is pending. -/
def Page.quiet (p : Page) : Bool :=
  !p.accountsRequested && !p.inflight && p.polls.isEmpty && !p.timer &&
    match p.query with
    | some (.posted _) => false
    | _ => true

end FundingTool.HistoryPage
