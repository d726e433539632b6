import FundingTool.ApiClient
import FundingTool.OrderedDict
import FundingTool.TransitionSystem

/-!
# Polling a task (`useTaskPoll.ts`)

One mounted component that calls the hook.  A rendering changes the task id and the interval;
the effect they are the dependencies of is run later, its predecessor's cleanup before it.  A
`tick` of an effect awaits one request or has set one timer, under a handle of its own, and
goes on when that is answered or fires, in any order.

`api.get` resolves whatever happens to the request, so an answer is an `ApiResult`.  What has
been requested and answered is kept, in order.
-/

namespace FundingTool.TaskPoll

open FundingTool.Api (Value ApiResult truthy member)

/-! ## 1. Requests -/

/-- The characters `encodeURIComponent` leaves as they are. -/
def isUnreserved (c : Char) : Bool := c.isAlphanum || "-_.!~*'()".toList.contains c

def hexDigit (n : Nat) : Char := if n < 10 then Char.ofNat (48 + n) else Char.ofNat (55 + n)

def percentEncode (byte : UInt8) : List Char :=
  ['%', hexDigit (byte.toNat / 16), hexDigit (byte.toNat % 16)]

def encodeURIComponent (text : String) : String :=
  String.ofList <| text.toList.flatMap fun c =>
    if isUnreserved c then [c] else (String.utf8EncodeChar c).flatMap percentEncode

/-- The path of `tick`'s request. -/
def resultPath (taskId : String) : String := "/history/result/" ++ encodeURIComponent taskId

example : resultPath "é 1" = "/history/result/%C3%A9%201" := by decide +kernel

/-- A request, and the effect that issued it. -/
structure Request where
  effect : Nat
  path : String
deriving DecidableEq, Repr

/-- What a `tick` of an effect is suspended on. -/
inductive Wait
  | request (r : Request)
  | timer (effect : Nat)
deriving DecidableEq, Repr

def Wait.effect : Wait → Nat
  | .request r => r.effect
  | .timer effect => effect

/-- `isTerminal` -/
def isTerminal (status : Value) : Bool :=
  match status with
  | some (.str s) => s = "done" || s = "failed"
  | _ => false

/-! ## 2. The hook -/

/-- What the effect depends on. -/
structure Deps where
  taskId : Option String
  intervalMs : Int
deriving DecidableEq, Repr

/-- A run of the effect with a task id, and its variables. -/
structure Effect where
  taskId : String
  intervalMs : Int
  cancelled : Bool
  timer : Option Nat
deriving DecidableEq, Repr

structure Hook where
  /-- The dependencies of the last rendering, before the first and after unmounting none. -/
  rendered : Option Deps
  /-- Those of the effect that ran last. -/
  committed : Option Deps
  unmounted : Bool
  /-- The effects so far. -/
  effects : List Effect
  /-- The effect whose cleanup is to run next. -/
  current : Option Nat
  waiting : OrderedDict Nat Wait
  handles : Nat
  status : Value
  error : Value
  issued : List Request
  answered : List (Request × ApiResult)

def Hook.start : Hook := ⟨none, none, false, [], none, .empty, 0, none, none, [], []⟩

namespace Hook

def setEffect (s : Hook) (k : Nat) (e : Effect) : Hook := { s with effects := s.effects.set k e }

/-- `api.get` up to its await. -/
def request (s : Hook) (r : Request) : Hook :=
  { s with waiting := s.waiting.set s.handles (.request r), handles := s.handles + 1,
           issued := s.issued ++ [r] }

/-- `timer = setTimeout(…, intervalMs)` -/
def setTimer (s : Hook) (k : Nat) (e : Effect) : Hook :=
  { s.setEffect k { e with timer := some s.handles } with
      waiting := s.waiting.set s.handles (.timer k), handles := s.handles + 1 }

/-- Nothing waits under the handle any longer. -/
def remove (s : Hook) (handle : Nat) : Hook := { s with waiting := s.waiting.erase handle }

/-- `if (timer !== null) clearTimeout(timer)` -/
def clearTimer (s : Hook) : Option Nat → Hook
  | some handle => s.remove handle
  | none => s

/-- `tick` up to its await. -/
def tick (s : Hook) (k : Nat) : Hook :=
  match s.effects[k]? with
  | some e => if e.cancelled then s else s.request ⟨k, resultPath e.taskId⟩
  | none => s

/-- Whether `tick` ends with this answer. -/
def ends (result : ApiResult) : Bool :=
  truthy result.error || (truthy result.data && isTerminal (member result.data "status"))

/-- The request under the handle is answered. -/
def arrive (s : Hook) (handle : Nat) (r : Request) (result : ApiResult) : Hook :=
  { s.remove handle with answered := s.answered ++ [(r, result)] }

/-- `setError` and `setStatus` of an answer. -/
def receive (s : Hook) (result : ApiResult) : Hook :=
  if truthy result.error then { s with error := result.error }
  else if truthy result.data then { s with status := result.data }
  else s

/-- `tick` after its await. -/
def resume (s : Hook) (k : Nat) (result : ApiResult) : Hook :=
  match s.effects[k]? with
  | some e =>
      if e.cancelled then s
      else if ends result then s.receive result
      else (s.receive result).setTimer k e
  | none => s

/-- The cleanup of the current effect, which may have none. -/
def cleanup (s : Hook) : Hook :=
  match s.current with
  | some k =>
      match s.effects[k]? with
      | some e => { (s.setEffect k { e with cancelled := true }).clearTimer e.timer with
                      current := none }
      | none => { s with current := none }
  | none => s

/-- The effect. -/
def runEffect (s : Hook) (deps : Deps) : Hook :=
  match deps.taskId.filter (· ≠ "") with
  | none => { s with committed := some deps, status := none, error := none }
  | some taskId =>
      let e : Effect := ⟨taskId, deps.intervalMs, false, none⟩
      { s with committed := some deps, status := none, error := none,
               current := some s.effects.length,
               effects := s.effects ++ [e] }.tick s.effects.length

end Hook

/-! ## 3. Steps -/

inductive Event
  /-- The component renders with these arguments of the hook. -/
  | render (taskId : Option String) (intervalMs : Int)
  | unmount
  /-- React runs the effects of the last rendering, or the cleanups of the unmounting. -/
  | effects
  | answer (handle : Nat) (result : ApiResult)
  | fire (handle : Nat)

/-- One piece of code between two awaits; `none` where the event cannot occur. -/
def step (s : Hook) : Event → Option Hook
  | .render taskId intervalMs =>
      if s.unmounted then none else some { s with rendered := some ⟨taskId, intervalMs⟩ }
  | .unmount => if s.unmounted then none else some { s with rendered := none, unmounted := true }
  | .effects =>
      if s.rendered = s.committed then some s
      else
        match s.rendered with
        | some deps => some (s.cleanup.runEffect deps)
        -- The state goes with the component.
        | none => some { s.cleanup with committed := none, status := none, error := none }
  | .answer handle result =>
      match s.waiting.get? handle with
      | some (.request r) => some ((s.arrive handle r result).resume r.effect result)
      | _ => none
  | .fire handle =>
      match s.waiting.get? handle with
      | some (.timer k) => some ((s.remove handle).tick k)
      | _ => none

end FundingTool.TaskPoll
