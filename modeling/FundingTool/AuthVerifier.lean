import FundingTool.Models
import FundingTool.OrderedDict

/-!
# HTTP Basic authentication with lockout (`web/auth.py`)

`AuthVerifier.verify` has three sections: the lock check, under the lock; the comparison
of the credentials, outside it; and the record of the failure or of the success, under
the lock again.  Each is a function here.  The per-IP states are an ordered dictionary
in the order of last use.

Decoding the header and `bcrypt.checkpw` are fields of the verifier.  Time is the reading
of `time.monotonic()`, in microseconds.
-/

namespace FundingTool.AuthVerifier

/-! ## 1. The verifier -/

inductive AuthCode
  | webAuthRequired
  | webAuthLocked
deriving DecidableEq, Repr

structure IpState where
  failures : Nat
  lockedUntil : Int
deriving DecidableEq, Repr

/-- `_IpState()` -/
def IpState.fresh : IpState := ⟨0, 0⟩

abbrev IpStates := OrderedDict String IpState

/-- The arguments of the constructor, with what reads a header and a password. -/
structure Verifier where
  username : String
  lockoutMax : Nat
  lockoutSecs : Nat
  stateMax : Nat
  /-- `base64.b64decode(text, validate=True).decode()`, when it does not raise. -/
  decode : String → Option String
  /-- `bcrypt.checkpw(pw.encode(), self._password_hash)`, when it does not raise. -/
  checkpw : String → Option Bool

namespace Verifier

variable (v : Verifier)

/-- `lockout_secs` on the clock. -/
def lockout : Int := v.lockoutSecs * 1000000

/-! ## 2. The header -/

/-- `text.partition(":")`, without the separator. -/
def partitionColon (text : String) : String × String :=
  (String.ofList (text.toList.takeWhile (· ≠ ':')),
    String.ofList ((text.toList.dropWhile (· ≠ ':')).drop 1))

/-- User and password of an `Authorization` header; `none` where the source records a
    failure without a comparison. -/
def credentialsOf (header : Option String) : Option (String × String) :=
  match header with
  | none => none
  | some text =>
      if "Basic ".toList.isPrefixOf text.toList then
        (v.decode (strip (String.ofList (text.toList.drop 6)))).map partitionColon
      else none

/-! ## 3. The three sections of `verify` -/

/-- The lock check: the states after it, and whether the address is locked. -/
def lockCheck (ip : String) (now : Int) (states : IpStates) : IpStates × Bool :=
  let st := (states.get? ip).getD .fresh
  (states.setLast ip st, decide (st.lockedUntil > now))

/-- The comparison: `none` when `checkpw` raises. -/
def compare (user pw : String) : Option Bool :=
  (v.checkpw pw).map fun pwOk => decide (user = v.username) && pwOk

/-- Drop the address unused for longest when there are too many. -/
def evict (states : IpStates) : IpStates :=
  if states.entries.length > v.stateMax then states.popFirst else states

/-- The state of an address after one more failure. -/
def failed (now : Int) (st : IpState) : IpState where
  failures := st.failures + 1
  lockedUntil := if st.failures + 1 ≥ v.lockoutMax then now + v.lockout else st.lockedUntil

def recordFailure (ip : String) (now : Int) (states : IpStates) : IpStates :=
  v.evict (states.setLast ip (v.failed now ((states.get? ip).getD .fresh)))

def recordSuccess (ip : String) (states : IpStates) : IpStates :=
  v.evict (states.setLast ip .fresh)

def reset (ip : String) (states : IpStates) : IpStates := states.erase ip

/-- How a call of `verify` ends. -/
inductive Answer
  | returned (username : String)
  | raised (code : AuthCode)
  /-- What `checkpw` has raised. -/
  | escaped
deriving DecidableEq, Repr

/-- `verify`, undisturbed: the clock is read by the lock check, and by the record of a
    failure. -/
def verify (ip : String) (header : Option String) (checked recorded : Int) (states : IpStates) :
    IpStates × Answer :=
  let (states, locked) := lockCheck ip checked states
  if locked then (states, .raised .webAuthLocked)
  else
    match v.credentialsOf header with
    | none => (v.recordFailure ip recorded states, .raised .webAuthRequired)
    | some (user, pw) =>
        match v.compare user pw with
        | none => (states, .escaped)
        | some false => (v.recordFailure ip recorded states, .raised .webAuthRequired)
        | some true => (v.recordSuccess ip states, .returned v.username)

/-! ## 4. What the sections do to the state of an address -/

/-- The state of an address, as `setdefault` gives it. -/
def stateOf (states : IpStates) (ip : String) : IpState := (states.get? ip).getD .fresh

theorem stateOf_setLast (states : IpStates) (ip ip' : String) (st : IpState) :
    stateOf (states.setLast ip st) ip' = if ip' = ip then st else stateOf states ip' := by
  simp only [stateOf, OrderedDict.get?_setLast]
  by_cases h : ip' = ip
  · rw [if_pos h, if_pos h, Option.getD_some]
  · rw [if_neg h, if_neg h]

/-- A lock check changes the state of no address. -/
theorem stateOf_lockCheck (ip ip' : String) (now : Int) (states : IpStates) :
    stateOf (lockCheck ip now states).1 ip' = stateOf states ip' := by
  rw [lockCheck, stateOf_setLast]
  by_cases h : ip' = ip
  · rw [if_pos h, h, stateOf]
  · rw [if_neg h]

end Verifier

end FundingTool.AuthVerifier
