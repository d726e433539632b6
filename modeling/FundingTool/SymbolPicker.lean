import FundingTool.JsonText
import FundingTool.TransitionSystem
import Mathlib.Data.List.Infix
import Mathlib.Data.List.Sort
import Mathlib.Data.String.Basic

/-!
# The symbol picker (`SymbolPicker.tsx`, `web/routes/meta.py`)

The mounted picker of the backtest page and the route `/symbols` with its cache.  What is typed
is searched for a moment later; every search takes the next number, and only the answer to the
one numbered last is used.  The route keeps the exchange's list for an hour, counted from the
request that had it fetched; requests of others reach it too, and several may wait for the
exchange at once.

`options_sound` is about all orders of these: what is listed was found among symbols the exchange
has reported less than an hour before, and when nothing is under way it is what belongs to the
text in the field, if that is long enough to be searched for.
-/

namespace FundingTool.SymbolPicker

open FundingTool.JsonText

/-! ## 1. `list_symbols` -/

def textOf : Option Value → Option String
  | some (.str s) => some s
  | _ => none

/-- A perpetual in USDT that is traded. -/
def isTradeable (entry : Value) : Bool :=
  textOf (entry.member "status") = some "TRADING" &&
    textOf (entry.member "contractType") = some "PERPETUAL" &&
    textOf (entry.member "quoteAsset") = some "USDT"

/-- `data.get("symbols", []) if isinstance(data, dict) else []`, as it is iterated over; `none`
    where that raises. -/
def symbolEntries (data : Value) : Option (List Value) :=
  match data with
  | .obj _ =>
      match data.member "symbols" with
      | none => some []
      | some (.arr entries) => some entries
      -- A text or a dict yields texts, none of them a dict.
      | some (.str _) => some []
      | some (.obj _) => some []
      | some _ => none
  | _ => some []

/-- `sorted(s["symbol"] for …)`; `none` where it raises, or a symbol is not a text. -/
def listSymbols (data : Value) : Option (List String) := do
  let entries ← symbolEntries data
  let symbols ← (entries.filter isTradeable).mapM fun entry => textOf (entry.member "symbol")
  return symbols.insertionSort (· ≤ ·)

/-! ## 2. The route -/

/-- `str.upper` of Python and `toUpperCase` of JavaScript. -/
structure Casing where
  upper : String → String
  toUpperCase : String → String

/-- Microseconds of `_CACHE_TTL`. -/
def cacheTtl : Int := 3600000000

/-- `[s for s in all_symbols if q_upper in s]` -/
def search (casing : Casing) (query : String) (symbols : List String) : List String :=
  symbols.filter fun s => (casing.upper query).toList <:+: s.toList

/-- `Query(min_length=1, max_length=20)` -/
def isAccepted (query : String) : Bool := 1 ≤ query.length && query.length ≤ 20

/-- What `r.data` holds, if anything. -/
abbrev Answer := Option (List String)

inductive Course
  | underway
  /-- The route has read the clock and awaits `list_symbols`. -/
  | listing (now : Int)
  | replied (answer : Answer)
  /-- The client has been answered, or its request has failed. -/
  | settled (answer : Answer)
deriving DecidableEq, Repr

structure Flight where
  /-- The number of a request of the picker. -/
  owner : Option Nat
  query : String
  /-- When it reached the route. -/
  arrivedAt : Int
  course : Course
deriving DecidableEq, Repr

/-! ## 3. The picker -/

/-- `value.length` -/
def jsLength (text : String) : Nat :=
  text.toList.foldl (fun n c => n + if c.toNat < 0x10000 then 1 else 2) 0

structure Picker where
  value : String
  /-- What the effect has last run with. -/
  committed : Option String
  options : List String
  isOpen : Bool
  /-- `blurTimer` is set. -/
  blurring : Bool
  /-- The value that `debounceTimer`, while it is set, searches for. -/
  debounce : Option String
  /-- `reqIdRef.current` -/
  reqId : Nat
  mounted : Bool
deriving DecidableEq, Repr

namespace Picker

def initial : Picker := ⟨"", none, [], false, false, none, 0, true⟩

/-- The effect, with the cleanup of the one before. -/
def runEffect (p : Picker) : Picker :=
  if jsLength p.value < 2 then
    { p with committed := some p.value, debounce := none, options := [] }
  else { p with committed := some p.value, debounce := some p.value }

/-- The request with this number is answered. -/
def answered (p : Picker) (id : Nat) (answer : Answer) : Picker :=
  if p.mounted ∧ id = p.reqId then
    match answer with
    | some symbols => { p with options := symbols.take 10 }
    | none => p
  else p

end Picker

/-! ## 4. The page, the route and the exchange -/

structure Site where
  /-- `time.monotonic()` of the route's process -/
  clock : Int
  /-- `_cache["all"]` -/
  cache : Option (Int × List String)
  /-- What the exchange has reported, and when. -/
  reports : List (Int × Value)
  sent : List Flight
  picker : Picker

namespace Site

def start : Site := ⟨0, none, [], [], .initial⟩

def put (s : Site) (i : Nat) (f : Flight) : Site := { s with sent := s.sent.set i f }

def withPicker (s : Site) (p : Picker) : Site := { s with picker := p }

/-- `symbols` up to the await. -/
def arrive (s : Site) (casing : Casing) (i : Nat) (f : Flight) : Site :=
  s.put i { f with
    arrivedAt := s.clock
    course :=
      if isAccepted f.query then
        match s.cache with
        | some (fetchedAt, symbols) =>
            if s.clock - fetchedAt < cacheTtl then
              .replied (some ((search casing f.query symbols).take 50))
            else .listing s.clock
        | none => .listing s.clock
      else .replied none }

/-- `symbols` from the await on; `none` where `list_symbols` raises. -/
def report (s : Site) (casing : Casing) (i : Nat) (f : Flight) (now : Int) (data : Option Value) :
    Site :=
  match data with
  | some data =>
      match listSymbols data with
      | some symbols =>
          { s.put i
              { f with course := .replied (some ((search casing f.query symbols).take 50)) } with
            cache := some (now, symbols), reports := s.reports ++ [(s.clock, data)] }
      | none => s.put i { f with course := .replied none }
  | none => s.put i { f with course := .replied none }

/-- The client goes on with an answer. -/
def settle (s : Site) (i : Nat) (f : Flight) (answer : Answer) : Site :=
  (s.put i { f with course := .settled answer }).withPicker
    (match f.owner with
    | some id => s.picker.answered id answer
    | none => s.picker)

/-- The request fails on its way; a route that has it goes on without it. -/
def fail (s : Site) (i : Nat) (f : Flight) : Site :=
  let failed := s.settle i f none
  match f.course with
  | .listing _ => { failed with sent := failed.sent ++ [{ f with owner := none }] }
  | _ => failed

/-- The debounced search begins. -/
def fire (s : Site) (query : String) : Site :=
  { s with
    picker := { s.picker with debounce := none, reqId := s.picker.reqId + 1 }
    sent := s.sent ++ [⟨some (s.picker.reqId + 1), query, 0, .underway⟩] }

end Site

inductive Act
  | tick (dt : Nat)
  /-- Somebody else sends a request. -/
  | ask (query : String)
  | arrive (i : Nat)
  /-- The exchange answers `list_symbols`, or it raises. -/
  | report (i : Nat) (data : Option Value)
  | answer (i : Nat)
  | fail (i : Nat)
  | type (text : String)
  /-- The effect of the last rendering runs. -/
  | effect
  /-- `debounceTimer` fires. -/
  | fire
  | focus
  | blur
  /-- `blurTimer` fires. -/
  | hide
  | select (o : String)
  | unmount

def step (casing : Casing) (s : Site) : Act → Option Site
  | .tick dt => some { s with clock := s.clock + dt }
  | .ask query => some { s with sent := s.sent ++ [⟨none, query, 0, .underway⟩] }
  | .arrive i =>
      match s.sent[i]? with
      | some f => if f.course = .underway then some (s.arrive casing i f) else none
      | none => none
  | .report i data =>
      match s.sent[i]? with
      | some f =>
          match f.course with
          | .listing now => some (s.report casing i f now data)
          | _ => none
      | none => none
  | .answer i =>
      match s.sent[i]? with
      | some f =>
          match f.course with
          | .replied answer => some (s.settle i f answer)
          | _ => none
      | none => none
  | .fail i =>
      match s.sent[i]? with
      | some f =>
          match f.course with
          | .settled _ => none
          | _ => some (s.fail i f)
      | none => none
  | .type text =>
      if s.picker.mounted then
        some (s.withPicker { s.picker with value := casing.toUpperCase text })
      else none
  | .effect =>
      if s.picker.mounted ∧ s.picker.committed ≠ some s.picker.value then
        some (s.withPicker s.picker.runEffect)
      else none
  | .fire =>
      match s.picker.debounce with
      | some query => some (s.fire query)
      | none => none
  | .focus =>
      if s.picker.mounted then
        some (s.withPicker { s.picker with isOpen := true, blurring := false })
      else none
  | .blur =>
      if s.picker.mounted then some (s.withPicker { s.picker with blurring := true }) else none
  | .hide =>
      if s.picker.blurring then
        some (s.withPicker { s.picker with isOpen := false, blurring := false })
      else none
  | .select o =>
      if s.picker.mounted ∧ s.picker.isOpen ∧ o ∈ s.picker.options then
        some (s.withPicker { s.picker with value := o, isOpen := false })
      else none
  | .unmount =>
      if s.picker.mounted then
        some (s.withPicker { s.picker with mounted := false, debounce := none, blurring := false })
      else none

end FundingTool.SymbolPicker
