import FundingTool.AccountRoutes
import FundingTool.TaskFiles
import FundingTool.Timeline

/-!
# The accounts page (`AccountsPage.tsx`, `AccountForm.tsx`)

The mounted page, its form and the requests of both, with the account routes they reach.  Every
`load` takes the next number, and only the answer to the load numbered last is used; a deletion
and a submitted form load the list once they have succeeded.  Other clients call the same routes,
and requests and answers overtake one another.

`up_to_date`: once the load numbered last is answered, the list shown is a list the database had,
at a moment at which every write confirmed to the page was made.
-/

namespace FundingTool.AccountsPage

open FundingTool.AccountRoutes FundingTool.Interaction FundingTool.TransitionSystem
open FundingTool.TaskFiles (codeText)

/-! ## 1. The page -/

structure ApiError where
  code : String
  message : String
  field : Option String
  errorId : Option String
deriving DecidableEq, Repr

/-- What `request` resolves to: an error, or the data of a response. -/
abbrev Answer := Except ApiError Response

/-- The error in the envelope the handlers of the app make; `errorId` is drawn for an unhandled
    exception. -/
def errorOf (errorId : String) : RouteError → ApiError
  | .http _ code message field => ⟨code, message, field, none⟩
  | .core e =>
      let web := mapCoreException errorId (.core e)
      ⟨codeText web.code, web.message, web.field, web.errorId⟩

inductive Request
  /-- `load`, awaited by the `handleDelete` of an account or by nobody. -/
  | load (id : Nat) (deleted : Option String)
  | delete (name : String)
  | submit (payload : AccountCreateRequest)
deriving DecidableEq, Repr

def Request.call : Request → AccountCall
  | .load .. => .list
  | .delete name => .delete name
  | .submit payload => .create payload

structure Page where
  accs : Option (List AccountOut)
  error : Option ApiError
  showForm : Bool
  deleting : List String
  /-- `loadIdRef.current` -/
  loadId : Nat
  -- The state of the form, while it is shown.
  busy : Bool
  formError : Option ApiError
deriving DecidableEq, Repr

/-- `r.data?.accounts ?? []` -/
def accountsOf : Response → List AccountOut
  | .accounts accounts => accounts
  | _ => []

/-- `if (r.data && …)` -/
def hasData : Response → Bool
  | .noContent => false
  | _ => true

namespace Page

/-- The page before its effect: it loads at once. -/
def initial : Page := ⟨none, none, false, [], 0, false, none⟩

/-- `load`, up to its await. -/
def load (p : Page) (deleted : Option String) : Page × Option Request :=
  ({ p with loadId := p.loadId + 1 }, some (.load (p.loadId + 1) deleted))

/-- `load`, from the response on. -/
def loaded (p : Page) (id : Nat) (answer : Answer) : Page :=
  if id = p.loadId then
    match answer with
    | .error e => { p with error := some e }
    | .ok response => { p with accs := some (accountsOf response) }
  else p

/-- The `finally` of `handleDelete`. -/
def released (p : Page) : Option String → Page
  | some name => { p with deleting := p.deleting.filter fun other => other ≠ name }
  | none => p

/-- `handleDelete`, confirmed, up to its first await. -/
def handleDelete (p : Page) (name : String) : Page × Option Request :=
  if name ∈ p.deleting then (p, none)
  else ({ p with deleting := p.deleting ++ [name] }, some (.delete name))

/-- `handleSubmit`, up to its await. -/
def handleSubmit (p : Page) (payload : AccountCreateRequest) : Page × Option Request :=
  if p.busy then (p, none)
  else ({ p with formError := none, busy := true }, some (.submit payload))

/-- The form comes or goes, and with it its state. -/
def withForm (p : Page) (showForm : Bool) : Page :=
  { p with showForm := showForm, busy := false, formError := none }

/-- What awaited the answer goes on. -/
def answered (p : Page) : Request → Answer → Page × Option Request
  | .load id deleted, answer => ((p.loaded id answer).released deleted, none)
  | .delete name, .error e => ({ p with error := some e }.released (some name), none)
  | .delete name, .ok _ => p.load (some name)
  | .submit _, .error e => ({ p with busy := false, formError := some e }, none)
  | .submit _, .ok response =>
      if hasData response then (p.withForm false).load none else ({ p with busy := false }, none)

/-- What awaited `getToken()` ends with its rejection: the form stays busy. -/
def dropped (p : Page) : Request → Page
  | .delete name => p.released (some name)
  | _ => p

end Page

/-! ## 2. The page and the server -/

inductive Course
  /-- The request has not reached its route. -/
  | underway
  | serving (thread : Nat)
  | settled (answer : Answer) (moment : Nat)
  /-- `getToken()` has rejected; the request has never been sent. -/
  | dropped
deriving DecidableEq, Repr

structure Flight where
  request : Request
  sentAt : Nat
  course : Course
deriving DecidableEq, Repr

structure Site where
  server : RoutePool
  /-- The databases there were before each step of the server. -/
  past : List SecretDb
  page : Page
  /-- The requests of the page so far. -/
  sent : List Flight

namespace Site

def timeline (s : Site) : Timeline SecretDb := ⟨s.past, s.server.state⟩

def now (s : Site) : Nat := s.timeline.now

def moved (s : Site) (server : RoutePool) : Site :=
  { s with server := server, past := s.past ++ [s.server.state] }

/-- The page changes, and sends a request if there is one. -/
def turned (s : Site) (turn : Page × Option Request) : Site :=
  { s with
    page := turn.1
    sent := s.sent ++ (turn.2.map fun r => ⟨r, s.now, .underway⟩).toList }

def withCourse (s : Site) (i : Nat) (f : Flight) (course : Course) : Site :=
  { s with sent := s.sent.set i { f with course := course } }

/-- An answer arrives. -/
def settle (s : Site) (i : Nat) (f : Flight) (answer : Answer) : Site :=
  (s.withCourse i f (.settled answer s.now)).turned (s.page.answered f.request answer)

/-- The page has just been mounted; the server may have been at work before. -/
def mounted (server : RoutePool) : Site :=
  { server := server, past := [], page := .initial, sent := [] : Site }.turned
    (Page.initial.load none)

end Site

inductive Act
  /-- A step of the server, for this page or for anybody else. -/
  | server (a : PoolAct AccountCall RouteChoice RouteError)
  /-- A request reaches its route. -/
  | arrive (i : Nat)
  /-- Its answer reaches the page. -/
  | answer (i : Nat) (errorId : String)
  /-- It fails, or something on its way answers with an error. -/
  | fail (i : Nat) (e : ApiError)
  /-- `getToken()` rejects. -/
  | drop (i : Nat)
  /-- A deletion is clicked and confirmed. -/
  | delete (name : String)
  | openForm
  | cancelForm
  | submit (payload : AccountCreateRequest)
  | dismissError
  | dismissFormError

/-- The `required` fields of the form. -/
def filledIn (payload : AccountCreateRequest) : Bool :=
  payload.name ≠ "" && payload.apiKey ≠ "" && payload.apiSecret ≠ ""

/-- How a route has ended. -/
def ended (errorId : String) : Route Response → Option Answer
  | .ret response => some (.ok response)
  | .raise e => some (.error (errorOf errorId e))
  | .call .. => none

def Course.isOpen : Course → Bool
  | .underway => true
  | .serving _ => true
  | _ => false

def Request.isWrite : Request → Bool
  | .load .. => false
  | _ => true

def step (store : SecretStore) (s : Site) : Act → Option Site
  | .server a => ((routeMachine store).step s.server a).map s.moved
  | .arrive i =>
      match s.sent[i]? with
      | some f =>
          if f.course = .underway then
            ((routeMachine store).step s.server (.spawn f.request.call)).map fun server =>
              (s.moved server).withCourse i f (.serving s.server.threads.length)
          else none
      | none => none
  | .answer i errorId =>
      match s.sent[i]? with
      | some f =>
          match f.course with
          | .serving thread =>
              match s.server.threads[thread]? with
              | some (_, prog) => (ended errorId prog).map (s.settle i f)
              | none => none
          | _ => none
      | none => none
  | .fail i e =>
      match s.sent[i]? with
      | some f => if f.course.isOpen then some (s.settle i f (.error e)) else none
      | none => none
  | .drop i =>
      match s.sent[i]? with
      | some f =>
          if f.course = .underway ∧ f.request.isWrite then
            some ((s.withCourse i f .dropped).turned (s.page.dropped f.request, none))
          else none
      | none => none
  | .delete name =>
      if (s.page.accs.getD []).any fun a => a.name = name then
        some (s.turned (s.page.handleDelete name))
      else none
  | .openForm => if s.page.showForm then none else some (s.turned (s.page.withForm true, none))
  | .cancelForm =>
      if s.page.showForm && !s.page.busy then some (s.turned (s.page.withForm false, none))
      else none
  | .submit payload =>
      if s.page.showForm && filledIn payload then some (s.turned (s.page.handleSubmit payload))
      else none
  | .dismissError => some (s.turned ({ s.page with error := none }, none))
  | .dismissFormError =>
      if s.page.showForm then some (s.turned ({ s.page with formError := none }, none)) else none

/-- **What a step can do.** -/
inductive Takes (store : SecretStore) (s : Site) : Act → Site → Prop
  | server {a : PoolAct AccountCall RouteChoice RouteError} {server : RoutePool}
      (hserver : (routeMachine store).step s.server a = some server) :
      Takes store s (.server a) (s.moved server)
  | arrive {i : Nat} {f : Flight} {server : RoutePool} (hi : s.sent[i]? = some f)
      (hcourse : f.course = .underway)
      (hserver : (routeMachine store).step s.server (.spawn f.request.call) = some server) :
      Takes store s (.arrive i)
        ((s.moved server).withCourse i f (.serving s.server.threads.length))
  | answer {i : Nat} {f : Flight} {thread : Nat} {call : AccountCall} {prog : Route Response}
      {errorId : String} {answer : Answer} (hi : s.sent[i]? = some f)
      (hcourse : f.course = .serving thread)
      (hthread : s.server.threads[thread]? = some (call, prog))
      (hended : ended errorId prog = some answer) :
      Takes store s (.answer i errorId) (s.settle i f answer)
  | fail {i : Nat} {f : Flight} {e : ApiError} (hi : s.sent[i]? = some f)
      (hopen : f.course.isOpen = true) : Takes store s (.fail i e) (s.settle i f (.error e))
  | drop {i : Nat} {f : Flight} (hi : s.sent[i]? = some f) (hcourse : f.course = .underway)
      (hwrite : f.request.isWrite = true) :
      Takes store s (.drop i)
        ((s.withCourse i f .dropped).turned (s.page.dropped f.request, none))
  | delete {name : String} : Takes store s (.delete name) (s.turned (s.page.handleDelete name))
  | openForm (hform : s.page.showForm = false) :
      Takes store s .openForm (s.turned (s.page.withForm true, none))
  | cancelForm (hbusy : s.page.busy = false) :
      Takes store s .cancelForm (s.turned (s.page.withForm false, none))
  | submit {payload : AccountCreateRequest} (hform : s.page.showForm = true) :
      Takes store s (.submit payload) (s.turned (s.page.handleSubmit payload))
  | dismissError : Takes store s .dismissError (s.turned ({ s.page with error := none }, none))
  | dismissFormError :
      Takes store s .dismissFormError (s.turned ({ s.page with formError := none }, none))

theorem step_takes {store : SecretStore} {s s' : Site} {a : Act} (h : step store s a = some s') :
    Takes store s a s' := by
  cases a with
  | server a =>
      obtain ⟨server, hserver, rfl⟩ := Option.map_eq_some_iff.mp h
      exact .server hserver
  | arrive i =>
      simp only [step] at h
      split at h
      · next f hi =>
          split at h
          · next hcourse =>
              obtain ⟨server, hserver, rfl⟩ := Option.map_eq_some_iff.mp h
              exact .arrive hi hcourse hserver
          · cases h
      · cases h
  | answer i errorId =>
      simp only [step] at h
      split at h
      · next f hi =>
          split at h
          · next thread hcourse =>
              split at h
              · next call prog hthread =>
                  obtain ⟨answer, hended, rfl⟩ := Option.map_eq_some_iff.mp h
                  exact .answer hi hcourse hthread hended
              · cases h
          · cases h
      · cases h
  | fail i e =>
      simp only [step] at h
      split at h
      · next f hi =>
          split at h
          · next hopen =>
              cases h
              exact .fail hi hopen
          · cases h
      · cases h
  | drop i =>
      simp only [step] at h
      split at h
      · next f hi =>
          split at h
          · next hwrite =>
              cases h
              exact .drop hi hwrite.1 hwrite.2
          · cases h
      · cases h
  | delete name =>
      simp only [step] at h
      split at h
      · cases h
        exact .delete
      · cases h
  | openForm =>
      simp only [step] at h
      split at h
      · cases h
      · next hform =>
          cases h
          exact .openForm (Bool.eq_false_iff.mpr hform)
  | cancelForm =>
      simp only [step] at h
      split at h
      · next hform =>
          cases h
          simp only [Bool.and_eq_true, Bool.not_eq_true'] at hform
          exact .cancelForm hform.2
      · cases h
  | submit payload =>
      simp only [step] at h
      split at h
      · next hform =>
          cases h
          exact .submit (Bool.and_eq_true_iff.mp hform).1
      · cases h
  | dismissError =>
      cases h
      exact .dismissError
  | dismissFormError =>
      simp only [step] at h
      split at h
      · cases h
        exact .dismissFormError
      · cases h

end FundingTool.AccountsPage
