import FundingTool.CsrfGuard
import FundingTool.TransitionSystem

/-!
# Open pages and the cookie jar (`csrfStore.ts`, `api.ts`)

Every open page is a copy of the module state of `csrfStore`: the cached token and the
promise of a fetch under way.  All pages share the jar.  The jar takes a cookie when the
response arrives; the page's own continuation, which caches the token and sends the writes
that wait for it, runs later.  `refresh` is exported but nothing calls it.
-/

namespace FundingTool.CsrfBrowser

open FundingTool.TransitionSystem

/-! ## 1. One page -/

/-- How far the request behind `_inflight` has come. -/
inductive Fetch
  | requested
  /-- The server has sent `issueCsrf token`. -/
  | answered (token : CsrfToken)
  /-- The browser has the response; the continuation of `fetchToken` has still to run. -/
  | received (token : CsrfToken)
deriving DecidableEq

/-- `_token`, `_inflight`, and the number of writes that await `getToken()`. -/
structure Page where
  token : Option CsrfToken
  inflight : Option Fetch
  waiting : Nat
deriving DecidableEq

def Page.new : Page := ⟨none, none, 0⟩

/-- `getToken()` without a cached token: one request serves everyone who awaits it. -/
def Page.fetch (page : Page) (writes : Nat) : Page :=
  match page.inflight with
  | none => { page with inflight := some .requested, waiting := page.waiting + writes }
  | some _ => { page with waiting := page.waiting + writes }

/-! ## 2. The browser -/

structure Cookie where
  value : CsrfToken
  expires : Int
deriving DecidableEq

/-- A write as it leaves the browser, with the time and what was received last. -/
structure Write where
  page : Nat
  header : CsrfToken
  cookie : Option CsrfToken
  sentAt : Int
  lastReceived : Option (Nat × Int)
deriving DecidableEq

/-- The jar and the pages, with the tokens the server has issued, the page and the time of
    the last token response to arrive, and the writes sent so far. -/
structure Browser where
  clock : Int
  cookie : Option Cookie
  pages : List Page
  issued : List CsrfToken
  lastReceived : Option (Nat × Int)
  writes : List Write
deriving DecidableEq

def Browser.start (clock : Int) : Browser := ⟨clock, none, [], [], none, []⟩

/-- The value of `funding_csrf` a request takes along. -/
def Browser.currentCookie (b : Browser) : Option CsrfToken :=
  match b.cookie with
  | none => none
  | some cookie => if b.clock < cookie.expires then some cookie.value else none

/-- `request` with the header `X-Funding-Token`. -/
def Browser.send (b : Browser) (i : Nat) (header : CsrfToken) : Write :=
  ⟨i, header, b.currentCookie, b.clock, b.lastReceived⟩

inductive PageAct
  | getToken
  | write
  | serve (token : CsrfToken)
  | deliver
  | settle
  /-- The fetch rejects: no response arrives, and the writes that await it are dropped. -/
  | fail

/-- Times are in seconds. -/
inductive BrowserAct
  | openPage
  | tick (d : Nat)
  | page (i : Nat) (act : PageAct)

/-- What happens on or to page `i`. -/
def pageStep (b : Browser) (i : Nat) (page : Page) : PageAct → Option Browser
  | .getToken =>
      match page.token with
      | some _ => some b
      | none => some { b with pages := b.pages.set i (page.fetch 0) }
  | .write =>
      match page.token with
      | some token => some { b with writes := b.send i token :: b.writes }
      | none => some { b with pages := b.pages.set i (page.fetch 1) }
  | .serve token =>
      match page.inflight with
      | some .requested =>
          if token ∈ b.issued then none
          else some { b with
            pages := b.pages.set i { page with inflight := some (.answered token) },
            issued := token :: b.issued }
      | _ => none
  | .deliver =>
      match page.inflight with
      | some (.answered token) =>
          let response := issueCsrf token
          some { b with
            pages := b.pages.set i { page with inflight := some (.received response.token) },
            cookie := some ⟨response.cookie, b.clock + response.maxAge⟩,
            lastReceived := some (i, b.clock) }
      | _ => none
  | .settle =>
      match page.inflight with
      | some (.received token) =>
          some { b with
            pages := b.pages.set i ⟨some token, none, 0⟩,
            writes := List.replicate page.waiting (b.send i token) ++ b.writes }
      | _ => none
  | .fail =>
      match page.inflight with
      | none => none
      | some (.received _) => none
      | some _ => some { b with pages := b.pages.set i { page with inflight := none, waiting := 0 } }

def browserStep (b : Browser) : BrowserAct → Option Browser
  | .openPage => some { b with pages := b.pages ++ [.new] }
  | .tick d => some { b with clock := b.clock + d }
  | .page i act =>
      match b.pages[i]? with
      | none => none
      | some page => pageStep b i page act

end FundingTool.CsrfBrowser
