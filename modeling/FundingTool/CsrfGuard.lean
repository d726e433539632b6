import FundingTool.WebErrors

/-!
# The CSRF guard (`web/csrf.py`, `web/routes/csrf.py`, `require_csrf`)

`issue_csrf` sends one token twice, in the body and as a cookie that lives for an hour.
`verify` compares the header of a write with the cookie, and the page it comes from with
the public origin.  `urlparse` is a parameter: `none` is the `ValueError` it raises on a
malformed host.
-/

namespace FundingTool

/-! ## 1. Tokens -/

/-- `secrets.token_urlsafe(32)`: a non-empty text of ASCII characters. -/
structure CsrfToken where
  text : String
  nonempty : text ≠ ""
  ascii : text.toList.all (fun c => c.toNat < 128) = true
deriving DecidableEq

/-- The response of `GET /api/csrf`. -/
structure CsrfResponse where
  /-- `Set-Cookie: funding_csrf=<token>; Max-Age=3600; Path=/funding/; SameSite=Strict; Secure` -/
  cookie : CsrfToken
  maxAge : Int
  /-- `token` of the body. -/
  token : CsrfToken
deriving DecidableEq

def issueCsrf (token : CsrfToken) : CsrfResponse := ⟨token, 3600, token⟩

/-! ## 2. The guard -/

/-- The parts of `urllib.parse.ParseResult` that are read. -/
structure ParseResult where
  scheme : String
  netloc : String
  path : String
deriving DecidableEq, Repr

/-- `s.rstrip("/")` -/
def rstripSlash (s : String) : String :=
  String.ofList (s.toList.reverse.dropWhile (· = '/')).reverse

inductive CsrfError
  | missingToken
  | tokenMismatch
  | badOrigin (origin : Option String)
  | badReferer (referer : Option String)
deriving DecidableEq, Repr

/-- What `verify` raises: a `CsrfError`, `compare_digest` on a text that is not ASCII, or
    `urlparse` on a malformed host. -/
inductive VerifyError
  | csrf (e : CsrfError)
  | typeError
  | valueError
deriving DecidableEq, Repr

structure CsrfGuard where
  publicOrigin : String
  cookieName : String
  headerName : String
deriving DecidableEq, Repr

namespace CsrfGuard

variable (urlparse : String → Option ParseResult)

/-- `CsrfGuard(public_origin=…)`; `none` is a `ValueError`. -/
def new (publicOrigin : String) : Option CsrfGuard :=
  match urlparse (rstripSlash publicOrigin) with
  | none => none
  | some parsed =>
      if parsed.scheme ≠ "https" then none
      else if parsed.netloc = "" then none
      else if parsed.path ≠ "" then none
      else some ⟨rstripSlash publicOrigin, "funding_csrf", "X-Funding-Token"⟩

/-- `secrets.compare_digest` on two strings. -/
def compareDigest (a b : String) : Except VerifyError Bool :=
  if a.toList.all (fun c => c.toNat < 128) && b.toList.all (fun c => c.toNat < 128) then
    .ok (decide (a = b))
  else .error .typeError

/-- The checks on `Referer`. -/
def checkReferer (guard : CsrfGuard) (referer : Option String) : Except VerifyError Unit :=
  match referer.filter (· ≠ "") with
  | none => .error (.csrf (.badReferer referer))
  | some text =>
      match urlparse text, urlparse guard.publicOrigin with
      | some parsed, some expected =>
          if parsed.scheme ≠ expected.scheme ∨ parsed.netloc ≠ expected.netloc ∨
              ¬ "/funding/".toList.isPrefixOf parsed.path.toList ∨
              ['.', '.'] ∈ parsed.path.toList.splitOn '/' then
            .error (.csrf (.badReferer referer))
          else .ok ()
      | _, _ => .error .valueError

def verify (guard : CsrfGuard) (cookieToken headerToken origin referer : Option String) :
    Except VerifyError Unit :=
  match cookieToken.filter (· ≠ ""), headerToken.filter (· ≠ "") with
  | some cookie, some header =>
      match compareDigest cookie header with
      | .error e => .error e
      | .ok false => .error (.csrf .tokenMismatch)
      | .ok true =>
          if origin ≠ some guard.publicOrigin then .error (.csrf (.badOrigin origin))
          else guard.checkReferer urlparse referer
  | _, _ => .error (.csrf .missingToken)

end CsrfGuard

/-! ## 3. The dependency of the write routes -/

inductive CsrfRejection
  | http (statusCode : Nat) (code : WebCode) (message : String)
  /-- An exception that `require_csrf` does not catch. -/
  | unhandled (e : VerifyError)
deriving DecidableEq, Repr

def csrfMismatch : CsrfRejection := .http 403 .csrfMismatch "安全令牌失效，请刷新页面"

/-- `require_csrf` -/
def requireCsrf (urlparse : String → Option ParseResult) (guard : CsrfGuard)
    (cookieToken headerToken origin referer : Option String) : Except CsrfRejection Unit :=
  match guard.verify urlparse cookieToken headerToken origin referer with
  | .ok () => .ok ()
  | .error (.csrf _) => .error csrfMismatch
  | .error e => .error (.unhandled e)

/-! ## 4. Requests from the tool's own pages -/

variable {urlparse : String → Option ParseResult} {guard : CsrfGuard}

theorem CsrfToken.ext_text {a b : CsrfToken} (h : a.text = b.text) : a = b := by
  cases a
  cases b
  simpa using h

theorem CsrfGuard.compareDigest_tokens (a b : CsrfToken) :
    CsrfGuard.compareDigest a.text b.text = .ok (decide (a = b)) := by
  unfold CsrfGuard.compareDigest
  rw [a.ascii, b.ascii, Bool.and_self, if_pos rfl]
  by_cases hsame : a = b
  · rw [hsame, decide_eq_true rfl, decide_eq_true rfl]
  · have htext : a.text ≠ b.text := fun h => hsame (CsrfToken.ext_text h)
    rw [decide_eq_false hsame, decide_eq_false htext]

/-- **What the server decides on.**  For a write from a page under the public origin, only
    whether the cookie is sent and equals the header. -/
theorem requireCsrf_of_page {referer : String}
    (hreferer : guard.checkReferer urlparse (some referer) = .ok ()) (cookie : Option CsrfToken)
    (header : CsrfToken) :
    requireCsrf urlparse guard (cookie.map CsrfToken.text) (some header.text)
        (some guard.publicOrigin) (some referer) =
      if cookie = some header then .ok () else .error csrfMismatch := by
  unfold requireCsrf CsrfGuard.verify
  cases cookie with
  | none => rfl
  | some cookie =>
      rw [Option.map_some, filter_ne_empty cookie.nonempty, filter_ne_empty header.nonempty]
      simp only [CsrfGuard.compareDigest_tokens, Option.some.injEq]
      by_cases hsame : cookie = header
      · rw [decide_eq_true hsame, if_pos hsame]
        simp only [ne_eq, not_true_eq_false, if_false, hreferer]
      · rw [decide_eq_false hsame, if_neg hsame]

end FundingTool
