import FundingTool.CsrfGuard

/-!
# What the CSRF guard lets through

`verify` should refuse with a `CsrfError` or let through a request of the tool's own pages,
and nothing else.  `compare_digest` raises on tokens that are not ASCII, and `urlparse` on
malformed hosts; both come from the request.  `verify_answers_iff` says for which requests
the guard answers as it should.
-/

namespace FundingTool.CsrfGuard

/-! ## 1. Answers -/

variable (urlparse : String → Option ParseResult)

/-- The referer is a page under `/funding/` of the public origin. -/
def OwnPage (guard : CsrfGuard) (referer : String) : Prop :=
  ∃ parsed expected, urlparse referer = some parsed ∧
    urlparse guard.publicOrigin = some expected ∧ parsed.scheme = expected.scheme ∧
    parsed.netloc = expected.netloc ∧ "/funding/".toList <+: parsed.path.toList ∧
    ['.', '.'] ∉ parsed.path.toList.splitOn '/'

/-- The request carries one token twice, and comes from a page of the tool. -/
structure Genuine (guard : CsrfGuard) (cookieToken headerToken origin referer : Option String) :
    Prop where
  token : ∃ token, token ≠ "" ∧ cookieToken = some token ∧ headerToken = some token
  origin : origin = some guard.publicOrigin
  referer : ∃ page, referer = some page ∧ OwnPage urlparse guard page

/-- A `CsrfError`, or nothing for a genuine request. -/
def Answers (guard : CsrfGuard) (cookieToken headerToken origin referer : Option String) :
    Except VerifyError Unit → Prop
  | .ok () => Genuine urlparse guard cookieToken headerToken origin referer
  | .error (.csrf _) => True
  | .error _ => False

def IsAscii (text : String) : Prop := text.toList.all (fun c => c.toNat < 128) = true

instance (text : String) : Decidable (IsAscii text) := inferInstanceAs (Decidable (_ = _))

/-- Tokens that are compared are ASCII. -/
def Comparable (cookieToken headerToken : Option String) : Prop :=
  ∀ cookie header, cookieToken = some cookie → headerToken = some header →
    cookie ≠ "" → header ≠ "" → IsAscii cookie ∧ IsAscii header

/-- A referer that is parsed is no malformed URL. -/
def Parsable (guard : CsrfGuard) (cookieToken headerToken origin referer : Option String) : Prop :=
  ∀ token page, token ≠ "" → cookieToken = some token → headerToken = some token →
    origin = some guard.publicOrigin → referer = some page → page ≠ "" → urlparse page ≠ none

/-! ## 2. The checks one by one -/

variable {urlparse} {guard : CsrfGuard}

theorem new_some {publicOrigin : String} (h : new urlparse publicOrigin = some guard) :
    ∃ expected, urlparse guard.publicOrigin = some expected ∧ expected.scheme = "https" ∧
      expected.netloc ≠ "" ∧ expected.path = "" := by
  unfold new at h
  rcases hparse : urlparse (rstripSlash publicOrigin) with _ | parsed
  · rw [hparse] at h
    cases h
  · rw [hparse] at h
    simp only at h
    by_cases hscheme : parsed.scheme ≠ "https"
    · rw [if_pos hscheme] at h
      cases h
    · by_cases hnetloc : parsed.netloc = ""
      · rw [if_neg hscheme, if_pos hnetloc] at h
        cases h
      · by_cases hpath : parsed.path ≠ ""
        · rw [if_neg hscheme, if_neg hnetloc, if_pos hpath] at h
          cases h
        · rw [if_neg hscheme, if_neg hnetloc, if_neg hpath] at h
          obtain rfl := Option.some.inj h
          exact ⟨parsed, hparse, Decidable.not_not.mp hscheme, hnetloc, Decidable.not_not.mp hpath⟩

theorem compareDigest_cases (a b : String) :
    IsAscii a ∧ IsAscii b ∧ compareDigest a b = .ok (decide (a = b)) ∨
      ¬ (IsAscii a ∧ IsAscii b) ∧ compareDigest a b = .error .typeError := by
  unfold compareDigest
  by_cases hascii : IsAscii a ∧ IsAscii b
  · refine Or.inl ⟨hascii.1, hascii.2, if_pos ?_⟩
    rw [hascii.1, hascii.2, Bool.and_self]
  · refine Or.inr ⟨hascii, if_neg ?_⟩
    rw [Bool.and_eq_true]
    exact hascii

/-- The referer is refused, or of a page of the tool, or it cannot be parsed. -/
theorem checkReferer_cases {expected : ParseResult}
    (hexpected : urlparse guard.publicOrigin = some expected) (referer : Option String) :
    (guard.checkReferer urlparse referer = .error (.csrf (.badReferer referer)) ∧
        ∀ page, referer = some page → page ≠ "" → urlparse page ≠ none) ∨
      (∃ page, referer = some page ∧ OwnPage urlparse guard page ∧
        guard.checkReferer urlparse referer = .ok ()) ∨
      ∃ page, referer = some page ∧ page ≠ "" ∧ urlparse page = none ∧
        guard.checkReferer urlparse referer = .error .valueError := by
  rcases referer with _ | page
  · exact Or.inl ⟨rfl, fun _ h => by cases h⟩
  · by_cases hempty : page = ""
    · subst hempty
      refine Or.inl ⟨rfl, ?_⟩
      rintro _ ⟨⟩ hne
      exact absurd rfl hne
    · unfold checkReferer
      rw [filter_ne_empty hempty]
      rcases hparse : urlparse page with _ | parsed
      · simp only [hparse]
        exact Or.inr (Or.inr ⟨page, rfl, hempty, hparse, trivial⟩)
      · simp only [hparse, hexpected]
        by_cases hbad : parsed.scheme ≠ expected.scheme ∨ parsed.netloc ≠ expected.netloc ∨
          ¬ "/funding/".toList.isPrefixOf parsed.path.toList ∨
          ['.', '.'] ∈ parsed.path.toList.splitOn '/'
        · rw [if_pos hbad]
          refine Or.inl ⟨rfl, ?_⟩
          rintro _ ⟨⟩ -
          rw [hparse]
          exact Option.some_ne_none parsed
        · rw [if_neg hbad]
          obtain ⟨hscheme, hnetloc, hunder, hdots⟩ : parsed.scheme = expected.scheme ∧
              parsed.netloc = expected.netloc ∧
              "/funding/".toList.isPrefixOf parsed.path.toList = true ∧
              ['.', '.'] ∉ parsed.path.toList.splitOn '/' := by
            simpa only [not_or, Decidable.not_not, ne_eq] using hbad
          exact Or.inr (Or.inl ⟨page, rfl, ⟨parsed, expected, hparse, hexpected, hscheme, hnetloc,
            List.isPrefixOf_iff_prefix.mp hunder, hdots⟩, rfl⟩)

theorem verify_missing {cookieToken headerToken : Option String}
    (h : ¬ ∃ cookie header, cookieToken = some cookie ∧ headerToken = some header ∧
      cookie ≠ "" ∧ header ≠ "") (origin referer : Option String) :
    guard.verify urlparse cookieToken headerToken origin referer =
      .error (.csrf .missingToken) := by
  unfold verify
  rcases hcookie : cookieToken.filter (· ≠ "") with _ | cookie
  · rfl
  · rcases hheader : headerToken.filter (· ≠ "") with _ | header
    · rfl
    · rw [Option.filter_eq_some_iff] at hcookie hheader
      exact absurd ⟨cookie, header, hcookie.1, hheader.1, of_decide_eq_true hcookie.2,
        of_decide_eq_true hheader.2⟩ h

/-- With two tokens the comparison decides, then the origin, then the referer. -/
theorem verify_present {cookie header : String} (hcookie : cookie ≠ "") (hheader : header ≠ "")
    (origin referer : Option String) :
    guard.verify urlparse (some cookie) (some header) origin referer =
      match compareDigest cookie header with
      | .error e => .error e
      | .ok false => .error (.csrf .tokenMismatch)
      | .ok true =>
          if origin ≠ some guard.publicOrigin then .error (.csrf (.badOrigin origin))
          else guard.checkReferer urlparse referer := by
  unfold verify
  rcases hsame : compareDigest cookie header with e | (_ | _)
  · simp only [filter_ne_empty hcookie, filter_ne_empty hheader, hsame]
  · simp only [filter_ne_empty hcookie, filter_ne_empty hheader, hsame]
  · simp only [filter_ne_empty hcookie, filter_ne_empty hheader, hsame]

/-- **What `verify` does**, one case for each of its ends. -/
theorem verify_cases {expected : ParseResult}
    (hexpected : urlparse guard.publicOrigin = some expected)
    (cookieToken headerToken origin referer : Option String) :
    (∃ e, guard.verify urlparse cookieToken headerToken origin referer = .error (.csrf e) ∧
        Comparable cookieToken headerToken ∧
        Parsable urlparse guard cookieToken headerToken origin referer) ∨
      (guard.verify urlparse cookieToken headerToken origin referer = .ok () ∧
        Genuine urlparse guard cookieToken headerToken origin referer ∧
        Comparable cookieToken headerToken ∧
        Parsable urlparse guard cookieToken headerToken origin referer) ∨
      (guard.verify urlparse cookieToken headerToken origin referer = .error .typeError ∧
        ¬ Comparable cookieToken headerToken) ∨
      guard.verify urlparse cookieToken headerToken origin referer = .error .valueError ∧
        ¬ Parsable urlparse guard cookieToken headerToken origin referer := by
  by_cases htokens : ∃ cookie header, cookieToken = some cookie ∧ headerToken = some header ∧
      cookie ≠ "" ∧ header ≠ ""
  · obtain ⟨cookie, header, rfl, rfl, hcookie, hheader⟩ := htokens
    rw [verify_present hcookie hheader]
    rcases compareDigest_cases cookie header with ⟨hascii, hascii', hsame⟩ | ⟨hascii, hraise⟩
    · have hcomparable : Comparable (some cookie) (some header) := by
        rintro _ _ ⟨⟩ ⟨⟩ - -
        exact ⟨hascii, hascii'⟩
      rw [hsame]
      by_cases hne : cookie = header
      · subst hne
        rw [decide_eq_true rfl]
        by_cases horigin : origin = some guard.publicOrigin
        · subst horigin
          simp only [ne_eq, not_true_eq_false, if_false]
          rcases checkReferer_cases hexpected referer with
            ⟨hrefuse, hpage⟩ | ⟨page, rfl, hown, hlet⟩ | ⟨page, rfl, hpage, hnone, hraise⟩
          · refine Or.inl ⟨_, hrefuse, hcomparable, ?_⟩
            rintro _ page - - - - rfl hpage'
            exact hpage page rfl hpage'
          · refine Or.inr (Or.inl ⟨hlet, ⟨⟨cookie, hcookie, rfl, rfl⟩, rfl, page, rfl, hown⟩,
              hcomparable, ?_⟩)
            obtain ⟨parsed, _, hparse, -⟩ := hown
            rintro _ _ - - - - ⟨⟩ -
            rw [hparse]
            exact Option.some_ne_none parsed
          · exact Or.inr (Or.inr (Or.inr ⟨hraise, fun h =>
              h cookie page hcookie rfl rfl rfl rfl hpage hnone⟩))
        · refine Or.inl ⟨.badOrigin origin, if_pos horigin, hcomparable, ?_⟩
          rintro _ _ - - - horigin' - -
          exact absurd horigin' horigin
      · rw [decide_eq_false hne]
        refine Or.inl ⟨.tokenMismatch, rfl, hcomparable, ?_⟩
        rintro token _ - ⟨⟩ ⟨⟩ - - -
        exact absurd rfl hne
    · rw [hraise]
      exact Or.inr (Or.inr (Or.inl ⟨rfl, fun h =>
        hascii (h cookie header rfl rfl hcookie hheader)⟩))
  · refine Or.inl ⟨.missingToken, verify_missing htokens origin referer, ?_, ?_⟩
    · intro cookie header hcookie hheader hcookie' hheader'
      exact absurd ⟨cookie, header, hcookie, hheader, hcookie', hheader'⟩ htokens
    · intro token _ htoken hcookie hheader _ _ _
      exact absurd ⟨token, token, hcookie, hheader, htoken, htoken⟩ htokens

/-! ## 3. Which requests are answered -/

/-- **The guard answers** every request but those whose tokens it cannot compare and those
    whose referer it cannot parse. -/
theorem verify_answers_iff {publicOrigin : String} (hnew : new urlparse publicOrigin = some guard)
    (cookieToken headerToken origin referer : Option String) :
    (Answers urlparse guard cookieToken headerToken origin referer
          (guard.verify urlparse cookieToken headerToken origin referer) ∧
        (requireCsrf urlparse guard cookieToken headerToken origin referer = .ok () ∨
          requireCsrf urlparse guard cookieToken headerToken origin referer =
            .error csrfMismatch)) ↔
      Comparable cookieToken headerToken ∧
        Parsable urlparse guard cookieToken headerToken origin referer := by
  obtain ⟨expected, hexpected, -⟩ := new_some hnew
  unfold requireCsrf
  rcases verify_cases hexpected cookieToken headerToken origin referer with
    ⟨e, hverify, hcomparable, hparsable⟩ | ⟨hverify, hgenuine, hcomparable, hparsable⟩ |
      ⟨hverify, hcomparable⟩ | ⟨hverify, hparsable⟩
  · rw [hverify]
    exact ⟨fun _ => ⟨hcomparable, hparsable⟩, fun _ => ⟨trivial, Or.inr rfl⟩⟩
  · rw [hverify]
    exact ⟨fun _ => ⟨hcomparable, hparsable⟩, fun _ => ⟨hgenuine, Or.inl rfl⟩⟩
  · rw [hverify]
    exact ⟨fun h => h.1.elim, fun h => absurd h.1 hcomparable⟩
  · rw [hverify]
    exact ⟨fun h => h.1.elim, fun h => absurd h.2 hparsable⟩

/-- A parser that knows one origin and one page, and refuses an open bracket. -/
def urlparseSample (url : String) : Option ParseResult :=
  if url = "https://[" then none
  else if url = "https://example.com" then some ⟨"https", "example.com", ""⟩
  else some ⟨"https", "example.com", "/funding/"⟩

theorem verify_answers_iff_page :
    (Answers urlparseSample ⟨"https://example.com", "funding_csrf", "X-Funding-Token"⟩
          (some "t") (some "t") (some "https://example.com")
          (some "https://example.com/funding/")
          (verify urlparseSample ⟨"https://example.com", "funding_csrf", "X-Funding-Token"⟩
            (some "t") (some "t") (some "https://example.com")
            (some "https://example.com/funding/")) ∧
        (requireCsrf urlparseSample
            ⟨"https://example.com", "funding_csrf", "X-Funding-Token"⟩ (some "t") (some "t")
            (some "https://example.com") (some "https://example.com/funding/") = .ok () ∨
          requireCsrf urlparseSample
            ⟨"https://example.com", "funding_csrf", "X-Funding-Token"⟩ (some "t") (some "t")
            (some "https://example.com") (some "https://example.com/funding/") =
            .error csrfMismatch)) ↔
      Comparable (some "t") (some "t") ∧
        Parsable urlparseSample ⟨"https://example.com", "funding_csrf", "X-Funding-Token"⟩
          (some "t") (some "t") (some "https://example.com")
          (some "https://example.com/funding/") :=
  @verify_answers_iff urlparseSample
    ⟨"https://example.com", "funding_csrf", "X-Funding-Token"⟩ "https://example.com/"
    (by decide) (some "t") (some "t") (some "https://example.com")
    (some "https://example.com/funding/")

/-- One letter beyond ASCII in both tokens is a `TypeError`, and an open bracket in the referer
    a `ValueError`: the client sees a server error in place of `csrf_mismatch`. -/
theorem verify_raises :
    new urlparseSample "https://example.com" =
        some ⟨"https://example.com", "funding_csrf", "X-Funding-Token"⟩ ∧
      requireCsrf urlparseSample
          ⟨"https://example.com", "funding_csrf", "X-Funding-Token"⟩ (some "é") (some "é")
          (some "https://example.com") (some "https://example.com/funding/") =
        .error (.unhandled .typeError) ∧
      requireCsrf urlparseSample
          ⟨"https://example.com", "funding_csrf", "X-Funding-Token"⟩ (some "t") (some "t")
          (some "https://example.com") (some "https://[") =
        .error (.unhandled .valueError) :=
  ⟨by decide, rfl, rfl⟩

end FundingTool.CsrfGuard
