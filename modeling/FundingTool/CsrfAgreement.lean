import FundingTool.CsrfBrowser
import Mathlib.Data.Fintype.EquivFin

/-!
# Agreement of header and cookie

A page caches its token for good, while the jar holds the token that arrived last, for an
hour.  So a write agrees with its cookie exactly when the last token response to arrive
was the page's own and is not an hour old; a page that holds a token and is out of step
in this sense never gets a write through again.
-/

namespace FundingTool.CsrfBrowser

open FundingTool.TransitionSystem

/-! ## 1. In step, out of step -/

/-- The token a page has, or is about to be sent. -/
def Page.known (page : Page) : Option CsrfToken :=
  match page.token, page.inflight with
  | some token, _ => some token
  | none, some (.answered token) => some token
  | none, some (.received token) => some token
  | none, _ => none

/-- The token of a page whose response has arrived. -/
def Page.held (page : Page) : Option CsrfToken :=
  match page.token, page.inflight with
  | some token, _ => some token
  | none, some (.received token) => some token
  | none, _ => none

/-- The last token response to arrive was this page's, within the hour. -/
def Browser.InStep (b : Browser) (i : Nat) : Prop :=
  ∃ received, b.lastReceived = some (i, received) ∧ b.clock < received + 3600

def Write.InStep (w : Write) : Prop :=
  ∃ received, w.lastReceived = some (w.page, received) ∧ w.sentAt < received + 3600

def Write.Agrees (w : Write) : Prop := w.cookie = some w.header

instance (w : Write) : Decidable w.Agrees := inferInstanceAs (Decidable (_ = _))

/-- The page has its token, and another page's arrived later or the hour is over. -/
def Browser.OutOfStep (b : Browser) (i : Nat) : Prop :=
  (∃ page : Page, ∃ token, b.pages[i]? = some page ∧ page.held = some token) ∧ ¬ b.InStep i

theorem Page.held_cases {page : Page} {token : CsrfToken} (h : page.held = some token) :
    page.token = some token ∨
      page.token = none ∧ page.inflight = some (.received token) := by
  rcases htoken : page.token with _ | cached
  · rcases hfetch : page.inflight with _ | _ | sent | received
    all_goals
      simp only [Page.held, htoken, hfetch, reduceCtorEq, Option.some.injEq] at h
    rw [h]
    exact Or.inr ⟨rfl, rfl⟩
  · simp only [Page.held, htoken] at h
    exact Or.inl h

theorem Page.known_of_held {page : Page} {token : CsrfToken} (h : page.held = some token) :
    page.known = some token := by
  unfold Page.known
  rcases Page.held_cases h with htoken | ⟨htoken, hfetch⟩
  · rw [htoken]
  · rw [htoken, hfetch]

theorem Page.held_of_token {page : Page} {token : CsrfToken} (h : page.token = some token) :
    page.held = some token := by
  unfold Page.held
  rw [h]

theorem Page.held_of_received {page : Page} {token : CsrfToken} (htoken : page.token = none)
    (h : page.inflight = some (.received token)) : page.held = some token := by
  unfold Page.held
  rw [htoken, h]

theorem Page.held_eq_none {page : Page} {fetch : Fetch} (htoken : page.token = none)
    (hfetch : page.inflight = some fetch) (hreceived : ∀ token, fetch ≠ .received token) :
    page.held = none := by
  unfold Page.held
  rw [htoken, hfetch]
  cases fetch with
  | received token => exact absurd rfl (hreceived token)
  | _ => rfl

@[simp] theorem Page.fetch_token (page : Page) (n : Nat) : (page.fetch n).token = page.token := by
  unfold Page.fetch
  split <;> rfl

theorem Page.fetch_known {page : Page} (h : page.token = none) (n : Nat) :
    (page.fetch n).known = page.known ∧ (page.fetch n).held = page.held := by
  unfold Page.fetch
  split
  · next hfetch =>
      simp only [Page.known, Page.held, h, hfetch, and_self]
  · exact ⟨rfl, rfl⟩

/-! ## 2. What one step does -/

/-- The effects a step on page `i` can have. -/
inductive Move (b : Browser) (i : Nat) (page : Page) : Browser → Prop
  | cached : Move b i page b
  | send (token : CsrfToken) (htoken : page.token = some token) :
      Move b i page { b with writes := b.send i token :: b.writes }
  | fetch (n : Nat) (htoken : page.token = none) :
      Move b i page { b with pages := b.pages.set i (page.fetch n) }
  | serve (token : CsrfToken) (hfetch : page.inflight = some .requested)
      (hnew : token ∉ b.issued) :
      Move b i page { b with
        pages := b.pages.set i { page with inflight := some (.answered token) },
        issued := token :: b.issued }
  | deliver (token : CsrfToken) (hfetch : page.inflight = some (.answered token)) :
      Move b i page { b with
        pages := b.pages.set i { page with inflight := some (.received token) },
        cookie := some ⟨token, b.clock + 3600⟩,
        lastReceived := some (i, b.clock) }
  | settle (token : CsrfToken) (hfetch : page.inflight = some (.received token)) :
      Move b i page { b with
        pages := b.pages.set i ⟨some token, none, 0⟩,
        writes := List.replicate page.waiting (b.send i token) ++ b.writes }
  | fail (fetch : Fetch) (hfetch : page.inflight = some fetch)
      (hreceived : ∀ token, fetch ≠ .received token) :
      Move b i page { b with
        pages := b.pages.set i { page with inflight := none, waiting := 0 } }

theorem move_of_pageStep {b b' : Browser} {i : Nat} {page : Page} {act : PageAct}
    (h : pageStep b i page act = some b') : Move b i page b' := by
  cases act with
  | getToken =>
      simp only [pageStep] at h
      split at h
      · cases h
        exact .cached
      · next htoken =>
          cases h
          exact .fetch 0 htoken
  | write =>
      simp only [pageStep] at h
      split at h
      · next token htoken =>
          cases h
          exact .send token htoken
      · next htoken =>
          cases h
          exact .fetch 1 htoken
  | serve token =>
      simp only [pageStep] at h
      split at h
      · next hfetch =>
          by_cases hnew : token ∈ b.issued
          · rw [if_pos hnew] at h
            cases h
          · rw [if_neg hnew] at h
            cases h
            exact .serve token hfetch hnew
      · cases h
  | deliver =>
      simp only [pageStep] at h
      split at h
      · next token hfetch =>
          cases h
          exact .deliver token hfetch
      · cases h
  | settle =>
      simp only [pageStep] at h
      split at h
      · next token hfetch =>
          cases h
          exact .settle token hfetch
      · cases h
  | fail =>
      simp only [pageStep] at h
      split at h
      · cases h
      · cases h
      · next fetch hreceived hfetch =>
          cases h
          exact .fail fetch hfetch hreceived

theorem getElem?_set_cases {pages : List Page} {i j : Nat} {page found : Page}
    (h : (pages.set i page)[j]? = some found) :
    j = i ∧ found = page ∨ j ≠ i ∧ pages[j]? = some found := by
  by_cases hsame : j = i
  · subst hsame
    rw [List.getElem?_set_self'] at h
    rcases hold : pages[j]? with _ | old
    · rw [hold] at h
      cases h
    · rw [hold] at h
      exact Or.inl ⟨rfl, (Option.some.inj h).symm⟩
  · rw [List.getElem?_set_ne (Ne.symm hsame)] at h
    exact Or.inr ⟨hsame, h⟩

theorem getElem?_set_of_some {pages : List Page} {i : Nat} {page : Page}
    (h : pages[i]? = some page) (page' : Page) : (pages.set i page')[i]? = some page' := by
  rw [List.getElem?_set_self', h]
  rfl

/-! ## 3. The invariant -/

/-- A token belongs to one page; the jar holds the one that arrived last. -/
structure Agreed (b : Browser) : Prop where
  exclusive : ∀ (i : Nat) (page : Page), b.pages[i]? = some page → page.token ≠ none → page.inflight = none
  issued : ∀ (i : Nat) (page : Page) token, b.pages[i]? = some page → page.known = some token → token ∈ b.issued
  distinct : ∀ (i j : Nat) (p q : Page) token, b.pages[i]? = some p → b.pages[j]? = some q →
    p.known = some token → q.known = some token → i = j
  jar : b.cookie = none ∧ b.lastReceived = none ∨
    ∃ (i : Nat) (page : Page) (token : CsrfToken) (received : Int), b.pages[i]? = some page ∧ page.held = some token ∧
      b.cookie = some ⟨token, received + 3600⟩ ∧ b.lastReceived = some (i, received)

theorem agreed_start (clock : Int) : Agreed (.start clock) where
  exclusive _ _ h := nomatch h
  issued _ _ _ h := nomatch h
  distinct _ _ _ _ _ h := nomatch h
  jar := Or.inl ⟨rfl, rfl⟩

/-- A page changes without learning a token and without losing one that has arrived. -/
theorem Agreed.replace {b b' : Browser} (h : Agreed b) {i : Nat} {page page' : Page}
    (hpage : b.pages[i]? = some page) (hpages : b'.pages = b.pages.set i page')
    (hissued : b'.issued = b.issued) (hcookie : b'.cookie = b.cookie)
    (hlast : b'.lastReceived = b.lastReceived)
    (hexclusive : page'.token ≠ none → page'.inflight = none)
    (hknown : page'.known = none ∨ page'.known = page.known)
    (hheld : page.held = none ∨ page'.held = page.held) : Agreed b' := by
  have hbefore : ∀ (j : Nat) (q : Page) token, b'.pages[j]? = some q → q.known = some token →
      ∃ p : Page, b.pages[j]? = some p ∧ p.known = some token := by
    intro j q token hq htoken
    rw [hpages] at hq
    rcases getElem?_set_cases hq with ⟨rfl, rfl⟩ | ⟨-, hq⟩
    · rcases hknown with hnone | hsame
      · rw [hnone] at htoken
        cases htoken
      · exact ⟨page, hpage, hsame ▸ htoken⟩
    · exact ⟨q, hq, htoken⟩
  refine ⟨?_, ?_, ?_, ?_⟩
  · intro j q hq
    rw [hpages] at hq
    rcases getElem?_set_cases hq with ⟨rfl, rfl⟩ | ⟨-, hq⟩
    · exact hexclusive
    · exact h.exclusive j q hq
  · intro j q token hq htoken
    obtain ⟨p, hp, hptoken⟩ := hbefore j q token hq htoken
    rw [hissued]
    exact h.issued j p token hp hptoken
  · intro j k p q token hp hq hptoken hqtoken
    obtain ⟨p', hp', hptoken'⟩ := hbefore j p token hp hptoken
    obtain ⟨q', hq', hqtoken'⟩ := hbefore k q token hq hqtoken
    exact h.distinct j k p' q' token hp' hq' hptoken' hqtoken'
  · rw [hcookie, hlast, hpages]
    rcases h.jar with hnone | ⟨j, q, token, received, hq, hqheld, hvalue, hreceived⟩
    · exact Or.inl hnone
    · refine Or.inr ?_
      by_cases hsame : j = i
      · subst hsame
        have heq : q = page := Option.some.inj (hq.symm.trans hpage)
        subst heq
        rcases hheld with hnone | hheld
        · rw [hnone] at hqheld
          cases hqheld
        · exact ⟨j, page', token, received, getElem?_set_of_some hpage page',
            hheld.trans hqheld, hvalue, hreceived⟩
      · exact ⟨j, q, token, received,
          (List.getElem?_set_ne (Ne.symm hsame)).trans hq, hqheld, hvalue, hreceived⟩

theorem agreed_openPage {b : Browser} (h : Agreed b) :
    Agreed { b with pages := b.pages ++ [.new] } := by
  have hcases : ∀ (j : Nat) (q : Page), (b.pages ++ [Page.new])[j]? = some q →
      b.pages[j]? = some q ∨ q = .new := by
    intro j q hq
    rcases Nat.lt_or_ge j b.pages.length with hlt | hge
    · rw [List.getElem?_append_left hlt] at hq
      exact Or.inl hq
    · rw [List.getElem?_append_right hge] at hq
      exact Or.inr (List.mem_singleton.mp (List.mem_of_getElem? hq))
  refine ⟨?_, ?_, ?_, ?_⟩
  · intro j q hq htoken
    rcases hcases j q hq with hq | rfl
    · exact h.exclusive j q hq htoken
    · rfl
  · intro j q token hq htoken
    rcases hcases j q hq with hq | rfl
    · exact h.issued j q token hq htoken
    · cases htoken
  · intro j k p q token hp hq hptoken hqtoken
    rcases hcases j p hp with hp | rfl
    · rcases hcases k q hq with hq | rfl
      · exact h.distinct j k p q token hp hq hptoken hqtoken
      · cases hqtoken
    · cases hptoken
  · rcases h.jar with hnone | ⟨j, q, token, received, hq, hrest⟩
    · exact Or.inl hnone
    · refine Or.inr ⟨j, q, token, received, ?_, hrest⟩
      obtain ⟨hlt, -⟩ := List.getElem?_eq_some_iff.mp hq
      exact (List.getElem?_append_left hlt).trans hq

theorem Agreed.token_none {b : Browser} (h : Agreed b) {i : Nat} {page : Page} {fetch : Fetch}
    (hpage : b.pages[i]? = some page) (hfetch : page.inflight = some fetch) :
    page.token = none := by
  by_contra htoken
  have hnone := h.exclusive i page hpage htoken
  rw [hfetch] at hnone
  cases hnone

theorem agreed_serve {b : Browser} (h : Agreed b) {i : Nat} {page : Page} {token : CsrfToken}
    (hpage : b.pages[i]? = some page) (hfetch : page.inflight = some .requested)
    (hnew : token ∉ b.issued) :
    Agreed { b with
      pages := b.pages.set i { page with inflight := some (.answered token) },
      issued := token :: b.issued } := by
  have htoken : page.token = none := h.token_none hpage hfetch
  have hcases : ∀ (j : Nat) (q : Page) t, (b.pages.set i { page with inflight := some (.answered token) })[j]? =
      some q → q.known = some t →
        j = i ∧ t = token ∨ j ≠ i ∧ b.pages[j]? = some q ∧ t ∈ b.issued := by
    intro j q t hq ht
    rcases getElem?_set_cases hq with ⟨rfl, rfl⟩ | ⟨hne, hq⟩
    · simp only [Page.known, htoken, Option.some.injEq] at ht
      exact Or.inl ⟨rfl, ht.symm⟩
    · exact Or.inr ⟨hne, hq, h.issued j q t hq ht⟩
  refine ⟨?_, ?_, ?_, ?_⟩
  · intro j q hq
    rcases getElem?_set_cases hq with ⟨rfl, rfl⟩ | ⟨-, hq⟩
    · intro hsome
      exact absurd htoken hsome
    · exact h.exclusive j q hq
  · intro j q t hq ht
    rcases hcases j q t hq ht with ⟨-, rfl⟩ | ⟨-, -, hmem⟩
    · exact List.mem_cons_self
    · exact List.mem_cons_of_mem _ hmem
  · intro j k p q t hp hq hpt hqt
    rcases hcases j p t hp hpt with ⟨rfl, rfl⟩ | ⟨-, hp, hmem⟩
    · rcases hcases k q t hq hqt with ⟨rfl, -⟩ | ⟨-, -, hmem⟩
      · rfl
      · exact absurd hmem hnew
    · rcases hcases k q t hq hqt with ⟨-, rfl⟩ | ⟨-, hq, -⟩
      · exact absurd hmem hnew
      · exact h.distinct j k p q t hp hq hpt hqt
  · rcases h.jar with hnone | ⟨j, q, t, received, hq, hheld, hrest⟩
    · exact Or.inl hnone
    · refine Or.inr ⟨j, q, t, received, ?_, hheld, hrest⟩
      have hne : i ≠ j := by
        rintro rfl
        have heq : q = page := Option.some.inj (hq.symm.trans hpage)
        rw [heq, Page.held_eq_none htoken hfetch nofun] at hheld
        cases hheld
      exact (List.getElem?_set_ne hne).trans hq

theorem agreed_deliver {b : Browser} (h : Agreed b) {i : Nat} {page : Page} {token : CsrfToken}
    (hpage : b.pages[i]? = some page) (hfetch : page.inflight = some (.answered token)) :
    Agreed { b with
      pages := b.pages.set i { page with inflight := some (.received token) },
      cookie := some ⟨token, b.clock + 3600⟩,
      lastReceived := some (i, b.clock) } := by
  have htoken : page.token = none := h.token_none hpage hfetch
  -- The page first learns that its response has arrived; the jar changes after that.
  have hpages : Agreed { b with
      pages := b.pages.set i { page with inflight := some (.received token) } } := by
    refine h.replace hpage rfl rfl rfl rfl ?_ ?_ ?_
    · intro hsome
      exact absurd htoken hsome
    · exact Or.inr (by simp only [Page.known, htoken, hfetch])
    · exact Or.inl (Page.held_eq_none htoken hfetch nofun)
  refine ⟨hpages.exclusive, hpages.issued, hpages.distinct, Or.inr ?_⟩
  refine ⟨i, { page with inflight := some (.received token) }, token, b.clock, ?_, ?_, rfl, rfl⟩
  · exact getElem?_set_of_some hpage _
  · exact Page.held_of_received htoken rfl

theorem agreed_move {b b' : Browser} (h : Agreed b) {i : Nat} {page : Page}
    (hpage : b.pages[i]? = some page) (hmove : Move b i page b') : Agreed b' := by
  cases hmove with
  | cached => exact h
  | send => exact ⟨h.exclusive, h.issued, h.distinct, h.jar⟩
  | fetch n htoken =>
      obtain ⟨hknown, hheld⟩ := Page.fetch_known htoken n
      refine h.replace hpage rfl rfl rfl rfl ?_ (Or.inr hknown) (Or.inr hheld)
      intro hsome
      rw [Page.fetch_token] at hsome
      exact absurd htoken hsome
  | serve token hfetch hnew => exact agreed_serve h hpage hfetch hnew
  | deliver token hfetch => exact agreed_deliver h hpage hfetch
  | settle token hfetch =>
      have htoken := h.token_none hpage hfetch
      refine h.replace hpage rfl rfl rfl rfl (fun _ => rfl) ?_ ?_
      · exact Or.inr (by simp only [Page.known, htoken, hfetch])
      · exact Or.inr (by simp only [Page.held, htoken, hfetch])
  | fail fetch hfetch hreceived =>
      have htoken := h.token_none hpage hfetch
      refine h.replace hpage rfl rfl rfl rfl (fun _ => rfl) ?_ ?_
      · exact Or.inl (by simp only [Page.known, htoken])
      · exact Or.inl (Page.held_eq_none htoken hfetch hreceived)

/-- One step of the browser, as a move of one of its pages. -/
theorem browserStep_cases {b b' : Browser} {a : BrowserAct} (h : browserStep b a = some b') :
    b' = { b with pages := b.pages ++ [.new] } ∨
      (∃ d : Nat, b' = { b with clock := b.clock + d }) ∨
      ∃ (i : Nat) (page : Page), b.pages[i]? = some page ∧ Move b i page b' := by
  cases a with
  | openPage => exact Or.inl (Option.some.inj h).symm
  | tick d => exact Or.inr (Or.inl ⟨d, (Option.some.inj h).symm⟩)
  | page i act =>
      rcases hpage : b.pages[i]? with _ | page
      · simp only [browserStep, hpage, reduceCtorEq] at h
      · simp only [browserStep, hpage] at h
        exact Or.inr (Or.inr ⟨i, page, hpage, move_of_pageStep h⟩)

theorem agreed_step {b b' : Browser} {a : BrowserAct} (h : Agreed b)
    (hstep : browserStep b a = some b') : Agreed b' := by
  rcases browserStep_cases hstep with rfl | ⟨d, rfl⟩ | ⟨i, page, hpage, hmove⟩
  · exact agreed_openPage h
  · exact ⟨h.exclusive, h.issued, h.distinct, h.jar⟩
  · exact agreed_move h hpage hmove

theorem agreed_reaches {b b' : Browser} (h : Agreed b)
    (hreach : Reaches browserStep Unguarded b b') : Agreed b' :=
  hreach.invariant h fun _ _ _ hinv _ hstep => agreed_step hinv hstep

/-! ## 4. The writes -/

/-- A page's write takes along the token it holds, and agrees exactly when in step. -/
theorem send_agrees {b : Browser} (h : Agreed b) {i : Nat} {page : Page} {token : CsrfToken}
    (hpage : b.pages[i]? = some page) (hheld : page.held = some token) :
    (b.send i token).Agrees ↔ b.InStep i := by
  have hknown := Page.known_of_held hheld
  simp only [Write.Agrees, Browser.send, Browser.InStep, Browser.currentCookie]
  rcases h.jar with ⟨hcookie, hlast⟩ | ⟨j, q, value, received, hq, hqheld, hcookie, hlast⟩
  · rw [hcookie, hlast]
    simp only [reduceCtorEq, false_and, exists_false]
  · rw [hcookie, hlast]
    constructor
    · intro hagrees
      by_cases hfresh : b.clock < received + 3600
      · simp only [if_pos hfresh, Option.some.injEq] at hagrees
        subst hagrees
        have hsame : j = i := h.distinct j i q page value hq hpage (Page.known_of_held hqheld) hknown
        exact ⟨received, by rw [hsame], hfresh⟩
      · simp only [if_neg hfresh, reduceCtorEq] at hagrees
    · rintro ⟨received', heq, hfresh⟩
      rw [Option.some.injEq, Prod.mk.injEq] at heq
      obtain ⟨rfl, rfl⟩ := heq
      have hsame : q = page := Option.some.inj (hq.symm.trans hpage)
      rw [hsame, hheld, Option.some.injEq] at hqheld
      simp only [if_pos hfresh, hqheld]

/-- Every write of a step is a page's, with the token it holds. -/
theorem step_sends {b b' : Browser} {a : BrowserAct} (h : Agreed b)
    (hstep : browserStep b a = some b') :
    ∃ new, b'.writes = new ++ b.writes ∧ ∀ w ∈ new, ∃ (page : Page) (token : CsrfToken),
      b.pages[w.page]? = some page ∧ page.held = some token ∧ w = b.send w.page token := by
  rcases browserStep_cases hstep with rfl | ⟨d, rfl⟩ | ⟨i, page, hpage, hmove⟩
  · exact ⟨[], rfl, by simp⟩
  · exact ⟨[], rfl, by simp⟩
  cases hmove with
  | send token htoken =>
      refine ⟨[b.send i token], rfl, ?_⟩
      intro w hw
      rw [List.mem_singleton] at hw
      subst hw
      exact ⟨page, token, hpage, Page.held_of_token htoken, rfl⟩
  | settle token hfetch =>
      refine ⟨List.replicate page.waiting (b.send i token), rfl, ?_⟩
      intro w hw
      have hw := List.eq_of_mem_replicate hw
      subst hw
      have htoken := h.token_none hpage hfetch
      exact ⟨page, token, hpage, Page.held_of_received htoken hfetch, rfl⟩
  | _ => exact ⟨[], rfl, by simp⟩

theorem writes_agree_iff {b b' : Browser} (h : Agreed b)
    (hreach : Reaches browserStep Unguarded b b')
    (hwrites : ∀ w ∈ b.writes, w.Agrees ↔ w.InStep) : ∀ w ∈ b'.writes, w.Agrees ↔ w.InStep := by
  induction hreach with
  | start => exact hwrites
  | step hreach _ hstep ih =>
      have hagreed := agreed_reaches h hreach
      obtain ⟨new, hnew, hsends⟩ := step_sends hagreed hstep
      intro w hw
      rw [hnew, List.mem_append] at hw
      rcases hw with hw | hw
      · obtain ⟨page, token, hpage, hheld, heq⟩ := hsends w hw
        rw [heq]
        exact send_agrees hagreed hpage hheld
      · exact ih w hw

/-! ## 5. Out of step for good -/

/-- A page that holds its token fetches no other, and its response does not arrive twice. -/
theorem outOfStep_step {b b' : Browser} {a : BrowserAct} (h : Agreed b)
    (hstep : browserStep b a = some b') {i : Nat} (hout : b.OutOfStep i) : b'.OutOfStep i := by
  obtain ⟨⟨page, token, hpage, hheld⟩, hlate⟩ := hout
  rcases browserStep_cases hstep with rfl | ⟨d, rfl⟩ | ⟨j, q, hq, hmove⟩
  · refine ⟨⟨page, token, ?_, hheld⟩, hlate⟩
    obtain ⟨hlt, -⟩ := List.getElem?_eq_some_iff.mp hpage
    exact (List.getElem?_append_left hlt).trans hpage
  · refine ⟨⟨page, token, hpage, hheld⟩, ?_⟩
    rintro ⟨received, hlast, hfresh⟩
    apply hlate
    refine ⟨received, hlast, ?_⟩
    simp only at hfresh
    omega
  by_cases hsame : j = i
  · subst hsame
    have heq : q = page := Option.some.inj (hq.symm.trans hpage)
    subst heq
    cases hmove with
    | cached => exact ⟨⟨q, token, hpage, hheld⟩, hlate⟩
    | send => exact ⟨⟨q, token, hpage, hheld⟩, hlate⟩
    | fetch n htoken =>
        refine ⟨⟨_, token, getElem?_set_of_some hpage _, ?_⟩, hlate⟩
        exact (Page.fetch_known htoken n).2.trans hheld
    | serve _ hfetch =>
        rw [Page.held_eq_none (h.token_none hpage hfetch) hfetch nofun] at hheld
        cases hheld
    | deliver _ hfetch =>
        rw [Page.held_eq_none (h.token_none hpage hfetch) hfetch nofun] at hheld
        cases hheld
    | settle token' hfetch =>
        have htoken := h.token_none hpage hfetch
        rw [Page.held_of_received htoken hfetch] at hheld
        exact ⟨⟨_, token, getElem?_set_of_some hpage _, hheld⟩, hlate⟩
    | fail fetch hfetch hreceived =>
        rw [Page.held_eq_none (h.token_none hpage hfetch) hfetch hreceived] at hheld
        cases hheld
  · have hother : ∀ q', (b.pages.set j q')[i]? = some page :=
      fun q' => (List.getElem?_set_ne hsame).trans hpage
    cases hmove with
    | cached => exact ⟨⟨page, token, hpage, hheld⟩, hlate⟩
    | send => exact ⟨⟨page, token, hpage, hheld⟩, hlate⟩
    | fetch => exact ⟨⟨page, token, hother _, hheld⟩, hlate⟩
    | serve => exact ⟨⟨page, token, hother _, hheld⟩, hlate⟩
    | deliver =>
        refine ⟨⟨page, token, hother _, hheld⟩, ?_⟩
        rintro ⟨received, hlast, -⟩
        rw [Option.some.injEq, Prod.mk.injEq] at hlast
        exact hsame hlast.1
    | settle => exact ⟨⟨page, token, hother _, hheld⟩, hlate⟩
    | fail => exact ⟨⟨page, token, hother _, hheld⟩, hlate⟩

/-- A write of the page that agrees with its cookie can still follow. -/
def Browser.CanWrite (b : Browser) (i : Nat) : Prop :=
  ∃ b' new w, Reaches browserStep Unguarded b b' ∧ b'.writes = new ++ b.writes ∧ w ∈ new ∧
    w.page = i ∧ w.Agrees

theorem outOfStep_reaches {b b' : Browser} (h : Agreed b) {i : Nat} (hout : b.OutOfStep i)
    (hreach : Reaches browserStep Unguarded b b') : b'.OutOfStep i ∧
      ∃ new, b'.writes = new ++ b.writes ∧ ∀ w ∈ new, w.page = i → ¬ w.Agrees := by
  induction hreach with
  | start => exact ⟨hout, [], rfl, by simp⟩
  | step hreach _ hstep ih =>
      obtain ⟨hsout, old, hold, hrejected⟩ := ih
      have hs := agreed_reaches h hreach
      obtain ⟨more, hmore, hsends⟩ := step_sends hs hstep
      refine ⟨outOfStep_step hs hstep hsout, more ++ old, ?_, ?_⟩
      · rw [hmore, hold, List.append_assoc]
      · intro w hw hpage
        rcases List.mem_append.mp hw with hw | hw
        · obtain ⟨page, token, hwpage, hheld, heq⟩ := hsends w hw
          rw [heq, send_agrees hs hwpage hheld, hpage]
          exact hsout.2
        · exact hrejected w hw hpage

theorem not_canWrite_of_outOfStep {b : Browser} (h : Agreed b) {i : Nat} (hout : b.OutOfStep i) :
    ¬ b.CanWrite i := by
  rintro ⟨b', new, w, hreach, hnew, hw, hpage, hagrees⟩
  obtain ⟨-, new', hnew', hrejected⟩ := outOfStep_reaches h hout hreach
  have hsame : new = new' := List.append_cancel_right (hnew.symm.trans hnew')
  exact hrejected w (hsame ▸ hw) hpage hagrees

/-! ## 6. In step, or still to fetch -/

theorem canWrite_of_step {b b' : Browser} {a : BrowserAct} {i : Nat}
    (hstep : browserStep b a = some b') (hwrites : b'.writes = b.writes) (h : b'.CanWrite i) :
    b.CanWrite i := by
  obtain ⟨b'', new, w, hreach, hnew, hrest⟩ := h
  refine ⟨b'', new, w, ?_, by rw [hnew, hwrites], hrest⟩
  exact (Reaches.start.step trivial hstep).trans hreach

theorem page_step {b : Browser} {i : Nat} {page : Page} (hpage : b.pages[i]? = some page)
    (act : PageAct) : browserStep b (.page i act) = pageStep b i page act := by
  simp only [browserStep, hpage]

theorem canWrite_of_held {b : Browser} (h : Agreed b) {i : Nat} {page : Page} {token : CsrfToken}
    (hpage : b.pages[i]? = some page) (hheld : page.held = some token) (hin : b.InStep i) :
    b.CanWrite i := by
  have hagrees := (send_agrees h hpage hheld).mpr hin
  rcases Page.held_cases hheld with htoken | ⟨htoken, hfetch⟩
  · have hwrite : browserStep b (.page i .write) =
        some { b with writes := b.send i token :: b.writes } := by
      rw [page_step hpage]
      simp only [pageStep, htoken]
    exact ⟨_, [b.send i token], b.send i token, Reaches.start.step trivial hwrite, rfl,
      List.mem_singleton_self _, rfl, hagrees⟩
  · -- The response has arrived: the write waits for the continuation of the fetch.
    have hwrite : browserStep b (.page i .write) =
        some { b with pages := b.pages.set i { page with waiting := page.waiting + 1 } } := by
      rw [page_step hpage]
      simp only [pageStep, htoken, Page.fetch, hfetch]
    have hsettle : browserStep
        { b with pages := b.pages.set i { page with waiting := page.waiting + 1 } }
        (.page i .settle) = some { b with
          pages := (b.pages.set i { page with waiting := page.waiting + 1 }).set i
            ⟨some token, none, 0⟩,
          writes := List.replicate (page.waiting + 1) (b.send i token) ++ b.writes } := by
      rw [page_step (getElem?_set_of_some hpage _)]
      simp only [pageStep, hfetch]
      rfl
    refine ⟨_, _, b.send i token, (Reaches.start.step trivial hwrite).step trivial hsettle, rfl,
      ?_, rfl, hagrees⟩
    rw [List.mem_replicate]
    exact ⟨Nat.succ_ne_zero _, rfl⟩

theorem canWrite_of_answered {b : Browser} (h : Agreed b) {i : Nat} {page : Page}
    {token : CsrfToken} (hpage : b.pages[i]? = some page)
    (hfetch : page.inflight = some (.answered token)) : b.CanWrite i := by
  have hdeliver : browserStep b (.page i .deliver) = some { b with
      pages := b.pages.set i { page with inflight := some (.received token) },
      cookie := some ⟨token, b.clock + 3600⟩,
      lastReceived := some (i, b.clock) } := by
    rw [page_step hpage]
    simp only [pageStep, hfetch, issueCsrf]
  have htoken := h.token_none hpage hfetch
  apply canWrite_of_step hdeliver rfl
  refine canWrite_of_held (agreed_step h hdeliver) (getElem?_set_of_some hpage _)
    (Page.held_of_received htoken rfl) ⟨b.clock, rfl, ?_⟩
  exact Int.lt_add_of_pos_right _ (by decide)

/-- A token of `n + 1` characters. -/
def longToken (n : Nat) : CsrfToken where
  text := String.ofList (List.replicate (n + 1) 'a')
  nonempty h := by
    have := congrArg String.length h
    simp at this
  ascii := by simp

theorem exists_new_token (issued : List CsrfToken) : ∃ token, token ∉ issued := by
  have hinjective : Function.Injective longToken := by
    intro m n h
    have := congrArg (fun token => token.text.length) h
    simpa [longToken] using this
  have : Infinite CsrfToken := Infinite.of_injective longToken hinjective
  obtain ⟨token, htoken⟩ := Infinite.exists_notMem_finset issued.toFinset
  exact ⟨token, fun hmem => htoken (List.mem_toFinset.mpr hmem)⟩

theorem canWrite_of_requested {b : Browser} (h : Agreed b) {i : Nat} {page : Page}
    (hpage : b.pages[i]? = some page) (hfetch : page.inflight = some .requested) :
    b.CanWrite i := by
  obtain ⟨token, hnew⟩ := exists_new_token b.issued
  have hserve : browserStep b (.page i (.serve token)) = some { b with
      pages := b.pages.set i { page with inflight := some (.answered token) },
      issued := token :: b.issued } := by
    rw [page_step hpage]
    simp only [pageStep, hfetch, if_neg hnew]
  apply canWrite_of_step hserve rfl
  exact canWrite_of_answered (agreed_step h hserve) (getElem?_set_of_some hpage _) rfl

theorem canWrite_of_unheld {b : Browser} (h : Agreed b) {i : Nat} {page : Page}
    (hpage : b.pages[i]? = some page) (hheld : page.held = none) : b.CanWrite i := by
  rcases htoken : page.token with _ | cached
  · rcases hfetch : page.inflight with _ | _ | token | token
    · have hget : browserStep b (.page i .getToken) =
          some { b with pages := b.pages.set i { page with inflight := some .requested } } := by
        rw [page_step hpage]
        simp only [pageStep, htoken, Page.fetch, hfetch, Nat.add_zero]
      apply canWrite_of_step hget rfl
      exact canWrite_of_requested (agreed_step h hget) (getElem?_set_of_some hpage _) rfl
    · exact canWrite_of_requested h hpage hfetch
    · exact canWrite_of_answered h hpage hfetch
    · rw [Page.held_of_received htoken hfetch] at hheld
      cases hheld
  · rw [Page.held_of_token htoken] at hheld
    cases hheld

theorem canWrite_iff {b : Browser} (h : Agreed b) {i : Nat} (hi : i < b.pages.length) :
    b.CanWrite i ↔ ¬ b.OutOfStep i := by
  constructor
  · intro hcan hout
    exact not_canWrite_of_outOfStep h hout hcan
  · intro hin
    have hpage := List.getElem?_eq_getElem hi
    rcases hheld : (b.pages[i]).held with _ | token
    · exact canWrite_of_unheld h hpage hheld
    · apply canWrite_of_held h hpage hheld
      by_contra hlate
      exact hin ⟨⟨_, token, hpage, hheld⟩, hlate⟩

/-! ## 7. The server's answers -/

/-- A deployment, with the address its pages send as `Referer`. -/
structure Site where
  urlparse : String → Option ParseResult
  guard : CsrfGuard
  configured : ∃ publicOrigin, CsrfGuard.new urlparse publicOrigin = some guard
  referer : String
  own : guard.checkReferer urlparse (some referer) = .ok ()

def Site.answer (site : Site) (w : Write) : Except CsrfRejection Unit :=
  requireCsrf site.urlparse site.guard (w.cookie.map CsrfToken.text) (some w.header.text)
    (some site.guard.publicOrigin) (some site.referer)

/-- Whatever follows, every further write of the page is rejected with `csrf_mismatch`. -/
def Site.LockedOut (site : Site) (b : Browser) (i : Nat) : Prop :=
  ∀ b', Reaches browserStep Unguarded b b' → ∀ new, b'.writes = new ++ b.writes →
    ∀ w ∈ new, w.page = i → site.answer w = .error csrfMismatch

theorem Site.answer_eq (site : Site) (w : Write) :
    site.answer w = if w.Agrees then .ok () else .error csrfMismatch :=
  requireCsrf_of_page site.own w.cookie w.header

theorem Site.lockedOut_iff (site : Site) (b : Browser) (i : Nat) :
    site.LockedOut b i ↔ ¬ b.CanWrite i := by
  constructor
  · rintro hlocked ⟨b', new, w, hreach, hnew, hw, hpage, hagrees⟩
    have hanswer := hlocked b' hreach new hnew w hw hpage
    rw [site.answer_eq, if_pos hagrees] at hanswer
    cases hanswer
  · intro hcannot b' hreach new hnew w hw hpage
    rw [site.answer_eq]
    apply if_neg
    intro hagrees
    exact hcannot ⟨b', new, w, hreach, hnew, hw, hpage, hagrees⟩

/-- **When browser and server agree.**  In every run of any number of pages, a write
    carries its cookie's value, and is accepted, exactly when its page is in step; and a
    page is locked out exactly when it holds a token and is out of step. -/
theorem csrf_agreement_iff (site : Site) {clock : Int} {b : Browser}
    (h : Reaches browserStep Unguarded (.start clock) b) :
    (∀ w ∈ b.writes, (w.cookie = some w.header ↔ w.InStep) ∧
      (site.answer w = .ok () ↔ w.InStep)) ∧
    ∀ i, i < b.pages.length → (site.LockedOut b i ↔ b.OutOfStep i) := by
  have hagreed := agreed_reaches (agreed_start clock) h
  constructor
  · intro w hw
    have hiff := writes_agree_iff (agreed_start clock) h nofun w hw
    refine ⟨hiff, ?_⟩
    rw [site.answer_eq, ← hiff]
    by_cases hagrees : w.Agrees
    · rw [if_pos hagrees]
      exact iff_of_true rfl hagrees
    · rw [if_neg hagrees]
      exact iff_of_false nofun hagrees
  · intro i hi
    rw [site.lockedOut_iff, canWrite_iff hagreed hi, not_not]

def exampleUrls (url : String) : Option ParseResult :=
  if url = "https://example.com" then some ⟨"https", "example.com", ""⟩
  else if url = "https://example.com/funding/" then some ⟨"https", "example.com", "/funding/"⟩
  else none

def exampleSite : Site where
  urlparse := exampleUrls
  guard := ⟨"https://example.com", "funding_csrf", "X-Funding-Token"⟩
  configured := ⟨"https://example.com/", by decide +kernel⟩
  referer := "https://example.com/funding/"
  own := by decide +kernel

/-- A page is opened, fetches its token, and writes `d` seconds later. -/
def writeAfter (d : Nat) : List BrowserAct :=
  [.openPage, .page 0 .getToken, .page 0 (.serve (longToken 42)), .page 0 .deliver,
    .page 0 .settle, .tick d, .page 0 .write]

theorem csrf_agreement_iff_withinTheHour :
    ∃ b, Reaches browserStep Unguarded (.start 1767225600) b ∧ b.writes.length = 1 ∧
      (∀ w ∈ b.writes, (w.cookie = some w.header ↔ w.InStep) ∧
        (exampleSite.answer w = .ok () ↔ w.InStep)) ∧
      ∀ i, i < b.pages.length → (exampleSite.LockedOut b i ↔ b.OutOfStep i) := by
  have hreach : Reaches browserStep Unguarded (.start 1767225600) _ :=
    play_get_reaches (writeAfter 3599) (by decide +kernel)
  exact ⟨_, hreach, by decide +kernel, csrf_agreement_iff exampleSite hreach⟩

/-- **After an hour the page is locked out.**  Its cookie is gone, its token is kept, and
    nothing it does fetches another. -/
theorem locked_out_after_an_hour :
    ∃ b, Reaches browserStep Unguarded (.start 1767225600) b ∧
      (∃ w ∈ b.writes, w.cookie ≠ some w.header ∧
        exampleSite.answer w = .error csrfMismatch) ∧
      exampleSite.LockedOut b 0 := by
  have hreach : Reaches browserStep Unguarded (.start 1767225600) _ :=
    play_get_reaches (writeAfter 3600) (by decide +kernel)
  have hagreed := agreed_reaches (agreed_start _) hreach
  refine ⟨_, hreach, by decide +kernel, ?_⟩
  rw [exampleSite.lockedOut_iff, canWrite_iff hagreed (by decide +kernel), not_not]
  refine ⟨⟨⟨some (longToken 42), none, 0⟩, longToken 42, by decide +kernel, rfl⟩, ?_⟩
  rintro ⟨received, hlast, hfresh⟩
  have hreceived : ((play browserStep Unguarded (.start 1767225600) (writeAfter 3600)).get
      (by decide +kernel)).lastReceived = some (0, 1767225600) := by decide +kernel
  have hclock : ((play browserStep Unguarded (.start 1767225600) (writeAfter 3600)).get
      (by decide +kernel)).clock = 1767229200 := by decide +kernel
  rw [hreceived, Option.some.injEq, Prod.mk.injEq] at hlast
  rw [hclock, ← hlast.2] at hfresh
  exact absurd hfresh (by decide)

end FundingTool.CsrfBrowser
