import FundingTool.SymbolPicker

/-!
# What the symbol picker lists

A reply of the route comes from a list the exchange has reported, less than an hour before the
request came (`Fresh`); the options come from the answer to a request of the picker, and while
nothing is under way from the answer to the request for the text in the field (`Picked`).  The last
is said of texts that are searched for: a text of less than two units clears the options without
taking a number, and the answer to the request before it is still used (`cutDown_lists`).
-/

namespace FundingTool.SymbolPicker

open FundingTool.JsonText FundingTool.TransitionSystem

variable {casing : Casing} {s s' : Site}

/-! ## 1. Steps -/

/-- What a step can do. -/
inductive Takes (casing : Casing) (s : Site) : Site → Prop
  | tick (dt : Nat) : Takes casing s { s with clock := s.clock + dt }
  | ask (query : String) :
      Takes casing s { s with sent := s.sent ++ [⟨none, query, 0, .underway⟩] }
  | arrive {i : Nat} {f : Flight} (hi : s.sent[i]? = some f) (hcourse : f.course = .underway) :
      Takes casing s (s.arrive casing i f)
  | report {i : Nat} {f : Flight} {now : Int} (data : Option Value) (hi : s.sent[i]? = some f)
      (hcourse : f.course = .listing now) : Takes casing s (s.report casing i f now data)
  | answer {i : Nat} {f : Flight} {answer : Answer} (hi : s.sent[i]? = some f)
      (hcourse : f.course = .replied answer) : Takes casing s (s.settle i f answer)
  | fail {i : Nat} {f : Flight} (hi : s.sent[i]? = some f)
      (hcourse : ∀ answer, f.course ≠ .settled answer) : Takes casing s (s.fail i f)
  /-- The text or the popup changes. -/
  | render (value : String) (isOpen blurring : Bool) :
      Takes casing s (s.withPicker
        { s.picker with value := value, isOpen := isOpen, blurring := blurring })
  | effect : Takes casing s (s.withPicker s.picker.runEffect)
  | fire {query : String} (hdebounce : s.picker.debounce = some query) :
      Takes casing s (s.fire query)
  | unmount : Takes casing s
      (s.withPicker { s.picker with mounted := false, debounce := none, blurring := false })

theorem step_takes {a : Act} (h : step casing s a = some s') : Takes casing s s' := by
  cases a with
  | tick dt =>
      cases h
      exact .tick dt
  | ask query =>
      cases h
      exact .ask query
  | arrive i =>
      simp only [step] at h
      split at h
      · next f hi =>
          split at h
          · next hcourse =>
              cases h
              exact .arrive hi hcourse
          · cases h
      · cases h
  | report i data =>
      simp only [step] at h
      split at h
      · next f hi =>
          split at h
          · next now hcourse =>
              cases h
              exact .report data hi hcourse
          · cases h
      · cases h
  | answer i =>
      simp only [step] at h
      split at h
      · next f hi =>
          split at h
          · next answer hcourse =>
              cases h
              exact .answer hi hcourse
          · cases h
      · cases h
  | fail i =>
      simp only [step] at h
      split at h
      · next f hi =>
          split at h
          · cases h
          · next hcourse =>
              cases h
              exact .fail hi hcourse
      · cases h
  | type text =>
      simp only [step] at h
      split at h
      · cases h
        exact .render (casing.toUpperCase text) s.picker.isOpen s.picker.blurring
      · cases h
  | effect =>
      simp only [step] at h
      split at h
      · cases h
        exact .effect
      · cases h
  | fire =>
      simp only [step] at h
      split at h
      · next query hdebounce =>
          cases h
          exact .fire hdebounce
      · cases h
  | focus =>
      simp only [step] at h
      split at h
      · cases h
        exact .render s.picker.value true false
      · cases h
  | blur =>
      simp only [step] at h
      split at h
      · cases h
        exact .render s.picker.value s.picker.isOpen true
      · cases h
  | hide =>
      simp only [step] at h
      split at h
      · cases h
        exact .render s.picker.value false false
      · cases h
  | select o =>
      simp only [step] at h
      split at h
      · cases h
        exact .render o false s.picker.blurring
      · cases h
  | unmount =>
      simp only [step] at h
      split at h
      · cases h
        exact .unmount
      · cases h

/-! ## 2. The route's replies -/

/-- These symbols were found for a request among what the exchange had reported less than an hour
    before it came. -/
def Told (casing : Casing) (reports : List (Int × Value)) (f : Flight) (symbols : List String) :
    Prop :=
  ∃ time data all, (time, data) ∈ reports ∧ listSymbols data = some all ∧
    f.arrivedAt - time < cacheTtl ∧ symbols = (search casing f.query all).take 50

/-- What is known of a request. -/
structure Kept (casing : Casing) (clock : Int) (reports : List (Int × Value)) (f : Flight) :
    Prop where
  listing : ∀ now, f.course = .listing now → now = f.arrivedAt ∧ now ≤ clock
  replied : ∀ symbols, f.course = .replied (some symbols) → Told casing reports f symbols
  settled : ∀ symbols, f.course = .settled (some symbols) → Told casing reports f symbols

structure Fresh (casing : Casing) (s : Site) : Prop where
  /-- The cached list was reported at or after the time it is kept under. -/
  cached : ∀ fetchedAt all, s.cache = some (fetchedAt, all) → ∃ time data,
    (time, data) ∈ s.reports ∧ fetchedAt ≤ time ∧ listSymbols data = some all
  kept : ∀ f ∈ s.sent, Kept casing s.clock s.reports f

theorem Kept.mono {clock clock' : Int} {reports reports' : List (Int × Value)} {f : Flight}
    (h : Kept casing clock reports f) (hclock : clock ≤ clock')
    (hreports : ∀ r ∈ reports, r ∈ reports') : Kept casing clock' reports' f := by
  have htold : ∀ symbols, Told casing reports f symbols → Told casing reports' f symbols := by
    rintro symbols ⟨time, data, all, hmem, htold⟩
    exact ⟨time, data, all, hreports _ hmem, htold⟩
  constructor
  · intro now hcourse
    obtain ⟨harrived, hle⟩ := h.listing now hcourse
    exact ⟨harrived, le_trans hle hclock⟩
  · intro symbols hcourse
    exact htold symbols (h.replied symbols hcourse)
  · intro symbols hcourse
    exact htold symbols (h.settled symbols hcourse)

section Courses

variable {clock : Int} {reports : List (Int × Value)} {f : Flight}

/-- A request that brings no symbols and waits for none. -/
theorem kept_of_empty (h : f.course = .underway ∨ f.course = .replied none) :
    Kept casing clock reports f := by
  constructor <;> intro _ hcourse <;> rw [hcourse] at h <;> simp at h

/-- A request that waits for the exchange. -/
theorem kept_of_listing (h : f.course = .listing f.arrivedAt) (hle : f.arrivedAt ≤ clock) :
    Kept casing clock reports f := by
  constructor <;> intro _ hcourse <;> rw [h] at hcourse
  · cases hcourse
    exact ⟨rfl, hle⟩
  · cases hcourse
  · cases hcourse

/-- A request with its reply, on the way or settled. -/
theorem kept_of_answer {answer : Answer}
    (h : f.course = .replied answer ∨ f.course = .settled answer)
    (htold : ∀ symbols, answer = some symbols → Told casing reports f symbols) :
    Kept casing clock reports f := by
  constructor <;> intro _ hcourse <;> rw [hcourse] at h
  · simp at h
  · exact htold _ (Eq.symm (by simpa using h))
  · exact htold _ (Eq.symm (by simpa using h))

end Courses

/-- One request changes, or one is added. -/
theorem fresh_put (h : Fresh casing s) {i : Nat} {f : Flight}
    (hf : Kept casing s.clock s.reports f) :
    ∀ g ∈ (s.put i f).sent, Kept casing s.clock s.reports g := by
  intro g hg
  rcases List.mem_or_eq_of_mem_set hg with hold | rfl
  · exact h.kept g hold
  · exact hf

theorem fresh_append (h : Fresh casing s) {f : Flight}
    (hf : Kept casing s.clock s.reports f) :
    ∀ g ∈ s.sent ++ [f], Kept casing s.clock s.reports g := by
  intro g hg
  rcases List.mem_append.mp hg with hold | hnew
  · exact h.kept g hold
  · rw [List.mem_singleton.mp hnew]
    exact hf

theorem fresh_arrive (h : Fresh casing s) (i : Nat) (f : Flight) :
    Fresh casing (s.arrive casing i f) := by
  refine ⟨h.cached, fresh_put h ?_⟩
  by_cases haccepted : isAccepted f.query = true
  · rcases hcache : s.cache with _ | ⟨fetchedAt, all⟩
    · simp only [haccepted, if_true]
      exact kept_of_listing rfl (le_refl _)
    · by_cases hage : s.clock - fetchedAt < cacheTtl
      · simp only [haccepted, if_true, hage]
        refine kept_of_answer (.inl rfl) ?_
        rintro _ ⟨⟩
        obtain ⟨time, data, hmem, hle, hlist⟩ := h.cached fetchedAt all hcache
        exact ⟨time, data, all, hmem, hlist, by simp only; omega, rfl⟩
      · simp only [haccepted, if_true, hage, if_false]
        exact kept_of_listing rfl (le_refl _)
  · simp only [haccepted, Bool.false_eq_true, if_false]
    exact kept_of_empty (.inr rfl)

theorem fresh_report (h : Fresh casing s) {i : Nat} {f : Flight} {now : Int}
    (hf : Kept casing s.clock s.reports f) (hcourse : f.course = .listing now)
    (data : Option Value) : Fresh casing (s.report casing i f now data) := by
  obtain ⟨harrived, hle⟩ := hf.listing now hcourse
  have hempty : Fresh casing (s.put i { f with course := .replied none }) :=
    ⟨h.cached, fresh_put h (kept_of_empty (.inr rfl))⟩
  rcases data with _ | data
  · exact hempty
  rcases hlist : listSymbols data with _ | all
  · simp only [Site.report, hlist]
    exact hempty
  simp only [Site.report, hlist]
  have hmem : (s.clock, data) ∈ s.reports ++ [(s.clock, data)] := by simp
  constructor
  · intro fetchedAt symbols hcached
    cases hcached
    exact ⟨s.clock, data, hmem, hle, hlist⟩
  · intro g hg
    rcases List.mem_or_eq_of_mem_set hg with hold | rfl
    · exact (h.kept g hold).mono (le_refl _) fun r hr => List.mem_append_left _ hr
    · refine kept_of_answer (.inl rfl) ?_
      rintro _ ⟨⟩
      have hage : f.arrivedAt - s.clock < cacheTtl := by
        rw [← harrived, cacheTtl]
        omega
      exact ⟨s.clock, data, all, hmem, hlist, hage, rfl⟩

theorem fresh_settle (h : Fresh casing s) {i : Nat} {f : Flight} {answer : Answer}
    (hanswer : ∀ symbols, answer = some symbols → Told casing s.reports f symbols) :
    Fresh casing (s.settle i f answer) :=
  ⟨h.cached, fresh_put h (kept_of_answer (.inr rfl) hanswer)⟩

/-- **Every step keeps the replies fresh.** -/
theorem fresh_step (h : Fresh casing s) (htakes : Takes casing s s') : Fresh casing s' := by
  cases htakes with
  | tick dt =>
      have hclock : s.clock ≤ s.clock + dt := by omega
      exact ⟨h.cached, fun f hf => (h.kept f hf).mono hclock fun r hr => hr⟩
  | ask query => exact ⟨h.cached, fresh_append h (kept_of_empty (.inl rfl))⟩
  | arrive hi hcourse => exact fresh_arrive h _ _
  | report data hi hcourse =>
      exact fresh_report h (h.kept _ (List.mem_of_getElem? hi)) hcourse data
  | answer hi hcourse =>
      refine fresh_settle h ?_
      rintro symbols rfl
      exact (h.kept _ (List.mem_of_getElem? hi)).replied symbols hcourse
  | @fail i f hi hcourse =>
      have hsettled : Fresh casing (s.settle i f none) := fresh_settle h nofun
      unfold Site.fail
      split
      · have hf := h.kept f (List.mem_of_getElem? hi)
        have hother : Kept casing s.clock s.reports { f with owner := none } :=
          ⟨hf.listing, hf.replied, hf.settled⟩
        exact ⟨hsettled.cached, fresh_append hsettled hother⟩
      · exact hsettled
  | render value isOpen blurring => exact ⟨h.cached, h.kept⟩
  | effect => exact ⟨h.cached, h.kept⟩
  | fire hdebounce => exact ⟨h.cached, fresh_append h (kept_of_empty (.inl rfl))⟩
  | unmount => exact ⟨h.cached, h.kept⟩

theorem fresh_start : Fresh casing .start :=
  ⟨fun _ _ hcached => (by cases hcached), fun _ hf => (by cases hf)⟩

/-! ## 3. The picker's requests -/

/-- Whose request it is. -/
def ownerAt (sent : List Flight) (i : Nat) : Option Nat := sent[i]?.bind Flight.owner

/-- The requests of the picker are numbered apart, up to its last. -/
structure Numbered (reqId : Nat) (sent : List Flight) : Prop where
  bound : ∀ i n, ownerAt sent i = some n → n ≤ reqId
  unique : ∀ i j n, ownerAt sent i = some n → ownerAt sent j = some n → i = j

/-- The options are those of a request of the picker that was answered. -/
def Shown (options : List String) (sent : List Flight) : Prop :=
  options = [] ∨ ∃ f ∈ sent, ∃ symbols : List String, f.owner.isSome = true ∧
    f.course = .settled (some symbols) ∧ options = symbols.take 10

/-- The request numbered last is for this text, and if it was answered the options are its. -/
def Latest (p : Picker) (sent : List Flight) (text : String) : Prop :=
  ∃ (i : Nat) (f : Flight), sent[i]? = some f ∧ f.owner = some p.reqId ∧ f.query = text ∧
    ∀ symbols : List String, f.course = .settled (some symbols) → p.options = symbols.take 10

/-- The options are what the request numbered last has brought. -/
def Brought (p : Picker) (sent : List Flight) : Prop :=
  ∃ (i : Nat) (f : Flight) (symbols : List String), sent[i]? = some f ∧ f.owner = some p.reqId ∧
    f.course = .settled (some symbols) ∧ p.options = symbols.take 10

structure Picked (p : Picker) (sent : List Flight) : Prop where
  numbered : Numbered p.reqId sent
  debounce : ∀ query, p.debounce = some query → p.committed = some query ∧ 2 ≤ jsLength query
  shown : Shown p.options sent
  rest : p.mounted = true → p.debounce = none → ∀ text, p.committed = some text →
    2 ≤ jsLength text → Latest p sent text
  /-- A short text clears the options and takes no number, so that the request before it still
      bears the last. -/
  short : ∀ text, p.committed = some text → jsLength text < 2 → p.options = [] ∨ Brought p sent

section Requests

variable {p : Picker} {sent : List Flight} {i : Nat} {f f' : Flight}

theorem ownerAt_of_getElem? (hi : sent[i]? = some f) : ownerAt sent i = f.owner := by
  simp [ownerAt, hi]

theorem ownerAt_set (hi : sent[i]? = some f) (howner : f'.owner = f.owner) (k : Nat) :
    ownerAt (sent.set i f') k = ownerAt sent k := by
  obtain ⟨hlt, -⟩ := List.getElem?_eq_some_iff.mp hi
  by_cases hsame : i = k
  · subst hsame
    rw [ownerAt_of_getElem? hi, ownerAt_of_getElem? (List.getElem?_set_self hlt), howner]
  · simp [ownerAt, List.getElem?_set_ne hsame]

theorem ownerAt_append {n k : Nat} (h : ownerAt (sent ++ [f]) k = some n) :
    ownerAt sent k = some n ∨ k = sent.length ∧ f.owner = some n := by
  rcases lt_trichotomy k sent.length with hlt | rfl | hgt
  · left
    simpa [ownerAt, List.getElem?_append_left hlt] using h
  · right
    simpa [ownerAt] using h
  · have hnone : (sent ++ [f])[k]? = none := List.getElem?_eq_none (by simp; omega)
    simp [ownerAt, hnone] at h

theorem numbered_set {reqId : Nat} (h : Numbered reqId sent) (hi : sent[i]? = some f)
    (howner : f'.owner = f.owner) : Numbered reqId (sent.set i f') := by
  constructor
  · intro k n hk
    exact h.bound k n ((ownerAt_set hi howner k).symm.trans hk)
  · intro k l n hk hl
    exact h.unique k l n ((ownerAt_set hi howner k).symm.trans hk)
      ((ownerAt_set hi howner l).symm.trans hl)

theorem numbered_append {reqId : Nat} (h : Numbered reqId sent) (howner : f.owner = none) :
    Numbered reqId (sent ++ [f]) := by
  have hold : ∀ k n, ownerAt (sent ++ [f]) k = some n → ownerAt sent k = some n := by
    intro k n hk
    rcases ownerAt_append hk with hk | ⟨-, hf⟩
    · exact hk
    · rw [howner] at hf
      cases hf
  constructor
  · intro k n hk
    exact h.bound k n (hold k n hk)
  · intro k l n hk hl
    exact h.unique k l n (hold k n hk) (hold l n hl)

theorem numbered_next {reqId : Nat} (h : Numbered reqId sent)
    (howner : f.owner = some (reqId + 1)) : Numbered (reqId + 1) (sent ++ [f]) := by
  have hnew : ∀ k n, ownerAt (sent ++ [f]) k = some n →
      ownerAt sent k = some n ∧ n ≤ reqId ∨ k = sent.length ∧ n = reqId + 1 := by
    intro k n hk
    rcases ownerAt_append hk with hk | ⟨rfl, hf⟩
    · exact .inl ⟨hk, h.bound k n hk⟩
    · exact .inr ⟨rfl, Option.some.inj (hf.symm.trans howner)⟩
  constructor
  · intro k n hk
    rcases hnew k n hk with ⟨-, hle⟩ | ⟨-, rfl⟩
    · omega
    · exact le_refl _
  · intro k l n hk hl
    rcases hnew k n hk with ⟨hk, hkle⟩ | ⟨rfl, rfl⟩
    · rcases hnew l n hl with ⟨hl, -⟩ | ⟨-, rfl⟩
      · exact h.unique k l n hk hl
      · omega
    · rcases hnew l _ hl with ⟨-, hle⟩ | ⟨rfl, -⟩
      · omega
      · rfl

theorem shown_set {options : List String} (h : Shown options sent) (hi : sent[i]? = some f)
    (hopen : ∀ answer, f.course ≠ .settled answer) : Shown options (sent.set i f') := by
  rcases h with hnil | ⟨g, hg, symbols, howns, hcourse, hoptions⟩
  · exact .inl hnil
  · obtain ⟨k, hk⟩ := List.getElem?_of_mem hg
    have hne : i ≠ k := by
      rintro rfl
      obtain rfl := Option.some.inj (hi.symm.trans hk)
      exact hopen _ hcourse
    have hstays : g ∈ sent.set i f' :=
      List.mem_of_getElem? ((List.getElem?_set_ne hne).trans hk)
    exact .inr ⟨g, hstays, symbols, howns, hcourse, hoptions⟩

theorem shown_append {options : List String} (h : Shown options sent) :
    Shown options (sent ++ [f]) := by
  rcases h with hnil | ⟨g, hg, hshown⟩
  · exact .inl hnil
  · exact .inr ⟨g, List.mem_append_left _ hg, hshown⟩

theorem latest_append {text : String} (h : Latest p sent text) : Latest p (sent ++ [f]) text := by
  obtain ⟨k, g, hk, hlatest⟩ := h
  obtain ⟨hlt, -⟩ := List.getElem?_eq_some_iff.mp hk
  exact ⟨k, g, (List.getElem?_append_left hlt).trans hk, hlatest⟩

theorem brought_set (h : Brought p sent) (hi : sent[i]? = some f)
    (hopen : ∀ answer, f.course ≠ .settled answer) : Brought p (sent.set i f') := by
  obtain ⟨k, g, symbols, hk, hown, hcourse, hoptions⟩ := h
  have hne : i ≠ k := by
    rintro rfl
    obtain rfl := Option.some.inj (hi.symm.trans hk)
    exact hopen _ hcourse
  exact ⟨k, g, symbols, (List.getElem?_set_ne hne).trans hk, hown, hcourse, hoptions⟩

theorem brought_append (h : Brought p sent) : Brought p (sent ++ [f]) := by
  obtain ⟨k, g, symbols, hk, hbrought⟩ := h
  obtain ⟨hlt, -⟩ := List.getElem?_eq_some_iff.mp hk
  exact ⟨k, g, symbols, (List.getElem?_append_left hlt).trans hk, hbrought⟩

/-- The picker is as it was: the request brings it no symbols, or it makes nothing of them. -/
theorem picked_put (h : Picked p sent) (hi : sent[i]? = some f)
    (hopen : ∀ answer, f.course ≠ .settled answer) (howner : f'.owner = f.owner)
    (hquery : f'.query = f.query)
    (hunused : p.mounted = true → f.owner = some p.reqId →
      ∀ symbols, f'.course ≠ .settled (some symbols)) :
    Picked p (sent.set i f') := by
  refine ⟨numbered_set h.numbered hi howner, h.debounce, shown_set h.shown hi hopen, ?_,
    fun text htext hshort =>
      (h.short text htext hshort).imp_right fun hbrought => brought_set hbrought hi hopen⟩
  intro hmounted hnone text htext hlong
  obtain ⟨k, g, hk, hown, htexts, hoptions⟩ := h.rest hmounted hnone text htext hlong
  by_cases hsame : i = k
  · subst hsame
    obtain rfl := Option.some.inj (hi.symm.trans hk)
    obtain ⟨hlt, -⟩ := List.getElem?_eq_some_iff.mp hi
    refine ⟨i, f', List.getElem?_set_self hlt, howner.trans hown, hquery.trans htexts, ?_⟩
    intro symbols hsettled
    exact absurd hsettled (hunused hmounted hown symbols)
  · exact ⟨k, g, (List.getElem?_set_ne hsame).trans hk, hown, htexts, hoptions⟩

/-- A request is added that is not the picker's. -/
theorem picked_append (h : Picked p sent) (howner : f.owner = none) : Picked p (sent ++ [f]) := by
  refine ⟨numbered_append h.numbered howner, h.debounce, shown_append h.shown, ?_, ?_⟩
  · intro hmounted hnone text htext hlong
    exact latest_append (h.rest hmounted hnone text htext hlong)
  · intro text htext hshort
    exact (h.short text htext hshort).imp_right brought_append

/-- The answer to the request numbered last. -/
theorem picked_used (h : Picked p sent) (hi : sent[i]? = some f) (hown : f.owner = some p.reqId)
    (symbols : List String) :
    Picked { p with options := symbols.take 10 }
      (sent.set i { f with course := .settled (some symbols) }) := by
  obtain ⟨hlt, -⟩ := List.getElem?_eq_some_iff.mp hi
  have hself := List.getElem?_set_self (a := { f with course := .settled (some symbols) }) hlt
  have hsome : f.owner.isSome = true := by simp [hown]
  refine ⟨numbered_set h.numbered hi rfl, h.debounce, ?_, ?_, ?_⟩
  · exact .inr ⟨_, List.mem_of_getElem? hself, symbols, hsome, rfl, rfl⟩
  · intro hmounted hnone text htext hlong
    obtain ⟨k, g, hk, howns, htexts, -⟩ := h.rest hmounted hnone text htext hlong
    -- No other request bears the number.
    obtain rfl := h.numbered.unique i k p.reqId ((ownerAt_of_getElem? hi).trans hown)
      ((ownerAt_of_getElem? hk).trans howns)
    obtain rfl := Option.some.inj (hi.symm.trans hk)
    refine ⟨i, _, hself, hown, htexts, ?_⟩
    rintro answer hcourse
    cases hcourse
    rfl
  · intro text htext hshort
    exact .inr ⟨i, _, symbols, hself, hown, rfl, rfl⟩

end Requests

/-! ## 4. Every step -/

theorem picked_settle (h : Picked s.picker s.sent) {i : Nat} {f : Flight}
    (hi : s.sent[i]? = some f) (hopen : ∀ answer, f.course ≠ .settled answer) (answer : Answer) :
    Picked (s.settle i f answer).picker (s.settle i f answer).sent := by
  obtain ⟨owner, query, arrivedAt, course⟩ := f
  have hunused : (∀ symbols, s.picker.mounted = true → owner = some s.picker.reqId →
      answer ≠ some symbols) →
      Picked s.picker (s.sent.set i ⟨owner, query, arrivedAt, .settled answer⟩) := by
    intro hnot
    refine picked_put h hi hopen rfl rfl ?_
    intro hmounted hown symbols hcourse
    injection hcourse with hcourse
    exact hnot symbols hmounted hown hcourse
  cases owner with
  | none => exact hunused fun symbols _ hown => (by cases hown)
  | some id =>
      simp only [Site.settle, Picker.answered]
      split
      · next hlast =>
          obtain ⟨hmounted, rfl⟩ := hlast
          cases answer with
          | some symbols => exact picked_used h hi rfl symbols
          | none => exact hunused fun _ _ _ => nofun
      · next hnot =>
          refine hunused fun symbols hmounted hown => ?_
          exact absurd ⟨hmounted, Option.some.inj hown⟩ hnot

/-- The effect has run: a text that is short enough has its search before it. -/
theorem picked_effect (h : Picked s.picker s.sent) : Picked s.picker.runEffect s.sent := by
  unfold Picker.runEffect
  split
  · next hshort =>
      refine ⟨h.numbered, nofun, .inl rfl, ?_, fun _ _ _ => .inl rfl⟩
      intro _ _ text htext hlong
      cases htext
      omega
  · next hlong =>
      refine ⟨h.numbered, ?_, h.shown, ?_, ?_⟩
      · rintro query ⟨⟩
        exact ⟨rfl, by omega⟩
      · intro _ hnone
        cases hnone
      · rintro text ⟨⟩ hshort
        exact absurd hshort hlong

theorem picked_fire (h : Picked s.picker s.sent) {query : String}
    (hdebounce : s.picker.debounce = some query) :
    Picked (s.fire query).picker (s.fire query).sent := by
  obtain ⟨hcommitted, hlong⟩ := h.debounce query hdebounce
  have hsame : ∀ text, s.picker.committed = some text → query = text := fun text htext =>
    Option.some.inj (hcommitted.symm.trans htext)
  refine ⟨numbered_next h.numbered rfl, nofun, shown_append h.shown, ?_, ?_⟩
  · intro _ _ text htext _
    exact ⟨s.sent.length, _, List.getElem?_concat_length, rfl, hsame text htext, nofun⟩
  · intro text htext hshort
    rw [← hsame text htext] at hshort
    omega

/-- **Every step keeps the picker with its requests.** -/
theorem picked_step (h : Picked s.picker s.sent) (htakes : Takes casing s s') :
    Picked s'.picker s'.sent := by
  cases htakes with
  | tick dt => exact h
  | ask query => exact picked_append h rfl
  | @arrive i f hi hcourse =>
      refine picked_put h hi (by simp [hcourse]) rfl rfl fun _ _ symbols hsettled => ?_
      simp only at hsettled
      split at hsettled
      · split at hsettled
        · split at hsettled <;> cases hsettled
        · cases hsettled
      · cases hsettled
  | @report i f now data hi hcourse =>
      have hreplied (answer : Answer) :
          Picked s.picker (s.sent.set i { f with course := .replied answer }) :=
        picked_put h hi (by simp [hcourse]) rfl rfl fun _ _ _ => nofun
      unfold Site.report
      split
      · split
        · exact hreplied _
        · exact hreplied none
      · exact hreplied none
  | answer hi hcourse => exact picked_settle h hi (by simp [hcourse]) _
  | @fail i f hi hcourse =>
      have hsettled := picked_settle h hi hcourse none
      unfold Site.fail
      split
      · exact picked_append hsettled rfl
      · exact hsettled
  | render value isOpen blurring => exact ⟨h.numbered, h.debounce, h.shown, h.rest, h.short⟩
  | effect => exact picked_effect h
  | fire hdebounce => exact picked_fire h hdebounce
  | unmount => exact ⟨h.numbered, nofun, h.shown, nofun, h.short⟩

/-! ## 5. Main results -/

theorem mem_of_mapM {α β : Type} {f : α → Option β} {xs : List α} {ys : List β}
    (h : xs.mapM f = some ys) (y : β) : y ∈ ys ↔ ∃ x ∈ xs, f x = some y := by
  induction xs generalizing ys with
  | nil =>
      cases h
      simp
  | cons x xs ih =>
      rw [List.mapM_cons] at h
      rcases hx : f x with _ | z
      · simp [hx] at h
      · rcases hxs : xs.mapM f with _ | zs
        · simp [hx, hxs] at h
        · obtain rfl : z :: zs = ys := by simpa [hx, hxs] using h
          rw [List.mem_cons, ih hxs, @eq_comm β y z]
          simp only [List.mem_cons, exists_eq_or_imp, hx, Option.some.injEq]

/-- What `list_symbols` returns is in order, and has the symbol of every perpetual traded. -/
theorem listSymbols_spec {data : Value} {all : List String} (h : listSymbols data = some all) :
    all.Pairwise (· ≤ ·) ∧ ∃ entries, symbolEntries data = some entries ∧
      ∀ o, o ∈ all ↔ ∃ entry ∈ entries, isTradeable entry = true ∧
        entry.member "symbol" = some (.str o) := by
  simp only [listSymbols, Option.bind_eq_bind, Option.bind_eq_some_iff, Option.pure_def,
    Option.some.injEq] at h
  obtain ⟨entries, hentries, symbols, hsymbols, rfl⟩ := h
  refine ⟨List.pairwise_insertionSort _ _, entries, hentries, ?_⟩
  intro o
  have htext : ∀ v : Option Value, textOf v = some o ↔ v = some (.str o) := by
    intro v
    unfold textOf
    split <;> simp_all
  rw [List.mem_insertionSort, mem_of_mapM hsymbols]
  simp only [List.mem_filter, htext, and_assoc]

/-- The first ten of these were found for a request among what the exchange had reported less than
    an hour before it came. -/
def Found (casing : Casing) (reports : List (Int × Value)) (f : Flight) (options : List String) :
    Prop :=
  ∃ time data all, (time, data) ∈ reports ∧ listSymbols data = some all ∧
    f.arrivedAt - time < cacheTtl ∧ options = (search casing f.query all).take 10

structure OptionsSound (casing : Casing) (s : Site) : Prop where
  found : s.picker.options = [] ∨
    ∃ f ∈ s.sent, f.owner.isSome = true ∧ Found casing s.reports f s.picker.options
  sorted : s.picker.options.Pairwise (· ≤ ·)
  /-- Nothing is offered that cannot be traded. -/
  tradeable : ∀ o ∈ s.picker.options, ∃ time data entries, (time, data) ∈ s.reports ∧
    symbolEntries data = some entries ∧ ∃ entry ∈ entries, isTradeable entry = true ∧
      entry.member "symbol" = some (.str o)
  /-- Rendered and with no search to come, the picker has asked for its text last; if that brought
      symbols, they are what it lists. -/
  atRest : s.picker.mounted = true → s.picker.committed = some s.picker.value →
    s.picker.debounce = none → 2 ≤ jsLength s.picker.value →
      ∃ f ∈ s.sent, f.owner = some s.picker.reqId ∧ f.query = s.picker.value ∧
        ∀ symbols, f.course = .settled (some symbols) → Found casing s.reports f s.picker.options
  /-- A text too short to be searched for: nothing is listed, or what the request numbered last
      has brought since. -/
  short : s.picker.committed = some s.picker.value → jsLength s.picker.value < 2 →
    s.picker.options = [] ∨
      ∃ f ∈ s.sent, f.owner = some s.picker.reqId ∧ Found casing s.reports f s.picker.options

theorem Told.found {reports : List (Int × Value)} {f : Flight} {symbols : List String}
    (h : Told casing reports f symbols) : Found casing reports f (symbols.take 10) := by
  obtain ⟨time, data, all, hmem, hlist, hage, rfl⟩ := h
  refine ⟨time, data, all, hmem, hlist, hage, ?_⟩
  rw [List.take_take]
  rfl

theorem Found.sorted {reports : List (Int × Value)} {f : Flight} {options : List String}
    (h : Found casing reports f options) : options.Pairwise (· ≤ ·) := by
  obtain ⟨time, data, all, -, hlist, -, rfl⟩ := h
  obtain ⟨hsorted, -⟩ := listSymbols_spec hlist
  exact (hsorted.filter _).sublist (List.take_sublist 10 _)

theorem Found.tradeable {reports : List (Int × Value)} {f : Flight} {options : List String}
    (h : Found casing reports f options) {o : String} (ho : o ∈ options) :
    ∃ time data entries, (time, data) ∈ reports ∧ symbolEntries data = some entries ∧
      ∃ entry ∈ entries, isTradeable entry = true ∧ entry.member "symbol" = some (.str o) := by
  obtain ⟨time, data, all, hmem, hlist, -, rfl⟩ := h
  obtain ⟨-, entries, hentries, hall⟩ := listSymbols_spec hlist
  have hsymbol : o ∈ all := List.mem_of_mem_filter (List.mem_of_mem_take ho)
  exact ⟨time, data, entries, hmem, hentries, (hall o).mp hsymbol⟩

theorem picked_start : Picked .initial [] := by
  refine ⟨⟨?_, ?_⟩, nofun, .inl rfl, ?_, fun _ _ _ => .inl rfl⟩
  · intro i n hi
    cases hi
  · intro i j n hi
    cases hi
  · intro _ _ text htext
    cases htext

theorem invariant_reaches (h : Reaches (step casing) Unguarded .start s) :
    Fresh casing s ∧ Picked s.picker s.sent := by
  refine @Reaches.invariant _ _ (step casing) Unguarded _ _
    (fun s => Fresh casing s ∧ Picked s.picker s.sent) ⟨fresh_start, picked_start⟩ ?_ h
  rintro s a s' ⟨hfresh, hpicked⟩ - hstep
  have htakes := step_takes hstep
  exact ⟨fresh_step hfresh htakes, picked_step hpicked htakes⟩

/-- **The picker lists what belongs to its text.**  Whatever order the keys, the timers, the
    requests and their answers take, and whoever else has the exchange asked. -/
theorem options_sound (h : Reaches (step casing) Unguarded .start s) : OptionsSound casing s := by
  obtain ⟨hfresh, hpicked⟩ := invariant_reaches h
  have hfound : s.picker.options = [] ∨
      ∃ f ∈ s.sent, f.owner.isSome = true ∧ Found casing s.reports f s.picker.options := by
    rcases hpicked.shown with hnil | ⟨f, hf, symbols, hown, hcourse, hoptions⟩
    · exact .inl hnil
    · refine .inr ⟨f, hf, hown, ?_⟩
      rw [hoptions]
      exact ((hfresh.kept f hf).settled symbols hcourse).found
  constructor
  · exact hfound
  · rcases hfound with hnil | ⟨f, -, -, hfound⟩
    · rw [hnil]
      exact .nil
    · exact hfound.sorted
  · intro o ho
    rcases hfound with hnil | ⟨f, -, -, hfound⟩
    · simp [hnil] at ho
    · exact hfound.tradeable ho
  · intro hmounted hcommitted hnone hlong
    obtain ⟨i, f, hi, hown, hquery, hoptions⟩ :=
      hpicked.rest hmounted hnone s.picker.value hcommitted hlong
    have hf : f ∈ s.sent := List.mem_of_getElem? hi
    refine ⟨f, hf, hown, hquery, ?_⟩
    intro symbols hcourse
    rw [hoptions symbols hcourse]
    exact ((hfresh.kept f hf).settled symbols hcourse).found
  · intro hcommitted hshort
    rcases hpicked.short s.picker.value hcommitted hshort with hnil | hbrought
    · exact .inl hnil
    · obtain ⟨i, f, symbols, hi, hown, hcourse, hoptions⟩ := hbrought
      have hf : f ∈ s.sent := List.mem_of_getElem? hi
      refine .inr ⟨f, hf, hown, ?_⟩
      rw [hoptions]
      exact ((hfresh.kept f hf).settled symbols hcourse).found

/-! ## 6. An answer to an earlier text -/

def ascii : Casing :=
  ⟨fun s => .ofList (s.toList.map Char.toUpper), fun s => .ofList (s.toList.map Char.toUpper)⟩

def perpetual (symbol status : String) : Value :=
  .obj [("symbol", .str symbol), ("status", .str status), ("contractType", .str "PERPETUAL"),
    ("quoteAsset", .str "USDT")]

def exchangeInfo : Value :=
  .obj [("symbols", .arr [perpetual "ETHUSDT" "TRADING", perpetual "ETHWUSDT" "SETTLING",
    perpetual "BTCUSDT" "TRADING"])]

/-- `BTC` and then `ETH` are typed; the answer for `BTC` comes last. -/
def overtaken : List Act :=
  [.type "btc", .effect, .fire, .type "eth", .effect, .fire, .arrive 1,
    .report 1 (some exchangeInfo), .answer 1, .tick 5, .arrive 0, .answer 0]

theorem options_sound_overtaken :
    ∃ s, Reaches (step ascii) Unguarded .start s ∧ OptionsSound ascii s ∧
      s.picker.options = ["ETHUSDT"] ∧
      s.sent[0]? = some ⟨some 1, "BTC", 5, .settled (some ["BTCUSDT"])⟩ := by
  have hreach : Reaches (step ascii) Unguarded .start _ :=
    play_get_reaches overtaken (by decide +kernel)
  exact ⟨_, hreach, options_sound hreach, by decide +kernel, by decide +kernel⟩

/-- `BTC` is cut down to `B`, which clears the options; the answer for `BTC` comes after that, and
    its request still bears the last number. -/
def cutDown : List Act :=
  [.type "btc", .effect, .fire, .arrive 0, .type "b", .effect, .report 0 (some exchangeInfo),
    .answer 0]

/-- What was found for `BTC` is listed under `B`. -/
theorem cutDown_lists :
    ∃ s, Reaches (step ascii) Unguarded .start s ∧ s.picker.value = "B" ∧
      s.picker.committed = some "B" ∧ s.picker.debounce = none ∧
      s.picker.options = ["BTCUSDT"] := by
  have hreach : Reaches (step ascii) Unguarded .start _ :=
    play_get_reaches cutDown (by decide +kernel)
  exact ⟨_, hreach, by decide +kernel, by decide +kernel, by decide +kernel, by decide +kernel⟩

end FundingTool.SymbolPicker
