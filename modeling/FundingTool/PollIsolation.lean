import FundingTool.TaskPoll

/-!
# One task at a time

In every run of the hook, whatever the order of renderings, effects, answers and timers: what
is shown comes from an answer to the current effect, which awaits one request or timer at most,
and no earlier effect goes on.  An effect that has ended issues nothing more
(`poll_isolated`); but a new interval makes a new effect, and that asks for the old task again
(`new_interval_asks_again`).

`Sound` is the invariant.  What is added to the waiting list is added while nothing of the same
effect is on it (`sound_wait`).
-/

namespace FundingTool.TaskPoll

open FundingTool.Api (Value ApiResult truthy member)
open FundingTool.TransitionSystem

/-! ## 1. The invariant -/

def Hook.taskIdOf (s : Hook) (k : Nat) : Option String := (s.effects[k]?).map Effect.taskId

/-- The request asks for the task of the effect that issued it. -/
def PathOf (s : Hook) (r : Request) : Prop :=
  ∃ taskId, s.taskIdOf r.effect = some taskId ∧ r.path = resultPath taskId

/-- A value of the state that is not null comes from an answer to the current effect. -/
def FromCurrent (s : Hook) (field : ApiResult → Value) (value : Value) : Prop :=
  value = none ∨ ∃ r result, (r, result) ∈ s.answered ∧ s.current = some r.effect ∧
    value = field result

structure Sound (s : Hook) : Prop where
  fresh : ∀ i w, s.waiting.get? i = some w → i < s.handles
  path : ∀ i r, s.waiting.get? i = some (.request r) → PathOf s r
  live : ∀ k e, s.effects[k]? = some e → (e.cancelled = false ↔ s.current = some k)
  inRange : ∀ k, s.current = some k → k < s.effects.length
  timer : ∀ i k, s.waiting.get? i = some (.timer k) →
    s.current = some k ∧ ∃ e, s.effects[k]? = some e ∧ e.timer = some i
  single : ∀ i j w w', s.waiting.get? i = some w → s.waiting.get? j = some w' →
    s.current = some w.effect → w'.effect = w.effect → i = j
  asked : ∀ r result, (r, result) ∈ s.answered → PathOf s r
  going : ∀ i w, s.waiting.get? i = some w → s.current = some w.effect →
    ∀ r result, (r, result) ∈ s.answered → r.effect = w.effect → Hook.ends result = false
  status : FromCurrent s ApiResult.data s.status
  error : FromCurrent s ApiResult.error s.error

theorem sound_start : Sound Hook.start where
  fresh _ _ h := by cases h
  path _ _ h := by cases h
  live _ _ h := by cases h
  inRange _ h := by cases h
  timer _ _ h := by cases h
  single _ _ _ _ h := by cases h
  asked _ _ h := by cases h
  going _ _ h := by cases h
  status := .inl rfl
  error := .inl rfl

/-- Nothing of the effect is waiting. -/
def Free (s : Hook) (k : Nat) : Prop := ∀ i w, s.waiting.get? i = some w → w.effect ≠ k

/-- None of the effect's answers has ended it. -/
def Going (s : Hook) (k : Nat) : Prop :=
  ∀ r result, (r, result) ∈ s.answered → r.effect = k → Hook.ends result = false

/-! ## 2. The waiting list -/

theorem get?_erase_some {d : OrderedDict Nat Wait} {i j : Nat} {w : Wait}
    (h : (d.erase i).get? j = some w) : j ≠ i ∧ d.get? j = some w := by
  by_cases hsame : j = i
  · rw [hsame, OrderedDict.get?_erase_self] at h
    cases h
  · exact ⟨hsame, OrderedDict.get?_erase_ne d hsame ▸ h⟩

theorem get?_set_some {d : OrderedDict Nat Wait} {i j : Nat} {w w' : Wait}
    (h : (d.set i w).get? j = some w') : j = i ∧ w' = w ∨ j ≠ i ∧ d.get? j = some w' := by
  by_cases hsame : j = i
  · subst hsame
    rw [OrderedDict.get?_set_self, Option.some.injEq] at h
    exact .inl ⟨rfl, h.symm⟩
  · exact .inr ⟨hsame, OrderedDict.get?_set_ne d w hsame ▸ h⟩

theorem sound_remove {s : Hook} (h : Sound s) (i : Nat) : Sound (s.remove i) where
  fresh j w hj := h.fresh j w (get?_erase_some hj).2
  path j r hj := h.path j r (get?_erase_some hj).2
  live := h.live
  inRange := h.inRange
  timer j k hj := h.timer j k (get?_erase_some hj).2
  single j j' w w' hj hj' := h.single j j' w w' (get?_erase_some hj).2 (get?_erase_some hj').2
  asked := h.asked
  going j w hj := h.going j w (get?_erase_some hj).2
  status := h.status
  error := h.error

/-- What the current effect was suspended on is all it had waiting. -/
theorem free_remove {s : Hook} (h : Sound s) {i : Nat} {w : Wait} (hi : s.waiting.get? i = some w)
    (hcurrent : s.current = some w.effect) : Free (s.remove i) w.effect := by
  intro j w' hj heffect
  obtain ⟨hne, hj⟩ := get?_erase_some hj
  exact hne (h.single i j w w' hi hj hcurrent heffect).symm

/-- **Where nothing of the current effect waits, something may.** -/
theorem sound_wait {s : Hook} (h : Sound s) (w : Wait) (hcurrent : s.current = some w.effect)
    (hfree : Free s w.effect) (hgoing : Going s w.effect)
    (hpath : ∀ r, w = .request r → PathOf s r)
    (htimer : ∀ k, w = .timer k → ∃ e, s.effects[k]? = some e ∧ e.timer = some s.handles) :
    Sound { s with waiting := s.waiting.set s.handles w, handles := s.handles + 1 } where
  fresh i w' hi := by
    rcases get?_set_some hi with ⟨rfl, -⟩ | ⟨-, hi⟩
    · exact Nat.lt_succ_self _
    · exact Nat.lt_succ_of_lt (h.fresh i w' hi)
  path i r hi := by
    rcases get?_set_some hi with ⟨-, hw⟩ | ⟨-, hi⟩
    · exact hpath r hw.symm
    · exact h.path i r hi
  live := h.live
  inRange := h.inRange
  timer i k hi := by
    rcases get?_set_some hi with ⟨rfl, rfl⟩ | ⟨-, hi⟩
    · exact ⟨hcurrent, htimer k rfl⟩
    · exact h.timer i k hi
  single i j w₁ w₂ hi hj hcurrent₁ heffect := by
    have hsame : w₁.effect = w.effect := Option.some.inj (hcurrent₁.symm.trans hcurrent)
    rcases get?_set_some hi with ⟨rfl, -⟩ | ⟨-, hi⟩
    · rcases get?_set_some hj with ⟨rfl, -⟩ | ⟨-, hj⟩
      · rfl
      · exact absurd (heffect.trans hsame) (hfree j w₂ hj)
    · exact absurd hsame (hfree i w₁ hi)
  asked := h.asked
  going i w' hi hcurrent' := by
    have hsame : w'.effect = w.effect := Option.some.inj (hcurrent'.symm.trans hcurrent)
    rw [hsame]
    exact hgoing
  status := h.status
  error := h.error

/-! ## 3. The effects -/

theorem getElem?_setEffect {s : Hook} {k j : Nat} {e e' f : Effect} (he : s.effects[k]? = some e)
    (hf : (s.setEffect k e').effects[j]? = some f) :
    j = k ∧ f = e' ∨ j ≠ k ∧ s.effects[j]? = some f := by
  have hlt : k < s.effects.length := (List.getElem?_eq_some_iff.mp he).1
  simp only [Hook.setEffect] at hf
  by_cases hsame : j = k
  · rw [hsame, List.getElem?_set_self hlt, Option.some.injEq] at hf
    exact .inl ⟨hsame, hf.symm⟩
  · rw [List.getElem?_set_ne fun heq => hsame heq.symm] at hf
    exact .inr ⟨hsame, hf⟩

theorem taskIdOf_setEffect {s : Hook} {k : Nat} {e e' : Effect} (he : s.effects[k]? = some e)
    (hid : e'.taskId = e.taskId) (j : Nat) : (s.setEffect k e').taskIdOf j = s.taskIdOf j := by
  have hlt : k < s.effects.length := (List.getElem?_eq_some_iff.mp he).1
  simp only [Hook.taskIdOf, Hook.setEffect]
  by_cases hsame : j = k
  · rw [hsame, List.getElem?_set_self hlt, he, Option.map_some, Option.map_some, hid]
  · rw [List.getElem?_set_ne fun heq => hsame heq.symm]

theorem pathOf_setEffect {s : Hook} {k : Nat} {e e' : Effect} (he : s.effects[k]? = some e)
    (hid : e'.taskId = e.taskId) {r : Request} (h : PathOf s r) : PathOf (s.setEffect k e') r := by
  obtain ⟨taskId, hr, hpath⟩ := h
  exact ⟨taskId, (taskIdOf_setEffect he hid _).trans hr, hpath⟩

/-- The variable `timer` may change while no timer is set. -/
theorem sound_timerVar {s : Hook} (h : Sound s) {k : Nat} {e : Effect}
    (he : s.effects[k]? = some e) (hfree : Free s k) (handle : Option Nat) :
    Sound (s.setEffect k { e with timer := handle }) := by
  refine
    { fresh := h.fresh, path := fun i r hi => pathOf_setEffect he (by rfl) (h.path i r hi),
      live := ?_, inRange := ?_, timer := ?_, single := h.single,
      asked := fun r result hr => pathOf_setEffect he (by rfl) (h.asked r result hr),
      going := h.going, status := h.status, error := h.error }
  · intro j f hf
    rcases getElem?_setEffect he hf with ⟨rfl, rfl⟩ | ⟨-, hf⟩
    · exact h.live j e he
    · exact h.live j f hf
  · intro j hj
    rw [Hook.setEffect, List.length_set]
    exact h.inRange j hj
  · intro i j hi
    obtain ⟨hcurrent, f, hf, htimer⟩ := h.timer i j hi
    refine ⟨hcurrent, f, ?_, htimer⟩
    have hne : k ≠ j := fun hsame => hfree i _ hi hsame.symm
    rw [Hook.setEffect, List.getElem?_set_ne hne]
    exact hf

theorem sound_setTimer {s : Hook} (h : Sound s) {k : Nat} {e : Effect}
    (he : s.effects[k]? = some e) (hcurrent : s.current = some k) (hfree : Free s k)
    (hgoing : Going s k) : Sound (s.setTimer k e) := by
  refine sound_wait (sound_timerVar h he hfree (some s.handles)) (.timer k) hcurrent hfree
    hgoing (fun r hr => by cases hr) ?_
  intro j hj
  cases hj
  refine ⟨_, List.getElem?_set_self (List.getElem?_eq_some_iff.mp he).1, rfl⟩

/-! ## 4. The pieces of a step -/

theorem tick_cases (s : Hook) (k : Nat) :
    s.tick k = s ∨ ∃ e, s.effects[k]? = some e ∧
      s.tick k = s.request ⟨k, resultPath e.taskId⟩ := by
  unfold Hook.tick
  rcases he : s.effects[k]? with _ | e
  · exact .inl rfl
  · by_cases hcancelled : e.cancelled = true
    · exact .inl (if_pos hcancelled)
    · exact .inr ⟨e, rfl, if_neg hcancelled⟩

theorem resume_cases (s : Hook) (k : Nat) (result : ApiResult) :
    s.resume k result = s ∨ ∃ e, s.effects[k]? = some e ∧ e.cancelled = false ∧
      (s.resume k result = s.receive result ∨
        Hook.ends result = false ∧ s.resume k result = (s.receive result).setTimer k e) := by
  unfold Hook.resume
  rcases he : s.effects[k]? with _ | e
  · exact .inl rfl
  by_cases hcancelled : e.cancelled = true
  · exact .inl (if_pos hcancelled)
  refine .inr ⟨e, rfl, Bool.eq_false_iff.mpr hcancelled, ?_⟩
  by_cases hends : Hook.ends result = true
  · exact .inl ((if_neg hcancelled).trans (if_pos hends))
  · exact .inr ⟨Bool.eq_false_iff.mpr hends, (if_neg hcancelled).trans (if_neg hends)⟩

theorem receive_cases (s : Hook) (result : ApiResult) :
    s.receive result = s ∨ s.receive result = { s with error := result.error } ∨
      s.receive result = { s with status := result.data } := by
  unfold Hook.receive
  by_cases herror : truthy result.error = true
  · exact .inr (.inl (if_pos herror))
  · by_cases hdata : truthy result.data = true
    · exact .inr (.inr ((if_neg herror).trans (if_pos hdata)))
    · exact .inl ((if_neg herror).trans (if_neg hdata))

theorem sound_request {s : Hook} (h : Sound s) {r : Request} (hcurrent : s.current = some r.effect)
    (hfree : Free s r.effect) (hgoing : Going s r.effect) (hpath : PathOf s r) :
    Sound (s.request r) := by
  have hwait := sound_wait h (.request r) hcurrent hfree hgoing
    (fun r' hr => by cases hr; exact hpath) fun k hk => by cases hk
  exact { hwait with }

theorem pathOf_of_effect {s : Hook} {k : Nat} {e : Effect} (he : s.effects[k]? = some e) :
    PathOf s ⟨k, resultPath e.taskId⟩ := by
  refine ⟨e.taskId, ?_, rfl⟩
  rw [Hook.taskIdOf, he, Option.map_some]

theorem sound_tick {s : Hook} (h : Sound s) {k : Nat} (hcurrent : s.current = some k)
    (hfree : Free s k) (hgoing : Going s k) : Sound (s.tick k) := by
  rcases tick_cases s k with heq | ⟨e, he, heq⟩ <;> rw [heq]
  · exact h
  · exact sound_request h hcurrent hfree hgoing (pathOf_of_effect he)

theorem sound_answered {s : Hook} (h : Sound s) {r : Request} (result : ApiResult)
    (hpath : PathOf s r) (hfree : s.current = some r.effect → Free s r.effect) :
    Sound { s with answered := s.answered ++ [(r, result)] } := by
  have hkept : ∀ field value, FromCurrent s field value →
      FromCurrent { s with answered := s.answered ++ [(r, result)] } field value := by
    rintro field value (hnone | ⟨r', result', hmem, hrest⟩)
    · exact .inl hnone
    · exact .inr ⟨r', result', List.mem_append_left _ hmem, hrest⟩
  refine
    { fresh := h.fresh, path := h.path, live := h.live, inRange := h.inRange, timer := h.timer,
      single := h.single, asked := ?_, going := ?_, status := hkept _ _ h.status,
      error := hkept _ _ h.error }
  · intro r' result' hmem
    rcases List.mem_append.mp hmem with hmem | hmem
    · exact h.asked r' result' hmem
    · cases List.mem_singleton.mp hmem
      exact hpath
  · intro i w hi hcurrent r' result' hmem heffect
    rcases List.mem_append.mp hmem with hmem | hmem
    · exact h.going i w hi hcurrent r' result' hmem heffect
    · cases List.mem_singleton.mp hmem
      rw [← heffect] at hcurrent
      exact absurd heffect.symm (hfree hcurrent i w hi)

theorem sound_receive {s : Hook} (h : Sound s) {r : Request} {result : ApiResult}
    (hmem : (r, result) ∈ s.answered) (hcurrent : s.current = some r.effect) :
    Sound (s.receive result) := by
  rcases receive_cases s result with heq | heq | heq <;> rw [heq]
  · exact h
  · exact { h with error := .inr ⟨r, result, hmem, hcurrent, rfl⟩ }
  · exact { h with status := .inr ⟨r, result, hmem, hcurrent, rfl⟩ }

/-- All that showing an answer leaves alone. -/
theorem receive_frame (s : Hook) (result : ApiResult) :
    (s.receive result).effects = s.effects ∧ (s.receive result).current = s.current ∧
      (s.receive result).waiting = s.waiting ∧ (s.receive result).answered = s.answered ∧
      (s.receive result).issued = s.issued := by
  rcases receive_cases s result with heq | heq | heq <;> rw [heq] <;>
    exact ⟨rfl, rfl, rfl, rfl, rfl⟩

/-- The answer of a request, and what `tick` makes of it. -/
theorem sound_resume {s : Hook} (h : Sound s) {r : Request} {handle : Nat}
    (hwait : s.waiting.get? handle = some (.request r)) (result : ApiResult) :
    Sound ((s.arrive handle r result).resume r.effect result) := by
  have hfree : s.current = some r.effect → Free (s.remove handle) r.effect := free_remove h hwait
  have harrive : Sound (s.arrive handle r result) :=
    sound_answered (sound_remove h handle) result (h.path handle r hwait) hfree
  rcases resume_cases (s.arrive handle r result) r.effect result with heq | ⟨e, he, hlive, hcases⟩
  · rw [heq]
    exact harrive
  have hcurrent := (harrive.live _ e he).mp hlive
  have hreceived := sound_receive harrive
    (List.mem_append_right _ (List.mem_singleton.mpr rfl)) hcurrent
  rcases hcases with heq | ⟨hends, heq⟩ <;> rw [heq]
  · exact hreceived
  obtain ⟨heffects, hcurrent', hwaiting, hlog, -⟩ :=
    receive_frame (s.arrive handle r result) result
  refine sound_setTimer hreceived (heffects ▸ he) (hcurrent'.trans hcurrent) ?_ ?_
  · intro i w hi
    rw [hwaiting] at hi
    exact hfree hcurrent i w hi
  · intro r' result' hanswered heffect
    rw [hlog] at hanswered
    rcases List.mem_append.mp hanswered with hold | hnew
    · exact h.going handle (.request r) hwait hcurrent r' result' hold heffect
    · cases List.mem_singleton.mp hnew
      exact hends

theorem sound_fire {s : Hook} (h : Sound s) {handle k : Nat}
    (hwait : s.waiting.get? handle = some (.timer k)) : Sound ((s.remove handle).tick k) := by
  obtain ⟨hcurrent, -⟩ := h.timer handle k hwait
  exact sound_tick (sound_remove h handle) hcurrent (free_remove h hwait hcurrent)
    (h.going handle (.timer k) hwait hcurrent)

/-! ## 5. A change of the effect -/

theorem PathOf.effect_lt {s : Hook} {r : Request} (h : PathOf s r) :
    r.effect < s.effects.length := by
  obtain ⟨taskId, hr, -⟩ := h
  obtain ⟨e, he, -⟩ := Option.map_eq_some_iff.mp hr
  exact (List.getElem?_eq_some_iff.mp he).1

theorem Sound.effect_lt {s : Hook} (h : Sound s) {i : Nat} {w : Wait}
    (hi : s.waiting.get? i = some w) : w.effect < s.effects.length := by
  cases w with
  | request r => exact (h.path i r hi).effect_lt
  | timer k => exact h.inRange k (h.timer i k hi).1

theorem clearTimer_frame (s : Hook) (handle : Option Nat) :
    (∀ i w, (s.clearTimer handle).waiting.get? i = some w →
        handle ≠ some i ∧ s.waiting.get? i = some w) ∧
      (s.clearTimer handle).effects = s.effects ∧
      ((s.clearTimer handle).rendered = s.rendered ∧
        (s.clearTimer handle).unmounted = s.unmounted) ∧
      (s.clearTimer handle).handles = s.handles ∧ (s.clearTimer handle).answered = s.answered ∧
      (s.clearTimer handle).issued = s.issued := by
  cases handle with
  | none => exact ⟨fun _ _ hi => ⟨fun heq => (by cases heq), hi⟩, rfl, ⟨rfl, rfl⟩, rfl, rfl, rfl⟩
  | some handle =>
      refine ⟨fun i w hi => ?_, rfl, ⟨rfl, rfl⟩, rfl, rfl, rfl⟩
      obtain ⟨hne, hi⟩ := get?_erase_some hi
      exact ⟨fun heq => hne (Option.some.inj heq).symm, hi⟩

/-- The state that the next effect finds. -/
def Hook.reset (s : Hook) : Hook := { s.cleanup with status := none, error := none }

/-- **What a cleanup leaves**: all effects are cancelled, and no timer is set. -/
structure Closes (s s' : Hook) : Prop where
  current : s'.current = none
  shown : s'.status = none ∧ s'.error = none
  mounted : s'.rendered = s.rendered ∧ s'.unmounted = s.unmounted
  kept : s'.handles = s.handles ∧ s'.answered = s.answered ∧ s'.issued = s.issued
  length : s'.effects.length = s.effects.length
  taskIdOf : ∀ j, s'.taskIdOf j = s.taskIdOf j
  cancelled : ∀ (j : Nat) (e : Effect), s'.effects[j]? = some e → e.cancelled = true
  waiting : ∀ i w, s'.waiting.get? i = some w →
    s.waiting.get? i = some w ∧ ∀ k, w ≠ .timer k

theorem closes_reset {s : Hook} (h : Sound s) : Closes s s.reset := by
  have hstopped : ∀ (j : Nat) (e : Effect), s.effects[j]? = some e → s.current ≠ some j →
      e.cancelled = true :=
    fun j e he hother => Bool.of_not_eq_false fun hlive => hother ((h.live j e he).mp hlive)
  rcases hcurrent : s.current with _ | k
  · have hreset : s.reset = { s with status := none, error := none } := by
      simp only [Hook.reset, Hook.cleanup, hcurrent]
    rw [hreset]
    refine
      { current := hcurrent, shown := ⟨rfl, rfl⟩, mounted := ⟨rfl, rfl⟩,
        kept := ⟨rfl, rfl, rfl⟩, length := rfl, taskIdOf := fun _ => rfl,
        cancelled := fun j e he => hstopped j e he ?_, waiting := fun i w hi => ⟨hi, ?_⟩ }
    · rw [hcurrent]
      exact fun heq => (by cases heq)
    · rintro j rfl
      cases hcurrent.symm.trans (h.timer i j hi).1
  · have hlt : k < s.effects.length := h.inRange k hcurrent
    have he : s.effects[k]? = some s.effects[k] := List.getElem?_eq_getElem hlt
    generalize s.effects[k] = e at he
    have hreset : s.reset = { (s.setEffect k { e with cancelled := true }).clearTimer e.timer with
        current := none, status := none, error := none } := by
      simp only [Hook.reset, Hook.cleanup, hcurrent, he]
    obtain ⟨hwaiting, heffects, hmounted, hkept⟩ :=
      clearTimer_frame (s.setEffect k { e with cancelled := true }) e.timer
    rw [hreset]
    refine
      { current := rfl, shown := ⟨rfl, rfl⟩, mounted := hmounted, kept := hkept, length := ?_,
        taskIdOf := fun j => ?_, cancelled := fun j f hf => ?_, waiting := fun i w hi => ?_ }
    · exact (congrArg List.length heffects).trans List.length_set
    · simp only [Hook.taskIdOf, heffects]
      exact taskIdOf_setEffect he (by rfl) j
    · simp only [heffects] at hf
      rcases getElem?_setEffect he hf with ⟨-, rfl⟩ | ⟨hne, hf⟩
      · rfl
      · exact hstopped j f hf fun heq => hne (Option.some.inj (hcurrent.symm.trans heq)).symm
    · obtain ⟨hcleared, hi⟩ := hwaiting i w hi
      refine ⟨hi, ?_⟩
      -- The only timer there can be is that of the current effect, in its variable.
      rintro j rfl
      obtain ⟨hj, f, hf, htimer⟩ := h.timer i j hi
      cases hcurrent.symm.trans hj
      cases he.symm.trans hf
      exact hcleared htimer

theorem Closes.pathOf {s s' : Hook} (h : Closes s s') {r : Request} (hr : PathOf s r) :
    PathOf s' r := by
  obtain ⟨taskId, hid, hpath⟩ := hr
  exact ⟨taskId, (h.taskIdOf _).trans hid, hpath⟩

theorem Closes.sound {s s' : Hook} (h : Closes s s') (hsound : Sound s) : Sound s' where
  fresh i w hi := h.kept.1 ▸ hsound.fresh i w (h.waiting i w hi).1
  path i r hi := h.pathOf (hsound.path i r (h.waiting i _ hi).1)
  live j e he := by
    rw [h.current, h.cancelled j e he]
    exact ⟨fun heq => (by cases heq), fun heq => (by cases heq)⟩
  inRange k hk := by cases h.current.symm.trans hk
  timer i k hi := absurd rfl ((h.waiting i _ hi).2 k)
  single _ _ _ _ _ _ hcurrent := by cases h.current.symm.trans hcurrent
  asked r result hr := h.pathOf (hsound.asked r result (h.kept.2.1 ▸ hr))
  going _ _ _ hcurrent := by cases h.current.symm.trans hcurrent
  status := .inl h.shown.1
  error := .inl h.shown.2

/-- The state with a new effect, before its first `tick`. -/
def Hook.begin (s : Hook) (deps : Option Deps) (e : Effect) : Hook :=
  { s with committed := deps, status := none, error := none, current := some s.effects.length,
           effects := s.effects ++ [e] }

theorem pathOf_begin {s : Hook} {r : Request} (h : PathOf s r) (deps : Option Deps) (e : Effect) :
    PathOf (s.begin deps e) r := by
  obtain ⟨taskId, hid, hpath⟩ := h
  refine ⟨taskId, ?_, hpath⟩
  simp only [Hook.taskIdOf, Hook.begin]
  rw [List.getElem?_append_left (PathOf.effect_lt ⟨taskId, hid, hpath⟩)]
  exact hid

theorem sound_begin {s : Hook} (h : Sound s) (hcurrent : s.current = none) (deps : Option Deps)
    {e : Effect} (hlive : e.cancelled = false) : Sound (s.begin deps e) where
  fresh := h.fresh
  path i r hi := pathOf_begin (h.path i r hi) deps e
  live j f hf := by
    simp only [Hook.begin] at hf ⊢
    rcases Nat.lt_trichotomy j s.effects.length with hlt | rfl | hlt
    · rw [List.getElem?_append_left hlt] at hf
      have hcancelled : f.cancelled ≠ false := fun heq => by
        cases hcurrent.symm.trans ((h.live j f hf).mp heq)
      exact ⟨fun heq => absurd heq hcancelled,
        fun heq => absurd (Option.some.inj heq).symm (Nat.ne_of_lt hlt)⟩
    · rw [List.getElem?_concat_length, Option.some.injEq] at hf
      subst hf
      exact ⟨fun _ => rfl, fun _ => hlive⟩
    · rw [List.getElem?_eq_none (by rw [List.length_append]; exact hlt)] at hf
      cases hf
  inRange k hk := by
    cases hk
    simp only [Hook.begin, List.length_append]
    exact Nat.lt_succ_self _
  timer i k hi := by cases hcurrent.symm.trans (h.timer i k hi).1
  single i j w w' hi _ hw :=
    absurd (Option.some.inj hw).symm (Nat.ne_of_lt (h.effect_lt hi))
  asked r result hr := pathOf_begin (h.asked r result hr) deps e
  going i w hi hw := absurd (Option.some.inj hw).symm (Nat.ne_of_lt (h.effect_lt hi))
  status := .inl rfl
  error := .inl rfl

theorem runEffect_cases (s : Hook) (deps : Deps) :
    s.runEffect deps = { s with committed := some deps, status := none, error := none } ∨
      ∃ taskId, s.runEffect deps =
        (s.begin (some deps) ⟨taskId, deps.intervalMs, false, none⟩).tick s.effects.length := by
  unfold Hook.runEffect
  rcases deps.taskId.filter (· ≠ "") with _ | taskId
  · exact .inl rfl
  · exact .inr ⟨taskId, rfl⟩

/-- A new effect begins with nothing waiting, behind all the others. -/
theorem sound_runEffect {s : Hook} (h : Sound s) (hcurrent : s.current = none) (deps : Deps) :
    Sound (s.runEffect deps) := by
  rcases runEffect_cases s deps with heq | ⟨taskId, heq⟩ <;> rw [heq]
  · exact { h with status := .inl rfl, error := .inl rfl }
  · refine sound_tick (sound_begin h hcurrent (some deps) (by rfl)) rfl ?_ ?_
    · exact fun i w hi => Nat.ne_of_lt (h.effect_lt hi)
    · exact fun r result hr heffect =>
        absurd heffect (Nat.ne_of_lt (h.asked r result hr).effect_lt)

theorem runEffect_reset (s : Hook) (deps : Deps) :
    s.cleanup.runEffect deps = s.reset.runEffect deps := by
  unfold Hook.runEffect
  rcases deps.taskId.filter (· ≠ "") with _ | taskId
  · rfl
  · rfl

/-! ## 6. Every run -/

/-- **What a step can do**, each in the states in which it can. -/
inductive Takes (s : Hook) : Event → Hook → Prop
  | render (taskId : Option String) (intervalMs : Int) (hmounted : ¬ s.unmounted = true) :
      Takes s (.render taskId intervalMs) { s with rendered := some ⟨taskId, intervalMs⟩ }
  | unmount (hmounted : ¬ s.unmounted = true) :
      Takes s .unmount { s with rendered := none, unmounted := true }
  | unchanged (hsame : s.rendered = s.committed) : Takes s .effects s
  | change {deps : Deps} (hchanged : s.rendered ≠ s.committed) (hdeps : s.rendered = some deps) :
      Takes s .effects (s.reset.runEffect deps)
  | leave (hchanged : s.rendered ≠ s.committed) (hdeps : s.rendered = none) :
      Takes s .effects { s.reset with committed := none }
  | answer {handle : Nat} {r : Request} (result : ApiResult)
      (hwait : s.waiting.get? handle = some (.request r)) :
      Takes s (.answer handle result) ((s.arrive handle r result).resume r.effect result)
  | fire {handle k : Nat} (hwait : s.waiting.get? handle = some (.timer k)) :
      Takes s (.fire handle) ((s.remove handle).tick k)

theorem step_takes {s s' : Hook} {event : Event} (hstep : step s event = some s') :
    Takes s event s' := by
  cases event with
  | render taskId intervalMs =>
      simp only [step, Option.ite_none_left_eq_some, Option.some.injEq] at hstep
      exact hstep.2 ▸ .render taskId intervalMs hstep.1
  | unmount =>
      simp only [step, Option.ite_none_left_eq_some, Option.some.injEq] at hstep
      exact hstep.2 ▸ .unmount hstep.1
  | effects =>
      simp only [step] at hstep
      by_cases hsame : s.rendered = s.committed
      · rw [if_pos hsame, Option.some.injEq] at hstep
        exact hstep ▸ .unchanged hsame
      rw [if_neg hsame] at hstep
      rcases hrendered : s.rendered with _ | deps <;> rw [hrendered] at hstep <;> cases hstep
      · exact .leave hsame hrendered
      · rw [runEffect_reset]
        exact .change hsame hrendered
  | answer handle result =>
      simp only [step] at hstep
      rcases hwait : s.waiting.get? handle with _ | r | k <;> rw [hwait] at hstep <;> cases hstep
      exact .answer result hwait
  | fire handle =>
      simp only [step] at hstep
      rcases hwait : s.waiting.get? handle with _ | r | k <;> rw [hwait] at hstep <;> cases hstep
      exact .fire hwait

theorem sound_step {s s' : Hook} {event : Event} (h : Sound s) (hstep : step s event = some s') :
    Sound s' := by
  cases step_takes hstep with
  | render => exact { h with }
  | unmount => exact { h with }
  | unchanged => exact h
  | change => exact sound_runEffect ((closes_reset h).sound h) (closes_reset h).current _
  | leave =>
      have hreset := (closes_reset h).sound h
      exact { hreset with }
  | answer result hwait => exact sound_resume h hwait result
  | fire hwait => exact sound_fire h hwait

theorem sound_reaches {s : Hook} (h : Reaches step Unguarded Hook.start s) : Sound s :=
  h.invariant sound_start fun _ _ _ hsound _ hstep => sound_step hsound hstep

/-! ## 7. What a step changes -/

/-- `tick` changes the list of requests only, and what is waiting. -/
theorem tick_frame (s : Hook) (k : Nat) :
    (s.tick k).current = s.current ∧ (s.tick k).effects = s.effects ∧
      (s.tick k).answered = s.answered ∧ (s.tick k).status = s.status ∧
      (s.tick k).error = s.error ∧
      ((s.tick k).issued = s.issued ∨ ∃ r, (s.tick k).issued = s.issued ++ [r] ∧ r.effect = k ∧
        (s.tick k).waiting.get? s.handles = some (.request r)) := by
  rcases tick_cases s k with heq | ⟨e, -, heq⟩ <;> rw [heq]
  · exact ⟨rfl, rfl, rfl, rfl, rfl, .inl rfl⟩
  · exact ⟨rfl, rfl, rfl, rfl, rfl,
      .inr ⟨_, rfl, rfl, OrderedDict.get?_set_self s.waiting s.handles _⟩⟩

theorem resume_frame (s : Hook) (k : Nat) (result : ApiResult) :
    (s.resume k result).current = s.current ∧
      (s.resume k result).effects.length = s.effects.length ∧
      (s.resume k result).answered = s.answered ∧ (s.resume k result).issued = s.issued := by
  obtain ⟨heffects, hcurrent, -, hanswered, hissued⟩ := receive_frame s result
  have hlength := congrArg List.length heffects
  rcases resume_cases s k result with heq | ⟨e, -, -, heq | ⟨-, heq⟩⟩ <;> rw [heq]
  · exact ⟨rfl, rfl, rfl, rfl⟩
  · exact ⟨hcurrent, hlength, hanswered, hissued⟩
  · exact ⟨hcurrent, List.length_set.trans hlength, hanswered, hissued⟩

/-- What `tick` makes of an answer is shown for the current effect only. -/
theorem resume_shown {s : Hook} (h : Sound s) (k : Nat) (result : ApiResult) :
    (s.resume k result).status = s.status ∧ (s.resume k result).error = s.error ∨
      s.current = some k ∧
        ((s.resume k result).status = s.status ∧ (s.resume k result).error = result.error ∨
          (s.resume k result).status = result.data ∧ (s.resume k result).error = s.error) := by
  have hreceive : (s.receive result).status = s.status ∧ (s.receive result).error = s.error ∨
      (s.receive result).status = s.status ∧ (s.receive result).error = result.error ∨
        (s.receive result).status = result.data ∧ (s.receive result).error = s.error := by
    rcases receive_cases s result with heq | heq | heq <;> rw [heq]
    · exact .inl ⟨rfl, rfl⟩
    · exact .inr (.inl ⟨rfl, rfl⟩)
    · exact .inr (.inr ⟨rfl, rfl⟩)
  rcases resume_cases s k result with heq | ⟨e, he, hlive, heq | ⟨-, heq⟩⟩ <;> rw [heq]
  · exact .inl ⟨rfl, rfl⟩
  · exact hreceive.imp_right fun hset => ⟨(h.live k e he).mp hlive, hset⟩
  · exact hreceive.imp_right fun hset => ⟨(h.live k e he).mp hlive, hset⟩

/-- What a step does to the effects, the requests and the answers. -/
structure Moves (event : Event) (s s' : Hook) : Prop where
  issued : s'.issued = s.issued ∨ ∃ i r, s'.issued = s.issued ++ [r] ∧
    s'.waiting.get? i = some (.request r) ∧ s'.current = some r.effect
  answered : ∀ answer ∈ s.answered, answer ∈ s'.answered
  current : s'.effects.length = s.effects.length ∧ (s'.current = s.current ∨ s'.current = none) ∨
    s'.effects.length = s.effects.length + 1 ∧ s'.current = some s.effects.length ∧
      event = .effects ∧ s.rendered ≠ s.committed
  shown : s'.status = s.status ∧ s'.error = s.error ∨
    s'.status = none ∧ s'.error = none ∧ event = .effects ∨
    ∃ handle r result, event = .answer handle result ∧
      s.waiting.get? handle = some (.request r) ∧ s.current = some r.effect ∧
      (s'.status = s.status ∧ s'.error = result.error ∨
        s'.status = result.data ∧ s'.error = s.error)

theorem moves_rendered {event : Event} {s s' : Hook} (heffects : s'.effects = s.effects)
    (hcurrent : s'.current = s.current) (hissued : s'.issued = s.issued)
    (hanswered : s'.answered = s.answered)
    (hshown : s'.status = s.status ∧ s'.error = s.error) : Moves event s s' where
  issued := .inl hissued
  answered _ hmem := hanswered ▸ hmem
  current := .inl ⟨congrArg List.length heffects, .inl hcurrent⟩
  shown := .inl hshown

theorem moves_runEffect {s s₀ : Hook} (hcloses : Closes s s₀) (deps : Deps)
    (hchanged : s.rendered ≠ s.committed) : Moves .effects s (s₀.runEffect deps) := by
  obtain ⟨-, hanswered, hissued⟩ := hcloses.kept
  rcases runEffect_cases s₀ deps with heq | ⟨taskId, heq⟩ <;> rw [heq]
  · exact
      { issued := .inl hissued, answered := fun answer hmem => hanswered ▸ hmem,
        current := .inl ⟨hcloses.length, .inr hcloses.current⟩,
        shown := .inr (.inl ⟨rfl, rfl, rfl⟩) }
  · obtain ⟨hcurrent, heffects, hlog, hstatus, herror, hnew⟩ :=
      tick_frame (s₀.begin (some deps) ⟨taskId, deps.intervalMs, false, none⟩) s₀.effects.length
    refine
      { issued := ?_, answered := fun answer hmem => ?_,
        current := .inr ⟨?_, ?_, rfl, hchanged⟩,
        shown := .inr (.inl ⟨hstatus, herror, rfl⟩) }
    · rcases hnew with hsame | ⟨r, hr, heffect, hwaiting⟩
      · exact .inl (hsame.trans hissued)
      · exact .inr ⟨_, r, hr.trans (congrArg (· ++ [r]) hissued), hwaiting,
          hcurrent.trans (congrArg some heffect.symm)⟩
    · rw [hlog, Hook.begin, hanswered]
      exact hmem
    · refine (congrArg List.length heffects).trans ?_
      simp only [Hook.begin, List.length_append, List.length_singleton, hcloses.length]
    · exact hcurrent.trans (congrArg some hcloses.length)

theorem moves_step {s s' : Hook} {event : Event} (h : Sound s) (hstep : step s event = some s') :
    Moves event s s' := by
  cases step_takes hstep with
  | render => exact moves_rendered rfl rfl rfl rfl ⟨rfl, rfl⟩
  | unmount => exact moves_rendered rfl rfl rfl rfl ⟨rfl, rfl⟩
  | unchanged => exact moves_rendered rfl rfl rfl rfl ⟨rfl, rfl⟩
  | change hchanged => exact moves_runEffect (closes_reset h) _ hchanged
  | leave =>
      have hcloses := closes_reset h
      obtain ⟨-, hanswered, hissued⟩ := hcloses.kept
      exact
        { issued := .inl hissued, answered := fun answer hmem => hanswered ▸ hmem,
          current := .inl ⟨hcloses.length, .inr hcloses.current⟩,
          shown := .inr (.inl ⟨hcloses.shown.1, hcloses.shown.2, rfl⟩) }
  | @answer handle r result hwait =>
      obtain ⟨hcurrent, hlength, hanswered, hissued⟩ :=
        resume_frame (s.arrive handle r result) r.effect result
      have hpath := h.path handle r hwait
      have harrive : Sound (s.arrive handle r result) :=
        sound_answered (sound_remove h handle) result hpath (free_remove h hwait)
      refine
        { issued := .inl hissued, answered := fun answer hmem => ?_,
          current := .inl ⟨hlength, .inl hcurrent⟩, shown := ?_ }
      · rw [hanswered]
        exact List.mem_append_left _ hmem
      · rcases resume_shown harrive r.effect result with hsame | ⟨hcurrent, hset⟩
        · exact .inl hsame
        · exact .inr (.inr ⟨handle, r, result, rfl, hwait, hcurrent, hset⟩)
  | @fire handle k hwait =>
      obtain ⟨hcurrent, heffects, hanswered, hstatus, herror, hnew⟩ :=
        tick_frame (s.remove handle) k
      refine
        { issued := ?_, answered := fun answer hmem => hanswered ▸ hmem,
          current := .inl ⟨congrArg List.length heffects, .inl hcurrent⟩,
          shown := .inl ⟨hstatus, herror⟩ }
      rcases hnew with hsame | ⟨r, hr, heffect, hwaiting⟩
      · exact .inl hsame
      · exact .inr ⟨_, r, hr, hwaiting,
          hcurrent.trans ((h.timer handle k hwait).1.trans (congrArg some heffect.symm))⟩

/-! ## 8. Effects that are over -/

/-- The effect is no longer the current one, or an answer has ended it. -/
def Over (s : Hook) (k : Nat) : Prop :=
  k < s.effects.length ∧ s.current ≠ some k ∨
    ∃ r result, (r, result) ∈ s.answered ∧ r.effect = k ∧ Hook.ends result = true

theorem over_step {s s' : Hook} {event : Event} (hmoves : Moves event s s') {k : Nat}
    (h : Over s k) : Over s' k := by
  rcases h with ⟨hlt, hother⟩ | ⟨r, result, hmem, hrest⟩
  · rcases hmoves.current with ⟨hlength, hcurrent | hcurrent⟩ | ⟨hlength, hcurrent, -⟩
    · exact .inl ⟨hlength ▸ hlt, hcurrent ▸ hother⟩
    · exact .inl ⟨hlength ▸ hlt, fun heq => by cases hcurrent.symm.trans heq⟩
    · refine .inl ⟨hlength ▸ Nat.lt_succ_of_lt hlt, fun heq => ?_⟩
      exact Nat.ne_of_lt hlt (Option.some.inj (hcurrent.symm.trans heq)).symm
  · exact .inr ⟨r, result, hmoves.answered _ hmem, hrest⟩

theorem not_over_of_waiting {s : Hook} (h : Sound s) {i : Nat} {w : Wait}
    (hi : s.waiting.get? i = some w) (hcurrent : s.current = some w.effect) :
    ¬ Over s w.effect := by
  rintro (⟨-, hother⟩ | ⟨r, result, hmem, heffect, hends⟩)
  · exact hother hcurrent
  · exact Bool.false_ne_true ((h.going i w hi hcurrent r result hmem heffect).symm.trans hends)

/-- **An effect that is over asks for nothing more**, in any continuation of the run. -/
theorem over_reaches {s s' : Hook} (h : Sound s) (hreach : Reaches step Unguarded s s') {k : Nat}
    (hover : Over s k) :
    Sound s' ∧ Over s' k ∧ ∃ new, s'.issued = s.issued ++ new ∧ ∀ r ∈ new, r.effect ≠ k := by
  induction hreach with
  | start => exact ⟨h, hover, [], (List.append_nil _).symm, List.forall_mem_nil _⟩
  | step _ _ hstep ih =>
      obtain ⟨hsound, hover, new, hissued, hnew⟩ := ih
      have hmoves := moves_step hsound hstep
      have hsound' := sound_step hsound hstep
      have hover' := over_step hmoves hover
      refine ⟨hsound', hover', ?_⟩
      rcases hmoves.issued with hsame | ⟨i, r, hr, hwaiting, hcurrent⟩
      · exact ⟨new, hsame.trans hissued, hnew⟩
      · refine ⟨new ++ [r], by rw [hr, hissued, List.append_assoc], ?_⟩
        rw [List.forall_mem_append]
        refine ⟨hnew, fun r' hr' heffect => ?_⟩
        cases List.mem_singleton.mp hr'
        have hnot := not_over_of_waiting hsound' hwaiting hcurrent
        exact absurd hover' (heffect ▸ hnot)

/-! ## 9. After unmounting -/

/-- The dependencies and the current effect go with the component. -/
def Dependent (s : Hook) : Prop :=
  (s.unmounted = true → s.rendered = none) ∧ (s.committed = none → s.current = none)

theorem tick_deps (s : Hook) (k : Nat) : (s.tick k).rendered = s.rendered ∧
    (s.tick k).committed = s.committed ∧ (s.tick k).unmounted = s.unmounted := by
  rcases tick_cases s k with heq | ⟨e, -, heq⟩ <;> rw [heq] <;> exact ⟨rfl, rfl, rfl⟩

theorem resume_deps (s : Hook) (k : Nat) (result : ApiResult) :
    (s.resume k result).rendered = s.rendered ∧ (s.resume k result).committed = s.committed ∧
      (s.resume k result).unmounted = s.unmounted := by
  have hreceive : (s.receive result).rendered = s.rendered ∧
      (s.receive result).committed = s.committed ∧
      (s.receive result).unmounted = s.unmounted := by
    rcases receive_cases s result with heq | heq | heq <;> rw [heq] <;> exact ⟨rfl, rfl, rfl⟩
  rcases resume_cases s k result with heq | ⟨e, -, -, heq | ⟨-, heq⟩⟩ <;> rw [heq]
  · exact ⟨rfl, rfl, rfl⟩
  · exact hreceive
  · exact hreceive

theorem dependent_step {s s' : Hook} {event : Event} (hsound : Sound s) (h : Dependent s)
    (hstep : step s event = some s') : Dependent s' := by
  obtain ⟨hunmounted, hcommitted⟩ := h
  have hcloses := closes_reset hsound
  cases step_takes hstep with
  | render _ _ hmounted => exact ⟨fun hgone => absurd hgone hmounted, hcommitted⟩
  | unmount => exact ⟨fun _ => rfl, hcommitted⟩
  | unchanged => exact ⟨hunmounted, hcommitted⟩
  | leave _ hdeps => exact ⟨fun _ => hcloses.mounted.1.trans hdeps, fun _ => hcloses.current⟩
  | @change deps _ hdeps =>
      have hmounted : s.unmounted ≠ true := fun hgone => by
        cases hdeps.symm.trans (hunmounted hgone)
      rcases runEffect_cases s.reset deps with heq | ⟨taskId, heq⟩ <;> rw [heq]
      · exact ⟨fun hgone => absurd (hcloses.mounted.2.symm.trans hgone) hmounted,
          fun hnone => by cases hnone⟩
      · obtain ⟨-, hdeps', hgone'⟩ := tick_deps
          (s.reset.begin (some deps) ⟨taskId, deps.intervalMs, false, none⟩)
          s.reset.effects.length
        refine ⟨fun hgone => ?_, fun hnone => ?_⟩
        · exact absurd (hcloses.mounted.2.symm.trans (hgone'.symm.trans hgone)) hmounted
        · cases hdeps'.symm.trans hnone
  | @answer handle r result hwait =>
      obtain ⟨hrendered, hcommitted', hunmounted'⟩ :=
        resume_deps (s.arrive handle r result) r.effect result
      have hcurrent := (resume_frame (s.arrive handle r result) r.effect result).1
      exact ⟨fun hgone => hrendered.trans (hunmounted (hunmounted'.symm.trans hgone)),
        fun hnone => hcurrent.trans (hcommitted (hcommitted'.symm.trans hnone))⟩
  | @fire handle k hwait =>
      obtain ⟨hrendered, hcommitted', hunmounted'⟩ := tick_deps (s.remove handle) k
      have hcurrent := (tick_frame (s.remove handle) k).1
      exact ⟨fun hgone => hrendered.trans (hunmounted (hunmounted'.symm.trans hgone)),
        fun hnone => hcurrent.trans (hcommitted (hcommitted'.symm.trans hnone))⟩

/-- Once the cleanup of the unmounting has run, nothing is asked for any more. -/
theorem unmounted_reaches {s s' : Hook} (h : Sound s) (hdependent : Dependent s)
    (hunmounted : s.unmounted = true) (hcommitted : s.committed = none)
    (hreach : Reaches step Unguarded s s') :
    Sound s' ∧ Dependent s' ∧ s'.unmounted = true ∧ s'.committed = none ∧
      s'.issued = s.issued := by
  induction hreach with
  | start => exact ⟨h, hdependent, hunmounted, hcommitted, rfl⟩
  | @step s₁ s₂ event _ _ hstep ih =>
      obtain ⟨hsound, hdependent₁, hunmounted₁, hcommitted₁, hissued⟩ := ih
      refine ⟨sound_step hsound hstep, dependent_step hsound hdependent₁ hstep, ?_⟩
      have hrendered := hdependent₁.1 hunmounted₁
      cases step_takes hstep with
      | render _ _ hmounted => exact absurd hunmounted₁ hmounted
      | unmount hmounted => exact absurd hunmounted₁ hmounted
      | unchanged => exact ⟨hunmounted₁, hcommitted₁, hissued⟩
      | change hchanged => exact absurd (hrendered.trans hcommitted₁.symm) hchanged
      | leave hchanged => exact absurd (hrendered.trans hcommitted₁.symm) hchanged
      | @answer handle r result hwait =>
          obtain ⟨-, hdeps, hgone⟩ := resume_deps (s₁.arrive handle r result) r.effect result
          obtain ⟨-, -, -, hsame⟩ := resume_frame (s₁.arrive handle r result) r.effect result
          exact ⟨hgone.trans hunmounted₁, hdeps.trans hcommitted₁, hsame.trans hissued⟩
      | fire hwait =>
          -- A timer belongs to the current effect, and there is none.
          cases (hdependent₁.2 hcommitted₁).symm.trans (hsound.timer _ _ hwait).1

/-! ## 10. One task at a time -/

/-- What holds of the hook in a state, its next step and its whole future. -/
structure Isolated (s : Hook) : Prop where
  /-- Only an answer to a request of the current effect for its own task sets the state; a
      change of the effect resets it. -/
  sets : ∀ event s', step s event = some s' →
    s'.status = s.status ∧ s'.error = s.error ∨
      s'.status = none ∧ s'.error = none ∧ event = .effects ∨
      ∃ handle r result, event = .answer handle result ∧
        s.waiting.get? handle = some (.request r) ∧ s.current = some r.effect ∧ PathOf s r ∧
        (s'.status = s.status ∧ s'.error = result.error ∨
          s'.status = result.data ∧ s'.error = s.error)
  shown : FromCurrent s ApiResult.data s.status ∧ FromCurrent s ApiResult.error s.error
  /-- The current effect awaits one request or has set one timer, if any. -/
  single : ∀ i j w w', s.waiting.get? i = some w → s.waiting.get? j = some w' →
    s.current = some w.effect → w'.effect = w.effect → i = j
  timers : ∀ i k, s.waiting.get? i = some (.timer k) → s.current = some k
  /-- A request is issued by the effect that is then the current one, for its own task. -/
  issues : ∀ event s', step s event = some s' → s'.issued = s.issued ∨
    ∃ r, s'.issued = s.issued ++ [r] ∧ s'.current = some r.effect ∧ PathOf s' r
  /-- A new effect takes changed dependencies. -/
  begins : ∀ event s', step s event = some s' → s'.effects.length = s.effects.length ∨
    event = .effects ∧ s.rendered ≠ s.committed
  stops : ∀ k, Over s k → ∀ s', Reaches step Unguarded s s' →
    ∃ new, s'.issued = s.issued ++ new ∧ ∀ r ∈ new, r.effect ≠ k
  unmounts : s.unmounted = true → s.committed = none →
    ∀ s', Reaches step Unguarded s s' → s'.issued = s.issued

/-- **One task at a time.**  In every run, whatever the order of its events. -/
theorem poll_isolated {s : Hook} (h : Reaches step Unguarded Hook.start s) : Isolated s := by
  obtain ⟨hsound, hdependent⟩ : Sound s ∧ Dependent s := by
    induction h with
    | start => exact ⟨sound_start, fun _ => rfl, fun _ => rfl⟩
    | step _ _ hstep ih => exact ⟨sound_step ih.1 hstep, dependent_step ih.1 ih.2 hstep⟩
  refine
    { sets := ?_, shown := ⟨hsound.status, hsound.error⟩, single := hsound.single,
      timers := fun i k hi => (hsound.timer i k hi).1, issues := ?_, begins := ?_,
      stops := fun k hover s' hreach => (over_reaches hsound hreach hover).2.2,
      unmounts := fun hunmounted hcommitted s' hreach =>
        (unmounted_reaches hsound hdependent hunmounted hcommitted hreach).2.2.2.2 }
  · intro event s' hstep
    rcases (moves_step hsound hstep).shown with hsame | hreset |
      ⟨handle, r, result, hevent, hwait, hcurrent, hset⟩
    · exact .inl hsame
    · exact .inr (.inl hreset)
    · exact .inr (.inr ⟨handle, r, result, hevent, hwait, hcurrent, hsound.path handle r hwait,
        hset⟩)
  · intro event s' hstep
    rcases (moves_step hsound hstep).issued with hsame | ⟨i, r, hr, hwaiting, hcurrent⟩
    · exact .inl hsame
    · exact .inr ⟨r, hr, hcurrent, (sound_step hsound hstep).path i r hwaiting⟩
  · intro event s' hstep
    rcases (moves_step hsound hstep).current with ⟨hlength, -⟩ | ⟨-, -, hevent, hchanged⟩
    · exact .inl hlength
    · exact .inr ⟨hevent, hchanged⟩

/-- What a task that is done is answered with. -/
def done : ApiResult := ⟨some (.obj [("status", .str "done")]), none⟩

/-- A task is polled until it is done. -/
def pollUntilDone : List Event := [.render (some "a1") 2000, .effects, .answer 0 done]

theorem poll_isolated_done :
    ∃ s, Reaches step Unguarded Hook.start s ∧ Over s 0 ∧ Isolated s := by
  have hreach : Reaches step Unguarded Hook.start _ :=
    play_get_reaches pollUntilDone (by decide +kernel)
  refine ⟨_, hreach, .inr ⟨⟨0, resultPath "a1"⟩, done, ?_, rfl, by decide +kernel⟩,
    poll_isolated hreach⟩
  exact List.mem_singleton.mpr rfl

/-- No request for the task of an effect that is over, by whatever effect. -/
def NeverAgain (s : Hook) : Prop :=
  ∀ k taskId, s.taskIdOf k = some taskId → Over s k → ∀ s', Reaches step Unguarded s s' →
    ∀ new, s'.issued = s.issued ++ new → ∀ r ∈ new, r.path ≠ resultPath taskId

/-- What a task that is not is answered with. -/
def running : ApiResult := ⟨some (.obj [("status", .str "running")]), none⟩

/-- The page has rendered another task id; its effect, and the cleanup of the last one, are to
    come. -/
def renderedAnother : List Event :=
  [.render (some "a1") 2000, .effects, .answer 0 running, .render (some "b1") 2000]

/-- **A new interval asks again** for a task that is done, for the interval is a dependency of the
    effect; and **between a rendering and the cleanup** the timer of the old effect asks for the
    old task. -/
theorem new_interval_asks_again :
    (∃ s, Reaches step Unguarded Hook.start s ∧ ¬ NeverAgain s) ∧
      ∃ s s', Reaches step Unguarded Hook.start s ∧ s.rendered = some ⟨some "b1", 2000⟩ ∧
        s.taskIdOf 0 = some "a1" ∧ step s (.fire 1) = some s' ∧
        s'.issued = s.issued ++ [⟨0, resultPath "a1"⟩] := by
  constructor
  · have hreach : Reaches step Unguarded Hook.start _ :=
      play_get_reaches pollUntilDone (by decide +kernel)
    refine ⟨_, hreach, fun hnever => ?_⟩
    have hagain : Reaches step Unguarded _ _ :=
      @play_get_reaches _ _ step Unguarded
        ((play step Unguarded Hook.start pollUntilDone).get (by decide +kernel)) _
        [.render (some "a1") 1000, .effects] (by decide +kernel)
    refine hnever 0 "a1" rfl (.inr ⟨⟨0, resultPath "a1"⟩, done, ?_, rfl, by decide +kernel⟩) _
      hagain [⟨1, resultPath "a1"⟩] rfl _ (List.mem_singleton.mpr rfl) rfl
    exact List.mem_singleton.mpr rfl
  · have hreach : Reaches step Unguarded Hook.start _ :=
      play_get_reaches renderedAnother (by decide +kernel)
    exact ⟨_, _, hreach, rfl, rfl, rfl, rfl⟩

end FundingTool.TaskPoll
