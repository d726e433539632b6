import FundingTool.PollIsolation

/-!
# A poll goes on

`PollIsolation` says that the current effect awaits one thing at most.  Here it awaits one as
long as no answer has ended it, and what has ended it is shown: the hook never stalls.
-/

namespace FundingTool.TaskPoll

open FundingTool.Api (ApiResult truthy)
open FundingTool.TransitionSystem

/-! ## 1. The invariant -/

/-- What an answer that ends an effect leaves on the screen. -/
def Shows (s : Hook) (result : ApiResult) : Prop :=
  (truthy result.error = true → s.error = result.error) ∧
    (truthy result.error = false → s.status = result.data)

/-- The effect awaits something, or an answer has ended it. -/
def Awaits (s : Hook) (k : Nat) : Prop := ∃ handle w, s.waiting.get? handle = some w ∧ w.effect = k

def Ended (s : Hook) (k : Nat) : Prop :=
  ∃ r result, (r, result) ∈ s.answered ∧ r.effect = k ∧ Hook.ends result = true

structure Lively (s : Hook) : Prop where
  going : ∀ k, s.current = some k → Awaits s k ∨ Ended s k
  shown : ∀ r result, (r, result) ∈ s.answered → s.current = some r.effect →
    Hook.ends result = true → Shows s result

theorem lively_start : Lively Hook.start where
  going _ h := by cases h
  shown _ _ h := by cases h

theorem lively_of_none {s : Hook} (h : s.current = none) : Lively s where
  going k hk := by cases h.symm.trans hk
  shown r _ _ hr := by cases h.symm.trans hr

/-! ## 2. One step -/

/-- A `tick` of a live effect sends a request. -/
theorem awaits_tick {s : Hook} {k : Nat} {e : Effect} (he : s.effects[k]? = some e)
    (hlive : e.cancelled = false) : Awaits (s.tick k) k := by
  have htick : s.tick k = s.request ⟨k, resultPath e.taskId⟩ := by
    simp only [Hook.tick, he, hlive, Bool.false_eq_true, if_false]
  rw [htick]
  exact ⟨s.handles, .request ⟨k, resultPath e.taskId⟩, OrderedDict.get?_set_self _ _ _, rfl⟩

theorem lively_runEffect {s : Hook} (h : Sound s) (hcurrent : s.current = none) (deps : Deps) :
    Lively (s.runEffect deps) := by
  rcases runEffect_cases s deps with heq | ⟨taskId, heq⟩ <;> rw [heq]
  · exact lively_of_none hcurrent
  · have hcurrent' := (tick_frame (s.begin (some deps) ⟨taskId, deps.intervalMs, false, none⟩)
      s.effects.length).1
    have hanswered := (tick_frame (s.begin (some deps) ⟨taskId, deps.intervalMs, false, none⟩)
      s.effects.length).2.2.1
    have hbegin : (s.begin (some deps) ⟨taskId, deps.intervalMs, false, none⟩).effects[
        s.effects.length]? = some ⟨taskId, deps.intervalMs, false, none⟩ :=
      List.getElem?_concat_length
    refine ⟨fun k hk => ?_, fun r result hr hlast => ?_⟩
    · cases hcurrent'.symm.trans hk
      exact .inl (awaits_tick hbegin (by rfl))
    · rw [hanswered] at hr
      have heffect := Option.some.inj (hcurrent'.symm.trans hlast)
      exact absurd heffect.symm (Nat.ne_of_lt (h.asked r result hr).effect_lt)

/-- What an answer does to a live effect. -/
theorem resume_live {s : Hook} {k : Nat} {e : Effect} (he : s.effects[k]? = some e)
    (hlive : e.cancelled = false) (result : ApiResult) :
    s.resume k result =
      if Hook.ends result then s.receive result else (s.receive result).setTimer k e := by
  simp only [Hook.resume, he, hlive, Bool.false_eq_true, if_false]

theorem shows_receive {s : Hook} {result : ApiResult} (hends : Hook.ends result = true) :
    Shows (s.receive result) result := by
  unfold Hook.receive Shows
  by_cases herror : truthy result.error = true
  · rw [if_pos herror]
    exact ⟨fun _ => rfl, fun hfalse => absurd (herror.symm.trans hfalse) (by decide)⟩
  · have hdata : truthy result.data = true := by
      rw [Hook.ends, Bool.or_eq_true, Bool.and_eq_true] at hends
      exact (hends.resolve_left herror).1
    rw [if_neg herror, if_pos hdata]
    exact ⟨fun htrue => absurd htrue herror, fun _ => rfl⟩

/-- An answer to an effect that has been cancelled changes nothing that is shown or awaited. -/
theorem resume_other {s : Hook} (h : Sound s) {r : Request} (hother : s.current ≠ some r.effect)
    (handle : Nat) (result : ApiResult) :
    (s.arrive handle r result).resume r.effect result = s.arrive handle r result := by
  rcases resume_cases (s.arrive handle r result) r.effect result with heq | ⟨e, he, hlive, -⟩
  · exact heq
  · exact absurd ((h.live _ e he).mp hlive) hother

theorem lively_answer {s : Hook} (hsound : Sound s) (h : Lively s) {handle : Nat} {r : Request}
    (hwait : s.waiting.get? handle = some (.request r)) (result : ApiResult) :
    Lively ((s.arrive handle r result).resume r.effect result) := by
  obtain ⟨hcurrent, -, hanswered, -⟩ := resume_frame (s.arrive handle r result) r.effect result
  have hmem : (r, result) ∈ s.answered ++ [(r, result)] :=
    List.mem_append_right _ (List.mem_singleton.mpr rfl)
  by_cases hown : s.current = some r.effect
  · -- The answer is for the current effect: it ends it, or the next timer is set.
    have hlt := hsound.inRange _ hown
    have he : s.effects[r.effect]? = some s.effects[r.effect] := List.getElem?_eq_getElem hlt
    have hlive := (hsound.live _ _ he).mpr hown
    have hold : ∀ r' result', (r', result') ∈ s.answered → r'.effect = r.effect →
        Hook.ends result' = false := hsound.going handle (.request r) hwait hown
    have hresume := @resume_live (s.arrive handle r result) r.effect _ he hlive result
    by_cases hends : Hook.ends result = true
    · rw [if_pos hends] at hresume
      refine ⟨fun k hk => .inr ⟨r, result, hanswered ▸ hmem, ?_, hends⟩,
        fun r' result' hr' hlast hends' => ?_⟩
      · exact Option.some.inj (hown.symm.trans (hcurrent.symm.trans hk))
      · rw [hanswered] at hr'
        rcases List.mem_append.mp hr' with hr' | hr'
        · have heffect := Option.some.inj ((hcurrent.symm.trans hlast).symm.trans hown)
          cases (hold r' result' hr' heffect).symm.trans hends'
        · cases List.mem_singleton.mp hr'
          rw [hresume]
          exact shows_receive hends
    · rw [if_neg hends] at hresume
      refine ⟨fun k hk => .inl ?_, fun r' result' hr' hlast hends' => ?_⟩
      · cases hown.symm.trans (hcurrent.symm.trans hk)
        rw [hresume]
        exact ⟨_, .timer r.effect, OrderedDict.get?_set_self _ _ _, rfl⟩
      · rw [hanswered] at hr'
        rcases List.mem_append.mp hr' with hr' | hr'
        · have heffect := Option.some.inj ((hcurrent.symm.trans hlast).symm.trans hown)
          cases (hold r' result' hr' heffect).symm.trans hends'
        · cases List.mem_singleton.mp hr'
          exact absurd hends' hends
  · rw [resume_other hsound hown]
    refine ⟨fun k hk => ?_, fun r' result' hr' hlast hends' => ?_⟩
    · rcases h.going k hk with ⟨other, w, hother, heffect⟩ | ⟨r', result', hr', hrest⟩
      · refine .inl ⟨other, w, ?_, heffect⟩
        have hne : other ≠ handle := by
          rintro rfl
          cases hwait.symm.trans hother
          exact hown (hk.trans (congrArg some heffect.symm))
        exact (OrderedDict.get?_erase_ne _ hne).trans hother
      · exact .inr ⟨r', result', List.mem_append_left _ hr', hrest⟩
    · rcases List.mem_append.mp hr' with hr' | hr'
      · exact h.shown r' result' hr' hlast hends'
      · cases List.mem_singleton.mp hr'
        exact absurd hlast hown

theorem lively_fire {s : Hook} (hsound : Sound s) {handle k : Nat}
    (hwait : s.waiting.get? handle = some (.timer k)) : Lively ((s.remove handle).tick k) := by
  obtain ⟨hcurrent, e, he, -⟩ := hsound.timer handle k hwait
  obtain ⟨hcurrent', -, hanswered, -⟩ := tick_frame (s.remove handle) k
  have hlive := (hsound.live k e he).mpr hcurrent
  refine ⟨fun j hj => .inl ?_, fun r result hr hlast hends => ?_⟩
  · cases hcurrent.symm.trans (hcurrent'.symm.trans hj)
    exact awaits_tick he hlive
  · rw [hanswered] at hr
    have heffect := Option.some.inj ((hcurrent'.symm.trans hlast).symm.trans hcurrent)
    cases (hsound.going handle (.timer k) hwait hcurrent r result hr heffect).symm.trans hends

theorem lively_step {s s' : Hook} {event : Event} (hsound : Sound s) (h : Lively s)
    (hstep : step s event = some s') : Lively s' := by
  cases step_takes hstep with
  | render => exact { h with }
  | unmount => exact { h with }
  | unchanged => exact h
  | change =>
      have hcloses := closes_reset hsound
      exact lively_runEffect (hcloses.sound hsound) hcloses.current _
  | leave => exact lively_of_none (closes_reset hsound).current
  | answer result hwait => exact lively_answer hsound h hwait result
  | fire hwait => exact lively_fire hsound hwait

/-! ## 3. Every run -/

theorem lively_reaches {s : Hook} (h : Reaches step Unguarded Hook.start s) :
    Sound s ∧ Lively s := by
  induction h with
  | start => exact ⟨sound_start, lively_start⟩
  | step _ _ hstep ih => exact ⟨sound_step ih.1 hstep, lively_step ih.1 ih.2 hstep⟩

/-- **A poll never stalls.**  In every run the current effect awaits exactly one request or timer,
    or an answer has ended it, and that answer is what is shown. -/
theorem poll_never_stalls {s : Hook} (h : Reaches step Unguarded Hook.start s) {k : Nat}
    (hcurrent : s.current = some k) :
    (∃ handle w, s.waiting.get? handle = some w ∧ w.effect = k ∧
        ∀ other w', s.waiting.get? other = some w' → w'.effect = k → other = handle) ∨
      ∃ r result, (r, result) ∈ s.answered ∧ r.effect = k ∧ Hook.ends result = true ∧
        Shows s result := by
  obtain ⟨hsound, hlively⟩ := lively_reaches h
  rcases hlively.going k hcurrent with ⟨handle, w, hwait, heffect⟩ | ⟨r, result, hr, heffect, hends⟩
  · refine .inl ⟨handle, w, hwait, heffect, fun other w' hother heffect' => ?_⟩
    exact (hsound.single handle other w w' hwait hother (heffect.symm ▸ hcurrent)
      (heffect'.trans heffect.symm)).symm
  · exact .inr ⟨r, result, hr, heffect, hends,
      hlively.shown r result hr (heffect.symm ▸ hcurrent) hends⟩

/-- A poll that awaits its first request, and one that an answer has ended. -/
theorem poll_never_stalls_waiting :
    (∃ s, Reaches step Unguarded Hook.start s ∧ s.current = some 0 ∧
      ((∃ handle w, s.waiting.get? handle = some w ∧ w.effect = 0 ∧
          ∀ other w', s.waiting.get? other = some w' → w'.effect = 0 → other = handle) ∨
        ∃ r result, (r, result) ∈ s.answered ∧ r.effect = 0 ∧ Hook.ends result = true ∧
          Shows s result)) ∧
      ∃ s, Reaches step Unguarded Hook.start s ∧ s.current = some 0 ∧
        ∃ r result, (r, result) ∈ s.answered ∧ r.effect = 0 ∧ Hook.ends result = true ∧
          Shows s result := by
  constructor
  · have hreach : Reaches step Unguarded Hook.start _ :=
      play_get_reaches [.render (some "a1") 2000, .effects] (by decide +kernel)
    exact ⟨_, hreach, rfl, poll_never_stalls hreach rfl⟩
  · have hreach : Reaches step Unguarded Hook.start _ :=
      play_get_reaches pollUntilDone (by decide +kernel)
    refine ⟨_, hreach, rfl, ?_⟩
    rcases poll_never_stalls hreach (k := 0) rfl with ⟨handle, w, hwait, -⟩ | hanswered
    · -- the only request has been answered
      cases hwait
    · exact hanswered

/-! ## 4. What a step keeps -/

/-- The task id has been rendered last. -/
def Wants (s : Hook) (taskId : String) : Prop :=
  ∃ deps, s.rendered = some deps ∧ deps.taskId = some taskId

/-- Handles are not used again, and effects keep their tasks; a new one takes the task that has
    been rendered. -/
structure Grows (s s' : Hook) : Prop where
  handles : s.handles ≤ s'.handles
  waiting : ∀ handle w, s'.waiting.get? handle = some w → handle < s.handles →
    s.waiting.get? handle = some w
  taskIdOf : ∀ k taskId, s.taskIdOf k = some taskId → s'.taskIdOf k = some taskId
  begun : ∀ k taskId, s'.taskIdOf k = some taskId → s.taskIdOf k = some taskId ∨ Wants s taskId

/-- The same without a rendering. -/
structure Keeps (s s' : Hook) : Prop extends Grows s s' where
  rendered : s'.rendered = s.rendered

theorem Keeps.refl (s : Hook) : Keeps s s where
  handles := Nat.le_refl _
  waiting _ _ h _ := h
  taskIdOf _ _ h := h
  begun _ _ h := .inl h
  rendered := rfl

theorem Keeps.trans {s₁ s₂ s₃ : Hook} (h : Keeps s₁ s₂) (h' : Keeps s₂ s₃) : Keeps s₁ s₃ where
  handles := Nat.le_trans h.handles h'.handles
  waiting handle w hw hlt :=
    h.waiting handle w (h'.waiting handle w hw (Nat.lt_of_lt_of_le hlt h.handles)) hlt
  taskIdOf k taskId hk := h'.taskIdOf k taskId (h.taskIdOf k taskId hk)
  begun k taskId hk := by
    rcases h'.begun k taskId hk with hk | ⟨deps, hdeps, htask⟩
    · exact h.begun k taskId hk
    · exact .inr ⟨deps, h.rendered.symm.trans hdeps, htask⟩
  rendered := h'.rendered.trans h.rendered

/-- A step that does not touch the tasks of the effects. -/
theorem keeps_of_effects {s s' : Hook} (hhandles : s.handles ≤ s'.handles)
    (hwaiting : ∀ handle w, s'.waiting.get? handle = some w → handle < s.handles →
      s.waiting.get? handle = some w)
    (heffects : ∀ k, s'.taskIdOf k = s.taskIdOf k) (hrendered : s'.rendered = s.rendered) :
    Keeps s s' where
  handles := hhandles
  waiting := hwaiting
  taskIdOf k _ hk := (heffects k).trans hk
  begun k _ hk := .inl ((heffects k).symm.trans hk)
  rendered := hrendered

/-- What is put under a new handle is under no old one. -/
theorem get?_set_old {d : OrderedDict Nat Wait} {handle next : Nat} {w w' : Wait}
    (h : (d.set next w).get? handle = some w') (hlt : handle < next) :
    d.get? handle = some w' := by
  rcases get?_set_some h with ⟨rfl, -⟩ | ⟨-, h⟩
  · exact absurd hlt (Nat.lt_irrefl _)
  · exact h

theorem keeps_remove (s : Hook) (handle : Nat) : Keeps s (s.remove handle) :=
  keeps_of_effects (Nat.le_refl _) (fun _ _ h _ => (get?_erase_some h).2) (fun _ => rfl) rfl

theorem keeps_tick (s : Hook) (k : Nat) : Keeps s (s.tick k) := by
  rcases tick_cases s k with heq | ⟨e, -, heq⟩ <;> rw [heq]
  · exact .refl s
  · exact keeps_of_effects (Nat.le_succ _) (fun _ _ h hlt => get?_set_old h hlt) (fun _ => rfl) rfl

theorem keeps_receive (s : Hook) (result : ApiResult) : Keeps s (s.receive result) := by
  rcases receive_cases s result with heq | heq | heq <;> rw [heq]
  · exact .refl s
  · exact { Keeps.refl s with }
  · exact { Keeps.refl s with }

theorem keeps_setTimer {s : Hook} {k : Nat} {e : Effect} (he : s.effects[k]? = some e) :
    Keeps s (s.setTimer k e) := by
  have heffects : ∀ j, (s.setTimer k e).taskIdOf j = s.taskIdOf j := by
    intro j
    exact taskIdOf_setEffect he (by rfl) j
  exact keeps_of_effects (Nat.le_succ _) (fun _ _ h hlt => get?_set_old h hlt) heffects rfl

theorem keeps_resume (s : Hook) (k : Nat) (result : ApiResult) :
    Keeps s (s.resume k result) := by
  rcases resume_cases s k result with heq | ⟨e, he, -, heq | ⟨-, heq⟩⟩ <;> rw [heq]
  · exact .refl s
  · exact keeps_receive s result
  · have heffects := (receive_frame s result).1
    exact (keeps_receive s result).trans (keeps_setTimer (heffects ▸ he))

theorem keeps_reset {s : Hook} (h : Sound s) : Keeps s s.reset := by
  have hcloses := closes_reset h
  exact keeps_of_effects (Nat.le_of_eq hcloses.kept.1.symm)
    (fun handle w hw _ => (hcloses.waiting handle w hw).1) hcloses.taskIdOf hcloses.mounted.1

theorem keeps_begin {s : Hook} {deps : Deps} {taskId : String} (hdeps : s.rendered = some deps)
    (htask : deps.taskId = some taskId) (intervalMs : Int) :
    Keeps s (s.begin (some deps) ⟨taskId, intervalMs, false, none⟩) where
  handles := Nat.le_refl _
  waiting _ _ h _ := h
  taskIdOf k other hk := by
    obtain ⟨e, he, hid⟩ := Option.map_eq_some_iff.mp hk
    simp only [Hook.taskIdOf, Hook.begin]
    rw [List.getElem?_append_left (List.getElem?_eq_some_iff.mp he).1, he, Option.map_some, hid]
  begun k other hk := by
    obtain ⟨e, he, hid⟩ := Option.map_eq_some_iff.mp hk
    have hlist : (s.effects ++ [⟨taskId, intervalMs, false, none⟩])[k]? = some e := he
    rcases Nat.lt_or_ge k s.effects.length with hlt | hge
    · rw [List.getElem?_append_left hlt] at hlist
      exact .inl (Option.map_eq_some_iff.mpr ⟨e, hlist, hid⟩)
    · rw [List.getElem?_append_right hge] at hlist
      cases List.mem_singleton.mp (List.mem_of_getElem? hlist)
      exact .inr ⟨deps, hdeps, htask.trans (congrArg some hid)⟩
  rendered := rfl

theorem keeps_runEffect {s : Hook} {deps : Deps} (hdeps : s.rendered = some deps) :
    Keeps s (s.runEffect deps) := by
  unfold Hook.runEffect
  rcases htask : deps.taskId.filter (· ≠ "") with _ | taskId
  · exact { Keeps.refl s with }
  · have hid := (Option.filter_eq_some_iff.mp htask).1
    exact (keeps_begin hdeps hid deps.intervalMs).trans (keeps_tick _ _)

/-- What a step of the hook adds to the answers and the rendering. -/
structure Advances (event : Event) (s s' : Hook) : Prop extends Grows s s' where
  rendered : s'.rendered = s.rendered ∨
    ∀ deps, s'.rendered = some deps → event = .render deps.taskId deps.intervalMs
  answered : s'.answered = s.answered ∨ ∃ handle r result, event = .answer handle result ∧
    s.waiting.get? handle = some (.request r) ∧ s'.answered = s.answered ++ [(r, result)]

theorem Keeps.advances {event : Event} {s s' : Hook} (h : Keeps s s')
    (hanswered : s'.answered = s.answered) : Advances event s s' :=
  { h.toGrows with rendered := .inl h.rendered, answered := .inl hanswered }

theorem advances_step {s s' : Hook} {event : Event} (h : Sound s)
    (hstep : step s event = some s') : Advances event s s' := by
  cases step_takes hstep with
  | render taskId intervalMs =>
      refine { (Keeps.refl s).toGrows with rendered := .inr ?_, answered := .inl rfl }
      intro deps hdeps
      cases hdeps
      rfl
  | unmount =>
      refine { (Keeps.refl s).toGrows with rendered := .inr ?_, answered := .inl rfl }
      intro deps hdeps
      cases hdeps
  | unchanged => exact (Keeps.refl s).advances rfl
  | @change deps _ hdeps =>
      have hcloses := closes_reset h
      have hreset := keeps_reset h
      refine (hreset.trans (keeps_runEffect (hcloses.mounted.1.trans hdeps))).advances ?_
      rcases runEffect_cases s.reset deps with heq | ⟨taskId, heq⟩ <;> rw [heq]
      · exact hcloses.kept.2.1
      · exact (tick_frame _ _).2.2.1.trans hcloses.kept.2.1
  | leave =>
      have hcloses := closes_reset h
      have hreset := keeps_reset h
      exact Keeps.advances { hreset with } hcloses.kept.2.1
  | @answer handle r result hwait =>
      obtain ⟨-, -, hanswered, -⟩ := resume_frame (s.arrive handle r result) r.effect result
      have harrive : Keeps s (s.arrive handle r result) := { keeps_remove s handle with }
      have hkeeps := harrive.trans (keeps_resume (s.arrive handle r result) r.effect result)
      exact
        { hkeeps.toGrows with
          rendered := .inl hkeeps.rendered,
          answered := .inr ⟨handle, r, result, rfl, hwait, hanswered⟩ }
  | @fire handle k hwait =>
      exact ((keeps_remove s handle).trans (keeps_tick (s.remove handle) k)).advances
        (tick_frame (s.remove handle) k).2.2.1

/-- An effect that is current has been so since it began. -/
theorem current_before {s s' : Hook} {event : Event} (h : Sound s)
    (hstep : step s event = some s') {k : Nat} (hlt : k < s.effects.length)
    (hcurrent : s'.current = some k) : s.current = some k := by
  rcases (moves_step h hstep).current with ⟨-, hsame | hnone⟩ | ⟨-, hnew, -⟩
  · exact hsame.symm.trans hcurrent
  · cases hnone.symm.trans hcurrent
  · exact absurd (Option.some.inj (hnew.symm.trans hcurrent)) (Nat.ne_of_gt hlt)

/-- A change of the dependencies ends every effect there was. -/
theorem current_runEffect {s : Hook} (h : Sound s) (deps : Deps) {k : Nat}
    (hlt : k < s.effects.length) : (s.reset.runEffect deps).current ≠ some k := by
  intro hcurrent
  have hcloses := closes_reset h
  rcases runEffect_cases s.reset deps with heq | ⟨taskId, heq⟩
  · rw [heq] at hcurrent
    cases hcloses.current.symm.trans hcurrent
  · rw [heq, (tick_frame _ _).1] at hcurrent
    have hnew : s.effects.length = k := hcloses.length.symm.trans (Option.some.inj hcurrent)
    exact absurd hnew (Nat.ne_of_gt hlt)

/-- What the current effect awaits stays until it is answered or fires. -/
theorem wait_kept {s s' : Hook} {event : Event} (h : Sound s) (hstep : step s event = some s')
    {handle : Nat} {w : Wait} (hwait : s.waiting.get? handle = some w)
    (hcurrent : s.current = some w.effect) (hcurrent' : s'.current = some w.effect)
    (hanswer : ∀ result, event ≠ .answer handle result) (hfire : event ≠ .fire handle) :
    s'.waiting.get? handle = some w := by
  cases step_takes hstep with
  | render => exact hwait
  | unmount => exact hwait
  | unchanged => exact hwait
  | change => exact absurd hcurrent' (current_runEffect h _ (h.effect_lt hwait))
  | leave => cases (closes_reset h).current.symm.trans hcurrent'
  | @answer other r result hother =>
      have hne : handle ≠ other := by
        rintro rfl
        exact hanswer result rfl
      have heffect : s.current ≠ some r.effect := by
        intro heq
        have hsame := Option.some.inj (heq.symm.trans hcurrent)
        exact hne (h.single handle other w (.request r) hwait hother hcurrent hsame)
      rw [resume_other h heffect]
      exact (OrderedDict.get?_erase_ne _ hne).trans hwait
  | @fire other k hother =>
      have hne : handle ≠ other := by
        rintro rfl
        exact hfire rfl
      have heffect : k = w.effect :=
        Option.some.inj ((h.timer other k hother).1.symm.trans hcurrent)
      exact absurd (h.single handle other w (.timer k) hwait hother hcurrent heffect) hne

/-- What an effect has ended with is shown as long as it is the current one. -/
theorem shown_kept {s s' : Hook} {event : Event} (h : Sound s) (hstep : step s event = some s')
    {k : Nat} (hended : Ended s k) (hcurrent : s.current = some k)
    (hcurrent' : s'.current = some k) : s'.status = s.status ∧ s'.error = s.error := by
  obtain ⟨r, result, hmem, heffect, hends⟩ := hended
  cases step_takes hstep with
  | render => exact ⟨rfl, rfl⟩
  | unmount => exact ⟨rfl, rfl⟩
  | unchanged => exact ⟨rfl, rfl⟩
  | change => exact absurd hcurrent' (current_runEffect h _ (h.inRange k hcurrent))
  | leave => cases (closes_reset h).current.symm.trans hcurrent'
  | @answer handle r' result' hwait =>
      have hother : s.current ≠ some r'.effect := by
        intro heq
        have hsame := Option.some.inj (hcurrent.symm.trans heq)
        cases (h.going handle _ hwait heq r result hmem (heffect.trans hsame)).symm.trans hends
      rw [resume_other h hother]
      exact ⟨rfl, rfl⟩
  | @fire handle k' hwait =>
      have heq := (h.timer handle k' hwait).1
      have hsame := Option.some.inj (hcurrent.symm.trans heq)
      cases (h.going handle _ hwait heq r result hmem (heffect.trans hsame)).symm.trans hends

theorem ended_step {s s' : Hook} {event : Event} (h : Sound s) (hstep : step s event = some s')
    {k : Nat} (hended : Ended s k) : Ended s' k := by
  obtain ⟨r, result, hmem, hrest⟩ := hended
  exact ⟨r, result, (moves_step h hstep).answered _ hmem, hrest⟩

end FundingTool.TaskPoll
