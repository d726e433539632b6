import FundingTool.AccountRegistry
import Mathlib.Logic.Function.Basic

/-!
# Several processes on one file

Every instance of `AccountStore` reads the file once, when it is constructed, and each of its
methods saves the whole copy.  Nothing is locked: the store is written for a single user, one
process after the other.

Instances here load and call in any order; a method runs without another one in between.  That
is right for calls that all return, for up to its rename such a call changes nothing a load
reads.  Saves that overlap share `accounts.yaml.tmp`: one unlinks what another has opened, a
rename may take what another process has written, and one of them finds nothing to rename and
raises.  An update is lost as soon as a method saves a copy that is stale, and only then: from
that call on no copy ever has both the update it has overwritten and its own.
-/

namespace FundingTool.AccountProcesses

open FundingTool.TransitionSystem FundingTool.Interaction FundingTool.AccountStore
open FundingTool.AccountDurability FundingTool.AccountRegistry

/-! ## 1. A method that returns -/

theorem attempt_ok {data data' : AccountData} {w : WriteOp} {rest : Edit}
    {cs : Nat → AccountChoice} {disk disk' : Disk}
    (h : (attempt data w rest).runWith perform cs disk = (disk', .ok data')) :
    rest.runWith perform (fun n => cs (n + 1)) (w.apply disk) = (disk', .ok data') := by
  unfold attempt at h
  rw [Prog.runWith_call] at h
  rcases houtcome : (cs 0).outcome with _ | _ | _
  · simp only [perform, houtcome] at h
    exact h
  · simp only [perform, houtcome, Prog.runWith_raise, Prod.mk.injEq, reduceCtorEq, and_false] at h
  · simp only [perform, houtcome, Prog.runWith_raise, Prod.mk.injEq, reduceCtorEq, and_false] at h

theorem saveTmp_ok {data data' : AccountData} {cs : Nat → AccountChoice} {disk disk' : Disk}
    (h : (saveTmp data).runWith perform cs disk = (disk', .ok data')) :
    data' = data ∧ disk'.file = some data := by
  have hend := attempt_ok (attempt_ok h)
  simp only [Prog.runWith_ret, Prod.mk.injEq, Except.ok.injEq, WriteOp.apply] at hend
  obtain ⟨rfl, rfl⟩ := hend
  exact ⟨rfl, rfl⟩

/-- The second attempt to open the temporary file, after the first one has found it there. -/
theorem reopenTmp_ok {data data' : AccountData} {cs : Nat → AccountChoice} {disk disk' : Disk}
    (h : (attempt data .unlinkTmp <| .call .openTmp fun r =>
      match r with
      | .ok () => saveTmp data
      | .error _ => .raise (data, .raised)).runWith perform cs disk = (disk', .ok data')) :
    data' = data ∧ disk'.file = some data := by
  have hopen := attempt_ok h
  rw [Prog.runWith_call] at hopen
  rcases houtcome : (cs (0 + 1)).outcome with _ | _ | _
  · simp only [perform, WriteOp.apply, houtcome] at hopen
    exact saveTmp_ok hopen
  · simp only [perform, WriteOp.apply, houtcome, Prog.runWith_raise, Prod.mk.injEq, reduceCtorEq,
      and_false] at hopen
  · simp only [perform, WriteOp.apply, houtcome, Prog.runWith_raise, Prod.mk.injEq, reduceCtorEq,
      and_false] at hopen

/-- **A save that returns** has renamed its own copy into place. -/
theorem save_ok {data data' : AccountData} {cs : Nat → AccountChoice} {disk disk' : Disk}
    (h : (save data).runWith perform cs disk = (disk', .ok data')) :
    data' = data ∧ disk'.file = some data := by
  have hopen := attempt_ok h
  rw [Prog.runWith_call] at hopen
  rcases htmp : disk.tmp with _ | tmp
  · rcases houtcome : (cs (0 + 1)).outcome with _ | _ | _
    · simp only [perform, WriteOp.apply, htmp, houtcome] at hopen
      exact saveTmp_ok hopen
    · simp only [perform, WriteOp.apply, htmp, houtcome, Prog.runWith_raise, Prod.mk.injEq,
        reduceCtorEq, and_false] at hopen
    · simp only [perform, WriteOp.apply, htmp, houtcome, Prog.runWith_raise, Prod.mk.injEq,
        reduceCtorEq, and_false] at hopen
  · simp only [perform, WriteOp.apply, htmp] at hopen
    exact reopenTmp_ok hopen

theorem addStored_ok {data data' : AccountData} {name exchange : String} {creds : ApiCredentials}
    {allowPlaintext : Bool} {createdAt : Int} {verifiedAt : Option Int}
    {cs : Nat → AccountChoice} {disk disk' : Disk}
    (h : (addStored data name exchange creds allowPlaintext createdAt verifiedAt).runWith perform
      cs disk = (disk', .ok data')) :
    (∃ entry, data' = ⟨data.default.or (some name), data.accounts.set name entry⟩) ∧
      disk'.file = some data' := by
  have hentry : ∀ {entry : AccountEntry} {cs : Nat → AccountChoice} {disk : Disk},
      (addEntry data name entry).runWith perform cs disk = (disk', .ok data') →
      (∃ entry, data' = ⟨data.default.or (some name), data.accounts.set name entry⟩) ∧
        disk'.file = some data' := by
    intro entry cs disk hadd
    obtain ⟨hdata, hfile⟩ := save_ok hadd
    exact ⟨⟨entry, hdata⟩, by rw [hfile, hdata]⟩
  unfold addStored at h
  rw [Prog.runWith_call] at h
  obtain ⟨r, hr⟩ : ∃ r : Except Fault (Option String),
      perform (.getPassword "funding-tool" "__probe__") (cs 0) disk = (disk, r) := ⟨_, rfl⟩
  rw [hr] at h
  cases r with
  | ok value => exact hentry (attempt_ok (attempt_ok h))
  | error fault =>
      by_cases hallow : allowPlaintext = true
      · simp only [if_pos hallow] at h
        exact hentry h
      · simp only [if_neg hallow, Prog.runWith_raise, Prod.mk.injEq, reduceCtorEq,
          and_false] at h

/-- **An `add` that returns**: the name was not listed, and now the file is its copy. -/
theorem add_ok {data data' : AccountData} {name exchange : String} {creds : ApiCredentials}
    {verified allowPlaintext : Bool} {cs : Nat → AccountChoice} {disk disk' : Disk}
    (h : (add data name exchange creds verified allowPlaintext).runWith perform cs disk =
      (disk', .ok data')) :
    data.accounts.get? name = none ∧ disk'.file = some data' ∧
      ∃ entry, data'.accounts = data.accounts.set name entry := by
  unfold add at h
  by_cases hname : data.accounts.get? name = none
  · refine ⟨hname, ?_⟩
    rw [if_neg (not_not.mpr hname)] at h
    have hstored : (∃ entry, data' = ⟨data.default.or (some name), data.accounts.set name entry⟩) ∧
        disk'.file = some data' := by
      rw [Prog.runWith_call] at h
      cases verified with
      | false =>
          rw [if_neg Bool.false_ne_true] at h
          exact addStored_ok h
      | true =>
          rw [if_pos rfl, Prog.runWith_call] at h
          exact addStored_ok h
    obtain ⟨⟨entry, hdata⟩, hfile⟩ := hstored
    exact ⟨hfile, entry, by rw [hdata]⟩
  · rw [if_pos hname, Prog.runWith_raise, Prod.mk.injEq] at h
    cases h.2

theorem deleteRefs_ok {data data₁ data' : AccountData} {names : List String}
    {cs : Nat → AccountChoice} {disk disk' : Disk}
    (h : (deleteRefs data (save data₁) names).runWith perform cs disk = (disk', .ok data')) :
    data' = data₁ ∧ disk'.file = some data₁ := by
  induction names generalizing cs disk with
  | nil => exact save_ok h
  | cons ref more ih =>
      unfold deleteRefs at h
      rcases hparse : keyringParse ref with _ | ⟨service, username⟩
      · simp only [hparse, Prog.runWith_raise, Prod.mk.injEq, reduceCtorEq, and_false] at h
      · simp only [hparse, Prog.runWith_call] at h
        exact ih h

/-- **A `remove` that returns**: the name was listed, and now the file is its copy. -/
theorem remove_ok {data data' : AccountData} {name : String} {cs : Nat → AccountChoice}
    {disk disk' : Disk}
    (h : (remove data name).runWith perform cs disk = (disk', .ok data')) :
    data.accounts.get? name ≠ none ∧ disk'.file = some data' ∧
      data'.accounts = data.accounts.erase name := by
  unfold remove at h
  rcases hentry : data.accounts.get? name with _ | entry
  · simp only [hentry, Prog.runWith_raise, Prod.mk.injEq, reduceCtorEq, and_false] at h
  · simp only [hentry] at h
    obtain ⟨hdata, hfile⟩ := deleteRefs_ok h
    exact ⟨Option.some_ne_none entry, by rw [hfile, hdata], by rw [hdata]⟩

/-! ## 2. Instances -/

/-- The disk; the copy of every instance that is constructed, and whether no other instance
    has saved since it was read or last saved; the calls that returned; and whether one of
    them worked on a stale copy. -/
structure Shared where
  disk : Disk
  copies : Nat → Option AccountData
  current : Nat → Bool
  calls : List AccountCall
  stale : Bool

def Shared.start (disk : Disk) : Shared := ⟨disk, fun _ => none, fun _ => false, [], false⟩

inductive SharedAct
  | load (i : Nat)
  | call (i : Nat) (call : AccountCall) (schedule : Nat → AccountChoice)

/-- An instance is constructed, or a method of it returns. -/
def sharedStep (s : Shared) : SharedAct → Option Shared
  | .load i =>
      match s.copies i with
      | some _ => none
      | none => some { s with
          copies := Function.update s.copies i (some (AccountData.load s.disk.file))
          current := Function.update s.current i true }
  | .call i call schedule =>
      match s.copies i with
      | none => none
      | some data =>
          match (call.program data).runWith perform schedule s.disk with
          | (_, .error _) => none
          | (disk, .ok data') => some {
              disk := disk
              copies := Function.update s.copies i (some data')
              current := fun j => decide (j = i)
              calls := call :: s.calls
              stale := s.stale || !s.current i }

deriving instance DecidableEq for AccountCall

def AccountCall.name : AccountCall → String
  | .add name .. => name
  | .remove name => name
  | .setDefault name => name

/-- Additions and removals only, each on a name of its own. -/
def OwnNames (s : Shared) : SharedAct → Prop
  | .load _ => True
  | .call _ (.setDefault _) _ => False
  | .call _ call _ => AccountCall.name call ∉ s.calls.map AccountCall.name

instance (s : Shared) (a : SharedAct) : Decidable (OwnNames s a) := by
  unfold OwnNames
  split <;> infer_instance

/-! ## 3. What a copy has of the calls -/

def Lists (data : AccountData) (name : String) : Prop := data.accounts.get? name ≠ none

/-- The copy has the update of the call. -/
def Reflects (data : AccountData) : AccountCall → Prop
  | .add name .. => Lists data name
  | .remove name => ¬ Lists data name
  | .setDefault _ => True

theorem reflects_congr {data data' : AccountData} {call : AccountCall}
    (h : Lists data (AccountCall.name call) ↔ Lists data' (AccountCall.name call)) :
    Reflects data call ↔ Reflects data' call := by
  cases call with
  | add name exchange creds verified allowPlaintext => exact h
  | remove name => exact not_congr h
  | setDefault name => exact Iff.rfl

/-- **A call that returns** is an update its copy did not have, and saves the copy with it. -/
theorem call_ok {call : AccountCall} {data data' : AccountData} {cs : Nat → AccountChoice}
    {disk disk' : Disk} (hupdate : ∀ name, call ≠ .setDefault name)
    (h : (call.program data).runWith perform cs disk = (disk', .ok data')) :
    disk'.file = some data' ∧ ¬ Reflects data call ∧ Reflects data' call ∧
      ∀ name, name ≠ AccountCall.name call → (Lists data' name ↔ Lists data name) := by
  cases call with
  | add name exchange creds verified allowPlaintext =>
      obtain ⟨hname, hfile, entry, haccounts⟩ := add_ok h
      refine ⟨hfile, fun hlists => hlists hname, ?_, ?_⟩
      · simp only [Reflects, Lists, haccounts, OrderedDict.get?_set_self]
        exact Option.some_ne_none entry
      · intro other hne
        have hother : other ≠ name := hne
        rw [Lists, Lists, haccounts, OrderedDict.get?_set_ne _ _ hother]
  | remove name =>
      obtain ⟨hname, hfile, haccounts⟩ := remove_ok h
      refine ⟨hfile, not_not.mpr hname, ?_, ?_⟩
      · simp only [Reflects, Lists, haccounts, OrderedDict.get?_erase_self, ne_eq, not_true,
          not_false_iff]
      · intro other hne
        have hother : other ≠ name := hne
        rw [Lists, Lists, haccounts, OrderedDict.get?_erase_ne _ hother]
  | setDefault name => exact absurd rfl (hupdate name)

/-- A copy of an instance, or the file. -/
def Copy (s : Shared) (data : AccountData) : Prop :=
  data = AccountData.load s.disk.file ∨ ∃ i, s.copies i = some data

/-! ## 4. What every run keeps -/

structure Tracked (initial : AccountData) (s : Shared) : Prop where
  outside : ∀ data, Copy s data → ∀ name, name ∉ s.calls.map AccountCall.name →
    (Lists data name ↔ Lists initial name)
  effective : ∀ call ∈ s.calls, ¬ Reflects initial call
  current : ∀ i data, s.copies i = some data → s.current i = true →
    data = AccountData.load s.disk.file
  lagging : ∀ i data, s.copies i = some data → s.current i = false →
    ∃ call ∈ s.calls, ¬ Reflects data call
  complete : s.stale = false → ∀ call ∈ s.calls, Reflects (AccountData.load s.disk.file) call
  /-- After a stale save there are two updates that no copy has both. -/
  split : s.stale = true → ∃ call ∈ s.calls, ∃ call' ∈ s.calls, ∀ data, Copy s data →
    ¬ (Reflects data call ∧ Reflects data call')

theorem tracked_start (disk : Disk) :
    Tracked (AccountData.load disk.file) (.start disk) := by
  refine ⟨?_, nofun, nofun, nofun, nofun, nofun⟩
  rintro data (rfl | ⟨i, hi⟩) name _
  · exact Iff.rfl
  · cases hi

/-- An instance has the copy it had, or it is the one that has got a new copy. -/
theorem copies_update {copies : Nat → Option AccountData} {i j : Nat} {data copy : AccountData}
    (h : Function.update copies i (some data) j = some copy) :
    (j = i ∧ copy = data) ∨ (j ≠ i ∧ copies j = some copy) := by
  by_cases hsame : j = i
  · subst hsame
    rw [Function.update_self, Option.some.injEq] at h
    exact Or.inl ⟨rfl, h.symm⟩
  · rw [Function.update_of_ne hsame] at h
    exact Or.inr ⟨hsame, h⟩

theorem tracked_load {initial : AccountData} {s : Shared} (h : Tracked initial s) (i : Nat) :
    Tracked initial { s with
      copies := Function.update s.copies i (some (AccountData.load s.disk.file))
      current := Function.update s.current i true } := by
  have hcopy : ∀ data, Copy { s with
      copies := Function.update s.copies i (some (AccountData.load s.disk.file))
      current := Function.update s.current i true } data → Copy s data := by
    rintro data (hfile | ⟨j, hj⟩)
    · exact Or.inl hfile
    · rcases copies_update hj with ⟨-, rfl⟩ | ⟨-, hold⟩
      · exact Or.inl rfl
      · exact Or.inr ⟨j, hold⟩
  refine ⟨fun data hdata => h.outside data (hcopy data hdata), h.effective, ?_, ?_, h.complete, ?_⟩
  · intro j data hj hcurrent
    rcases copies_update hj with ⟨-, rfl⟩ | ⟨hne, hold⟩
    · rfl
    · simp only [Function.update_of_ne hne] at hcurrent
      exact h.current j data hold hcurrent
  · intro j data hj hcurrent
    rcases copies_update hj with ⟨rfl, -⟩ | ⟨hne, hold⟩
    · simp only [Function.update_self, reduceCtorEq] at hcurrent
    · simp only [Function.update_of_ne hne] at hcurrent
      exact h.lagging j data hold hcurrent
  · intro hstale
    obtain ⟨call, hcall, call', hcall', hsplit⟩ := h.split hstale
    exact ⟨call, hcall, call', hcall', fun data hdata => hsplit data (hcopy data hdata)⟩

/-- **A call that returns.**  If its copy was stale, the update it lacks and its own are apart
    from now on. -/
theorem tracked_call {initial : AccountData} {s : Shared} (h : Tracked initial s) {i : Nat}
    {call : AccountCall} {data data' : AccountData} {cs : Nat → AccountChoice} {disk : Disk}
    (hcopy : s.copies i = some data) (hupdate : ∀ name, call ≠ .setDefault name)
    (hnew : AccountCall.name call ∉ s.calls.map AccountCall.name)
    (hrun : (call.program data).runWith perform cs s.disk = (disk, .ok data')) :
    Tracked initial {
      disk := disk
      copies := Function.update s.copies i (some data')
      current := fun j => decide (j = i)
      calls := call :: s.calls
      stale := s.stale || !s.current i } := by
  obtain ⟨hfile, hlacked, hhas, hothers⟩ := call_ok hupdate hrun
  have hload : AccountData.load disk.file = data' := by rw [hfile]; rfl
  -- Nobody had the new update.
  have hnobody : ∀ copy, Copy s copy → ¬ Reflects copy call := by
    intro copy hcopy'
    rw [reflects_congr ((h.outside copy hcopy' _ hnew).trans
      (h.outside data (Or.inr ⟨i, hcopy⟩) _ hnew).symm)]
    exact hlacked
  have hkept : ∀ old ∈ s.calls, (Reflects data' old ↔ Reflects data old) := by
    intro old hold
    apply reflects_congr
    apply hothers
    intro heq
    exact hnew (heq ▸ List.mem_map_of_mem hold)
  have hcopies : ∀ copy, Copy { s with
      disk := disk
      copies := Function.update s.copies i (some data') } copy → copy = data' ∨ Copy s copy := by
    rintro copy (rfl | ⟨j, hj⟩)
    · exact Or.inl hload
    · rcases copies_update hj with ⟨-, rfl⟩ | ⟨-, hold⟩
      · exact Or.inl rfl
      · exact Or.inr (Or.inr ⟨j, hold⟩)
  refine ⟨?_, ?_, ?_, ?_, ?_, ?_⟩
  · intro copy hcopy' name hname
    obtain ⟨hne, hrest⟩ := not_or.mp (mt List.mem_cons.mpr hname)
    rcases hcopies copy hcopy' with rfl | hold
    · exact (hothers name hne).trans (h.outside data (Or.inr ⟨i, hcopy⟩) name hrest)
    · exact h.outside copy hold name hrest
  · intro old hold
    rcases List.mem_cons.mp hold with rfl | hold
    · rw [← reflects_congr (h.outside data (Or.inr ⟨i, hcopy⟩) _ hnew)]
      exact hlacked
    · exact h.effective old hold
  · intro j copy hj hcurrent
    rcases copies_update hj with ⟨-, rfl⟩ | ⟨hne, -⟩
    · exact hload.symm
    · exact absurd (of_decide_eq_true hcurrent) hne
  · intro j copy hj hcurrent
    rcases copies_update hj with ⟨hsame, -⟩ | ⟨-, hold⟩
    · exact absurd hsame (of_decide_eq_false hcurrent)
    · exact ⟨call, List.mem_cons_self, hnobody copy (Or.inr ⟨j, hold⟩)⟩
  · intro hstale old hold
    simp only [Bool.or_eq_false_iff, Bool.not_eq_false'] at hstale
    rw [hload]
    rcases List.mem_cons.mp hold with rfl | hold
    · exact hhas
    · rw [hkept old hold, h.current i data hcopy hstale.2]
      exact h.complete hstale.1 old hold
  · intro hstale
    rcases hbefore : s.stale with _ | _
    · simp only [hbefore, Bool.false_or, Bool.not_eq_true'] at hstale
      obtain ⟨old, hold, hlacks⟩ := h.lagging i data hcopy hstale
      refine ⟨old, List.mem_cons_of_mem _ hold, call, List.mem_cons_self, ?_⟩
      rintro copy hcopy' ⟨hreflectsOld, hreflectsNew⟩
      rcases hcopies copy hcopy' with rfl | hcopyOld
      · exact hlacks ((hkept old hold).mp hreflectsOld)
      · exact hnobody copy hcopyOld hreflectsNew
    · obtain ⟨old, hold, old', hold', hsplit⟩ := h.split hbefore
      refine ⟨old, List.mem_cons_of_mem _ hold, old', List.mem_cons_of_mem _ hold', ?_⟩
      intro copy hcopy'
      rcases hcopies copy hcopy' with rfl | hcopyOld
      · rw [hkept old hold, hkept old' hold']
        exact hsplit data (Or.inr ⟨i, hcopy⟩)
      · exact hsplit copy hcopyOld

theorem tracked_step {initial : AccountData} {s s' : Shared} {a : SharedAct}
    (h : Tracked initial s) (hallowed : OwnNames s a) (hstep : sharedStep s a = some s') :
    Tracked initial s' := by
  cases a with
  | load i =>
      rcases hcopy : s.copies i with _ | data
      · simp only [sharedStep, hcopy, Option.some.injEq] at hstep
        rw [← hstep]
        exact tracked_load h i
      · simp only [sharedStep, hcopy, reduceCtorEq] at hstep
  | call i call schedule =>
      have hupdate : ∀ name, call ≠ .setDefault name := by
        rintro name rfl
        exact hallowed
      have hnew : AccountCall.name call ∉ s.calls.map AccountCall.name := by
        cases call with
        | add name exchange creds verified allowPlaintext => exact hallowed
        | remove name => exact hallowed
        | setDefault name => exact hallowed.elim
      rcases hcopy : s.copies i with _ | data
      · simp only [sharedStep, hcopy, reduceCtorEq] at hstep
      · rcases hrun : (call.program data).runWith perform schedule s.disk with ⟨disk, e | data'⟩
        · simp only [sharedStep, hcopy, hrun, reduceCtorEq] at hstep
        · simp only [sharedStep, hcopy, hrun, Option.some.injEq] at hstep
          rw [← hstep]
          exact tracked_call h hcopy hupdate hnew hrun

/-! ## 5. The file in the end -/

/-- The file has exactly the accounts there were and those added, without those removed. -/
def Exact (initial : AccountData) (s : Shared) : Prop :=
  ∀ name, Lists (AccountData.load s.disk.file) name ↔
    (Lists initial name ∨ ∃ exchange creds verified allowPlaintext,
      AccountCall.add name exchange creds verified allowPlaintext ∈ s.calls) ∧
    AccountCall.remove name ∉ s.calls

theorem Tracked.exact_of_complete {initial : AccountData} {s : Shared} (h : Tracked initial s)
    (hcomplete : ∀ call ∈ s.calls, Reflects (AccountData.load s.disk.file) call) :
    Exact initial s := by
  intro name
  by_cases hremoved : AccountCall.remove name ∈ s.calls
  · exact iff_of_false (hcomplete _ hremoved) fun hexpected => hexpected.2 hremoved
  · rw [and_iff_left hremoved]
    by_cases hadded : ∃ exchange creds verified allowPlaintext,
        AccountCall.add name exchange creds verified allowPlaintext ∈ s.calls
    · obtain ⟨exchange, creds, verified, allowPlaintext, hadd⟩ := hadded
      exact iff_of_true (hcomplete _ hadd)
        (Or.inr ⟨exchange, creds, verified, allowPlaintext, hadd⟩)
    · rw [or_iff_left hadded]
      apply h.outside _ (Or.inl rfl)
      intro hname
      obtain ⟨call, hcall, hsame⟩ := List.mem_map.mp hname
      cases call with
      | add other exchange creds verified allowPlaintext =>
          cases hsame
          exact hadded ⟨exchange, creds, verified, allowPlaintext, hcall⟩
      | remove other =>
          cases hsame
          exact hremoved hcall
      | setDefault other => exact h.effective _ hcall trivial

theorem Tracked.complete_of_exact {initial : AccountData} {s : Shared} (h : Tracked initial s)
    (hexact : Exact initial s) :
    ∀ call ∈ s.calls, Reflects (AccountData.load s.disk.file) call := by
  intro call hcall
  cases call with
  | add name exchange creds verified allowPlaintext =>
      refine (hexact name).mpr ⟨Or.inr ⟨exchange, creds, verified, allowPlaintext, hcall⟩, ?_⟩
      intro hremoved
      exact h.effective _ hremoved (h.effective _ hcall)
  | remove name => exact fun hlists => ((hexact name).mp hlists).2 hcall
  | setDefault name => trivial

/-- **When no update is lost.**  However the instances load and call, each name in one call
    only: the file has exactly the accounts it should have if and only if no call worked on a
    stale copy. -/
theorem file_exact_iff {disk : Disk} {s : Shared}
    (h : Reaches sharedStep OwnNames (.start disk) s) :
    Exact (AccountData.load disk.file) s ↔ s.stale = false := by
  have htracked : Tracked (AccountData.load disk.file) s :=
    h.invariant (tracked_start disk) fun _ _ _ hinv hallowed hstep =>
      tracked_step hinv hallowed hstep
  constructor
  · intro hexact
    rcases hstale : s.stale with _ | _
    · rfl
    · obtain ⟨call, hcall, call', hcall', hsplit⟩ := htracked.split hstale
      have hcomplete := htracked.complete_of_exact hexact
      exact (hsplit _ (Or.inl rfl) ⟨hcomplete call hcall, hcomplete call' hcall'⟩).elim
  · intro hstale
    exact htracked.exact_of_complete (htracked.complete hstale)

def addOn (i : Nat) (name : String) : SharedAct :=
  .call i (.add name "binance_usdm" mainCredentials false false) fun _ => ⟨.succeeds, 0⟩

/-- The second instance is constructed after the first one has saved. -/
def oneAfterTheOther : List SharedAct := [.load 0, addOn 0 "main", .load 1, addOn 1 "spare"]

theorem file_exact_iff_oneAfterTheOther :
    ∃ s, Reaches sharedStep OwnNames (.start .empty) s ∧ s.calls.length = 2 ∧
      Exact (AccountData.load none) s := by
  have hreach : Reaches sharedStep OwnNames (.start .empty) _ :=
    play_get_reaches oneAfterTheOther (by decide +kernel)
  exact ⟨_, hreach, by decide +kernel, (file_exact_iff hreach).mpr (by decide +kernel)⟩

/-- Both are constructed before either saves. -/
def bothAtOnce : List SharedAct := [.load 0, .load 1, addOn 0 "main", addOn 1 "spare"]

/-- **Two processes, one account**: both `add` return, and the file has one of them. -/
theorem update_lost :
    ∃ s, Reaches sharedStep OwnNames (.start .empty) s ∧ s.calls.length = 2 ∧
      ¬ Exact (AccountData.load none) s := by
  refine ⟨_, play_get_reaches bothAtOnce (by decide +kernel), by decide +kernel, ?_⟩
  intro hexact
  have hmain := (hexact "main").mpr ⟨Or.inr ⟨"binance_usdm", mainCredentials, false, false,
    .tail _ (.head _)⟩, by decide +kernel⟩
  revert hmain
  unfold Lists
  decide +kernel

end FundingTool.AccountProcesses
