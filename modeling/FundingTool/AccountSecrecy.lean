import FundingTool.AccountDurability
import FundingTool.Schedules

/-!
# Secrets stay out of the file

Two processes make the same calls, each with credentials of its own, and the keyring and the
file system fail for both at the same operations.  As long as no `add` allows plaintext, the
files, the exceptions and the listed accounts are the same at every step, but for the times.

The proof compares the two runs operation by operation.  What they ask of the keyring differs;
nothing that comes back from it is read, and what goes into the file is the same.
-/

namespace FundingTool.AccountSecrecy

open FundingTool.Interaction FundingTool.AccountStore FundingTool.AccountDurability

/-! ## 1. Times aside -/

def AccountEntry.timeless (entry : AccountEntry) : AccountEntry :=
  { entry with
    createdAt := 0
    permissionsVerifiedAt := entry.permissionsVerifiedAt.map fun _ => 0 }

def AccountData.timeless (data : AccountData) : AccountData :=
  ⟨data.default, data.accounts.map AccountEntry.timeless⟩

def TmpFile.timeless : TmpFile → TmpFile
  | .opened => .opened
  | .written data => .written (AccountData.timeless data)

def AccountRecord.timeless (record : AccountStore.AccountRecord) : AccountStore.AccountRecord :=
  { record with
    createdAt := 0
    permissionsVerifiedAt := record.permissionsVerifiedAt.map fun _ => 0 }

/-- The same data, times aside. -/
def SameData (data data' : AccountData) : Prop :=
  AccountData.timeless data = AccountData.timeless data'

/-- The same files, times aside; nothing is said of the keyrings. -/
def SameFiles (disk disk' : Disk) : Prop :=
  disk.file.map AccountData.timeless = disk'.file.map AccountData.timeless ∧
    disk.tmp.map TmpFile.timeless = disk'.tmp.map TmpFile.timeless

theorem sameData_iff {data data' : AccountData} : SameData data data' ↔
    data.default = data'.default ∧
      data.accounts.map AccountEntry.timeless = data'.accounts.map AccountEntry.timeless := by
  unfold SameData AccountData.timeless
  rw [AccountData.mk.injEq]

theorem SameData.default {data data' : AccountData} (h : SameData data data') :
    data.default = data'.default := (sameData_iff.mp h).1

theorem SameData.accounts {data data' : AccountData} (h : SameData data data') :
    data.accounts.map AccountEntry.timeless = data'.accounts.map AccountEntry.timeless :=
  (sameData_iff.mp h).2

theorem SameData.get? {data data' : AccountData} (h : SameData data data') (name : String) :
    (data.accounts.get? name).map AccountEntry.timeless =
      (data'.accounts.get? name).map AccountEntry.timeless := by
  rw [← OrderedDict.get?_map, ← OrderedDict.get?_map, h.accounts]

theorem SameData.get?_eq_none {data data' : AccountData} (h : SameData data data')
    (name : String) : data.accounts.get? name = none ↔ data'.accounts.get? name = none := by
  rw [← Option.map_eq_none_iff (f := AccountEntry.timeless), h.get? name, Option.map_eq_none_iff]

theorem refs_timeless (entry : AccountEntry) : refs (AccountEntry.timeless entry) = refs entry :=
  rfl

theorem load_timeless (file : Option AccountData) :
    AccountData.timeless (AccountData.load file) =
      AccountData.load (file.map AccountData.timeless) := by
  cases file with
  | none => rfl
  | some data => rfl

theorem SameFiles.load {disk disk' : Disk} (h : SameFiles disk disk') :
    SameData (AccountData.load disk.file) (AccountData.load disk'.file) := by
  unfold SameData
  rw [load_timeless, load_timeless, h.1]

theorem SameData.listAccounts {data data' : AccountData} (h : SameData data data') :
    (listAccounts data).map AccountRecord.timeless =
      (listAccounts data').map AccountRecord.timeless := by
  have hentries : ∀ d : AccountData, (AccountStore.listAccounts d).map AccountRecord.timeless =
      AccountStore.listAccounts (AccountData.timeless d) := by
    intro d
    simp only [AccountStore.listAccounts, AccountData.timeless, OrderedDict.map, List.map_map]
    rfl
  rw [hentries, hentries, h]

/-! ## 2. Two programs, operation by operation -/

def SameOutcome (c c' : AccountChoice) : Prop := c.outcome = c'.outcome

def SameFailure (f f' : AccountData × AccountError) : Prop := SameData f.1 f'.1 ∧ f.2 = f'.2

/-- Whatever the keyrings hold, the two methods do the same to the files and raise alike. -/
abbrev EditsAlike (p p' : Edit) : Prop :=
  p.Alike perform SameFiles SameOutcome SameData SameFailure p'

/-- Two writes that do the same to the files. -/
def SameEffect (w w' : WriteOp) : Prop :=
  ∀ disk disk', SameFiles disk disk' → SameFiles (w.apply disk) (w'.apply disk')

theorem sameEffect_setPassword (service username value value' : String) :
    SameEffect (.setPassword service username value) (.setPassword service username value') :=
  fun _ _ h => h

theorem sameEffect_deletePassword (service username : String) :
    SameEffect (.deletePassword service username) (.deletePassword service username) :=
  fun _ _ h => h

theorem sameEffect_mkdir : SameEffect .mkdir .mkdir := fun _ _ h => h

theorem sameEffect_unlinkTmp : SameEffect .unlinkTmp .unlinkTmp := fun _ _ h => ⟨h.1, rfl⟩

theorem sameEffect_dump {data data' : AccountData} (h : SameData data data') :
    SameEffect (.dump data) (.dump data') :=
  fun _ _ hdisk => ⟨hdisk.1, congrArg (fun d => some (TmpFile.written d)) h⟩

theorem sameEffect_replace : SameEffect .replace .replace := by
  intro disk disk' h
  obtain ⟨keyring, file, tmp⟩ := disk
  obtain ⟨keyring', file', tmp'⟩ := disk'
  obtain ⟨hfile, htmp⟩ := h
  rcases tmp with _ | _ | data <;> rcases tmp' with _ | _ | data' <;>
    simp only [Option.map_none, Option.map_some, TmpFile.timeless, Option.some.injEq,
      TmpFile.written.injEq, reduceCtorEq] at htmp
  · exact ⟨hfile, rfl⟩
  · exact ⟨hfile, rfl⟩
  · exact ⟨congrArg some htmp, rfl⟩

theorem alike_write {w w' : WriteOp} (hw : SameEffect w w') {k k' : Except Fault Unit → Edit}
    (hk : ∀ r, EditsAlike (k r) (k' r)) :
    EditsAlike (.call (.write w) k) (.call (.write w') k') := by
  intro disk disk' c c' hdisk hc
  obtain ⟨outcome, now⟩ := c
  obtain ⟨outcome', now'⟩ := c'
  have hsame : outcome = outcome' := hc
  subst hsame
  cases outcome with
  | succeeds => exact ⟨hw disk disk' hdisk, hk _⟩
  | raisesBefore => exact ⟨hdisk, hk _⟩
  | raisesAfter => exact ⟨hw disk disk' hdisk, hk _⟩

theorem alike_raise {data data' : AccountData} (h : SameData data data') (e : AccountError) :
    EditsAlike (.raise (data, e)) (.raise (data', e)) := ⟨h, rfl⟩

theorem alike_attempt {data data' : AccountData} (h : SameData data data') {w w' : WriteOp}
    (hw : SameEffect w w') {rest rest' : Edit} (hrest : EditsAlike rest rest') :
    EditsAlike (attempt data w rest) (attempt data' w' rest') := by
  apply alike_write hw
  intro r
  cases r with
  | ok value => exact hrest
  | error fault => exact alike_raise h _

theorem alike_openTmp {k k' : Except OpenError Unit → Edit} (hk : ∀ r, EditsAlike (k r) (k' r)) :
    EditsAlike (.call .openTmp k) (.call .openTmp k') := by
  intro disk disk' c c' hdisk hc
  obtain ⟨keyring, file, tmp⟩ := disk
  obtain ⟨keyring', file', tmp'⟩ := disk'
  obtain ⟨outcome, now⟩ := c
  obtain ⟨outcome', now'⟩ := c'
  have hsame : outcome = outcome' := hc
  subst hsame
  obtain ⟨hfile, htmp⟩ := hdisk
  rcases tmp with _ | tmp <;> rcases tmp' with _ | tmp' <;>
    simp only [Option.map_none, Option.map_some, reduceCtorEq] at htmp
  · cases outcome with
    | succeeds => exact ⟨⟨hfile, rfl⟩, hk _⟩
    | raisesBefore => exact ⟨⟨hfile, rfl⟩, hk _⟩
    | raisesAfter => exact ⟨⟨hfile, rfl⟩, hk _⟩
  · exact ⟨⟨hfile, htmp⟩, hk _⟩

/-- The probe of the keyring: only whether it raises is looked at. -/
theorem alike_getPassword {service username : String}
    {k k' : Except Fault (Option String) → Edit}
    (hanswers : ∀ value value', EditsAlike (k (.ok value)) (k' (.ok value')))
    (hraises : EditsAlike (k (.error ⟨⟩)) (k' (.error ⟨⟩))) :
    EditsAlike (.call (.getPassword service username) k)
      (.call (.getPassword service username) k') := by
  intro disk disk' c c' hdisk hc
  obtain ⟨outcome, now⟩ := c
  obtain ⟨outcome', now'⟩ := c'
  have hsame : outcome = outcome' := hc
  subst hsame
  cases outcome with
  | succeeds => exact ⟨hdisk, hanswers _ _⟩
  | raisesBefore => exact ⟨hdisk, hraises⟩
  | raisesAfter => exact ⟨hdisk, hraises⟩

theorem alike_now {k k' : Int → Edit} (hk : ∀ now now', EditsAlike (k now) (k' now')) :
    EditsAlike (.call .now k) (.call .now k') :=
  fun _ _ _ _ hdisk _ => ⟨hdisk, hk _ _⟩

/-! ## 3. The methods -/

theorem alike_save {data data' : AccountData} (h : SameData data data') :
    EditsAlike (save data) (save data') := by
  have htmp : EditsAlike (saveTmp data) (saveTmp data') := by
    apply alike_attempt h (sameEffect_dump h)
    apply alike_attempt h sameEffect_replace
    exact h
  apply alike_attempt h sameEffect_mkdir
  apply alike_openTmp
  rintro (⟨_ | _⟩ | _)
  · apply alike_attempt h sameEffect_unlinkTmp
    apply alike_openTmp
    rintro (_ | _)
    · exact alike_raise h _
    · exact htmp
  · exact alike_raise h _
  · exact htmp

theorem SameData.addEntry {data data' : AccountData} (h : SameData data data') (name : String)
    {entry entry' : AccountEntry}
    (hentry : AccountEntry.timeless entry = AccountEntry.timeless entry') :
    SameData ⟨data.default.or (some name), data.accounts.set name entry⟩
      ⟨data'.default.or (some name), data'.accounts.set name entry'⟩ := by
  rw [sameData_iff, OrderedDict.map_set, OrderedDict.map_set, h.accounts, h.default, hentry]
  exact ⟨rfl, rfl⟩

/-- **`add` without plaintext**: the entry has the references, which are made of the name. -/
theorem alike_addStored {data data' : AccountData} (h : SameData data data')
    (name exchange : String) (creds creds' : ApiCredentials) (createdAt createdAt' : Int)
    {verifiedAt verifiedAt' : Option Int}
    (hverified : verifiedAt.map (fun _ => (0 : Int)) = verifiedAt'.map fun _ => 0) :
    EditsAlike (addStored data name exchange creds false createdAt verifiedAt)
      (addStored data' name exchange creds' false createdAt' verifiedAt') := by
  apply alike_getPassword
  · intro _ _
    apply alike_attempt h (sameEffect_setPassword _ _ _ _)
    apply alike_attempt h (sameEffect_setPassword _ _ _ _)
    apply alike_save
    apply h.addEntry
    simp only [AccountEntry.timeless, hverified]
  · exact alike_raise h _

theorem alike_add {data data' : AccountData} (h : SameData data data') (name exchange : String)
    (creds creds' : ApiCredentials) (verified : Bool) :
    EditsAlike (add data name exchange creds verified false)
      (add data' name exchange creds' verified false) := by
  unfold add
  by_cases hname : data.accounts.get? name = none
  · rw [if_neg (not_not.mpr hname), if_neg (not_not.mpr ((h.get?_eq_none name).mp hname))]
    apply alike_now
    intro createdAt createdAt'
    cases verified with
    | false => exact alike_addStored h name exchange creds creds' createdAt createdAt' rfl
    | true =>
        apply alike_now
        intro verifiedAt verifiedAt'
        exact alike_addStored h name exchange creds creds' createdAt createdAt' rfl
  · rw [if_pos hname, if_pos (mt (h.get?_eq_none name).mpr hname)]
    exact alike_raise h _

theorem alike_deleteRefs {data data' : AccountData} (h : SameData data data') {rest rest' : Edit}
    (hrest : EditsAlike rest rest') (names : List String) :
    EditsAlike (deleteRefs data rest names) (deleteRefs data' rest' names) := by
  induction names with
  | nil => exact hrest
  | cons ref more ih =>
      unfold deleteRefs
      rcases keyringParse ref with _ | ⟨service, username⟩
      · exact alike_raise h _
      · apply alike_write (sameEffect_deletePassword _ _)
        intro _
        exact ih

theorem alike_remove {data data' : AccountData} (h : SameData data data') (name : String) :
    EditsAlike (remove data name) (remove data' name) := by
  have hentry := h.get? name
  unfold remove
  rcases hget : data.accounts.get? name with _ | entry <;>
    rcases hget' : data'.accounts.get? name with _ | entry' <;>
    simp only [hget, hget', Option.map_none, Option.map_some, Option.some.injEq,
      reduceCtorEq] at hentry
  · exact alike_raise h _
  · have herase : (data.accounts.erase name).map AccountEntry.timeless =
        (data'.accounts.erase name).map AccountEntry.timeless := by
      rw [OrderedDict.map_erase, OrderedDict.map_erase, h.accounts]
    have hkeys : (data.accounts.erase name).keys = (data'.accounts.erase name).keys := by
      rw [← OrderedDict.keys_map _ AccountEntry.timeless, herase, OrderedDict.keys_map]
    simp only [← refs_timeless entry, hentry, refs_timeless, hkeys, h.default]
    apply alike_deleteRefs
    · exact sameData_iff.mpr ⟨rfl, herase⟩
    · exact alike_save (sameData_iff.mpr ⟨rfl, herase⟩)

theorem alike_setDefault {data data' : AccountData} (h : SameData data data') (name : String) :
    EditsAlike (setDefault data name) (setDefault data' name) := by
  unfold setDefault
  by_cases hname : data.accounts.get? name = none
  · rw [if_pos hname, if_pos ((h.get?_eq_none name).mp hname)]
    exact alike_raise h _
  · rw [if_neg hname, if_neg (mt (h.get?_eq_none name).mpr hname)]
    exact alike_save (sameData_iff.mpr ⟨rfl, h.accounts⟩)

/-! ## 4. Runs -/

/-- Keyring and files, and `_data` of the process. -/
structure Client where
  disk : Disk
  data : AccountData

def Client.opened (disk : Disk) : Client := ⟨disk, AccountData.load disk.file⟩

/-- A call, under what the surroundings choose for each of its operations, or a re-opening. -/
inductive ClientAct
  | call (call : AccountCall) (schedule : Nat → AccountChoice)
  | reopen

/-- The exception a call raised. -/
def raisedBy : Except (AccountData × AccountError) AccountData → Option AccountError
  | .ok _ => none
  | .error (_, e) => some e

def Client.act (s : Client) : ClientAct → Client × Option AccountError
  | .call call schedule =>
      let r := (call.program s.data).runWith perform schedule s.disk
      (⟨r.1, memoryOf r.2⟩, raisedBy r.2)
  | .reopen => (.opened s.disk, none)

/-- What a step shows, times aside: the file and its temporary copy, the exception, and the
    listed accounts. -/
structure Observation where
  file : Option AccountData
  tmp : Option TmpFile
  raised : Option AccountError
  listed : List AccountStore.AccountRecord

def Client.observe (s : Client) (raised : Option AccountError) : Observation where
  file := s.disk.file.map AccountData.timeless
  tmp := s.disk.tmp.map TmpFile.timeless
  raised := raised
  listed := (listAccounts s.data).map AccountRecord.timeless

/-- The observations of a run, step by step. -/
def observations (s : Client) : List ClientAct → List Observation
  | [] => []
  | a :: rest => (s.act a).1.observe (s.act a).2 :: observations (s.act a).1 rest

/-- The same call, with any credentials, and without plaintext. -/
def SameCall : AccountCall → AccountCall → Prop
  | .add name exchange _ verified allowPlaintext, .add name' exchange' _ verified' allowPlaintext' =>
      name = name' ∧ exchange = exchange' ∧ verified = verified' ∧
        allowPlaintext = false ∧ allowPlaintext' = false
  | .remove name, .remove name' => name = name'
  | .setDefault name, .setDefault name' => name = name'
  | _, _ => False

/-- The same step, failing at the same operations, at any times. -/
def SameAct : ClientAct → ClientAct → Prop
  | .call call schedule, .call call' schedule' =>
      SameCall call call' ∧ ∀ n, SameOutcome (schedule n) (schedule' n)
  | .reopen, .reopen => True
  | _, _ => False

def SameClient (s s' : Client) : Prop := SameFiles s.disk s'.disk ∧ SameData s.data s'.data

theorem alike_program {call call' : AccountCall} (hcall : SameCall call call')
    {data data' : AccountData} (h : SameData data data') :
    EditsAlike (call.program data) (call'.program data') := by
  cases call with
  | add name exchange creds verified allowPlaintext =>
      cases call' with
      | add name' exchange' creds' verified' allowPlaintext' =>
          obtain ⟨rfl, rfl, rfl, rfl, rfl⟩ := hcall
          exact alike_add h name exchange creds creds' verified
      | _ => exact hcall.elim
  | remove name =>
      cases call' with
      | remove name' =>
          cases hcall
          exact alike_remove h name
      | _ => exact hcall.elim
  | setDefault name =>
      cases call' with
      | setDefault name' =>
          cases hcall
          exact alike_setDefault h name
      | _ => exact hcall.elim

/-- **One step of two clients**: they stay alike, and raise alike. -/
theorem sameClient_act {s s' : Client} (h : SameClient s s') {a a' : ClientAct}
    (ha : SameAct a a') :
    SameClient (s.act a).1 (s'.act a').1 ∧ (s.act a).2 = (s'.act a').2 := by
  cases a with
  | call call schedule =>
      cases a' with
      | call call' schedule' =>
          obtain ⟨hfiles, hend⟩ := (alike_program ha.1 h.2).runWith ha.2 h.1
          simp only [Client.act]
          rcases hend with ⟨data, data', hok, hok', hdata⟩ | ⟨e, e', herror, herror', hsame⟩
          · rw [hok, hok']
            exact ⟨⟨hfiles, hdata⟩, rfl⟩
          · rw [herror, herror']
            exact ⟨⟨hfiles, hsame.1⟩, congrArg some hsame.2⟩
      | reopen => exact ha.elim
  | reopen =>
      cases a' with
      | call call' schedule' => exact ha.elim
      | reopen => exact ⟨⟨h.1, h.1.load⟩, rfl⟩

theorem SameClient.observe {s s' : Client} (h : SameClient s s') (raised : Option AccountError) :
    s.observe raised = s'.observe raised := by
  simp only [Client.observe, h.1.1, h.1.2, h.2.listAccounts]

theorem observations_eq {s s' : Client} (h : SameClient s s') {acts acts' : List ClientAct}
    (hacts : List.Forall₂ SameAct acts acts') : observations s acts = observations s' acts' := by
  induction hacts generalizing s s' with
  | nil => rfl
  | cons ha _ ih =>
      obtain ⟨hsame, hraised⟩ := sameClient_act h ha
      simp only [observations, hraised, hsame.observe, ih hsame]

/-- **Secrets never reach the file.**  Two runs of the same calls without plaintext, failing
    at the same operations, from the same files: file, exception and listed accounts are the
    same after every step, whatever the credentials and the keyrings. -/
theorem observations_independent_of_secrets {disk disk' : Disk} (hfiles : SameFiles disk disk')
    {acts acts' : List ClientAct} (hacts : List.Forall₂ SameAct acts acts') :
    observations (.opened disk) acts = observations (.opened disk') acts' :=
  observations_eq ⟨hfiles, hfiles.load⟩ hacts

/-- The keyring answers the probe and takes the key; writing the secret raises. -/
def secretRefused (now : Int) (n : Nat) : AccountChoice :=
  ⟨if n = 3 then .raisesBefore else .succeeds, now⟩

def addTwice (creds : ApiCredentials) (now : Int) : List ClientAct :=
  [.call (.add "main" "binance_usdm" creds false false) (secretRefused now),
    .call (.add "main" "binance_usdm" creds false false) (fun _ => ⟨.succeeds, now⟩),
    .reopen,
    .call (.remove "main") (fun _ => ⟨.raisesBefore, now⟩)]

theorem observations_independent_of_secrets_addTwice :
    observations (.opened .empty) (addTwice ⟨"K1", "S1", none⟩ 1) =
      observations (.opened ⟨OrderedDict.empty.set ("funding-tool/main", "key") "old", none, none⟩)
        (addTwice ⟨"K2", "S2", some "P2"⟩ 2) := by
  have hfiles : SameFiles .empty
      ⟨OrderedDict.empty.set ("funding-tool/main", "key") "old", none, none⟩ := ⟨rfl, rfl⟩
  apply observations_independent_of_secrets hfiles
  refine .cons ⟨⟨rfl, rfl, rfl, rfl, rfl⟩, ?_⟩ (.cons ⟨⟨rfl, rfl, rfl, rfl, rfl⟩, ?_⟩
    (.cons trivial (.cons ⟨rfl, ?_⟩ .nil)))
  · exact fun _ => rfl
  · exact fun _ => rfl
  · exact fun _ => rfl

end FundingTool.AccountSecrecy
