import FundingTool.AccountStore
import FundingTool.CrashSafety

/-!
# Listed accounts resolve, across failures

`add` writes the keyring before the file lists the account, so a failure in between costs
nothing.  `remove` empties the keyring before the file forgets the account, and so does an
`add` over an account whose removal was not saved: a failure in between leaves an account
that is listed and does not resolve.

While no exception leaves a method, and no process dies, between a change of a keyring
entry that the file refers to and the next `os.replace`, every listed account resolves to
the credentials it was added with.
-/

namespace FundingTool.AccountDurability

open FundingTool.TransitionSystem FundingTool.Interaction FundingTool.AccountStore

/-! ## 1. What a run remembers -/

/-- Keyring and files, with the credentials given to the `add` behind each entry in memory
    and in the file, and whether a keyring entry the file refers to has been written to
    since the file was. -/
structure Traced where
  disk : Disk
  added : String → Option ApiCredentials
  onFile : String → Option ApiCredentials
  touched : Bool

def Traced.empty : Traced := ⟨.empty, fun _ => none, fun _ => none, false⟩

/-- The file lists an account that refers to this keyring entry. -/
def refersTo (file : Option AccountData) (service username : String) : Bool :=
  (AccountData.load file).accounts.entries.any fun e =>
    (refs e.2).any fun ref => decide (keyringParse ref = some (service, username))

def touches (disk : Disk) : WriteOp → Bool
  | .setPassword service username _ => refersTo disk.file service username
  | .deletePassword service username => refersTo disk.file service username
  | _ => false

/-- A write that has its effect. -/
def traceWrite (w : WriteOp) (t : Traced) : Traced :=
  match w, t.disk.tmp with
  | .replace, some (.written _) =>
      { t with disk := w.apply t.disk, onFile := t.added, touched := false }
  | _, _ => { t with disk := w.apply t.disk, touched := t.touched || touches t.disk w }

/-- `perform`, remembering. -/
def trace : (o : AccountOp) → AccountChoice → Traced → Traced × o.Resp
  | .write w, c, t =>
      (if c.outcome = .raisesBefore then t else traceWrite w t, (perform (.write w) c t.disk).2)
  | o, c, t => ({ t with disk := (perform o c t.disk).1 }, (perform o c t.disk).2)

theorem traceWrite_disk (w : WriteOp) (t : Traced) :
    (traceWrite w t).disk = w.apply t.disk := by
  unfold traceWrite
  split <;> rfl

/-- What is remembered does not disturb the program. -/
theorem trace_perform (o : AccountOp) (c : AccountChoice) (t : Traced) :
    ((trace o c t).1.disk, (trace o c t).2) = perform o c t.disk := by
  cases o with
  | write w =>
      obtain ⟨outcome, now⟩ := c
      cases outcome with
      | raisesBefore => rfl
      | _ => simp only [trace, perform, reduceCtorEq, if_false, traceWrite_disk]
  | _ => rfl

/-! ## 2. Calls and failures -/

inductive AccountCall
  | add (name exchange : String) (credentials : ApiCredentials) (verified allowPlaintext : Bool)
  | remove (name : String)
  | setDefault (name : String)

def AccountCall.program : AccountCall → AccountData → Edit
  | .add name exchange credentials verified allowPlaintext, data =>
      AccountStore.add data name exchange credentials verified allowPlaintext
  | .remove name, data => AccountStore.remove data name
  | .setDefault name, data => AccountStore.setDefault data name

/-- An `add` of a new name is noted with its credentials. -/
def AccountCall.note (data : AccountData) (t : Traced) : AccountCall → Traced
  | .add name _ credentials _ _ =>
      if data.accounts.get? name = none then
        { t with added := fun n => if n = name then some credentials else t.added n }
      else t
  | _ => t

/-- One process after the other on the same keyring and file. -/
def accountComponent : Component AccountOp AccountOp.Resp AccountData AccountError Traced
    AccountChoice AccountCall where
  exec := trace
  load t := ({ t with added := t.onFile }, AccountData.load t.disk.file)
  begin call data t := call.note data t
  program := AccountCall.program

abbrev AccountSession := Session AccountOp AccountOp.Resp AccountData AccountError Traced

/-- Nothing raises, other than a deletion, with a keyring entry of the file written to; and
    no empty text is stored in the keyring. -/
def Completes (t : Traced) (o : AccountOp) (c : AccountChoice) : Prop :=
  match o with
  | .write (.deletePassword ..) => True
  | .write (.setPassword service username value) => value ≠ "" ∧ (c.outcome ≠ .succeeds →
      (trace (.write (.setPassword service username value)) c t).1.touched = false)
  | o => c.outcome ≠ .succeeds → (trace o c t).1.touched = false

/-- The process may die while no keyring entry of the file has been written to. -/
def Untouched (t : Traced) : Prop := t.touched = false

instance (t : Traced) (o : AccountOp) (c : AccountChoice) : Decidable (Completes t o c) := by
  unfold Completes
  split <;> infer_instance

instance (t : Traced) : Decidable (Untouched t) := inferInstanceAs (Decidable (_ = _))

/-! ## 3. Accounts that resolve -/

/-- The entry's references are its own, and the keyring has its credentials. -/
def Resolves (keyring : OrderedDict (String × String) String) (name : String)
    (credentials : Option ApiCredentials) : StoredSecret → Prop
  | .keyring apiKeyRef secretRef =>
      apiKeyRef = keyringRef name "key" ∧ secretRef = keyringRef name "secret" ∧
      ∃ creds, credentials = some creds ∧ creds.apiKey ≠ "" ∧ creds.apiSecret ≠ "" ∧
        keyring.get? (keyringService name, "key") = some creds.apiKey ∧
        keyring.get? (keyringService name, "secret") = some creds.apiSecret
  | .plaintext .. => True

def AllResolve (keyring : OrderedDict (String × String) String)
    (credentials : String → Option ApiCredentials)
    (accounts : OrderedDict String AccountEntry) : Prop :=
  ∀ name entry, accounts.get? name = some entry →
    Resolves keyring name (credentials name) entry.secret

/-- The accounts in memory resolve. -/
def MemoryResolves (data : AccountData) (t : Traced) : Prop :=
  AllResolve t.disk.keyring t.added data.accounts

/-- The accounts of the file resolve. -/
def FileResolves (t : Traced) : Prop :=
  AllResolve t.disk.keyring t.onFile (AccountData.load t.disk.file).accounts

def Quiet (t : Traced) : Prop := Untouched t ∧ FileResolves t

def Crash (t : Traced) : Prop := Untouched t → FileResolves t

theorem Resolves.frame {keyring keyring' : OrderedDict (String × String) String} {name : String}
    {credentials : Option ApiCredentials} {secret : StoredSecret}
    (h : Resolves keyring name credentials secret)
    (hsame : ∀ username, keyring'.get? (keyringService name, username) =
      keyring.get? (keyringService name, username)) :
    Resolves keyring' name credentials secret := by
  cases secret with
  | keyring apiKeyRef secretRef =>
      obtain ⟨hkey, hsecret, creds, hcreds, hkne, hsne, hkeyring, hkeyring'⟩ := h
      exact ⟨hkey, hsecret, creds, hcreds, hkne, hsne, by rw [hsame, hkeyring],
        by rw [hsame, hkeyring']⟩
  | plaintext => trivial

/-- A listed account refers to both of its keyring entries. -/
theorem refersTo_of_listed {t : Traced} (h : FileResolves t) {name : String} {entry : AccountEntry}
    (hlisted : (AccountData.load t.disk.file).accounts.get? name = some entry)
    {apiKeyRef secretRef : String} (hsecret : entry.secret = .keyring apiKeyRef secretRef)
    {username : String} (huser : username = "key" ∨ username = "secret") :
    refersTo t.disk.file (keyringService name) username = true := by
  have hresolves := h name entry hlisted
  rw [hsecret] at hresolves
  obtain ⟨hkey, hsecretRef, -⟩ := hresolves
  have hmem : keyringRef name username ∈ refs entry := by
    unfold refs
    rw [hsecret, List.mem_filter]
    refine ⟨?_, decide_eq_true (keyringRef_ne_empty name username)⟩
    rcases huser with rfl | rfl
    · rw [hkey]
      exact List.mem_cons_self
    · rw [hsecretRef]
      exact List.mem_cons_of_mem _ List.mem_cons_self
  unfold refersTo
  rw [List.any_eq_true]
  refine ⟨(name, entry), OrderedDict.get?_eq_some_iff.mp hlisted, ?_⟩
  rw [List.any_eq_true]
  refine ⟨keyringRef name username, hmem, decide_eq_true ?_⟩
  apply keyringParse_keyringRef
  rcases huser with rfl | rfl <;> decide

/-! ## 4. Writing to the keyring -/

/-- A write to one of the two keyring entries of an account. -/
def WritesEntry (name username : String) (w : WriteOp) : Prop :=
  (username = "key" ∨ username = "secret") ∧
    ((∃ value, w = .setPassword (keyringService name) username value) ∨
      w = .deletePassword (keyringService name) username)

theorem traceWrite_entry {name username : String} {w : WriteOp} (h : WritesEntry name username w)
    (t : Traced) : (traceWrite w t).added = t.added ∧ (traceWrite w t).onFile = t.onFile ∧
      (traceWrite w t).disk.file = t.disk.file ∧
      (traceWrite w t).touched =
        (t.touched || refersTo t.disk.file (keyringService name) username) ∧
      ∀ key, key ≠ (keyringService name, username) →
        (traceWrite w t).disk.keyring.get? key = t.disk.keyring.get? key := by
  obtain ⟨-, ⟨value, rfl⟩ | rfl⟩ := h
  · refine ⟨rfl, rfl, rfl, rfl, ?_⟩
    intro key hne
    exact OrderedDict.get?_set_ne _ value hne
  · refine ⟨rfl, rfl, rfl, rfl, ?_⟩
    intro key hne
    exact OrderedDict.get?_erase_ne _ hne

/-- The accounts in memory do not notice a write to an entry of another name. -/
theorem memoryResolves_write {data : AccountData} {t : Traced} (h : MemoryResolves data t)
    {name username : String} {w : WriteOp} (hwrites : WritesEntry name username w)
    (hname : data.accounts.get? name = none) : MemoryResolves data (traceWrite w t) := by
  obtain ⟨hadded, -, -, -, hothers⟩ := traceWrite_entry hwrites t
  intro other entry hentry
  rw [hadded]
  apply (h other entry hentry).frame
  intro user
  apply hothers
  intro heq
  rw [Prod.mk.injEq] at heq
  have hsame := keyringService_inj heq.1
  rw [hsame, hname] at hentry
  cases hentry

/-- Nor do those of the file, unless it refers to the entry. -/
theorem crash_write {t : Traced} (h : Crash t) {name username : String} {w : WriteOp}
    (hwrites : WritesEntry name username w) : Crash (traceWrite w t) := by
  obtain ⟨-, honFile, hfile, htouched, hothers⟩ := traceWrite_entry hwrites t
  intro huntouched
  unfold Untouched at huntouched
  rw [htouched, Bool.or_eq_false_iff] at huntouched
  have hresolves := h huntouched.1
  intro other entry hentry
  rw [hfile] at hentry
  rw [honFile]
  have hother := hresolves other entry hentry
  rcases hsecret : entry.secret with ⟨apiKeyRef, secretRef⟩ | ⟨apiKey, apiSecret⟩
  · rw [hsecret] at hother
    apply hother.frame
    intro user
    apply hothers
    intro heq
    rw [Prod.mk.injEq] at heq
    have hsame := keyringService_inj heq.1
    rw [hsame] at hentry
    have hrefers := refersTo_of_listed hresolves hentry hsecret hwrites.1
    rw [huntouched.2] at hrefers
    cases hrefers
  · trivial

/-! ## 5. Saving -/

/-- A method is verified from a state when it ends quiet, with the accounts in memory, however
    it ends. -/
abbrev Verified (p : Edit) (t : Traced) : Prop :=
  p.wp trace Completes Crash (fun t r => Quiet t ∧ MemoryResolves (memoryOf r) t) t

theorem verified_raise {data : AccountData} {e : AccountError} {t : Traced} (hcrash : Crash t)
    (huntouched : Untouched t) (hmemory : MemoryResolves data t) :
    Verified (.raise (data, e)) t :=
  ⟨hcrash, ⟨huntouched, hcrash huntouched⟩, hmemory⟩

/-- **A write that may fail.**  What it leaves has to be verified from, and either way the
    accounts in memory have to resolve. -/
theorem verified_attempt {data : AccountData} {w : WriteOp} {rest : Edit} {t : Traced}
    (hdelete : ∀ service username, w ≠ .deletePassword service username) (hcrash : Crash t)
    (hmemory : MemoryResolves data t) (hmemory' : MemoryResolves data (traceWrite w t))
    (hrest : (∀ service username value, w = .setPassword service username value → value ≠ "") →
      Verified rest (traceWrite w t)) : Verified (attempt data w rest) t := by
  refine ⟨hcrash, ?_⟩
  intro c hguard
  have hvalue : ∀ service username value, w = .setPassword service username value →
      value ≠ "" := by
    rintro service username value rfl
    exact hguard.1
  have hcompletes : c.outcome ≠ .succeeds → (trace (.write w) c t).1.touched = false := by
    cases w with
    | deletePassword service username => exact absurd rfl (hdelete service username)
    | setPassword service username value => exact hguard.2
    | _ => exact hguard
  have hafter := hrest hvalue
  obtain ⟨outcome, now⟩ := c
  cases outcome with
  | succeeds => exact hafter
  | raisesBefore => exact verified_raise hcrash (hcompletes nofun) hmemory
  | raisesAfter => exact verified_raise hafter.crash (hcompletes nofun) hmemory'

theorem Crash.of_same {t t' : Traced} (h : Crash t) (hkeyring : t'.disk.keyring = t.disk.keyring)
    (hfile : t'.disk.file = t.disk.file) (honFile : t'.onFile = t.onFile)
    (htouched : t'.touched = t.touched) : Crash t' := by
  intro huntouched
  unfold Untouched at huntouched
  rw [htouched] at huntouched
  unfold FileResolves
  rw [hkeyring, hfile, honFile]
  exact h huntouched

theorem verified_saveTmp {data : AccountData} {t : Traced} (hcrash : Crash t)
    (hmemory : MemoryResolves data t) : Verified (saveTmp data) t := by
  have hdump : Crash (traceWrite (.dump data) t) :=
    hcrash.of_same rfl rfl rfl (Bool.or_false _)
  -- After the rename the file lists what the memory does.
  have hfile : FileResolves (traceWrite .replace (traceWrite (.dump data) t)) := hmemory
  refine verified_attempt nofun hcrash hmemory hmemory fun _ => ?_
  refine verified_attempt nofun hdump hmemory hmemory fun _ => ?_
  exact ⟨fun _ => hfile, ⟨rfl, hfile⟩, hmemory⟩

theorem verified_openTmp {data : AccountData} {k : Except OpenError Unit → Edit} {t : Traced}
    (hcrash : Crash t) (hmemory : MemoryResolves data t)
    (hfailed : k (.error .failed) = .raise (data, .raised))
    (hexists : t.disk.tmp ≠ none → Verified (k (.error .fileExists)) t)
    (hopened : Verified (k (.ok ())) { t with disk := { t.disk with tmp := some .opened } }) :
    Verified (.call .openTmp k) t := by
  refine ⟨hcrash, ?_⟩
  intro c hguard
  obtain ⟨outcome, now⟩ := c
  have hcompletes : outcome ≠ .succeeds → Untouched t := hguard
  rcases htmp : t.disk.tmp with _ | tmp
  · cases outcome with
    | succeeds =>
        simp only [trace, perform, htmp]
        exact hopened
    | raisesBefore =>
        simp only [trace, perform, htmp, hfailed]
        exact verified_raise hcrash (hcompletes nofun) hmemory
    | raisesAfter =>
        simp only [trace, perform, htmp, hfailed]
        exact verified_raise hopened.crash (hcompletes nofun) hmemory
  · simp only [trace, perform, htmp]
    exact hexists (by rw [htmp]; exact Option.some_ne_none tmp)

/-- **`_save` loses nothing**: the file is the old one or lists what the memory does. -/
theorem verified_save {data : AccountData} {t : Traced} (hcrash : Crash t)
    (hmemory : MemoryResolves data t) : Verified (save data) t := by
  have hmkdir : Crash (traceWrite .mkdir t) := hcrash.of_same rfl rfl rfl (Bool.or_false _)
  refine verified_attempt nofun hcrash hmemory hmemory fun _ => ?_
  refine verified_openTmp hmkdir hmemory rfl ?_ ?_
  · intro _
    have hunlink : Crash (traceWrite .unlinkTmp (traceWrite .mkdir t)) :=
      hmkdir.of_same rfl rfl rfl (Bool.or_false _)
    refine verified_attempt nofun hmkdir hmemory hmemory fun _ => ?_
    refine verified_openTmp hunlink hmemory rfl (fun hsome => absurd rfl hsome) ?_
    exact verified_saveTmp (hunlink.of_same rfl rfl rfl rfl) hmemory
  · exact verified_saveTmp (hmkdir.of_same rfl rfl rfl rfl) hmemory

/-! ## 6. The methods -/

/-- A call that changes nothing and may fail only while nothing has been written to. -/
theorem verified_now {k : Int → Edit} {t : Traced} (h : ∀ now, Verified (k now) t) :
    Verified (.call .now k) t :=
  ⟨(h 0).crash, fun c _ => h c.now⟩

theorem verified_setDefault {data : AccountData} {name : String} {t : Traced} (hquiet : Quiet t)
    (hmemory : MemoryResolves data t) : Verified (setDefault data name) t := by
  unfold setDefault
  by_cases hname : data.accounts.get? name = none
  · rw [if_pos hname]
    exact verified_raise (fun _ => hquiet.2) hquiet.1 hmemory
  · rw [if_neg hname]
    exact verified_save (fun _ => hquiet.2) hmemory

theorem verified_addEntry {data : AccountData} {name : String} {entry : AccountEntry} {t : Traced}
    (hcrash : Crash t) (hmemory : MemoryResolves data t)
    (hentry : Resolves t.disk.keyring name (t.added name) entry.secret) :
    Verified (addEntry data name entry) t := by
  apply verified_save hcrash
  intro other found hfound
  simp only [OrderedDict.get?_set] at hfound
  by_cases hsame : other = name
  · rw [if_pos hsame, Option.some.injEq] at hfound
    rw [hsame, ← hfound]
    exact hentry
  · rw [if_neg hsame] at hfound
    exact hmemory other found hfound

theorem verified_addKeyring {data : AccountData} {name exchange : String}
    {credentials : ApiCredentials} {createdAt : Int} {verifiedAt : Option Int} {t : Traced}
    (hcrash : Crash t) (hmemory : MemoryResolves data t)
    (hname : data.accounts.get? name = none) (hadded : t.added name = some credentials) :
    Verified (addKeyring data name exchange credentials createdAt verifiedAt) t := by
  have hkey : WritesEntry name "key" (.setPassword (keyringService name) "key" credentials.apiKey) :=
    ⟨Or.inl rfl, Or.inl ⟨_, rfl⟩⟩
  have hsecret : WritesEntry name "secret"
      (.setPassword (keyringService name) "secret" credentials.apiSecret) :=
    ⟨Or.inr rfl, Or.inl ⟨_, rfl⟩⟩
  have hmemory₁ := memoryResolves_write hmemory hkey hname
  have hmemory₂ := memoryResolves_write hmemory₁ hsecret hname
  have hcrash₁ := crash_write hcrash hkey
  have hcrash₂ := crash_write hcrash₁ hsecret
  refine verified_attempt nofun hcrash hmemory hmemory₁ fun hkne => ?_
  refine verified_attempt nofun hcrash₁ hmemory₁ hmemory₂ fun hsne => ?_
  apply verified_addEntry hcrash₂ hmemory₂
  obtain ⟨hadded₁, -, -, -, -⟩ := traceWrite_entry hkey t
  obtain ⟨hadded₂, -, -, -, hothers⟩ := traceWrite_entry hsecret
    (traceWrite (.setPassword (keyringService name) "key" credentials.apiKey) t)
  refine ⟨rfl, rfl, credentials, by rw [hadded₂, hadded₁, hadded], hkne _ _ _ rfl,
    hsne _ _ _ rfl, ?_, ?_⟩
  · rw [hothers _ (by simp)]
    exact OrderedDict.get?_set_self _ _ _
  · exact OrderedDict.get?_set_self _ _ _

theorem verified_addStored {data : AccountData} {name exchange : String}
    {credentials : ApiCredentials} {allowPlaintext : Bool} {createdAt : Int}
    {verifiedAt : Option Int} {t : Traced} (hquiet : Quiet t) (hmemory : MemoryResolves data t)
    (hname : data.accounts.get? name = none) (hadded : t.added name = some credentials) :
    Verified (addStored data name exchange credentials allowPlaintext createdAt verifiedAt) t := by
  have hcrash : Crash t := fun _ => hquiet.2
  refine ⟨hcrash, ?_⟩
  intro c _
  have hraises : Verified (if allowPlaintext then addEntry data name
      ⟨exchange, createdAt, verifiedAt, .plaintext credentials.apiKey credentials.apiSecret⟩
      else .raise (data, .plaintextFallbackRequired)) t := by
    by_cases hallow : allowPlaintext = true
    · rw [if_pos hallow]
      exact verified_addEntry hcrash hmemory trivial
    · rw [if_neg hallow]
      exact verified_raise hcrash hquiet.1 hmemory
  obtain ⟨outcome, now⟩ := c
  cases outcome with
  | succeeds => exact verified_addKeyring hcrash hmemory hname hadded
  | raisesBefore => exact hraises
  | raisesAfter => exact hraises

theorem verified_add {data : AccountData} {name exchange : String} {credentials : ApiCredentials}
    {verified allowPlaintext : Bool} {t : Traced} (hquiet : Quiet t)
    (hmemory : MemoryResolves data t)
    (hadded : data.accounts.get? name = none → t.added name = some credentials) :
    Verified (add data name exchange credentials verified allowPlaintext) t := by
  unfold add
  by_cases hname : data.accounts.get? name = none
  · rw [if_neg (not_not.mpr hname)]
    apply verified_now
    intro createdAt
    cases verified with
    | false =>
        rw [if_neg Bool.false_ne_true]
        exact verified_addStored hquiet hmemory hname (hadded hname)
    | true =>
        rw [if_pos rfl]
        apply verified_now
        intro verifiedAt
        exact verified_addStored hquiet hmemory hname (hadded hname)
  · rw [if_pos hname]
    exact verified_raise (fun _ => hquiet.2) hquiet.1 hmemory

/-- The loop over the references of an account that memory has forgotten. -/
theorem verified_deleteRefs {data data' : AccountData} {name : String} {t : Traced}
    (hcrash : Crash t) (hmemory : MemoryResolves data' t)
    (hname : data'.accounts.get? name = none) {usernames : List String}
    (husers : ∀ username ∈ usernames, username = "key" ∨ username = "secret") :
    Verified (deleteRefs data (save data') (usernames.map (keyringRef name))) t := by
  induction usernames generalizing t with
  | nil => exact verified_save hcrash hmemory
  | cons username rest ih =>
      have huser := husers username List.mem_cons_self
      have hrest : ∀ user ∈ rest, user = "key" ∨ user = "secret" :=
        fun user huser => husers user (List.mem_cons_of_mem _ huser)
      have hparse : keyringParse (keyringRef name username) =
          some (keyringService name, username) := by
        apply keyringParse_keyringRef
        rcases huser with rfl | rfl <;> decide
      have hwrites : WritesEntry name username (.deletePassword (keyringService name) username) :=
        ⟨huser, Or.inr rfl⟩
      simp only [List.map_cons, deleteRefs, hparse]
      refine ⟨hcrash, ?_⟩
      intro c _
      simp only [trace]
      by_cases hbefore : c.outcome = .raisesBefore
      · rw [if_pos hbefore]
        exact ih hcrash hmemory hrest
      · rw [if_neg hbefore]
        exact ih (crash_write hcrash hwrites) (memoryResolves_write hmemory hwrites hname) hrest

/-- An entry of memory refers to its own keyring entries, or to none. -/
theorem refs_of_resolves {keyring : OrderedDict (String × String) String} {name : String}
    {credentials : Option ApiCredentials} {entry : AccountEntry}
    (h : Resolves keyring name credentials entry.secret) :
    ∃ usernames : List String, refs entry = usernames.map (keyringRef name) ∧
      ∀ username ∈ usernames, username = "key" ∨ username = "secret" := by
  unfold refs
  rcases hsecret : entry.secret with ⟨apiKeyRef, secretRef⟩ | ⟨apiKey, apiSecret⟩
  · rw [hsecret] at h
    obtain ⟨rfl, rfl, -⟩ := h
    refine ⟨["key", "secret"], ?_, by simp⟩
    simp [keyringRef_ne_empty]
  · exact ⟨[], rfl, by simp⟩

theorem verified_remove {data : AccountData} {name : String} {t : Traced} (hquiet : Quiet t)
    (hmemory : MemoryResolves data t) : Verified (remove data name) t := by
  have hcrash : Crash t := fun _ => hquiet.2
  unfold remove
  rcases hentry : data.accounts.get? name with _ | entry
  · exact verified_raise hcrash hquiet.1 hmemory
  · obtain ⟨usernames, hrefs, husers⟩ := refs_of_resolves (hmemory name entry hentry)
    simp only [hrefs]
    apply verified_deleteRefs hcrash ?_ (OrderedDict.get?_erase_self _ _) husers
    intro other found hfound
    simp only [OrderedDict.get?_erase] at hfound
    by_cases hsame : other = name
    · rw [if_pos hsame] at hfound
      cases hfound
    · rw [if_neg hsame] at hfound
      exact hmemory other found hfound

/-- **Every call is verified** from every quiet state whose memory resolves. -/
theorem verified_program (call : AccountCall) (data : AccountData) (t : Traced)
    (hquiet : Quiet t) (hmemory : MemoryResolves data t) :
    Verified (call.program data) (call.note data t) := by
  cases call with
  | add name exchange credentials verified allowPlaintext =>
      by_cases hname : data.accounts.get? name = none
      · simp only [AccountCall.note, if_pos hname]
        refine verified_add hquiet ?_ ?_
        · intro other entry hentry
          by_cases hsame : other = name
          · rw [hsame, hname] at hentry
            cases hentry
          · simp only [if_neg hsame]
            exact hmemory other entry hentry
        · intro _
          simp
      · simp only [AccountCall.note, if_neg hname]
        exact verified_add hquiet hmemory fun h => absurd h hname
  | remove name => exact verified_remove hquiet hmemory
  | setDefault name => exact verified_setDefault hquiet hmemory

/-! ## 7. After every run -/

/-- No method is running. -/
def AtRest (s : AccountSession) : Prop :=
  match s.process with
  | .busy _ => False
  | _ => True

instance (s : AccountSession) : Decidable (AtRest s) := by
  unfold AtRest
  split <;> infer_instance

theorem file_resolves {s : AccountSession}
    (h : Reaches accountComponent.step (Component.Allowed Completes Untouched) ⟨.empty, .dead⟩ s)
    (hrest : AtRest s) : FileResolves s.state := by
  have hempty : Quiet Traced.empty := ⟨rfl, fun _ _ hentry => nomatch hentry⟩
  have hsound := Component.sound (m := accountComponent) Quiet MemoryResolves
    (fun t hquiet => ⟨hquiet, hquiet.2⟩)
    (fun call data t hquiet hmemory => verified_program call data t hquiet hmemory)
    (fun t hcrash huntouched => ⟨huntouched, hcrash huntouched⟩) hempty h
  unfold Component.SoundSession at hsound
  unfold AtRest at hrest
  rcases hprocess : s.process with _ | memory | rest
  · rw [hprocess] at hsound
    exact hsound.2
  · rw [hprocess] at hsound
    exact hsound.1.2
  · rw [hprocess] at hrest
    exact hrest.elim

theorem getPassword_run (service username : String) (now : Int) (disk : Disk) :
    (getPassword service username).run perform ⟨.succeeds, now⟩ disk =
      (disk, .ok (disk.keyring.get? (service, username))) := rfl

/-- A store opened on the disk, asked for an account's credentials while the keyring
    answers. -/
def reopened (disk : Disk) (name : String) : Except AccountError ApiCredentials :=
  ((getCredentials (AccountData.load disk.file) name).run perform ⟨.succeeds, 0⟩ disk).2

theorem reopened_of_resolves {disk : Disk} {name : String} {entry : AccountEntry}
    {credentials : Option ApiCredentials}
    (hentry : (AccountData.load disk.file).accounts.get? name = some entry)
    (h : Resolves disk.keyring name credentials entry.secret) {apiKeyRef secretRef : String}
    (hsecret : entry.secret = .keyring apiKeyRef secretRef) :
    ∃ creds, credentials = some creds ∧
      reopened disk name = .ok ⟨creds.apiKey, creds.apiSecret, none⟩ := by
  rw [hsecret] at h
  obtain ⟨hkeyRef, hsecretRef, creds, hcreds, hkne, hsne, hkey, hsec⟩ := h
  refine ⟨creds, hcreds, ?_⟩
  have hparseKey : keyringParse (keyringRef name "key") = some (keyringService name, "key") :=
    keyringParse_keyringRef name (by decide)
  have hparseSecret : keyringParse (keyringRef name "secret") =
      some (keyringService name, "secret") := keyringParse_keyringRef name (by decide)
  unfold reopened getCredentials
  simp only [hentry, hsecret, hkeyRef, hsecretRef, hparseKey, hparseSecret]
  rw [Prog.run_bind_ok (getPassword_run _ _ _ _), Prog.run_bind_ok (getPassword_run _ _ _ _),
    hkey, hsec, filter_ne_empty hkne, filter_ne_empty hsne]
  rfl

/-- **Listed accounts resolve.**  In every run of any calls, processes, faults and deaths
    that meets the conditions, a re-opened store returns, for every account the file lists
    with keyring references, the credentials it was added with. -/
theorem listed_accounts_resolve {s : AccountSession}
    (h : Reaches accountComponent.step (Component.Allowed Completes Untouched) ⟨.empty, .dead⟩ s)
    (hrest : AtRest s) {name : String} {entry : AccountEntry} {apiKeyRef secretRef : String}
    (hentry : (AccountData.load s.state.disk.file).accounts.get? name = some entry)
    (hsecret : entry.secret = .keyring apiKeyRef secretRef) :
    ∃ creds, s.state.onFile name = some creds ∧
      reopened s.state.disk name = .ok ⟨creds.apiKey, creds.apiSecret, none⟩ :=
  reopened_of_resolves hentry (file_resolves h hrest name entry hentry) hsecret

/-- An operation that succeeds. -/
def proceed : SessionAct AccountChoice AccountCall := .advance ⟨.succeeds, 1767225600000000⟩

/-- One account is added to an empty configuration. -/
def accountAdded : List (SessionAct AccountChoice AccountCall) :=
  [.start, .call (.add "main" "binance_usdm" ⟨"K1", "S1", none⟩ false false)] ++
    List.replicate 8 proceed ++ [.finish]

/-- Adding a second account fails at its second keyring entry, and the process dies. -/
def secondAddFailed : List (SessionAct AccountChoice AccountCall) :=
  accountAdded ++ [.call (.add "spare" "binance_usdm" ⟨"K2", "S2", none⟩ false false)] ++
    List.replicate 3 proceed ++ [.advance ⟨.raisesBefore, 0⟩, .finish, .die]

def mainEntry : AccountEntry :=
  ⟨"binance_usdm", 1767225600000000, none,
    .keyring "keyring:funding-tool/main:key" "keyring:funding-tool/main:secret"⟩

theorem listed_accounts_resolve_secondAddFailed :
    ∃ s : AccountSession, Reaches accountComponent.step (Component.Allowed Completes Untouched)
        ⟨.empty, .dead⟩ s ∧
      ∃ creds, s.state.onFile "main" = some creds ∧
        reopened s.state.disk "main" = .ok ⟨creds.apiKey, creds.apiSecret, none⟩ := by
  have hreach : Reaches accountComponent.step (Component.Allowed Completes Untouched)
      ⟨Traced.empty, .dead⟩ _ := play_get_reaches secondAddFailed (by decide +kernel)
  have hentry : (AccountData.load ((play accountComponent.step
      (Component.Allowed Completes Untouched) ⟨Traced.empty, .dead⟩ secondAddFailed).get
      (by decide +kernel)).state.disk.file).accounts.get? "main" = some mainEntry := by
    decide +kernel
  exact ⟨_, hreach, listed_accounts_resolve hreach (by decide +kernel) hentry rfl⟩

/-- The account is removed; the process dies after its first keyring entry is gone. -/
def removeInterrupted : List (SessionAct AccountChoice AccountCall) :=
  accountAdded ++ [.call (.remove "main"), proceed, .die]

/-- **An interrupted removal leaves an account without credentials.**  The file lists it
    with its references, and `get_credentials` raises. -/
theorem listed_account_unresolved :
    ∃ s : AccountSession, Reaches accountComponent.step Unguarded ⟨.empty, .dead⟩ s ∧ AtRest s ∧
      (AccountData.load s.state.disk.file).accounts.get? "main" = some mainEntry ∧
      reopened s.state.disk "main" = .error (.missingCredentials "main") := by
  refine ⟨_, play_get_reaches removeInterrupted (by decide +kernel), ?_⟩
  decide +kernel

end FundingTool.AccountDurability
