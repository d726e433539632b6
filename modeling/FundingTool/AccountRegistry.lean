import FundingTool.AccountDurability
import FundingTool.Schedules

/-!
# The account store is a map with a default

While nothing but an absent keyring raises, `AccountStore` implements a registry: a finite
map from names to credentials, with a default that follows the additions, the removals and
`set_default`.  The registry knows nothing of entries, references, keyring or file.

The simulation is between what the methods leave on the disk and in `_data`, through any
number of calls and re-openings, and the registry after the same calls.
-/

namespace FundingTool.AccountRegistry

open FundingTool.TransitionSystem FundingTool.Interaction FundingTool.AccountStore
open FundingTool.AccountDurability

/-! ## 1. The registry -/

inductive Status
  | unknown
  | live (credentials : ApiCredentials)
  | removed
deriving DecidableEq, Repr

/-- What became of every name, and the name `set_default` chose last, until it is removed. -/
structure Registry where
  status : String → Status
  chosen : Option String

def Registry.empty : Registry := ⟨fun _ => .unknown, none⟩

def Registry.Live (r : Registry) (name : String) : Prop := ∃ creds, r.status name = .live creds

def Registry.put (r : Registry) (name : String) (status : Status) : String → Status :=
  fun other => if other = name then status else r.status other

/-- A call on the registry, or the error that refuses it. -/
def Registry.apply (r : Registry) : AccountCall → Except AccountError Registry
  | .add name _ credentials _ _ =>
      match r.status name with
      | .live _ => .error (.alreadyExists name)
      | _ => .ok { r with status := r.put name (.live credentials) }
  | .remove name =>
      match r.status name with
      | .live _ => .ok ⟨r.put name .removed, if r.chosen = some name then none else r.chosen⟩
      | _ => .error (.notFound name)
  | .setDefault name =>
      match r.status name with
      | .live _ => .ok { r with chosen := some name }
      | _ => .error (.notFound name)

/-- Key and secret of the last `add` of a name that was not removed since. -/
def Registry.credentials (r : Registry) (name : String) : Except AccountError ApiCredentials :=
  match r.status name with
  | .live creds => .ok ⟨creds.apiKey, creds.apiSecret, none⟩
  | _ => .error (.notFound name)

/-! ## 2. The store in use -/

/-- The keyring answers, or is absent and raises; the file system does not fail. -/
def keyringOutcome (available : Bool) : AccountOp → Outcome
  | .getPassword .. | .write (.setPassword ..) | .write (.deletePassword ..) =>
      if available then .succeeds else .raisesBefore
  | _ => .succeeds

def performWith (available : Bool) (o : AccountOp) (now : Int) (disk : Disk) : Disk × o.Resp :=
  perform o ⟨keyringOutcome available o, now⟩ disk

/-- Disk and memory of the process, and the registry after the calls made so far. -/
structure StoreState where
  disk : Disk
  data : AccountData
  registry : Registry

inductive StoreAct
  | call (call : AccountCall) (clock : Nat → Int)
  | reopen

def StoreState.opened (disk : Disk) : StoreState :=
  ⟨disk, AccountData.load disk.file, .empty⟩

/-- One call on the store, under the clock readings given. -/
def StoreState.run (available : Bool) (s : StoreState) (call : AccountCall) (clock : Nat → Int) :
    Disk × Except (AccountData × AccountError) AccountData :=
  (call.program s.data).runWith (performWith available) clock s.disk

def Registry.next (r : Registry) (call : AccountCall) : Registry :=
  match r.apply call with
  | .ok r' => r'
  | .error _ => r

def step (available : Bool) (s : StoreState) : StoreAct → Option StoreState
  | .call call clock =>
      some ⟨(s.run available call clock).1, memoryOf (s.run available call clock).2,
        s.registry.next call⟩
  | .reopen => some { s with data := AccountData.load s.disk.file }

/-- Keys and secrets are not empty, and without a keyring plaintext is allowed. -/
def Consents (available : Bool) : AccountCall → Prop
  | .add _ _ credentials _ allowPlaintext =>
      credentials.apiKey ≠ "" ∧ credentials.apiSecret ≠ "" ∧
        (available = true ∨ allowPlaintext = true)
  | _ => True

def Consenting (available : Bool) (_ : StoreState) : StoreAct → Prop
  | .call call _ => Consents available call
  | .reopen => True

instance (available : Bool) (call : AccountCall) : Decidable (Consents available call) := by
  unfold Consents
  split <;> infer_instance

instance (available : Bool) (s : StoreState) (a : StoreAct) :
    Decidable (Consenting available s a) := by
  unfold Consenting
  split <;> infer_instance

/-! ## 3. What the methods do -/

theorem save_run (available : Bool) (clock : Nat → Int) (data : AccountData) (disk : Disk) :
    (save data).runWith (performWith available) clock disk =
      ({ disk with file := some data, tmp := none }, .ok data) := by
  obtain ⟨keyring, file, tmp⟩ := disk
  cases tmp with
  | none => rfl
  | some tmp => rfl

/-- A write that the keyring or the file system performs. -/
theorem attempt_run {available : Bool} {w : WriteOp}
    (h : keyringOutcome available (.write w) = .succeeds) (clock : Nat → Int) (data : AccountData)
    (rest : Edit) (disk : Disk) :
    (attempt data w rest).runWith (performWith available) clock disk =
      rest.runWith (performWith available) (fun n => clock (n + 1)) (w.apply disk) := by
  simp only [attempt, Prog.runWith_call, performWith, perform, h]

theorem getPassword_answers {Err α : Type} (clock : Nat → Int) (service username : String)
    (k : AccountOp.Resp (.getPassword service username) → Prog AccountOp AccountOp.Resp Err α)
    (disk : Disk) :
    (Prog.call (.getPassword service username) k).runWith (performWith true) clock disk =
      (k (.ok (disk.keyring.get? (service, username)))).runWith (performWith true)
        (fun n => clock (n + 1)) disk := rfl

theorem getPassword_raises {Err α : Type} (clock : Nat → Int) (service username : String)
    (k : AccountOp.Resp (.getPassword service username) → Prog AccountOp AccountOp.Resp Err α)
    (disk : Disk) :
    (Prog.call (.getPassword service username) k).runWith (performWith false) clock disk =
      (k (.error ⟨⟩)).runWith (performWith false) (fun n => clock (n + 1)) disk := rfl

/-- What `add` stores for the credentials. -/
def storedSecret (available : Bool) (name : String) (credentials : ApiCredentials) :
    StoredSecret :=
  if available then .keyring (keyringRef name "key") (keyringRef name "secret")
  else .plaintext credentials.apiKey credentials.apiSecret

/-- The keyring after `add`. -/
def keyringWith (available : Bool) (keyring : OrderedDict (String × String) String)
    (name : String) (credentials : ApiCredentials) : OrderedDict (String × String) String :=
  if available then
    (keyring.set (keyringService name, "key") credentials.apiKey).set
      (keyringService name, "secret") credentials.apiSecret
  else keyring

/-- The keyring after `remove`. -/
def keyringWithout (available : Bool) (keyring : OrderedDict (String × String) String)
    (name : String) : OrderedDict (String × String) String :=
  if available then
    (keyring.erase (keyringService name, "key")).erase (keyringService name, "secret")
  else keyring

theorem addStored_run {available allowPlaintext : Bool}
    (h : available = true ∨ allowPlaintext = true) (clock : Nat → Int) (data : AccountData)
    (name exchange : String) (credentials : ApiCredentials) (createdAt : Int)
    (verifiedAt : Option Int) (disk : Disk) :
    (addStored data name exchange credentials allowPlaintext createdAt verifiedAt).runWith
        (performWith available) clock disk =
      (⟨keyringWith available disk.keyring name credentials,
          some ⟨data.default.or (some name), data.accounts.set name
            ⟨exchange, createdAt, verifiedAt, storedSecret available name credentials⟩⟩, none⟩,
        .ok ⟨data.default.or (some name), data.accounts.set name
          ⟨exchange, createdAt, verifiedAt, storedSecret available name credentials⟩⟩) := by
  cases available with
  | true =>
      unfold addStored
      rw [getPassword_answers]
      simp only [addKeyring]
      rw [attempt_run rfl, attempt_run rfl]
      exact save_run true _ _ _
  | false =>
      have hallow : allowPlaintext = true := h.resolve_left Bool.false_ne_true
      subst hallow
      unfold addStored
      rw [getPassword_raises]
      exact save_run false _ _ _

/-- **`add` of a new name** stores its credentials and lists it. -/
theorem add_run {available allowPlaintext : Bool} (h : available = true ∨ allowPlaintext = true)
    (clock : Nat → Int) {data : AccountData} {name : String}
    (hname : data.accounts.get? name = none) (exchange : String) (credentials : ApiCredentials)
    (verified : Bool) (disk : Disk) : ∃ entry : AccountEntry,
      entry.secret = storedSecret available name credentials ∧
      (add data name exchange credentials verified allowPlaintext).runWith
          (performWith available) clock disk =
        (⟨keyringWith available disk.keyring name credentials,
            some ⟨data.default.or (some name), data.accounts.set name entry⟩, none⟩,
          .ok ⟨data.default.or (some name), data.accounts.set name entry⟩) := by
  unfold add
  rw [if_neg (not_not.mpr hname)]
  cases verified with
  | false =>
      exact ⟨_, rfl, addStored_run h (fun n => clock (n + 1)) data name exchange credentials
        (clock 0) none disk⟩
  | true =>
      exact ⟨_, rfl, addStored_run h (fun n => clock (n + 1 + 1)) data name exchange credentials
        (clock 0) (some (clock (0 + 1))) disk⟩

theorem add_run_exists (available : Bool) (clock : Nat → Int) {data : AccountData} {name : String}
    (hname : data.accounts.get? name ≠ none) (exchange : String) (credentials : ApiCredentials)
    (verified allowPlaintext : Bool) (disk : Disk) :
    (add data name exchange credentials verified allowPlaintext).runWith
        (performWith available) clock disk = (disk, .error (data, .alreadyExists name)) := by
  unfold add
  rw [if_pos hname]
  rfl

/-- The entry holds the credentials: in the keyring, under its own references, or itself. -/
def Holds (available : Bool) (keyring : OrderedDict (String × String) String) (name : String)
    (creds : ApiCredentials) (secret : StoredSecret) : Prop :=
  creds.apiKey ≠ "" ∧ creds.apiSecret ≠ "" ∧ secret = storedSecret available name creds ∧
    (available = true →
      keyring.get? (keyringService name, "key") = some creds.apiKey ∧
        keyring.get? (keyringService name, "secret") = some creds.apiSecret)

theorem refs_storedSecret {available : Bool} {entry : AccountEntry} {name : String}
    {creds : ApiCredentials} (h : entry.secret = storedSecret available name creds) :
    refs entry = if available then [keyringRef name "key", keyringRef name "secret"] else [] := by
  unfold refs
  rw [h]
  cases available with
  | true => simp [storedSecret, keyringRef_ne_empty]
  | false => rfl

/-- The data `remove` saves. -/
def removed (data : AccountData) (name : String) : AccountData :=
  ⟨if data.default = some name then (data.accounts.erase name).keys.head? else data.default,
    data.accounts.erase name⟩

/-- **`remove` of a listed name** forgets it, and its keyring entries with it. -/
theorem remove_run {available : Bool} (clock : Nat → Int) {data : AccountData} {name : String}
    {entry : AccountEntry} (hentry : data.accounts.get? name = some entry)
    {creds : ApiCredentials} (hsecret : entry.secret = storedSecret available name creds)
    (disk : Disk) :
    (remove data name).runWith (performWith available) clock disk =
      (⟨keyringWithout available disk.keyring name, some (removed data name), none⟩,
        .ok (removed data name)) := by
  have hkey : keyringParse (keyringRef name "key") = some (keyringService name, "key") :=
    keyringParse_keyringRef name (by decide)
  have hsec : keyringParse (keyringRef name "secret") = some (keyringService name, "secret") :=
    keyringParse_keyringRef name (by decide)
  unfold remove
  simp only [hentry, refs_storedSecret hsecret]
  cases available with
  | true =>
      simp only [if_true, deleteRefs, hkey, hsec, Prog.runWith_call]
      exact save_run true _ (removed data name) _
  | false => exact save_run false clock (removed data name) disk

theorem remove_run_missing (available : Bool) (clock : Nat → Int) {data : AccountData}
    {name : String} (hname : data.accounts.get? name = none) (disk : Disk) :
    (remove data name).runWith (performWith available) clock disk =
      (disk, .error (data, .notFound name)) := by
  unfold remove
  simp only [hname]
  rfl

theorem setDefault_run (available : Bool) (clock : Nat → Int) {data : AccountData} {name : String}
    (hname : data.accounts.get? name ≠ none) (disk : Disk) :
    (setDefault data name).runWith (performWith available) clock disk =
      ({ disk with file := some { data with default := some name }, tmp := none },
        .ok { data with default := some name }) := by
  unfold setDefault
  rw [if_neg hname]
  exact save_run available _ _ _

theorem setDefault_run_missing (available : Bool) (clock : Nat → Int) {data : AccountData}
    {name : String} (hname : data.accounts.get? name = none) (disk : Disk) :
    (setDefault data name).runWith (performWith available) clock disk =
      (disk, .error (data, .notFound name)) := by
  unfold setDefault
  rw [if_pos hname]
  rfl

theorem getCredentials_run_missing (available : Bool) (clock : Nat → Int) {data : AccountData}
    {name : String} (hname : data.accounts.get? name = none) (disk : Disk) :
    (getCredentials data name).runWith (performWith available) clock disk =
      (disk, .error (.notFound name)) := by
  unfold getCredentials
  simp only [hname]
  rfl

theorem getCredentials_run {available : Bool} (clock : Nat → Int) {data : AccountData}
    {name : String} {entry : AccountEntry} (hentry : data.accounts.get? name = some entry)
    {disk : Disk} {creds : ApiCredentials}
    (h : Holds available disk.keyring name creds entry.secret) :
    (getCredentials data name).runWith (performWith available) clock disk =
      (disk, .ok ⟨creds.apiKey, creds.apiSecret, none⟩) := by
  obtain ⟨hkne, hsne, hsecret, hkeyring⟩ := h
  have hparseKey : keyringParse (keyringRef name "key") = some (keyringService name, "key") :=
    keyringParse_keyringRef name (by decide)
  have hparseSecret : keyringParse (keyringRef name "secret") =
      some (keyringService name, "secret") := keyringParse_keyringRef name (by decide)
  unfold getCredentials
  simp only [hentry, hsecret]
  cases available with
  | true =>
      obtain ⟨hkey, hsec⟩ := hkeyring rfl
      simp only [storedSecret, if_true, hparseKey, hparseSecret, getPassword, Prog.call_bind]
      rw [getPassword_answers, hkey, Prog.ret_bind, getPassword_answers, hsec, Prog.ret_bind,
        filter_ne_empty hkne, filter_ne_empty hsne]
      rfl
  | false => rfl

/-! ## 4. The keyring entries of other names -/

theorem get?_keyringWith_ne (available : Bool) (keyring : OrderedDict (String × String) String)
    {name other : String} (hne : other ≠ name) (creds : ApiCredentials) (username : String) :
    (keyringWith available keyring name creds).get? (keyringService other, username) =
      keyring.get? (keyringService other, username) := by
  have hkey : ∀ user, (keyringService other, username) ≠ (keyringService name, user) :=
    fun user heq => hne (keyringService_inj (congrArg Prod.fst heq))
  cases available with
  | true =>
      simp only [keyringWith, if_true]
      rw [OrderedDict.get?_set_ne _ _ (hkey _), OrderedDict.get?_set_ne _ _ (hkey _)]
  | false => rfl

theorem get?_keyringWithout_ne (available : Bool) (keyring : OrderedDict (String × String) String)
    {name other : String} (hne : other ≠ name) (username : String) :
    (keyringWithout available keyring name).get? (keyringService other, username) =
      keyring.get? (keyringService other, username) := by
  have hkey : ∀ user, (keyringService other, username) ≠ (keyringService name, user) :=
    fun user heq => hne (keyringService_inj (congrArg Prod.fst heq))
  cases available with
  | true =>
      simp only [keyringWithout, if_true]
      rw [OrderedDict.get?_erase_ne _ (hkey _), OrderedDict.get?_erase_ne _ (hkey _)]
  | false => rfl

/-- No credentials of the account are in the keyring. -/
def Cleared (keyring : OrderedDict (String × String) String) (name : String) : Prop :=
  keyring.get? (keyringService name, "key") = none ∧
    keyring.get? (keyringService name, "secret") = none

theorem cleared_keyringWithout (keyring : OrderedDict (String × String) String) (name : String) :
    Cleared (keyringWithout true keyring name) name := by
  refine ⟨?_, OrderedDict.get?_erase_self _ _⟩
  simp only [keyringWithout, if_true]
  rw [OrderedDict.get?_erase_ne _ (by simp), OrderedDict.get?_erase_self]

theorem Holds.frame {available : Bool} {keyring keyring' : OrderedDict (String × String) String}
    {name : String} {creds : ApiCredentials} {secret : StoredSecret}
    (h : Holds available keyring name creds secret)
    (hsame : ∀ username, keyring'.get? (keyringService name, username) =
      keyring.get? (keyringService name, username)) :
    Holds available keyring' name creds secret := by
  obtain ⟨hkne, hsne, hsecret, hkeyring⟩ := h
  refine ⟨hkne, hsne, hsecret, ?_⟩
  rw [hsame, hsame]
  exact hkeyring

theorem holds_keyringWith (available : Bool) (keyring : OrderedDict (String × String) String)
    (name : String) {creds : ApiCredentials} (hkne : creds.apiKey ≠ "")
    (hsne : creds.apiSecret ≠ "") :
    Holds available (keyringWith available keyring name creds) name creds
      (storedSecret available name creds) := by
  refine ⟨hkne, hsne, rfl, ?_⟩
  rintro rfl
  refine ⟨?_, OrderedDict.get?_set_self _ _ _⟩
  simp only [keyringWith, if_true]
  rw [OrderedDict.get?_set_ne _ _ (by simp), OrderedDict.get?_set_self]

/-! ## 5. The simulation -/

/-- Store and registry agree. -/
structure Agrees (available : Bool) (s : StoreState) : Prop where
  saved : AccountData.load s.disk.file = s.data
  listed : ∀ name entry, s.data.accounts.get? name = some entry → ∃ creds,
    s.registry.status name = .live creds ∧ Holds available s.disk.keyring name creds entry.secret
  live : ∀ name, s.registry.Live name → ∃ entry, s.data.accounts.get? name = some entry
  cleared : available = true → ∀ name, s.registry.status name = .removed →
    Cleared s.disk.keyring name
  default_none : s.data.default = none → ∀ name, ¬ s.registry.Live name
  default_live : ∀ name, s.data.default = some name → s.registry.Live name
  chosen : ∀ name, s.registry.chosen = some name → s.data.default = some name

theorem Agrees.get?_eq_none {available : Bool} {s : StoreState} (h : Agrees available s)
    {name : String} (hname : ¬ s.registry.Live name) : s.data.accounts.get? name = none := by
  rcases hget : s.data.accounts.get? name with _ | entry
  · rfl
  · obtain ⟨creds, hlive, -⟩ := h.listed name entry hget
    exact absurd ⟨creds, hlive⟩ hname

theorem Agrees.mem_keys {available : Bool} {s : StoreState} (h : Agrees available s)
    (name : String) : name ∈ s.data.accounts.keys ↔ s.registry.Live name := by
  rw [OrderedDict.mem_keys]
  constructor
  · rintro ⟨entry, hentry⟩
    obtain ⟨creds, hlive, -⟩ := h.listed name entry hentry
    exact ⟨creds, hlive⟩
  · exact h.live name

theorem Registry.put_self (r : Registry) (name : String) (status : Status) :
    r.put name status name = status := if_pos rfl

theorem Registry.put_ne (r : Registry) {name other : String} (hne : other ≠ name)
    (status : Status) : r.put name status other = r.status other := if_neg hne

theorem agrees_opened (available : Bool) {disk : Disk}
    (hempty : AccountData.load disk.file = ⟨none, .empty⟩) :
    Agrees available (StoreState.opened disk) where
  saved := rfl
  listed := by
    intro name entry hentry
    simp only [StoreState.opened, hempty] at hentry
    cases hentry
  live := fun _ ⟨_, hlive⟩ => nomatch hlive
  cleared := fun _ _ hremoved => nomatch hremoved
  default_none := fun _ _ ⟨_, hlive⟩ => nomatch hlive
  default_live := by
    intro name hdefault
    simp only [StoreState.opened, hempty] at hdefault
    cases hdefault
  chosen := fun _ hchosen => nomatch hchosen

theorem agrees_add {available : Bool} {s : StoreState} (h : Agrees available s) {name : String}
    {creds : ApiCredentials} (hkne : creds.apiKey ≠ "") (hsne : creds.apiSecret ≠ "")
    {entry : AccountEntry} (hentry : entry.secret = storedSecret available name creds) :
    Agrees available ⟨⟨keyringWith available s.disk.keyring name creds,
        some ⟨s.data.default.or (some name), s.data.accounts.set name entry⟩, none⟩,
      ⟨s.data.default.or (some name), s.data.accounts.set name entry⟩,
      { s.registry with status := s.registry.put name (.live creds) }⟩ where
  saved := rfl
  listed := by
    intro other found hfound
    by_cases hsame : other = name
    · subst hsame
      simp only [OrderedDict.get?_set_self, Option.some.injEq] at hfound
      subst hfound
      refine ⟨creds, s.registry.put_self _ _, ?_⟩
      rw [hentry]
      exact holds_keyringWith available s.disk.keyring other hkne hsne
    · simp only [OrderedDict.get?_set_ne _ _ hsame] at hfound
      obtain ⟨creds', hlive, hholds⟩ := h.listed other found hfound
      refine ⟨creds', (s.registry.put_ne hsame _).trans hlive, ?_⟩
      exact hholds.frame (get?_keyringWith_ne available _ hsame creds)
  live := by
    rintro other ⟨creds', hlive⟩
    by_cases hsame : other = name
    · subst hsame
      exact ⟨entry, OrderedDict.get?_set_self _ _ _⟩
    · simp only [s.registry.put_ne hsame] at hlive
      simp only [OrderedDict.get?_set_ne _ _ hsame]
      exact h.live other ⟨creds', hlive⟩
  cleared := by
    intro havailable other hremoved
    by_cases hsame : other = name
    · subst hsame
      simp only [s.registry.put_self] at hremoved
      cases hremoved
    · simp only [s.registry.put_ne hsame] at hremoved
      unfold Cleared
      simp only [get?_keyringWith_ne available _ hsame]
      exact h.cleared havailable other hremoved
  default_none := by
    intro hdefault
    rcases hold : s.data.default with _ | d <;> simp [hold] at hdefault
  default_live := by
    intro d hdefault
    by_cases hsame : d = name
    · subst hsame
      exact ⟨creds, s.registry.put_self _ _⟩
    · rcases hold : s.data.default with _ | d'
      · simp only [hold, Option.none_or, Option.some.injEq] at hdefault
        exact absurd hdefault.symm hsame
      · simp only [hold, Option.some_or, Option.some.injEq] at hdefault
        subst hdefault
        obtain ⟨creds', hlive⟩ := h.default_live d' hold
        exact ⟨creds', (s.registry.put_ne hsame _).trans hlive⟩
  chosen := by
    intro c hchosen
    simp only [h.chosen c hchosen, Option.some_or]

theorem agrees_setDefault {available : Bool} {s : StoreState} (h : Agrees available s)
    {name : String} (hlive : s.registry.Live name) :
    Agrees available ⟨{ s.disk with file := some { s.data with default := some name }, tmp := none },
      { s.data with default := some name }, { s.registry with chosen := some name }⟩ where
  saved := rfl
  listed := h.listed
  live := h.live
  cleared := h.cleared
  default_none := nofun
  default_live := by
    intro d hdefault
    rw [Option.some.injEq] at hdefault
    subst hdefault
    exact hlive
  chosen := fun _ hchosen => hchosen

theorem Registry.live_put_removed (r : Registry) (name other : String) :
    (∃ creds, r.put name .removed other = .live creds) ↔ other ≠ name ∧ r.Live other := by
  by_cases hsame : other = name
  · subst hsame
    rw [r.put_self]
    exact iff_of_false nofun fun h => h.1 rfl
  · rw [r.put_ne hsame]
    exact (and_iff_right hsame).symm

theorem Agrees.mem_keys_erase {available : Bool} {s : StoreState} (h : Agrees available s)
    (name other : String) : other ∈ (s.data.accounts.erase name).keys ↔
      other ≠ name ∧ s.registry.Live other := by
  rw [← h.mem_keys, OrderedDict.mem_keys, OrderedDict.mem_keys]
  by_cases hsame : other = name
  · subst hsame
    rw [OrderedDict.get?_erase_self]
    exact iff_of_false nofun fun h => h.1 rfl
  · rw [OrderedDict.get?_erase_ne _ hsame]
    exact (and_iff_right hsame).symm

theorem agrees_remove {available : Bool} {s : StoreState} (h : Agrees available s) (name : String) :
    Agrees available ⟨⟨keyringWithout available s.disk.keyring name, some (removed s.data name),
        none⟩, removed s.data name,
      ⟨s.registry.put name .removed,
        if s.registry.chosen = some name then none else s.registry.chosen⟩⟩ where
  saved := rfl
  listed := by
    intro other entry hentry
    by_cases hsame : other = name
    · subst hsame
      simp only [removed, OrderedDict.get?_erase_self] at hentry
      cases hentry
    · simp only [removed, OrderedDict.get?_erase_ne _ hsame] at hentry
      obtain ⟨creds, hlive, hholds⟩ := h.listed other entry hentry
      refine ⟨creds, (s.registry.put_ne hsame _).trans hlive, ?_⟩
      exact hholds.frame (get?_keyringWithout_ne available _ hsame)
  live := by
    intro other hlive
    have hstill := (s.registry.live_put_removed name other).mp hlive
    exact OrderedDict.mem_keys.mp ((h.mem_keys_erase name other).mpr hstill)
  cleared := by
    intro havailable other hremoved
    by_cases hsame : other = name
    · subst hsame
      subst havailable
      exact cleared_keyringWithout _ _
    · simp only [s.registry.put_ne hsame] at hremoved
      unfold Cleared
      simp only [get?_keyringWithout_ne available _ hsame]
      exact h.cleared havailable other hremoved
  default_none := by
    intro hdefault other hlive
    have hstill := (s.registry.live_put_removed name other).mp hlive
    by_cases hsame : s.data.default = some name
    · simp only [removed, if_pos hsame, List.head?_eq_none_iff] at hdefault
      have hmem := (h.mem_keys_erase name other).mpr hstill
      rw [hdefault] at hmem
      cases hmem
    · simp only [removed, if_neg hsame] at hdefault
      exact h.default_none hdefault other hstill.2
  default_live := by
    intro d hdefault
    apply (s.registry.live_put_removed name d).mpr
    by_cases hsame : s.data.default = some name
    · simp only [removed, if_pos hsame] at hdefault
      exact (h.mem_keys_erase name d).mp (List.mem_of_head? hdefault)
    · simp only [removed, if_neg hsame] at hdefault
      refine ⟨?_, h.default_live d hdefault⟩
      rintro rfl
      exact hsame hdefault
  chosen := by
    intro c hchosen
    by_cases hsame : s.registry.chosen = some name
    · simp only [if_pos hsame] at hchosen
      cases hchosen
    · simp only [if_neg hsame] at hchosen
      have hdefault := h.chosen c hchosen
      have hne : s.data.default ≠ some name := by
        rw [hdefault, ← hchosen]
        exact hsame
      simp only [removed, if_neg hne]
      exact hdefault

theorem Registry.apply_refuses {r : Registry} {call : AccountCall} {e : AccountError}
    (h : r.apply call = .error e) : r.next call = r := by
  unfold Registry.next
  rw [h]

theorem Registry.apply_accepts {r r' : Registry} {call : AccountCall}
    (h : r.apply call = .ok r') : r.next call = r' := by
  unfold Registry.next
  rw [h]

theorem Registry.status_cases (r : Registry) (name : String) :
    (∃ creds, r.status name = .live creds) ∨
      (¬ r.Live name ∧ (r.status name = .unknown ∨ r.status name = .removed)) := by
  unfold Registry.Live
  rcases hstatus : r.status name with _ | creds | _
  · exact Or.inr ⟨nofun, Or.inl rfl⟩
  · exact Or.inl ⟨creds, rfl⟩
  · exact Or.inr ⟨nofun, Or.inr rfl⟩

/-- **One call on both.**  The registry refuses it and the store changes nothing and raises
    the same error, or both carry it out and agree afterwards. -/
theorem run_spec {available : Bool} {s : StoreState} (h : Agrees available s)
    {call : AccountCall} (hconsents : Consents available call) (clock : Nat → Int) :
    (∃ e, s.registry.apply call = .error e ∧
      s.run available call clock = (s.disk, .error (s.data, e))) ∨
    ∃ registry disk data, s.registry.apply call = .ok registry ∧
      s.run available call clock = (disk, .ok data) ∧ Agrees available ⟨disk, data, registry⟩ := by
  cases call with
  | add name exchange creds verified allowPlaintext =>
      obtain ⟨hkne, hsne, hallow⟩ := hconsents
      rcases s.registry.status_cases name with ⟨creds', hlive⟩ | ⟨hfree, hstatus⟩
      · obtain ⟨entry, hentry⟩ := h.live name ⟨creds', hlive⟩
        refine Or.inl ⟨.alreadyExists name, by simp only [Registry.apply, hlive], ?_⟩
        apply add_run_exists
        rw [hentry]
        exact Option.some_ne_none entry
      · obtain ⟨entry, hsecret, hrun⟩ := add_run hallow clock (h.get?_eq_none hfree) exchange creds
          verified s.disk
        refine Or.inr ⟨_, _, _, ?_, hrun, agrees_add h hkne hsne hsecret⟩
        rcases hstatus with hunknown | hremoved
        · simp only [Registry.apply, hunknown]
        · simp only [Registry.apply, hremoved]
  | remove name =>
      rcases s.registry.status_cases name with ⟨creds, hlive⟩ | ⟨hfree, hstatus⟩
      · obtain ⟨entry, hentry⟩ := h.live name ⟨creds, hlive⟩
        obtain ⟨creds', -, -, -, hsecret, -⟩ := h.listed name entry hentry
        refine Or.inr ⟨_, _, _, by simp only [Registry.apply, hlive],
          remove_run clock hentry hsecret s.disk, agrees_remove h name⟩
      · refine Or.inl ⟨.notFound name, ?_, ?_⟩
        · rcases hstatus with hunknown | hremoved
          · simp only [Registry.apply, hunknown]
          · simp only [Registry.apply, hremoved]
        · exact remove_run_missing available clock (h.get?_eq_none hfree) s.disk
  | setDefault name =>
      rcases s.registry.status_cases name with ⟨creds, hlive⟩ | ⟨hfree, hstatus⟩
      · obtain ⟨entry, hentry⟩ := h.live name ⟨creds, hlive⟩
        refine Or.inr ⟨_, _, _, by simp only [Registry.apply, hlive],
          setDefault_run available clock (by rw [hentry]; exact Option.some_ne_none entry) s.disk,
          agrees_setDefault h ⟨creds, hlive⟩⟩
      · refine Or.inl ⟨.notFound name, ?_, ?_⟩
        · rcases hstatus with hunknown | hremoved
          · simp only [Registry.apply, hunknown]
          · simp only [Registry.apply, hremoved]
        · exact setDefault_run_missing available clock (h.get?_eq_none hfree) s.disk

theorem agrees_step {available : Bool} {s s' : StoreState} {a : StoreAct}
    (h : Agrees available s) (hconsents : Consenting available s a)
    (hstep : step available s a = some s') : Agrees available s' := by
  cases a with
  | call call clock =>
      simp only [step, Option.some.injEq] at hstep
      subst hstep
      rcases run_spec h hconsents clock with ⟨e, hrefused, hrun⟩ | ⟨r, disk, data, happly, hrun, h'⟩
      · rw [hrun, Registry.apply_refuses hrefused]
        exact h
      · rw [hrun, Registry.apply_accepts happly]
        exact h'
  | reopen =>
      simp only [step, h.saved, Option.some.injEq] at hstep
      subst hstep
      exact h

/-- The stores reached from an empty file, whatever else is on the disk. -/
theorem agrees_reaches {available : Bool} {disk : Disk}
    (hempty : AccountData.load disk.file = ⟨none, .empty⟩) {s : StoreState}
    (h : Reaches (step available) (Consenting available) (StoreState.opened disk) s) :
    Agrees available s := by
  apply h.invariant (agrees_opened available hempty)
  intro s a s' hs hallowed hstep
  exact agrees_step hs hallowed hstep

/-! ## 6. What a caller sees -/

theorem Agrees.credentials {available : Bool} {s : StoreState} (h : Agrees available s)
    (name : String) (clock : Nat → Int) :
    (getCredentials s.data name).runWith (performWith available) clock s.disk =
      (s.disk, s.registry.credentials name) := by
  rcases s.registry.status_cases name with ⟨creds, hlive⟩ | ⟨hfree, hstatus⟩
  · obtain ⟨entry, hentry⟩ := h.live name ⟨creds, hlive⟩
    obtain ⟨creds', hlive', hholds⟩ := h.listed name entry hentry
    rw [hlive, Status.live.injEq] at hlive'
    subst hlive'
    rw [getCredentials_run clock hentry hholds]
    simp only [Registry.credentials, hlive]
  · rw [getCredentials_run_missing available clock (h.get?_eq_none hfree)]
    rcases hstatus with hunknown | hremoved
    · simp only [Registry.credentials, hunknown]
    · simp only [Registry.credentials, hremoved]

theorem listAccounts_names (data : AccountData) :
    (listAccounts data).map AccountStore.AccountRecord.name = data.accounts.keys := by
  simp only [listAccounts, List.map_map, OrderedDict.keys]
  rfl

/-- The store implements the registry, as far as its methods show. -/
structure Implements (available : Bool) (s : StoreState) : Prop where
  refuses : ∀ call clock e, Consents available call → s.registry.apply call = .error e →
    s.run available call clock = (s.disk, .error (s.data, e))
  accepts : ∀ call clock r, Consents available call → s.registry.apply call = .ok r →
    ∃ disk data, s.run available call clock = (disk, .ok data)
  credentials : ∀ name clock,
    (getCredentials s.data name).runWith (performWith available) clock s.disk =
      (s.disk, s.registry.credentials name)
  lists : ((listAccounts s.data).map AccountStore.AccountRecord.name).Nodup ∧
    ∀ name, name ∈ (listAccounts s.data).map AccountStore.AccountRecord.name ↔ s.registry.Live name
  cleared : available = true → ∀ name, s.registry.status name = .removed →
    Cleared s.disk.keyring name
  default_none : getDefaultName s.data = none ↔ ∀ name, ¬ s.registry.Live name
  default_live : ∀ name, getDefaultName s.data = some name → s.registry.Live name
  default_chosen : ∀ name, s.registry.chosen = some name → getDefaultName s.data = some name

/-- **The account store is a map with a default.**  After any calls and re-openings from an
    empty file the store implements the registry of these calls. -/
theorem accountStore_implements_registry {available : Bool} {disk : Disk}
    (hempty : AccountData.load disk.file = ⟨none, .empty⟩) {s : StoreState}
    (h : Reaches (step available) (Consenting available) (StoreState.opened disk) s) :
    Implements available s := by
  have hagrees := agrees_reaches hempty h
  refine ⟨?_, ?_, hagrees.credentials, ?_, hagrees.cleared, ?_, hagrees.default_live,
    hagrees.chosen⟩
  · intro call clock e hconsents happly
    rcases run_spec hagrees hconsents clock with ⟨e', hrefused, hrun⟩ | ⟨r, _, _, hok, -, -⟩
    · rw [happly, Except.error.injEq] at hrefused
      rw [hrun, hrefused]
    · rw [happly] at hok
      cases hok
  · intro call clock r hconsents happly
    rcases run_spec hagrees hconsents clock with ⟨e', hrefused, -⟩ | ⟨r, disk, data, -, hrun, -⟩
    · rw [happly] at hrefused
      cases hrefused
    · exact ⟨disk, data, hrun⟩
  · rw [listAccounts_names]
    exact ⟨s.data.accounts.nodup, hagrees.mem_keys⟩
  · refine ⟨hagrees.default_none, ?_⟩
    intro hnobody
    rcases hdefault : getDefaultName s.data with _ | d
    · rfl
    · exact absurd (hagrees.default_live d hdefault) (hnobody d)

def mainCredentials : ApiCredentials := ⟨"K1", "S1", none⟩

/-- Two accounts, the second one the default; the first is removed, and the file opened again. -/
def secondChosen : List StoreAct :=
  [.call (.add "a:b/c" "binance_usdm" mainCredentials true false) (fun n => n),
    .call (.add "spare" "binance_usdm" ⟨"K2", "S2", none⟩ false false) (fun _ => 7),
    .call (.setDefault "spare") (fun _ => 8),
    .call (.remove "a:b/c") (fun _ => 9),
    .reopen]

theorem accountStore_implements_registry_secondChosen :
    ∃ s, Reaches (step true) (Consenting true) (StoreState.opened .empty) s ∧
      Implements true s ∧ s.registry.status "a:b/c" = .removed ∧
      s.registry.chosen = some "spare" := by
  have hreach : Reaches (step true) (Consenting true) (StoreState.opened .empty) _ :=
    play_get_reaches secondChosen (by decide +kernel)
  refine ⟨_, hreach, accountStore_implements_registry rfl hreach, ?_⟩
  decide +kernel

end FundingTool.AccountRegistry
