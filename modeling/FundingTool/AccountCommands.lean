import FundingTool.AccountStore
import FundingTool.Handlers

/-!
# The account commands (`cli/account_cmd.py`)

`account add` asks for what it has not been given, has the exchange confirm the key, and hands it
to the account store; where there is no keyring it asks whether the key may be stored in plain
text, and calls the store again.  A command is a process of its own.  The commands run one after
the other on the keyring and the file; any operation may fail, and a command may be killed
anywhere.

`stored_secrets_cleared`: plain text is in the file, or in the temporary one, only where the user
agreed to it, and a mark of verification only where the exchange reported read permission, each in
the command that added the account and for the credentials it has; and no key is stored anywhere
that its command has seen rejected, or has not had verified without being told so.

Two commands at once would break this: they share `accounts.yaml.tmp`, and two `add`s of one name
the entries of the keyring.
-/

namespace FundingTool.AccountCommands

open FundingTool.Interaction FundingTool.TransitionSystem FundingTool.AccountStore

/-! ## 1. The commands -/

inductive CliOp
  /-- `typer.prompt` -/
  | prompt (text : String)
  /-- `_verify_credentials_live` -/
  | verify (creds : ApiCredentials)
  /-- `AccountStore(...)`, which loads the file. -/
  | load
  /-- `typer.confirm`: may these be stored in plain text? -/
  | confirm (name : String) (creds : ApiCredentials)
  | account (o : AccountOp)

def CliOp.Resp : CliOp → Type
  | .prompt _ => String
  | .verify _ => Except FundingToolError PermissionReport
  | .load => Except Fault AccountData
  | .confirm .. => Bool
  | .account o => o.Resp

inductive CliError
  /-- `typer.Exit(code)` -/
  | exit (code : Nat)
  | account (e : AccountError)
deriving DecidableEq, Repr

abbrev Cli := Prog CliOp CliOp.Resp CliError

/-- An option that is not given, or empty, is asked for. -/
def promptUnless (option : Option String) (text : String) : Cli String :=
  match option.filter fun value => value ≠ "" with
  | some value => .ret value
  | none => .call (.prompt text) fun value => .ret value

/-- `verified`; any exception of the verification ends the command. -/
def verifiedBy (skipVerify : Bool) (creds : ApiCredentials) : Cli Bool :=
  if skipVerify then .ret false
  else
    .call (.verify creds) fun answer =>
      match answer with
      | .ok report => .ret report.readOk
      | .error _ => .raise (.exit 1)

def openAccounts : Cli AccountData :=
  .call .load fun r =>
    match r with
    | .ok data => .ret data
    | .error _ => .raise (.account .raised)

/-- A method of the store, with a handler for what it raises. -/
def calling (method : Edit) (onRaise : AccountData × AccountError → Cli Unit) : Cli Unit :=
  method.within CliOp.account (fun _ r => r) (fun _ => .ret ()) onRaise

def leave (raised : AccountData × AccountError) : Cli Unit := .raise (.account raised.2)

structure AddArgs where
  name : String
  apiKey : Option String
  apiSecret : Option String
  exchange : String
  skipVerify : Bool
deriving DecidableEq, Repr

/-- `store.add(..., allow_plaintext=True)`, if the user agrees. -/
def addPlaintext (args : AddArgs) (creds : ApiCredentials) (verified : Bool)
    (data : AccountData) : Cli Unit :=
  .call (.confirm args.name creds) fun agreed =>
    match agreed with
    | true => calling (add data args.name args.exchange creds verified true) leave
    | false => .raise (.exit 1)

def accountAdd (args : AddArgs) : Cli Unit := do
  let apiKey ← promptUnless args.apiKey "API key"
  let apiSecret ← promptUnless args.apiSecret "API secret"
  let verified ← verifiedBy args.skipVerify ⟨apiKey, apiSecret, none⟩
  let data ← openAccounts
  calling (add data args.name args.exchange ⟨apiKey, apiSecret, none⟩ verified false)
    fun raised =>
      match raised with
      | (data, .plaintextFallbackRequired) =>
          addPlaintext args ⟨apiKey, apiSecret, none⟩ verified data
      | raised => leave raised

def accountRemove (name : String) : Cli Unit := do
  let data ← openAccounts
  calling (remove data name) leave

def accountUse (name : String) : Cli Unit := do
  let data ← openAccounts
  calling (setDefault data name) leave

/-- `account test`: nothing of it is stored. -/
def accountTest (name : String) : Cli Unit := do
  let data ← openAccounts
  (getCredentials data name).within CliOp.account (fun _ r => r)
    (fun creds => verifiedBy false creds >>= fun _ => pure ()) fun e => .raise (.account e)

/-- `account list`, without its table. -/
def accountList : Cli Unit := do
  let _data ← openAccounts
  pure ()

inductive CliCall
  | add (args : AddArgs)
  | remove (name : String)
  | use (name : String)
  | test (name : String)
  | list
deriving DecidableEq, Repr

def CliCall.program : CliCall → Cli Unit
  | .add args => accountAdd args
  | .remove name => accountRemove name
  | .use name => accountUse name
  | .test name => accountTest name
  | .list => accountList

/-- What the user, the exchange, the keyring and the file system do. -/
structure CliChoice where
  text : String
  answer : Except FundingToolError PermissionReport
  yes : Bool
  account : AccountChoice

def cliPerform : (o : CliOp) → CliChoice → Disk → Disk × o.Resp
  | .prompt _, c, disk => (disk, c.text)
  | .verify _, c, disk => (disk, c.answer)
  | .load, c, disk =>
      (disk, if c.account.outcome = .succeeds then .ok (AccountData.load disk.file)
        else .error ⟨⟩)
  | .confirm .., c, disk => (disk, c.yes)
  | .account o, c, disk => perform o c.account disk

/-! ## 2. What the commands have heard -/

/-- A command, with what the exchange has reported to it and what its user has agreed to. -/
structure Heard where
  call : CliCall
  reports : List (ApiCredentials × PermissionReport)
  agreed : List (String × ApiCredentials)
deriving DecidableEq, Repr

/-- The disk, and the commands so far, the last one first. -/
structure Ledger where
  disk : Disk
  commands : List Heard

def Heard.reported (creds : ApiCredentials) (report : PermissionReport) (heard : Heard) : Heard :=
  { heard with reports := (creds, report) :: heard.reports }

def Heard.agree (name : String) (creds : ApiCredentials) (heard : Heard) : Heard :=
  { heard with agreed := (name, creds) :: heard.agreed }

/-- The command that runs hears something. -/
def Ledger.note (l : Ledger) (hear : Heard → Heard) : Ledger :=
  { l with commands := l.commands.modifyHead hear }

/-- `cliPerform`, remembering. -/
def cliTrace : (o : CliOp) → CliChoice → Ledger → Ledger × o.Resp
  | .verify creds, c, l =>
      (match c.answer with
        | .ok report => l.note (.reported creds report)
        | .error _ => l, c.answer)
  | .confirm name creds, c, l => (if c.yes then l.note (.agree name creds) else l, c.yes)
  | .prompt _, c, l => (l, c.text)
  | .load, c, l => (l, (cliPerform .load c l.disk).2)
  | .account o, c, l =>
      ({ l with disk := (perform o c.account l.disk).1 }, (perform o c.account l.disk).2)

/-- What is remembered does not disturb the command. -/
theorem cliTrace_perform (o : CliOp) (c : CliChoice) (l : Ledger) :
    ((cliTrace o c l).1.disk, (cliTrace o c l).2) = cliPerform o c l.disk := by
  cases o with
  | verify creds =>
      simp only [cliTrace, cliPerform]
      split <;> rfl
  | confirm name creds =>
      simp only [cliTrace, cliPerform]
      split <;> rfl
  | _ => rfl

/-- One command after the other. -/
def cliComponent : Component CliOp CliOp.Resp Unit CliError Ledger CliChoice CliCall where
  exec := cliTrace
  load l := (l, ())
  begin call _ l := { l with commands := ⟨call, [], []⟩ :: l.commands }
  program call _ :=
    call.program.within id (fun _ r => r) (fun _ => .ret ()) fun e => .raise ((), e)

abbrev CliSession := Session CliOp CliOp.Resp Unit CliError Ledger

/-! ## 3. What may be stored -/

namespace Heard

variable (heard : Heard)

/-- The command adds the name, and the exchange has accepted the key or was not to be asked. -/
def Clears (name : String) (creds : ApiCredentials) : Prop :=
  ∃ args, heard.call = .add args ∧ args.name = name ∧
    (args.skipVerify = true ∨ ∃ report, (creds, report) ∈ heard.reports)

/-- The exchange has told the command that the key may read. -/
def Reads (creds : ApiCredentials) : Prop :=
  ∃ report, (creds, report) ∈ heard.reports ∧ report.readOk = true

/-- Where the credentials are: in the entry itself, agreed to, or in the keyring, unless they have
    been deleted. -/
def StoredAs (keyring : OrderedDict (String × String) String) (name : String)
    (creds : ApiCredentials) : StoredSecret → Prop
  | .plaintext apiKey apiSecret =>
      creds = ⟨apiKey, apiSecret, none⟩ ∧ (name, creds) ∈ heard.agreed
  | .keyring apiKeyRef secretRef =>
      apiKeyRef = keyringRef name "key" ∧ secretRef = keyringRef name "secret" ∧
        (∀ value, keyring.get? (keyringService name, "key") = some value →
          value = creds.apiKey) ∧
        ∀ value, keyring.get? (keyringService name, "secret") = some value →
          value = creds.apiSecret

/-- The command was allowed to write the entry. -/
def Earns (keyring : OrderedDict (String × String) String) (name : String)
    (entry : AccountEntry) : Prop :=
  ∃ creds, heard.Clears name creds ∧ heard.StoredAs keyring name creds entry.secret ∧
    (entry.permissionsVerifiedAt ≠ none → heard.Reads creds)

/-- The command was allowed to put the value into the keyring. -/
def Enters (key : String × String) (value : String) : Prop :=
  ∃ name creds, heard.Clears name creds ∧
    (key = (keyringService name, "key") ∧ value = creds.apiKey ∨
      key = (keyringService name, "secret") ∧ value = creds.apiSecret)

end Heard

section Legitimacy

variable (initial : Disk)

/-- The entry was there before the first command. -/
def Inherited (name : String) (entry : AccountEntry) : Prop :=
  ∃ data, (initial.file = some data ∨ initial.tmp = some (.written data)) ∧
    data.accounts.get? name = some entry

/-- Every account was there before, or its command was allowed to write it. -/
def Listed (l : Ledger) (data : AccountData) : Prop :=
  ∀ name entry, data.accounts.get? name = some entry →
    Inherited initial name entry ∨ ∃ heard ∈ l.commands, heard.Earns l.disk.keyring name entry

/-- Plain text was there before, or its user has agreed to it. -/
def PlaintextAgreed (l : Ledger) (data : AccountData) : Prop :=
  ∀ name entry apiKey apiSecret, data.accounts.get? name = some entry →
    entry.secret = .plaintext apiKey apiSecret →
    Inherited initial name entry ∨ ∃ heard ∈ l.commands,
      heard.Clears name ⟨apiKey, apiSecret, none⟩ ∧
        (name, (⟨apiKey, apiSecret, none⟩ : ApiCredentials)) ∈ heard.agreed

structure Legit (l : Ledger) : Prop where
  file : ∀ data, l.disk.file = some data → Listed initial l data
  tmp : ∀ data, l.disk.tmp = some (.written data) → PlaintextAgreed initial l data
  keyring : ∀ key value, l.disk.keyring.get? key = some value →
    initial.keyring.get? key = some value ∨ ∃ heard ∈ l.commands, heard.Enters key value

end Legitimacy

/-! ## 4. What is heard later takes nothing back -/

/-- A command that has heard more. -/
structure Heard.Grows (heard heard' : Heard) : Prop where
  call : heard'.call = heard.call
  reports : heard.reports ⊆ heard'.reports
  agreed : heard.agreed ⊆ heard'.agreed

section Growing

variable {initial : Disk} {heard heard' : Heard} {l l' : Ledger}

theorem Heard.Grows.refl : heard.Grows heard := ⟨rfl, List.Subset.refl _, List.Subset.refl _⟩

theorem grows_reported (creds : ApiCredentials) (report : PermissionReport) (heard : Heard) :
    heard.Grows (heard.reported creds report) :=
  ⟨rfl, List.subset_cons_self _ _, List.Subset.refl _⟩

theorem grows_agree (name : String) (creds : ApiCredentials) (heard : Heard) :
    heard.Grows (heard.agree name creds) :=
  ⟨rfl, List.Subset.refl _, List.subset_cons_self _ _⟩

theorem Heard.Grows.clears (h : heard.Grows heard') {name : String} {creds : ApiCredentials}
    (hclears : heard.Clears name creds) : heard'.Clears name creds := by
  obtain ⟨args, hcall, hname, hreport⟩ := hclears
  refine ⟨args, h.call.trans hcall, hname, ?_⟩
  exact hreport.imp_right fun ⟨report, hmem⟩ => ⟨report, h.reports hmem⟩

theorem Heard.Grows.earns (h : heard.Grows heard')
    {keyring : OrderedDict (String × String) String} {name : String} {entry : AccountEntry}
    (hearns : heard.Earns keyring name entry) : heard'.Earns keyring name entry := by
  obtain ⟨creds, hclears, hstored, hreads⟩ := hearns
  refine ⟨creds, h.clears hclears, ?_, ?_⟩
  · rcases hsecret : entry.secret with ⟨apiKeyRef, secretRef⟩ | ⟨apiKey, apiSecret⟩
    · rw [hsecret] at hstored
      exact hstored
    · rw [hsecret] at hstored
      exact ⟨hstored.1, h.agreed hstored.2⟩
  · intro hverified
    obtain ⟨report, hmem, hread⟩ := hreads hverified
    exact ⟨report, h.reports hmem, hread⟩

/-- Every command is still on the ledger, and has heard as much. -/
def Ledger.Extends (l l' : Ledger) : Prop :=
  ∀ heard ∈ l.commands, ∃ heard' ∈ l'.commands, heard.Grows heard'

theorem Legit.extend (h : Legit initial l) (hdisk : l'.disk = l.disk) (hextends : l.Extends l') :
    Legit initial l' where
  file data hfile name entry hentry := by
    rw [hdisk] at hfile ⊢
    refine (h.file data hfile name entry hentry).imp_right ?_
    rintro ⟨heard, hheard, hearns⟩
    obtain ⟨heard', hheard', hgrows⟩ := hextends heard hheard
    exact ⟨heard', hheard', hgrows.earns hearns⟩
  tmp data htmp name entry apiKey apiSecret hentry hsecret := by
    rw [hdisk] at htmp
    refine (h.tmp data htmp name entry apiKey apiSecret hentry hsecret).imp_right ?_
    rintro ⟨heard, hheard, hclears, hagreed⟩
    obtain ⟨heard', hheard', hgrows⟩ := hextends heard hheard
    exact ⟨heard', hheard', hgrows.clears hclears, hgrows.agreed hagreed⟩
  keyring key value hvalue := by
    rw [hdisk] at hvalue
    refine (h.keyring key value hvalue).imp_right ?_
    rintro ⟨heard, hheard, name, creds, hclears, hkey⟩
    obtain ⟨heard', hheard', hgrows⟩ := hextends heard hheard
    exact ⟨heard', hheard', name, creds, hgrows.clears hclears, hkey⟩

theorem extends_note {hear : Heard → Heard} (h : ∀ heard : Heard, heard.Grows (hear heard))
    (l : Ledger) : l.Extends (l.note hear) := by
  intro heard hheard
  obtain ⟨disk, commands⟩ := l
  cases commands with
  | nil => cases hheard
  | cons current older =>
      rcases List.mem_cons.mp hheard with rfl | hold
      · exact ⟨_, List.mem_cons_self, h heard⟩
      · exact ⟨heard, List.mem_cons_of_mem _ hold, .refl⟩

theorem Legit.begin (h : Legit initial l) (call : CliCall) :
    Legit initial (cliComponent.begin call () l) :=
  h.extend rfl fun heard hheard => ⟨heard, List.mem_cons_of_mem _ hheard, .refl⟩

theorem legit_initial (initial : Disk) : Legit initial ⟨initial, []⟩ where
  file data hfile := fun _ _ hentry => .inl ⟨data, .inl hfile, hentry⟩
  tmp data htmp := fun _ _ _ _ hentry _ => .inl ⟨data, .inr htmp, hentry⟩
  keyring _ _ hvalue := .inl hvalue

end Growing

/-! ## 5. Writes -/

section Writes

variable {initial : Disk} {heard : Heard} {l : Ledger} {data : AccountData}

/-- A write that has its effect. -/
def Ledger.write (l : Ledger) (w : WriteOp) : Ledger := { l with disk := w.apply l.disk }

theorem Heard.StoredAs.frame {keyring keyring' : OrderedDict (String × String) String}
    {name : String} {creds : ApiCredentials} {secret : StoredSecret}
    (h : heard.StoredAs keyring name creds secret)
    (hless : ∀ username value, keyring'.get? (keyringService name, username) = some value →
      keyring.get? (keyringService name, username) = some value) :
    heard.StoredAs keyring' name creds secret := by
  cases secret with
  | keyring apiKeyRef secretRef =>
      obtain ⟨hkeyRef, hsecretRef, hkey, hsecret⟩ := h
      exact ⟨hkeyRef, hsecretRef, fun value hvalue => hkey value (hless _ _ hvalue),
        fun value hvalue => hsecret value (hless _ _ hvalue)⟩
  | plaintext apiKey apiSecret => exact h

theorem Listed.frame {l' : Ledger} (h : Listed initial l data)
    (hcommands : l'.commands = l.commands)
    (hless : ∀ name, data.accounts.get? name ≠ none → ∀ username value,
      l'.disk.keyring.get? (keyringService name, username) = some value →
      l.disk.keyring.get? (keyringService name, username) = some value) :
    Listed initial l' data := by
  intro name entry hentry
  rw [hcommands]
  refine (h name entry hentry).imp_right ?_
  rintro ⟨heard, hheard, creds, hclears, hstored, hreads⟩
  have hsome : data.accounts.get? name ≠ none := by
    rw [hentry]
    exact Option.some_ne_none entry
  exact ⟨heard, hheard, creds, hclears, hstored.frame (hless name hsome), hreads⟩

/-- Another name's entry of the keyring is written. -/
theorem Listed.setPassword (h : Listed initial l data) {name : String}
    (hname : data.accounts.get? name = none) (username value : String) :
    Listed initial (l.write (.setPassword (keyringService name) username value)) data := by
  refine h.frame rfl ?_
  intro other hother user found hfound
  have hne : (keyringService other, user) ≠ (keyringService name, username) := by
    intro heq
    rw [keyringService_inj (congrArg Prod.fst heq), hname] at hother
    exact hother rfl
  rwa [Ledger.write, WriteOp.apply, OrderedDict.get?_set_ne _ value hne] at hfound

theorem Listed.deletePassword (h : Listed initial l data) (service username : String) :
    Listed initial (l.write (.deletePassword service username)) data := by
  refine h.frame rfl ?_
  intro other _ user found hfound
  rw [Ledger.write, WriteOp.apply, OrderedDict.get?_erase] at hfound
  split at hfound
  · cases hfound
  · exact hfound

theorem Listed.erase (h : Listed initial l data) (name : String) (default : Option String) :
    Listed initial l ⟨default, data.accounts.erase name⟩ := by
  intro other entry hentry
  rw [OrderedDict.get?_erase] at hentry
  split at hentry
  · cases hentry
  · exact h other entry hentry

theorem Listed.set (h : Listed initial l data) (hheard : heard ∈ l.commands) {name : String}
    {entry : AccountEntry} (hearns : heard.Earns l.disk.keyring name entry)
    (default : Option String) :
    Listed initial l ⟨default, data.accounts.set name entry⟩ := by
  intro other found hfound
  rw [OrderedDict.get?_set] at hfound
  split at hfound
  · next hsame =>
      rw [Option.some.injEq] at hfound
      rw [hsame, ← hfound]
      exact .inr ⟨heard, hheard, hearns⟩
  · exact h other found hfound

theorem Listed.agreed (h : Listed initial l data) : PlaintextAgreed initial l data := by
  intro name entry apiKey apiSecret hentry hsecret
  refine (h name entry hentry).imp_right ?_
  rintro ⟨heard, hheard, creds, hclears, hstored, -⟩
  rw [hsecret] at hstored
  obtain ⟨rfl, hagreed⟩ := hstored
  exact ⟨heard, hheard, hclears, hagreed⟩

theorem Legit.load (h : Legit initial l) : Listed initial l (AccountData.load l.disk.file) := by
  rcases hfile : l.disk.file with _ | data
  · intro name entry hentry
    cases hentry
  · exact h.file data hfile

theorem Legit.dump (h : Legit initial l) (hdata : Listed initial l data) :
    Legit initial (l.write (.dump data)) := by
  refine ⟨h.file, ?_, h.keyring⟩
  intro written hwritten
  cases hwritten
  exact hdata.agreed

/-- The file becomes the temporary one, which has been written just before. -/
theorem Legit.replace (h : Legit initial l) (hdata : Listed initial l data) :
    Legit initial ((l.write (.dump data)).write .replace) := by
  refine ⟨?_, nofun, h.keyring⟩
  intro written hwritten
  cases hwritten
  exact hdata

theorem Legit.unlinkTmp (h : Legit initial l) : Legit initial (l.write .unlinkTmp) :=
  ⟨h.file, nofun, h.keyring⟩

theorem Legit.openTmp (h : Legit initial l) :
    Legit initial { l with disk := { l.disk with tmp := some .opened } } :=
  ⟨h.file, nofun, h.keyring⟩

theorem Legit.setPassword (h : Legit initial l) {name : String}
    (hname : (AccountData.load l.disk.file).accounts.get? name = none) (hheard : heard ∈ l.commands)
    {username value : String} (henters : heard.Enters (keyringService name, username) value) :
    Legit initial (l.write (.setPassword (keyringService name) username value)) := by
  refine ⟨?_, h.tmp, ?_⟩
  · intro data hfile
    have hload : AccountData.load l.disk.file = data := by
      rw [show l.disk.file = some data from hfile]
      rfl
    rw [hload] at hname
    exact (h.file data hfile).setPassword hname username value
  · intro key found hfound
    rw [Ledger.write, WriteOp.apply, OrderedDict.get?_set] at hfound
    split at hfound
    · next hsame =>
        rw [Option.some.injEq] at hfound
        rw [hsame, ← hfound]
        exact .inr ⟨heard, hheard, henters⟩
    · exact h.keyring key found hfound

theorem Legit.deletePassword (h : Legit initial l) (service username : String) :
    Legit initial (l.write (.deletePassword service username)) := by
  refine ⟨fun data hfile => (h.file data hfile).deletePassword service username, h.tmp, ?_⟩
  intro key found hfound
  rw [Ledger.write, WriteOp.apply, OrderedDict.get?_erase] at hfound
  split at hfound
  · cases hfound
  · exact h.keyring key found hfound

end Writes

/-! ## 6. The methods of the store -/

section Methods

variable {initial : Disk} {heard : Heard} {l : Ledger} {data : AccountData}

/-- Any operation may fail, and the user and the exchange may answer anything. -/
def AnyAnswer (_ : Ledger) (_ : CliOp) (_ : CliChoice) : Prop := True

/-- A method of the store, as a command runs it. -/
abbrev Verified (initial : Disk) {α ε : Type} (Post : Ledger → Except ε α → Prop)
    (method : Prog AccountOp AccountOp.Resp ε α) (l : Ledger) : Prop :=
  method.wp (Prog.inner CliOp.account (fun _ r => r) cliTrace)
    (fun l o c => AnyAnswer l (.account o) c) (Legit initial) Post l

/-- Met by every legitimate end of a method that does not ask for plain text. -/
structure Settled (initial : Disk)
    (Post : Ledger → Except (AccountData × AccountError) AccountData → Prop) : Prop where
  ret : ∀ l data, Legit initial l → Post l (.ok data)
  raise : ∀ l data e, e ≠ .plaintextFallbackRequired → Legit initial l →
    Post l (.error (data, e))

variable {Post : Ledger → Except (AccountData × AccountError) AccountData → Prop}

theorem Settled.verified_raise (hpost : Settled initial Post) (h : Legit initial l)
    {e : AccountError} (he : e ≠ .plaintextFallbackRequired) :
    Verified initial Post (.raise (data, e)) l := ⟨h, hpost.raise l data e he h⟩

theorem Settled.verified_notFound (hpost : Settled initial Post) (h : Legit initial l)
    (name : String) : Verified initial Post (.raise (data, .notFound name)) l :=
  hpost.verified_raise h nofun

/-- **A write that may fail**, before or after its effect. -/
theorem verified_attempt (hpost : Settled initial Post) (h : Legit initial l) {w : WriteOp}
    {rest : Edit} (hrest : Verified initial Post rest (l.write w)) :
    Verified initial Post (attempt data w rest) l := by
  refine ⟨h, ?_⟩
  rintro ⟨text, answer, yes, outcome, now⟩ -
  cases outcome with
  | succeeds => exact hrest
  | raisesBefore => exact hpost.verified_raise h nofun
  | raisesAfter => exact hpost.verified_raise hrest.crash nofun

theorem verified_saveTmp (hpost : Settled initial Post) (h : Legit initial l)
    (hdata : Listed initial l data) : Verified initial Post (saveTmp data) l := by
  refine verified_attempt hpost h (verified_attempt hpost (h.dump hdata) ?_)
  exact ⟨h.replace hdata, hpost.ret _ data (h.replace hdata)⟩

theorem verified_openTmp (hpost : Settled initial Post) (h : Legit initial l)
    {k : Except OpenError Unit → Edit} (hfailed : k (.error .failed) = .raise (data, .raised))
    (hexists : Verified initial Post (k (.error .fileExists)) l)
    (hopened : Verified initial Post (k (.ok ()))
      { l with disk := { l.disk with tmp := some .opened } }) :
    Verified initial Post (.call .openTmp k) l := by
  refine ⟨h, ?_⟩
  rintro ⟨text, answer, yes, outcome, now⟩ -
  simp only [Prog.inner, cliTrace, perform]
  rcases l.disk.tmp with _ | tmp
  · cases outcome with
    | succeeds => exact hopened
    | raisesBefore =>
        simp only [hfailed]
        exact hpost.verified_raise h nofun
    | raisesAfter =>
        simp only [hfailed]
        exact hpost.verified_raise hopened.crash nofun
  · exact hexists

theorem verified_save (hpost : Settled initial Post) (h : Legit initial l)
    (hdata : Listed initial l data) : Verified initial Post (save data) l := by
  refine verified_attempt hpost h (verified_openTmp hpost h rfl ?_ ?_)
  · refine verified_attempt hpost h (verified_openTmp hpost h.unlinkTmp rfl ?_ ?_)
    · exact hpost.verified_raise h.unlinkTmp nofun
    · exact verified_saveTmp hpost h.unlinkTmp.openTmp hdata
  · exact verified_saveTmp hpost h.openTmp hdata

/-- **Both entries of the keyring are written**, and then the file. -/
theorem verified_addKeyring (hpost : Settled initial Post) (h : Legit initial l)
    (hload : AccountData.load l.disk.file = data) {name exchange : String}
    (hname : data.accounts.get? name = none) (hheard : heard ∈ l.commands)
    {creds : ApiCredentials} (hclears : heard.Clears name creds) (createdAt : Int)
    {verifiedAt : Option Int} (hreads : verifiedAt ≠ none → heard.Reads creds) :
    Verified initial Post (addKeyring data name exchange creds createdAt verifiedAt) l := by
  have hlisted : Listed initial l data := hload ▸ h.load
  have hunlisted : (AccountData.load l.disk.file).accounts.get? name = none := hload ▸ hname
  have hkey : heard.Enters (keyringService name, "key") creds.apiKey :=
    ⟨name, creds, hclears, .inl ⟨rfl, rfl⟩⟩
  have hsecret : heard.Enters (keyringService name, "secret") creds.apiSecret :=
    ⟨name, creds, hclears, .inr ⟨rfl, rfl⟩⟩
  have h₁ := h.setPassword hunlisted hheard hkey
  have h₂ := h₁.setPassword hunlisted hheard hsecret
  have hlisted₂ := (hlisted.setPassword hname "key" creds.apiKey).setPassword hname "secret"
    creds.apiSecret
  have hearns : heard.Earns ((l.write (.setPassword (keyringService name) "key"
      creds.apiKey)).write (.setPassword (keyringService name) "secret"
      creds.apiSecret)).disk.keyring name ⟨exchange, createdAt, verifiedAt,
      .keyring (keyringRef name "key") (keyringRef name "secret")⟩ := by
    refine ⟨creds, hclears, ⟨rfl, rfl, ?_, ?_⟩, hreads⟩
    · -- the secret was written after the key, to an entry of its own
      intro value hvalue
      have hne : (keyringService name, "key") ≠ (keyringService name, "secret") := by simp
      simp only [Ledger.write, WriteOp.apply] at hvalue
      rw [OrderedDict.get?_set_ne _ _ hne, OrderedDict.get?_set_self] at hvalue
      exact (Option.some.inj hvalue).symm
    · intro value hvalue
      simp only [Ledger.write, WriteOp.apply] at hvalue
      rw [OrderedDict.get?_set_self] at hvalue
      exact (Option.some.inj hvalue).symm
  exact verified_attempt hpost h (verified_attempt hpost h₁
    (verified_save hpost h₂ (hlisted₂.set hheard hearns _)))

theorem verified_addStored (hpost : Settled initial Post) (h : Legit initial l)
    (hload : AccountData.load l.disk.file = data) {name exchange : String}
    (hname : data.accounts.get? name = none) (hheard : heard ∈ l.commands)
    {creds : ApiCredentials} (hpass : creds.passphrase = none)
    (hclears : heard.Clears name creds) {allowPlaintext : Bool}
    (hagreed : allowPlaintext = true → (name, creds) ∈ heard.agreed)
    (hfallback : allowPlaintext = false → Post l (.error (data, .plaintextFallbackRequired)))
    (createdAt : Int) {verifiedAt : Option Int} (hreads : verifiedAt ≠ none → heard.Reads creds) :
    Verified initial Post
      (addStored data name exchange creds allowPlaintext createdAt verifiedAt) l := by
  have hplaintext : Verified initial Post (if allowPlaintext then addEntry data name
      ⟨exchange, createdAt, verifiedAt, .plaintext creds.apiKey creds.apiSecret⟩
      else .raise (data, .plaintextFallbackRequired)) l := by
    cases allowPlaintext with
    | true =>
        have hsame : creds = ⟨creds.apiKey, creds.apiSecret, none⟩ := by
          rw [← hpass]
        have hlisted : Listed initial l data := hload ▸ h.load
        have hearns : heard.Earns l.disk.keyring name ⟨exchange, createdAt, verifiedAt,
            .plaintext creds.apiKey creds.apiSecret⟩ :=
          ⟨creds, hclears, ⟨hsame, hagreed rfl⟩, hreads⟩
        exact verified_save hpost h (hlisted.set hheard hearns _)
    | false => exact ⟨h, hfallback rfl⟩
  refine ⟨h, ?_⟩
  rintro ⟨text, answer, yes, outcome, now⟩ -
  cases outcome with
  | succeeds => exact verified_addKeyring hpost h hload hname hheard hclears createdAt hreads
  | raisesBefore => exact hplaintext
  | raisesAfter => exact hplaintext

/-- **`add` of credentials that its command has cleared**, and its user agreed to where plain text
    is allowed. -/
theorem verified_add (hpost : Settled initial Post) (h : Legit initial l)
    (hload : AccountData.load l.disk.file = data) {name exchange : String}
    (hheard : heard ∈ l.commands) {creds : ApiCredentials} (hpass : creds.passphrase = none)
    (hclears : heard.Clears name creds) {verified allowPlaintext : Bool}
    (hreads : verified = true → heard.Reads creds)
    (hagreed : allowPlaintext = true → (name, creds) ∈ heard.agreed)
    (hfallback : allowPlaintext = false → Post l (.error (data, .plaintextFallbackRequired))) :
    Verified initial Post (add data name exchange creds verified allowPlaintext) l := by
  unfold add
  by_cases hname : data.accounts.get? name = none
  · rw [if_neg (not_not.mpr hname)]
    refine ⟨h, fun c _ => ?_⟩
    cases verified with
    | true =>
        exact ⟨h, fun c' _ => verified_addStored hpost h hload hname hheard hpass hclears hagreed
          hfallback _ fun _ => hreads rfl⟩
    | false =>
        exact verified_addStored hpost h hload hname hheard hpass hclears hagreed hfallback _
          fun hnone => absurd rfl hnone
  · rw [if_pos hname]
    exact hpost.verified_raise h nofun

/-- The loop of `remove`, and what comes after it. -/
theorem verified_deleteRefs (hpost : Settled initial Post) (h : Legit initial l)
    {data' : AccountData} (hdata : Listed initial l data') (names : List String) :
    Verified initial Post (deleteRefs data (save data') names) l := by
  induction names generalizing l with
  | nil => exact verified_save hpost h hdata
  | cons ref more ih =>
      unfold deleteRefs
      split
      · exact hpost.verified_raise h nofun
      · next service username _ =>
          have hdeleted := ih (h.deletePassword service username)
            (hdata.deletePassword service username)
          refine ⟨h, ?_⟩
          rintro ⟨text, answer, yes, outcome, now⟩ -
          cases outcome with
          | succeeds => exact hdeleted
          | raisesBefore => exact ih h hdata
          | raisesAfter => exact hdeleted

theorem verified_remove (hpost : Settled initial Post) (h : Legit initial l)
    (hload : AccountData.load l.disk.file = data) (name : String) :
    Verified initial Post (remove data name) l := by
  have hlisted : Listed initial l data := hload ▸ h.load
  unfold remove
  split
  · exact hpost.verified_notFound h name
  · exact verified_deleteRefs hpost h (hlisted.erase name _) _

theorem verified_setDefault (hpost : Settled initial Post) (h : Legit initial l)
    (hload : AccountData.load l.disk.file = data) (name : String) :
    Verified initial Post (setDefault data name) l := by
  have hlisted : Listed initial l data := hload ▸ h.load
  unfold setDefault
  split
  · exact hpost.verified_notFound h name
  · exact verified_save hpost h hlisted

theorem verified_getPassword {α : Type} {Post : Ledger → Except AccountError α → Prop}
    (h : Legit initial l) (hraise : Post l (.error .raised)) {service username : String}
    {f : Option String → Prog AccountOp AccountOp.Resp AccountError α}
    (hf : ∀ value, Verified initial Post (f value) l) :
    Verified initial Post (AccountStore.getPassword service username >>= f) l := by
  refine ⟨h, ?_⟩
  rintro ⟨text, answer, yes, outcome, now⟩ -
  cases outcome with
  | succeeds => exact hf _
  | raisesBefore => exact ⟨h, hraise⟩
  | raisesAfter => exact ⟨h, hraise⟩

/-- Credentials are read, and the disk is left as it is. -/
theorem verified_getCredentials {Post : Ledger → Except AccountError ApiCredentials → Prop}
    (h : Legit initial l) (hpost : ∀ r, Post l r) (name : String) :
    Verified initial Post (getCredentials data name) l := by
  unfold getCredentials
  split
  · exact ⟨h, hpost _⟩
  · split
    · exact ⟨h, hpost _⟩
    · split
      · refine verified_getPassword h (hpost _) fun apiKey => ?_
        refine verified_getPassword h (hpost _) fun apiSecret => ?_
        split <;> exact ⟨h, hpost _⟩
      · exact ⟨h, hpost _⟩

end Methods

/-! ## 7. The commands -/

section Commands

variable {initial : Disk} {l : Ledger}

/-- A command, or the rest of one, that keeps the ledger legitimate wherever it ends. -/
abbrev Cleanly (initial : Disk) (cmd : Cli Unit) (l : Ledger) : Prop :=
  cmd.wp cliTrace AnyAnswer (Legit initial) (fun _ _ => True) l

theorem cleanly_raise (h : Legit initial l) (e : CliError) :
    Cleanly initial (.raise e) l := ⟨h, trivial⟩

theorem cleanly_promptUnless (h : Legit initial l) {option : Option String} {text : String}
    {f : String → Cli Unit} (hf : ∀ value, Cleanly initial (f value) l) :
    Cleanly initial (promptUnless option text >>= f) l := by
  unfold promptUnless
  split
  · exact hf _
  · exact ⟨h, fun c _ => hf c.text⟩

/-- The verification is skipped, or its report is heard, or the command ends. -/
theorem cleanly_verifiedBy (h : Legit initial l) {skipVerify : Bool} {creds : ApiCredentials}
    {f : Bool → Cli Unit} (hskip : skipVerify = true → Cleanly initial (f false) l)
    (hreport : ∀ report, Cleanly initial (f report.readOk) (l.note (.reported creds report))) :
    Cleanly initial (verifiedBy skipVerify creds >>= f) l := by
  cases skipVerify with
  | true => exact hskip rfl
  | false =>
      refine ⟨h, ?_⟩
      rintro ⟨text, answer, yes, account⟩ -
      cases answer with
      | ok report => exact hreport report
      | error e => exact cleanly_raise h _

theorem cleanly_openAccounts (h : Legit initial l) {f : AccountData → Cli Unit}
    (hf : Cleanly initial (f (AccountData.load l.disk.file)) l) :
    Cleanly initial (openAccounts >>= f) l := by
  refine ⟨h, ?_⟩
  rintro ⟨text, answer, yes, outcome, now⟩ -
  cases outcome with
  | succeeds => exact hf
  | raisesBefore => exact cleanly_raise h _
  | raisesAfter => exact cleanly_raise h _

/-- What a command goes on with after a method. -/
abbrev After (initial : Disk) (onRaise : AccountData × AccountError → Cli Unit) :
    Ledger → Except (AccountData × AccountError) AccountData → Prop :=
  Prog.goOn cliTrace AnyAnswer (Legit initial) (fun _ _ => True) (fun _ => .ret ()) onRaise

theorem settled_after {onRaise : AccountData × AccountError → Cli Unit}
    (hraise : ∀ l data e, e ≠ .plaintextFallbackRequired → Legit initial l →
      Cleanly initial (onRaise (data, e)) l) : Settled initial (After initial onRaise) :=
  ⟨fun _ _ h => ⟨h, trivial⟩, hraise⟩

theorem settled_leave : Settled initial (After initial leave) :=
  settled_after fun _ _ e _ h => cleanly_raise h (.account e)

/-- The command that runs, with the credentials it has cleared. -/
structure Vetted (initial : Disk) (args : AddArgs) (creds : ApiCredentials) (verified : Bool)
    (l : Ledger) : Prop where
  legit : Legit initial l
  current : ∃ heard older, l.commands = heard :: older ∧ heard.Clears args.name creds ∧
    (verified = true → heard.Reads creds)

/-- There is no keyring: the user decides. -/
theorem cleanly_addPlaintext {args : AddArgs} {creds : ApiCredentials} {verified : Bool}
    (hpass : creds.passphrase = none) (h : Vetted initial args creds verified l) :
    Cleanly initial (addPlaintext args creds verified (AccountData.load l.disk.file)) l := by
  refine ⟨h.legit, ?_⟩
  rintro ⟨text, answer, yes, account⟩ -
  cases yes with
  | false => exact cleanly_raise h.legit _
  | true =>
      obtain ⟨heard, older, hcommands, hclears, hreads⟩ := h.current
      have hlegit : Legit initial (l.note (.agree args.name creds)) :=
        h.legit.extend rfl (extends_note (grows_agree args.name creds) l)
      have hcurrent : heard.agree args.name creds ∈
          (l.note (.agree args.name creds)).commands := by
        rw [Ledger.note, hcommands]
        exact List.mem_cons_self
      exact Prog.wp_within (verified_add settled_leave hlegit rfl hcurrent hpass
        ((grows_agree _ _ heard).clears hclears) hreads (fun _ => List.mem_cons_self) nofun)

theorem cleanly_addVetted {args : AddArgs} {creds : ApiCredentials} {verified : Bool}
    (hpass : creds.passphrase = none) (h : Vetted initial args creds verified l)
    {onRaise : AccountData × AccountError → Cli Unit}
    (hfallback : ∀ data, onRaise (data, .plaintextFallbackRequired) =
      addPlaintext args creds verified data)
    (hraise : ∀ data e, e ≠ .plaintextFallbackRequired → onRaise (data, e) = leave (data, e)) :
    Cleanly initial (openAccounts >>= fun data =>
      calling (add data args.name args.exchange creds verified false) onRaise) l := by
  obtain ⟨heard, older, hcommands, hclears, hreads⟩ := h.current
  have hcurrent : heard ∈ l.commands := by
    rw [hcommands]
    exact List.mem_cons_self
  have hsettled : Settled initial (After initial onRaise) := by
    refine settled_after fun l data e he hlegit => ?_
    rw [hraise data e he]
    exact cleanly_raise hlegit _
  have hplaintext : After initial onRaise l
      (.error (AccountData.load l.disk.file, .plaintextFallbackRequired)) := by
    have hrest := cleanly_addPlaintext hpass h
    rw [← hfallback] at hrest
    exact hrest
  exact cleanly_openAccounts h.legit (Prog.wp_within (verified_add hsettled h.legit rfl hcurrent
    hpass hclears hreads nofun fun _ => hplaintext))

theorem cleanly_accountAdd (args : AddArgs) {older : List Heard} (h : Legit initial l)
    (hcommands : l.commands = ⟨.add args, [], []⟩ :: older) :
    Cleanly initial (accountAdd args) l := by
  unfold accountAdd
  refine cleanly_promptUnless h fun apiKey => cleanly_promptUnless h fun apiSecret => ?_
  have hadd : ∀ verified l, Vetted initial args ⟨apiKey, apiSecret, none⟩ verified l →
      Cleanly initial (openAccounts >>= fun data =>
        calling (add data args.name args.exchange ⟨apiKey, apiSecret, none⟩ verified false)
          fun raised =>
            match raised with
            | (data, .plaintextFallbackRequired) =>
                addPlaintext args ⟨apiKey, apiSecret, none⟩ verified data
            | raised => leave raised) l := by
    intro verified l hvetted
    refine cleanly_addVetted rfl hvetted (fun _ => rfl) ?_
    intro data e he
    cases e <;> first | rfl | exact absurd rfl he
  refine cleanly_verifiedBy h ?_ ?_
  · intro hskip
    exact hadd false l ⟨h, _, older, hcommands, ⟨args, rfl, rfl, .inl hskip⟩, nofun⟩
  · intro report
    refine hadd report.readOk _ ⟨h.extend rfl (extends_note (grows_reported _ _) l), ?_⟩
    refine ⟨_, older, congrArg (List.modifyHead _) hcommands, ?_, ?_⟩
    · exact ⟨args, rfl, rfl, .inr ⟨report, List.mem_cons_self⟩⟩
    · exact fun hread => ⟨report, List.mem_cons_self, hread⟩

/-- **Every command**, from its beginning on. -/
theorem cleanly_program (call : CliCall) {older : List Heard} (h : Legit initial l)
    (hcommands : l.commands = ⟨call, [], []⟩ :: older) : Cleanly initial call.program l := by
  cases call with
  | add args => exact cleanly_accountAdd args h hcommands
  | remove name =>
      exact cleanly_openAccounts h (Prog.wp_within (verified_remove settled_leave h rfl name))
  | use name =>
      exact cleanly_openAccounts h (Prog.wp_within (verified_setDefault settled_leave h rfl name))
  | test name =>
      refine cleanly_openAccounts h (Prog.wp_within (verified_getCredentials h ?_ name))
      rintro (e | creds)
      · exact cleanly_raise h (.account e)
      · refine cleanly_verifiedBy h nofun fun report => ?_
        have hnoted : Legit initial (l.note (.reported creds report)) :=
          h.extend rfl (extends_note (grows_reported creds report) l)
        exact ⟨hnoted, trivial⟩
  | list => exact cleanly_openAccounts h ⟨h, trivial⟩

/-- A process that runs the command, and ends with it. -/
theorem verified_command (call : CliCall) (h : Legit initial l) :
    (cliComponent.program call ()).wp cliTrace AnyAnswer (Legit initial)
      (fun l _ => Legit initial l ∧ True) (cliComponent.begin call () l) := by
  refine Prog.wp_within ((cleanly_program call (h.begin call) rfl).mono ?_)
  intro l' r hlegit _
  cases r with
  | ok _ => exact ⟨hlegit, hlegit, trivial⟩
  | error _ => exact ⟨hlegit, hlegit, trivial⟩

end Commands

theorem allowed_anything (s : CliSession) (a : SessionAct CliChoice CliCall) :
    Component.Allowed AnyAnswer (fun _ => True) s a := by
  cases a with
  | advance c =>
      simp only [Component.Allowed]
      split <;> trivial
  | _ => trivial

/-- **What the commands store was allowed**, in every state of every run of commands one after the
    other, whatever fails and whenever one is killed. -/
theorem stored_secrets_cleared {initial : Disk} {s : CliSession}
    (h : Reaches cliComponent.step Unguarded ⟨⟨initial, []⟩, .dead⟩ s) :
    Legit initial s.state := by
  have hsound := Component.sound (m := cliComponent) (Legit initial) (fun _ _ => True)
    (fun _ hlegit => ⟨hlegit, trivial⟩)
    (fun call _ _ hlegit _ => verified_command call hlegit) (fun _ hcrash _ => hcrash)
    (legit_initial initial) (h.mono fun s a _ => allowed_anything s a)
  unfold Component.SoundSession at hsound
  rcases hprocess : s.process with _ | memory | rest
  · rw [hprocess] at hsound
    exact hsound
  · rw [hprocess] at hsound
    exact hsound.1
  · rw [hprocess] at hsound
    exact hsound.crash

/-! ## 8. A machine without a keyring -/

def mainArgs : AddArgs := ⟨"main", some "K1", none, "binance_usdm", false⟩

/-- The user types the secret, the exchange confirms the key, the keyring does not answer, and the
    user agrees. -/
def agrees : CliChoice :=
  ⟨"S1", .ok ⟨true, none, none, none⟩, true, ⟨.succeeds, 1767225600000000⟩⟩

def noKeyring : CliChoice := { agrees with account := ⟨.raisesBefore, 1767225600000000⟩ }

/-- One account is added in plain text; another command is killed over its temporary file. -/
def plaintextAdded : List (SessionAct CliChoice CliCall) :=
  [.start, .call (.add mainArgs)] ++
    ([agrees, agrees, agrees, agrees, agrees, noKeyring, agrees, agrees, agrees, noKeyring, agrees,
      agrees, agrees, agrees].map .advance) ++
    [.finish, .start, .call (.use "main"), .advance agrees, .advance agrees, .advance agrees,
      .advance agrees, .die]

theorem stored_secrets_cleared_plaintextAdded :
    ∃ s : CliSession, Reaches cliComponent.step Unguarded ⟨⟨.empty, []⟩, .dead⟩ s ∧
      Legit .empty s.state ∧
      (s.state.disk.file.bind fun data => data.accounts.get? "main") =
        some ⟨"binance_usdm", 1767225600000000, some 1767225600000000, .plaintext "K1" "S1"⟩ ∧
      s.state.commands = [⟨.use "main", [], []⟩,
        ⟨.add mainArgs, [(⟨"K1", "S1", none⟩, ⟨true, none, none, none⟩)],
          [("main", ⟨"K1", "S1", none⟩)]⟩] := by
  have hreach : Reaches cliComponent.step Unguarded ⟨⟨.empty, []⟩, .dead⟩ _ :=
    play_get_reaches plaintextAdded (by decide +kernel)
  exact ⟨_, hreach, stored_secrets_cleared hreach, by decide +kernel, by decide +kernel⟩

end FundingTool.AccountCommands
