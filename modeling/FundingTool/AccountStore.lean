import FundingTool.Interaction
import FundingTool.Models
import FundingTool.OrderedDict

/-!
# The account store (`core/account_store.py`)

The accounts of the command line: a YAML file that lists them, and a keyring that holds
their credentials under two references each.  The methods are programs over the keyring,
the file system and the clock; `_data`, the copy of the file in memory, is handed in and
returned, with an exception as well.

`yaml.safe_load` undoes `yaml.safe_dump` on this data, and `fromisoformat` undoes
`isoformat`; times are instants.
-/

namespace FundingTool

open FundingTool.Interaction

/-! ## 1. Keyring references -/

/-- `f"{_SERVICE_PREFIX}/"` -/
def servicePrefix : List Char := "funding-tool/".toList

/-- `"keyring:"` -/
def refPrefix : List Char := "keyring:".toList

/-- `f"{_SERVICE_PREFIX}/{name}"` -/
def keyringService (name : String) : String := String.ofList (servicePrefix ++ name.toList)

/-- `_keyring_ref` -/
def keyringRef (name kind : String) : String :=
  String.ofList (refPrefix ++ (servicePrefix ++ name.toList ++ ':' :: kind.toList))

/-- `body.rpartition(":")`, without the separator. -/
def rpartitionColon (body : List Char) : List Char × List Char :=
  ((body.reverse.dropWhile (· ≠ ':')).tail.reverse, (body.reverse.takeWhile (· ≠ ':')).reverse)

/-- `_keyring_parse`: service and username; `none` is a failed assertion. -/
def keyringParse (ref : String) : Option (String × String) :=
  if refPrefix.isPrefixOf ref.toList then
    let parts := rpartitionColon (ref.toList.drop refPrefix.length)
    some (String.ofList parts.1, String.ofList parts.2)
  else none

/-! ## 2. The file -/

/-- `api_key_ref` and `secret_ref`, or `api_key`, `api_secret` and `_plaintext_warning`. -/
inductive StoredSecret
  | keyring (apiKeyRef secretRef : String)
  | plaintext (apiKey apiSecret : String)
deriving DecidableEq, Repr

structure AccountEntry where
  exchange : String
  createdAt : Int
  permissionsVerifiedAt : Option Int
  secret : StoredSecret
deriving DecidableEq, Repr

/-- `_data` -/
structure AccountData where
  default : Option String
  accounts : OrderedDict String AccountEntry

/-- `accounts.yaml.tmp`: opened, or written to its end. -/
inductive TmpFile
  | opened
  | written (data : AccountData)

structure Disk where
  keyring : OrderedDict (String × String) String
  file : Option AccountData
  tmp : Option TmpFile

def Disk.empty : Disk := ⟨.empty, none, none⟩

/-- `_load` -/
def AccountData.load (file : Option AccountData) : AccountData :=
  match file with
  | none => ⟨none, .empty⟩
  | some data => data

/-! ## 3. Operations -/

inductive OpenError
  | fileExists
  | failed
deriving DecidableEq, Repr

/-- A call that raised. -/
structure Fault where
deriving DecidableEq, Repr

/-- What changes the keyring or the file system, and may raise. -/
inductive WriteOp
  | setPassword (service username value : String)
  | deletePassword (service username : String)
  /-- `self._path.parent.mkdir(parents=True, exist_ok=True)` -/
  | mkdir
  | unlinkTmp
  /-- `yaml.safe_dump` into the open temporary file, and its end. -/
  | dump (data : AccountData)
  /-- `os.replace(tmp, self._path)` -/
  | replace

inductive AccountOp
  | now
  | getPassword (service username : String)
  /-- `os.open(tmp, O_WRONLY | O_CREAT | O_EXCL, 0o600)` -/
  | openTmp
  | write (w : WriteOp)

def AccountOp.Resp : AccountOp → Type
  | .now => Int
  | .getPassword .. => Except Fault (Option String)
  | .openTmp => Except OpenError Unit
  | .write _ => Except Fault Unit

inductive AccountError
  /-- `ConfigError(f"account {name!r} already exists")` -/
  | alreadyExists (name : String)
  /-- `ConfigError(f"account {name!r} not found")` -/
  | notFound (name : String)
  | plaintextFallbackRequired
  /-- `MissingCredentialsError(f"keyring entries for account {name!r} missing or empty")` -/
  | missingCredentials (name : String)
  | assertion
  /-- What the keyring or the file system raised. -/
  | raised
deriving DecidableEq, Repr

/-- A method that may change `_data`. -/
abbrev Edit := Prog AccountOp AccountOp.Resp (AccountData × AccountError) AccountData

/-! ## 4. Saving -/

namespace AccountStore

/-- A write whose exception leaves the method. -/
def attempt (data : AccountData) (w : WriteOp) (rest : Edit) : Edit :=
  .call (.write w) fun r =>
    match r with
    | .ok () => rest
    | .error _ => .raise (data, .raised)

/-- `_save` from the open temporary file on. -/
def saveTmp (data : AccountData) : Edit :=
  attempt data (.dump data) (attempt data .replace (.ret data))

/-- `_save`: a temporary file left over is unlinked. -/
def save (data : AccountData) : Edit :=
  attempt data .mkdir <|
    .call .openTmp fun r =>
      match r with
      | .ok () => saveTmp data
      | .error .failed => .raise (data, .raised)
      | .error .fileExists =>
          attempt data .unlinkTmp <|
            .call .openTmp fun r =>
              match r with
              | .ok () => saveTmp data
              | .error _ => .raise (data, .raised)

/-! ## 5. The methods -/

/-- The end of `add`: the entry is listed, and the file saved. -/
def addEntry (data : AccountData) (name : String) (entry : AccountEntry) : Edit :=
  save ⟨data.default.or (some name), data.accounts.set name entry⟩

/-- `add` once the keyring has answered the probe. -/
def addKeyring (data : AccountData) (name exchange : String) (credentials : ApiCredentials)
    (createdAt : Int) (verifiedAt : Option Int) : Edit :=
  attempt data (.setPassword (keyringService name) "key" credentials.apiKey) <|
    attempt data (.setPassword (keyringService name) "secret" credentials.apiSecret) <|
      addEntry data name
        ⟨exchange, createdAt, verifiedAt, .keyring (keyringRef name "key") (keyringRef name "secret")⟩

/-- `add` from `_keyring_available` on: any exception of the probe means no keyring. -/
def addStored (data : AccountData) (name exchange : String) (credentials : ApiCredentials)
    (allowPlaintext : Bool) (createdAt : Int) (verifiedAt : Option Int) : Edit :=
  .call (.getPassword "funding-tool" "__probe__") fun r =>
    match r with
    | .ok _ => addKeyring data name exchange credentials createdAt verifiedAt
    | .error _ =>
        if allowPlaintext then
          addEntry data name
            ⟨exchange, createdAt, verifiedAt, .plaintext credentials.apiKey credentials.apiSecret⟩
        else .raise (data, .plaintextFallbackRequired)

def add (data : AccountData) (name exchange : String) (credentials : ApiCredentials)
    (verified allowPlaintext : Bool) : Edit :=
  if data.accounts.get? name ≠ none then .raise (data, .alreadyExists name)
  else
    .call .now fun createdAt =>
      if verified then
        .call .now fun verifiedAt =>
          addStored data name exchange credentials allowPlaintext createdAt (some verifiedAt)
      else addStored data name exchange credentials allowPlaintext createdAt none

/-- `api_key_ref` and `secret_ref` of an entry, where they are set. -/
def refs (entry : AccountEntry) : List String :=
  match entry.secret with
  | .keyring apiKeyRef secretRef => [apiKeyRef, secretRef].filter (· ≠ "")
  | .plaintext .. => []

/-- The loop of `remove`: whatever a deletion raises is suppressed. -/
def deleteRefs (data : AccountData) (rest : Edit) : List String → Edit
  | [] => rest
  | ref :: more =>
      match keyringParse ref with
      | none => .raise (data, .assertion)
      | some (service, username) =>
          .call (.write (.deletePassword service username)) fun _ => deleteRefs data rest more

def remove (data : AccountData) (name : String) : Edit :=
  match data.accounts.get? name with
  | none => .raise (data, .notFound name)
  | some entry =>
      let accounts := data.accounts.erase name
      let default := if data.default = some name then accounts.keys.head? else data.default
      deleteRefs ⟨data.default, accounts⟩ (save ⟨default, accounts⟩) (refs entry)

def setDefault (data : AccountData) (name : String) : Edit :=
  if data.accounts.get? name = none then .raise (data, .notFound name)
  else save { data with default := some name }

structure AccountRecord where
  name : String
  exchange : String
  createdAt : Int
  permissionsVerifiedAt : Option Int
deriving DecidableEq, Repr

/-- `get_default_name` -/
def getDefaultName (data : AccountData) : Option String := data.default

def listAccounts (data : AccountData) : List AccountRecord :=
  data.accounts.entries.map fun e =>
    ⟨e.1, e.2.exchange, e.2.createdAt, e.2.permissionsVerifiedAt⟩

def getPassword (service username : String) :
    Prog AccountOp AccountOp.Resp AccountError (Option String) :=
  .call (.getPassword service username) fun r =>
    match r with
    | .ok value => .ret value
    | .error _ => .raise .raised

def getCredentials (data : AccountData) (name : String) :
    Prog AccountOp AccountOp.Resp AccountError ApiCredentials :=
  match data.accounts.get? name with
  | none => .raise (.notFound name)
  | some entry =>
      match entry.secret with
      | .plaintext apiKey apiSecret => .ret ⟨apiKey, apiSecret, none⟩
      | .keyring apiKeyRef secretRef =>
          match keyringParse apiKeyRef, keyringParse secretRef with
          | some (keyService, keyUser), some (secService, secUser) => do
              let apiKey ← getPassword keyService keyUser
              let apiSecret ← getPassword secService secUser
              match apiKey.filter (· ≠ ""), apiSecret.filter (· ≠ "") with
              | some apiKey, some apiSecret => .ret ⟨apiKey, apiSecret, none⟩
              | _, _ => .raise (.missingCredentials name)
          | _, _ => .raise .assertion

end AccountStore

/-! ## 6. Keyring and file system -/

/-- Whether a call raises, before or after it has had its effect. -/
inductive Outcome
  | succeeds
  | raisesBefore
  | raisesAfter
deriving DecidableEq, Repr

/-- What the surroundings choose for one operation. -/
structure AccountChoice where
  outcome : Outcome
  now : Int
deriving DecidableEq, Repr

/-- The effect of a write that has one. -/
def WriteOp.apply (disk : Disk) : WriteOp → Disk
  | .setPassword service username value =>
      { disk with keyring := disk.keyring.set (service, username) value }
  | .deletePassword service username =>
      { disk with keyring := disk.keyring.erase (service, username) }
  | .mkdir => disk
  | .unlinkTmp => { disk with tmp := none }
  | .dump data => { disk with tmp := some (.written data) }
  | .replace =>
      -- Nothing else is ever renamed: `_save` gets here after it has written the file.
      match disk.tmp with
      | some (.written data) => { disk with file := some data, tmp := none }
      | _ => disk

def perform : (o : AccountOp) → AccountChoice → Disk → Disk × o.Resp
  | .now, c, disk => (disk, c.now)
  | .getPassword service username, c, disk =>
      (disk, if c.outcome = .succeeds then .ok (disk.keyring.get? (service, username))
        else .error ⟨⟩)
  | .openTmp, c, disk =>
      match disk.tmp, c.outcome with
      | some _, _ => (disk, .error .fileExists)
      | none, .succeeds => ({ disk with tmp := some .opened }, .ok ())
      | none, .raisesBefore => (disk, .error .failed)
      | none, .raisesAfter => ({ disk with tmp := some .opened }, .error .failed)
  | .write w, c, disk =>
      match c.outcome with
      | .succeeds => (w.apply disk, .ok ())
      | .raisesBefore => (disk, .error ⟨⟩)
      | .raisesAfter => (w.apply disk, .error ⟨⟩)

/-! ## 7. References name their entry -/

theorem rpartitionColon_append (service username : List Char) (h : ':' ∉ username) :
    rpartitionColon (service ++ ':' :: username) = (service, username) := by
  have hclean : ∀ c ∈ username.reverse, decide (c ≠ ':') = true := by
    intro c hc
    rw [List.mem_reverse] at hc
    exact decide_eq_true fun heq => h (heq ▸ hc)
  have hreverse : (service ++ ':' :: username).reverse =
      username.reverse ++ ':' :: service.reverse := by
    rw [List.reverse_append, List.reverse_cons, List.append_assoc]
    rfl
  unfold rpartitionColon
  rw [hreverse, List.dropWhile_append_of_pos hclean, List.takeWhile_append_of_pos hclean]
  simp

theorem toList_keyringService (name : String) :
    (keyringService name).toList = servicePrefix ++ name.toList := String.toList_ofList

theorem toList_keyringRef (name kind : String) : (keyringRef name kind).toList =
    refPrefix ++ (servicePrefix ++ name.toList ++ ':' :: kind.toList) :=
  String.toList_ofList

theorem keyringParse_keyringRef (name : String) {kind : String} (h : ':' ∉ kind.toList) :
    keyringParse (keyringRef name kind) = some (keyringService name, kind) := by
  unfold keyringParse
  rw [toList_keyringRef, if_pos (List.isPrefixOf_iff_prefix.mpr (List.prefix_append _ _)),
    List.drop_left, rpartitionColon_append _ _ h]
  simp only [keyringService, String.ofList_toList]

theorem keyringService_inj {a b : String} (h : keyringService a = keyringService b) : a = b := by
  have hlist := congrArg String.toList h
  rw [toList_keyringService, toList_keyringService] at hlist
  exact String.toList_inj.mp (List.append_cancel_left hlist)

theorem keyringRef_ne_empty (name kind : String) : keyringRef name kind ≠ "" := by
  intro h
  have hlist := congrArg String.toList h
  rw [toList_keyringRef] at hlist
  simp at hlist

end FundingTool
