import FundingTool.Models
import FundingTool.OrderedDict
import Mathlib.Data.List.Sort

/-!
# The encrypted credential store (`web/secret_store.py`)

A `SecretStore` object holds the keys a process was started with, each under a version
number; the rows it writes carry the active one.  AES-GCM is ideal: a ciphertext
remembers the key and the nonce it was made with, and opens under these only.  JSON
encoding loses nothing, so a payload is the record that was encoded.

Every method is one transaction on the database and is a function from the database to
the database and a result.
-/

namespace FundingTool

abbrev Bytes := List UInt8

/-! ## 1. Ideal AES-GCM -/

inductive StoreError where
  | valueError (message : String)
  /-- `account {name!r} already exists` -/
  | accountExists (name : String)
  | keyError (name : String)
  | runtimeError (message : String)
  /-- `key_version {key_version} not loaded` -/
  | versionNotLoaded (keyVersion : Int)
  /-- `cryptography.exceptions.InvalidTag` -/
  | invalidTag
  /-- The decrypted bytes are not the payload of an account. -/
  | badPayload
deriving DecidableEq, Repr

/-- What is encrypted: `_CANARY_PLAINTEXT` or the payload of `add_account`. -/
inductive Plaintext where
  | canary
  | payload (apiKey apiSecret : String) (passphrase : Option String)
deriving DecidableEq, Repr

structure Ciphertext where
  key : Bytes
  nonce : Bytes
  plaintext : Plaintext
deriving DecidableEq, Repr

structure AESGCM where
  key : Bytes
deriving DecidableEq, Repr

namespace AESGCM

def encrypt (cipher : AESGCM) (nonce : Bytes) (plaintext : Plaintext) : Ciphertext :=
  ⟨cipher.key, nonce, plaintext⟩

def decrypt (cipher : AESGCM) (nonce : Bytes) (ct : Ciphertext) : Except StoreError Plaintext :=
  if ct.key = cipher.key ∧ ct.nonce = nonce then .ok ct.plaintext else .error .invalidTag

@[simp] theorem decrypt_encrypt (cipher : AESGCM) (nonce : Bytes) (plaintext : Plaintext) :
    cipher.decrypt nonce (cipher.encrypt nonce plaintext) = .ok plaintext := by
  simp [decrypt, encrypt]

theorem decrypt_wrong_key {cipher other : AESGCM} (h : other ≠ cipher) (nonce : Bytes)
    (plaintext : Plaintext) :
    other.decrypt nonce (cipher.encrypt nonce plaintext) = .error .invalidTag := by
  have hkey : ¬ cipher.key = other.key := by
    intro heq
    exact h (by cases cipher; cases other; simp_all)
  simp [decrypt, encrypt, hkey]

end AESGCM

/-! ## 2. The database -/

/-- A row of `accounts`, without its primary key. -/
structure AccountRow where
  label : String
  createdAt : Int
  keyFirst6 : String
  keyVersion : Int
  nonce : Bytes
  ciphertext : Ciphertext
  permRead : Option Bool
  permTrade : Option Bool
  permWithdraw : Option Bool
  permCheckedAt : Option Int
deriving DecidableEq, Repr

structure CanaryRow where
  keyVersion : Int
  nonce : Bytes
  ciphertext : Ciphertext
deriving DecidableEq, Repr

structure SecretDb where
  accounts : OrderedDict String AccountRow
  canary : Option CanaryRow

/-- The database file before any process has opened it. -/
def SecretDb.fresh : SecretDb := ⟨OrderedDict.empty, none⟩

structure AccountRecord where
  name : String
  label : String
  createdAt : Int
  keyFirst6 : String
  permRead : Option Bool
  permTrade : Option Bool
  permWithdraw : Option Bool
deriving DecidableEq, Repr

/-! ## 3. The store object -/

structure SecretStore where
  keys : OrderedDict Int AESGCM
  activeVersion : Int

namespace SecretStore

/-- `SecretStore.__init__` -/
def init (masterKey : Bytes) (prevKey : Option Bytes) (activeVersion : Int) :
    Except StoreError SecretStore :=
  if masterKey.length ≠ 32 then .error (.valueError "master_key must be 32 bytes")
  else
    let keys := OrderedDict.empty.set activeVersion ⟨masterKey⟩
    match prevKey with
    | none => .ok ⟨keys, activeVersion⟩
    | some prev =>
        if prev.length ≠ 32 then .error (.valueError "prev_key must be 32 bytes")
        else .ok ⟨keys.set (activeVersion - 1) ⟨prev⟩, activeVersion⟩

/-- `_encrypt`, with the nonce `secrets.token_bytes(12)` has drawn. -/
def encrypt (store : SecretStore) (nonce : Bytes) (plaintext : Plaintext) :
    Except StoreError Ciphertext :=
  match store.keys.get? store.activeVersion with
  | some cipher => .ok (cipher.encrypt nonce plaintext)
  | none => .error (.versionNotLoaded store.activeVersion)

/-- `_decrypt` -/
def decrypt (store : SecretStore) (keyVersion : Int) (nonce : Bytes) (ct : Ciphertext) :
    Except StoreError Plaintext :=
  match store.keys.get? keyVersion with
  | none => .error (.versionNotLoaded keyVersion)
  | some cipher => cipher.decrypt nonce ct

def initSchema (store : SecretStore) (nonce : Bytes) (db : SecretDb) :
    Except StoreError SecretDb :=
  match db.canary with
  | some _ => .ok db
  | none =>
      match store.encrypt nonce .canary with
      | .error e => .error e
      | .ok ct => .ok { db with canary := some ⟨store.activeVersion, nonce, ct⟩ }

def verifyCanary (store : SecretStore) (db : SecretDb) : Except StoreError Unit :=
  match db.canary with
  | none => .error (.runtimeError "canary row missing")
  | some row =>
      match store.decrypt row.keyVersion row.nonce row.ciphertext with
      | .error e => .error e
      | .ok pt =>
          if pt = .canary then .ok () else .error (.runtimeError "canary plaintext mismatch")

/-- The row `add_account` inserts. -/
def newRow (store : SecretStore) (label : String) (creds : ApiCredentials) (nonce : Bytes)
    (ct : Ciphertext) (now : Int) : AccountRow where
  label := label
  createdAt := now
  keyFirst6 := String.ofList (creds.apiKey.toList.take 6)
  keyVersion := store.activeVersion
  nonce := nonce
  ciphertext := ct
  permRead := none
  permTrade := none
  permWithdraw := none
  permCheckedAt := none

def addAccount (store : SecretStore) (name label : String) (creds : ApiCredentials)
    (nonce : Bytes) (now : Int) (db : SecretDb) : Except StoreError SecretDb :=
  if isBlank name then .error (.valueError "name required")
  else
    match store.encrypt nonce (.payload creds.apiKey creds.apiSecret creds.passphrase) with
    | .error e => .error e
    | .ok ct =>
        match db.accounts.get? name with
        | some _ => .error (.accountExists name)
        | none =>
            .ok { db with
              accounts := db.accounts.set name (store.newRow label creds nonce ct now) }

def toRecord (entry : String × AccountRow) : AccountRecord where
  name := entry.1
  label := entry.2.label
  createdAt := entry.2.createdAt
  keyFirst6 := entry.2.keyFirst6
  permRead := entry.2.permRead
  permTrade := entry.2.permTrade
  permWithdraw := entry.2.permWithdraw

def listAccounts (db : SecretDb) : List AccountRecord :=
  (db.accounts.entries.map toRecord).insertionSort fun a b => a.createdAt ≤ b.createdAt

/-- The columns `update_permissions` sets. -/
def withPermissions (row : AccountRow) (read trade withdraw : Option Bool) (now : Int) :
    AccountRow :=
  { row with
    permRead := read
    permTrade := trade
    permWithdraw := withdraw
    permCheckedAt := some now }

/-- An update of a missing name changes no row. -/
def updatePermissions (name : String) (read trade withdraw : Option Bool) (now : Int)
    (db : SecretDb) : SecretDb :=
  match db.accounts.get? name with
  | none => db
  | some row =>
      { db with
        accounts := db.accounts.set name (withPermissions row read trade withdraw now) }

def getCredentials (store : SecretStore) (name : String) (db : SecretDb) :
    Except StoreError ApiCredentials :=
  match db.accounts.get? name with
  | none => .error (.keyError name)
  | some row =>
      match store.decrypt row.keyVersion row.nonce row.ciphertext with
      | .error e => .error e
      | .ok (.payload apiKey apiSecret passphrase) => .ok ⟨apiKey, apiSecret, passphrase⟩
      | .ok .canary => .error .badPayload

def deleteAccount (name : String) (db : SecretDb) : Except StoreError SecretDb :=
  match db.accounts.get? name with
  | none => .error (.keyError name)
  | some _ => .ok { db with accounts := db.accounts.erase name }

/-! ## 4. What the methods do -/

/-- **An accepted account** is a new row that carries the credentials it was given. -/
theorem addAccount_ok {store : SecretStore} {name label : String} {creds : ApiCredentials}
    {nonce : Bytes} {now : Int} {db db' : SecretDb}
    (h : store.addAccount name label creds nonce now db = .ok db') :
    ∃ cipher, store.keys.get? store.activeVersion = some cipher ∧
      db.accounts.get? name = none ∧ isBlank name = false ∧
      db' = { db with accounts := db.accounts.set name (store.newRow label creds nonce
        (cipher.encrypt nonce (.payload creds.apiKey creds.apiSecret creds.passphrase)) now) } := by
  unfold addAccount encrypt at h
  by_cases hblank : isBlank name
  · rw [if_pos hblank] at h
    cases h
  · rw [if_neg hblank] at h
    rcases hkey : store.keys.get? store.activeVersion with _ | cipher
    · rw [hkey] at h
      cases h
    · rw [hkey] at h
      rcases hrow : db.accounts.get? name with _ | row
      · simp only [hrow, Except.ok.injEq] at h
        exact ⟨cipher, rfl, rfl, by simpa using hblank, h.symm⟩
      · simp only [hrow, reduceCtorEq] at h

theorem deleteAccount_ok {name : String} {db db' : SecretDb}
    (h : deleteAccount name db = .ok db') :
    db' = { db with accounts := db.accounts.erase name } := by
  unfold deleteAccount at h
  rcases hrow : db.accounts.get? name with _ | row
  · rw [hrow] at h
    cases h
  · rw [hrow, Except.ok.injEq] at h
    exact h.symm

@[simp] theorem updatePermissions_canary (name : String) (read trade withdraw : Option Bool)
    (now : Int) (db : SecretDb) :
    (updatePermissions name read trade withdraw now db).canary = db.canary := by
  unfold updatePermissions
  split <;> rfl

/-- Updating permissions keeps which rows there are and what they encrypt. -/
theorem updatePermissions_get? {name name' : String} {read trade withdraw : Option Bool}
    {now : Int} {db : SecretDb} {row : AccountRow}
    (h : (updatePermissions name read trade withdraw now db).accounts.get? name' = some row) :
    ∃ old, db.accounts.get? name' = some old ∧ old.keyVersion = row.keyVersion ∧
      old.nonce = row.nonce ∧ old.ciphertext = row.ciphertext := by
  unfold updatePermissions at h
  rcases hrow : db.accounts.get? name with _ | old
  · rw [hrow] at h
    exact ⟨row, h, rfl, rfl, rfl⟩
  · simp only [hrow, OrderedDict.get?_set] at h
    by_cases hsame : name' = name
    · rw [if_pos hsame, Option.some.injEq] at h
      subst hsame
      subst h
      exact ⟨old, hrow, rfl, rfl, rfl⟩
    · rw [if_neg hsame] at h
      exact ⟨row, h, rfl, rfl, rfl⟩

/-- A row whose version is loaded with the key it was written under is readable. -/
theorem getCredentials_of_row {store : SecretStore} {name : String} {db : SecretDb}
    {row : AccountRow} {cipher : AESGCM} {creds : ApiCredentials}
    (hrow : db.accounts.get? name = some row)
    (hkey : store.keys.get? row.keyVersion = some cipher)
    (hct : row.ciphertext =
      cipher.encrypt row.nonce (.payload creds.apiKey creds.apiSecret creds.passphrase)) :
    store.getCredentials name db = .ok creds := by
  simp only [getCredentials, hrow, decrypt, hkey, hct, AESGCM.decrypt_encrypt]

end SecretStore

end FundingTool
