import FundingTool.SecretStore
import FundingTool.TransitionSystem

/-!
# Starts of the web process (`web/main.py`) and the rotation of the master key

`lifespan` reads the master keys systemd has put into the credentials directory, opens
the store with them and verifies the canary.  It names no key version, so the master key
of every process is version 1 and the previous key version 0.

Rows and the canary written under one master key therefore claim version 1 for ever: with
another master key a start opens them with that one, whatever the previous key is.
-/

namespace FundingTool.SecretStoreRotation

open FundingTool.TransitionSystem

/-! ## 1. `_load_master_key_from_credentials` and `lifespan` -/

/-- `$CREDENTIALS_DIRECTORY` and the two files in it. -/
structure Credentials where
  credDir : Option String
  masterKey : Option Bytes
  masterKeyPrev : Option Bytes
deriving DecidableEq, Repr

def loadMasterKeyFromCredentials (c : Credentials) : Except StoreError (Bytes × Option Bytes) :=
  match c.credDir with
  | none => .error (.runtimeError "CREDENTIALS_DIRECTORY env not set (systemd LoadCredential)")
  | some credDir =>
      if credDir = "" then
        .error (.runtimeError "CREDENTIALS_DIRECTORY env not set (systemd LoadCredential)")
      else
        match c.masterKey with
        | none => .error (.runtimeError ("master key missing at " ++ credDir ++ "/master_key"))
        | some active =>
            if active.length ≠ 32 then
              .error (.runtimeError
                ("master key must be 32 bytes, got " ++ toString active.length))
            else
              match c.masterKeyPrev with
              | none => .ok (active, none)
              | some prev =>
                  if prev.length ≠ 32 then
                    .error (.runtimeError
                      ("prev master key must be 32 bytes, got " ++ toString prev.length))
                  else .ok (active, some prev)

/-- The store `lifespan` opens, and the database it leaves.  `nonce` is what
    `secrets.token_bytes(12)` draws for a new canary. -/
def lifespan (c : Credentials) (nonce : Bytes) (db : SecretDb) :
    SecretDb × Except StoreError SecretStore :=
  match loadMasterKeyFromCredentials c with
  | .error e => (db, .error e)
  | .ok (active, prev) =>
      match SecretStore.init active prev 1 with
      | .error e => (db, .error e)
      | .ok store =>
          match store.initSchema nonce db with
          | .error e => (db, .error e)
          | .ok db' =>
              match store.verifyCanary db' with
              | .error e => (db', .error e)
              | .ok () => (db', .ok store)

/-! ## 2. Runs of the web process -/

/-- The database, the store of the running process, and the credentials `add_account` was
    given for each account that is still there. -/
structure Site where
  db : SecretDb
  process : Option SecretStore
  given : OrderedDict String ApiCredentials

def Site.fresh : Site := ⟨.fresh, none, OrderedDict.empty⟩

inductive SiteAct
  | start (c : Credentials) (nonce : Bytes)
  | stop
  | add (name label : String) (creds : ApiCredentials) (nonce : Bytes) (now : Int)
  | delete (name : String)
  | updatePermissions (name : String) (read trade withdraw : Option Bool) (now : Int)

/-- A start that fails leaves no process; a request that fails changes nothing. -/
def siteStep (s : Site) : SiteAct → Option Site
  | .start c nonce =>
      match s.process with
      | some _ => none
      | none =>
          match lifespan c nonce s.db with
          | (db, .ok store) => some { s with db := db, process := some store }
          | (db, .error _) => some { s with db := db }
  | .stop => some { s with process := none }
  | .add name label creds nonce now =>
      match s.process with
      | none => none
      | some store =>
          match store.addAccount name label creds nonce now s.db with
          | .ok db => some { s with db := db, given := s.given.set name creds }
          | .error _ => some s
  | .delete name =>
      match s.process with
      | none => none
      | some _ =>
          match SecretStore.deleteAccount name s.db with
          | .ok db => some { s with db := db, given := s.given.erase name }
          | .error _ => some s
  | .updatePermissions name read trade withdraw now =>
      match s.process with
      | none => none
      | some _ =>
          some { s with db := SecretStore.updatePermissions name read trade withdraw now s.db }

/-- Every start has the master key `key` and no different previous key. -/
def StartsWith (key : Bytes) (_ : Site) : SiteAct → Prop
  | .start c _ => c.masterKey = some key ∧ (c.masterKeyPrev = none ∨ c.masterKeyPrev = some key)
  | _ => True

instance (key : Bytes) (s : Site) (a : SiteAct) : Decidable (StartsWith key s a) := by
  cases a <;> unfold StartsWith <;> infer_instance

/-! ## 3. What a start does -/

theorem load_ok {c : Credentials} {active : Bytes} {prev : Option Bytes}
    (h : loadMasterKeyFromCredentials c = .ok (active, prev)) :
    c.masterKey = some active ∧ c.masterKeyPrev = prev ∧ active.length = 32 ∧
      ∀ key, prev = some key → key.length = 32 := by
  unfold loadMasterKeyFromCredentials at h
  rcases hdir : c.credDir with _ | credDir
  · rw [hdir] at h; cases h
  · simp only [hdir] at h
    by_cases hempty : credDir = ""
    · rw [if_pos hempty] at h; cases h
    · rw [if_neg hempty] at h
      rcases hkey : c.masterKey with _ | key
      · rw [hkey] at h; cases h
      · simp only [hkey] at h
        by_cases hlen : key.length ≠ 32
        · rw [if_pos hlen] at h; cases h
        · rw [if_neg hlen] at h
          rcases hprev : c.masterKeyPrev with _ | prevKey
          · simp only [hprev, Except.ok.injEq, Prod.mk.injEq] at h
            obtain ⟨rfl, rfl⟩ := h
            exact ⟨rfl, rfl, not_not.mp hlen, by simp⟩
          · simp only [hprev] at h
            by_cases hprevLen : prevKey.length ≠ 32
            · rw [if_pos hprevLen] at h; cases h
            · simp only [if_neg hprevLen, Except.ok.injEq, Prod.mk.injEq] at h
              obtain ⟨rfl, rfl⟩ := h
              refine ⟨rfl, rfl, not_not.mp hlen, ?_⟩
              intro key' hkey'
              rw [Option.some.injEq] at hkey'
              rw [← hkey']
              exact not_not.mp hprevLen

/-- The store of a start: its master key is version 1, and version 1 is active. -/
theorem init_ok {active : Bytes} {prev : Option Bytes} (hlen : active.length = 32)
    (hprev : ∀ key, prev = some key → key.length = 32) :
    ∃ store, SecretStore.init active prev 1 = .ok store ∧ store.activeVersion = 1 ∧
      store.keys.get? 1 = some ⟨active⟩ := by
  unfold SecretStore.init
  rw [if_neg (not_not.mpr hlen)]
  rcases prev with _ | key
  · exact ⟨_, rfl, rfl, OrderedDict.get?_set_self _ _ _⟩
  · simp only [if_neg (not_not.mpr (hprev key rfl))]
    refine ⟨_, rfl, rfl, ?_⟩
    rw [OrderedDict.get?_set_ne _ _ (by decide), OrderedDict.get?_set_self]

/-- The canary, if there is one, claims version 1 and was written under `key`. -/
def CanaryUnder (key : Bytes) (db : SecretDb) : Prop :=
  ∀ row, db.canary = some row →
    row.keyVersion = 1 ∧ row.ciphertext = (AESGCM.mk key).encrypt row.nonce .canary

/-- **The outcomes of a start** whose keys load: on a fresh database it writes the canary;
    otherwise it succeeds under the key the canary was written under, and only there. -/
theorem lifespan_cases {c : Credentials} {active : Bytes} {prev : Option Bytes}
    (hload : loadMasterKeyFromCredentials c = .ok (active, prev)) (nonce : Bytes) {key : Bytes}
    {db : SecretDb} (hcanary : CanaryUnder key db) :
    ∃ store : SecretStore, store.activeVersion = 1 ∧ store.keys.get? 1 = some ⟨active⟩ ∧
      ((db.canary = none ∧ lifespan c nonce db =
          ({ db with canary := some ⟨1, nonce, (AESGCM.mk active).encrypt nonce .canary⟩ },
            .ok store)) ∨
        (db.canary ≠ none ∧ key = active ∧ lifespan c nonce db = (db, .ok store)) ∨
        (db.canary ≠ none ∧ key ≠ active ∧ lifespan c nonce db = (db, .error .invalidTag))) := by
  obtain ⟨-, -, hlen, hprev⟩ := load_ok hload
  obtain ⟨store, hinit, hactive, hkey⟩ := init_ok hlen hprev
  refine ⟨store, hactive, hkey, ?_⟩
  unfold lifespan
  simp only [hload, hinit]
  rcases hrow : db.canary with _ | row
  · left
    refine ⟨rfl, ?_⟩
    simp only [SecretStore.initSchema, hrow, SecretStore.encrypt, hactive, hkey,
      SecretStore.verifyCanary, SecretStore.decrypt, AESGCM.decrypt_encrypt, if_true]
  · right
    obtain ⟨hversion, hct⟩ := hcanary row hrow
    simp only [SecretStore.initSchema, hrow, SecretStore.verifyCanary, SecretStore.decrypt,
      hversion, hkey, hct]
    by_cases hsame : key = active
    · left
      refine ⟨by simp, hsame, ?_⟩
      subst hsame
      simp only [AESGCM.decrypt_encrypt, if_true]
    · right
      refine ⟨by simp, hsame, ?_⟩
      rw [AESGCM.decrypt_wrong_key (by simpa using Ne.symm hsame)]

/-- A start whose keys do not load leaves the database alone. -/
theorem lifespan_not_loaded {c : Credentials} {e : StoreError}
    (hload : loadMasterKeyFromCredentials c = .error e) (nonce : Bytes) (db : SecretDb) :
    lifespan c nonce db = (db, .error e) := by
  simp only [lifespan, hload]

/-! ## 4. What runs under one master key leave -/

/-- Everything on the database was written as version 1 under `key`, and every row holds the
    credentials its account was given. -/
structure WrittenUnder (key : Bytes) (s : Site) : Prop where
  process : ∀ store, s.process = some store →
    s.db.canary ≠ none ∧ store.activeVersion = 1 ∧ store.keys.get? 1 = some ⟨key⟩
  canary : CanaryUnder key s.db
  empty : s.db.canary = none → ∀ name, s.db.accounts.get? name = none
  rows : ∀ name row, s.db.accounts.get? name = some row → row.keyVersion = 1 ∧
    ∃ creds, s.given.get? name = some creds ∧ row.ciphertext =
      (AESGCM.mk key).encrypt row.nonce (.payload creds.apiKey creds.apiSecret creds.passphrase)

theorem writtenUnder_fresh (key : Bytes) : WrittenUnder key .fresh := by
  refine ⟨?_, ?_, fun _ _ => rfl, ?_⟩
  · intro store h; cases h
  · intro row h; cases h
  · intro name row h; cases h

theorem writtenUnder_start {key : Bytes} {s : Site} (h : WrittenUnder key s) {c : Credentials}
    (hkey : c.masterKey = some key) (nonce : Bytes) {s' : Site}
    (hstep : siteStep s (.start c nonce) = some s') : WrittenUnder key s' := by
  simp only [siteStep] at hstep
  rcases hprocess : s.process with _ | running
  · simp only [hprocess] at hstep
    rcases hload : loadMasterKeyFromCredentials c with e | ⟨active, prev⟩
    · simp only [lifespan_not_loaded hload, Option.some.injEq] at hstep
      subst hstep
      refine ⟨?_, h.canary, h.empty, h.rows⟩
      intro store hstore
      cases hstore
    · have hactive : active = key := by
        have := (load_ok hload).1
        rw [hkey, Option.some.injEq] at this
        exact this.symm
      subst hactive
      obtain ⟨store, hversion, hloaded, ⟨hnone, hstart⟩ | ⟨hsome, -, hstart⟩ | ⟨-, hne, -⟩⟩ :=
        lifespan_cases hload nonce h.canary
      · -- the first start writes the canary
        simp only [hstart, Option.some.injEq] at hstep
        subst hstep
        refine ⟨?_, ?_, ?_, h.rows⟩
        · intro store' hstore
          rw [Option.some.injEq] at hstore
          subst hstore
          exact ⟨by simp, hversion, hloaded⟩
        · intro row hrow
          rw [Option.some.injEq] at hrow
          subst hrow
          exact ⟨rfl, rfl⟩
        · intro hnone'
          cases hnone'
      · simp only [hstart, Option.some.injEq] at hstep
        subst hstep
        refine ⟨?_, h.canary, h.empty, h.rows⟩
        intro store' hstore
        rw [Option.some.injEq] at hstore
        subst hstore
        exact ⟨hsome, hversion, hloaded⟩
      · exact absurd rfl hne
  · simp only [hprocess, reduceCtorEq] at hstep

theorem writtenUnder_add {key : Bytes} {s : Site} (h : WrittenUnder key s) {store : SecretStore}
    (hprocess : s.process = some store) {name label : String} {creds : ApiCredentials}
    {nonce : Bytes} {now : Int} {db : SecretDb}
    (hadd : store.addAccount name label creds nonce now s.db = .ok db) :
    WrittenUnder key { s with db := db, given := s.given.set name creds } := by
  obtain ⟨hsome, hversion, hloaded⟩ := h.process store hprocess
  obtain ⟨cipher, hcipher, -, -, rfl⟩ := SecretStore.addAccount_ok hadd
  rw [hversion, hloaded, Option.some.injEq] at hcipher
  subst hcipher
  refine ⟨h.process, h.canary, fun hnone => absurd hnone hsome, ?_⟩
  intro name' row hrow
  simp only [OrderedDict.get?_set] at hrow ⊢
  by_cases hsame : name' = name
  · rw [if_pos hsame, Option.some.injEq] at hrow
    subst hrow
    simp only [if_pos hsame]
    exact ⟨hversion, creds, rfl, rfl⟩
  · rw [if_neg hsame] at hrow
    simp only [if_neg hsame]
    exact h.rows name' row hrow

theorem writtenUnder_delete {key : Bytes} {s : Site} (h : WrittenUnder key s) {name : String}
    {db : SecretDb} (hdelete : SecretStore.deleteAccount name s.db = .ok db) :
    WrittenUnder key { s with db := db, given := s.given.erase name } := by
  have hdb := SecretStore.deleteAccount_ok hdelete
  subst hdb
  refine ⟨h.process, h.canary, ?_, ?_⟩
  · intro hnone name'
    rw [OrderedDict.get?_erase, h.empty hnone name', ite_self]
  · intro name' row hrow
    simp only [OrderedDict.get?_erase] at hrow ⊢
    by_cases hsame : name' = name
    · rw [if_pos hsame] at hrow
      cases hrow
    · rw [if_neg hsame] at hrow
      simp only [if_neg hsame]
      exact h.rows name' row hrow

theorem writtenUnder_update {key : Bytes} {s : Site} (h : WrittenUnder key s) (name : String)
    (read trade withdraw : Option Bool) (now : Int) :
    WrittenUnder key
      { s with db := SecretStore.updatePermissions name read trade withdraw now s.db } := by
  refine ⟨?_, ?_, ?_, ?_⟩
  · intro store hstore
    rw [SecretStore.updatePermissions_canary]
    exact h.process store hstore
  · intro row hrow
    rw [SecretStore.updatePermissions_canary] at hrow
    exact h.canary row hrow
  · intro hnone name'
    rw [SecretStore.updatePermissions_canary] at hnone
    rcases hrow : (SecretStore.updatePermissions name read trade withdraw now s.db).accounts.get?
      name' with _ | row
    · rfl
    · obtain ⟨old, hold, -⟩ := SecretStore.updatePermissions_get? hrow
      rw [h.empty hnone name'] at hold
      cases hold
  · intro name' row hrow
    obtain ⟨old, hold, hversion, hnonce, hct⟩ := SecretStore.updatePermissions_get? hrow
    rw [← hversion, ← hnonce, ← hct]
    exact h.rows name' old hold

/-- One step under the master key `key`. -/
theorem writtenUnder_step {key : Bytes} {s s' : Site} {a : SiteAct} (h : WrittenUnder key s)
    (hallowed : StartsWith key s a) (hstep : siteStep s a = some s') : WrittenUnder key s' := by
  cases a with
  | start c nonce => exact writtenUnder_start h hallowed.1 nonce hstep
  | stop =>
      simp only [siteStep, Option.some.injEq] at hstep
      subst hstep
      refine ⟨?_, h.canary, h.empty, h.rows⟩
      intro store hstore
      cases hstore
  | add name label creds nonce now =>
      rcases hprocess : s.process with _ | store
      · simp only [siteStep, hprocess, reduceCtorEq] at hstep
      · rcases hadd : store.addAccount name label creds nonce now s.db with e | db
        · simp only [siteStep, hprocess, hadd, Option.some.injEq] at hstep
          rw [← hstep]
          exact h
        · simp only [siteStep, hprocess, hadd, Option.some.injEq] at hstep
          rw [← hstep, ← hprocess]
          exact writtenUnder_add h hprocess hadd
  | delete name =>
      rcases hprocess : s.process with _ | store
      · simp only [siteStep, hprocess, reduceCtorEq] at hstep
      · rcases hdelete : SecretStore.deleteAccount name s.db with e | db
        · simp only [siteStep, hprocess, hdelete, Option.some.injEq] at hstep
          rw [← hstep]
          exact h
        · simp only [siteStep, hprocess, hdelete, Option.some.injEq] at hstep
          rw [← hstep, ← hprocess]
          exact writtenUnder_delete h hdelete
  | updatePermissions name read trade withdraw now =>
      rcases hprocess : s.process with _ | store
      · simp only [siteStep, hprocess, reduceCtorEq] at hstep
      · simp only [siteStep, hprocess, Option.some.injEq] at hstep
        rw [← hstep, ← hprocess]
        exact writtenUnder_update h name read trade withdraw now

/-! ## 5. The next start -/

/-- The start succeeds, and every stored account reads back as it was given. -/
def StartsReadable (s : Site) (c : Credentials) (nonce : Bytes) : Prop :=
  ∃ store, (lifespan c nonce s.db).2 = .ok store ∧
    ∀ name row, s.db.accounts.get? name = some row → ∃ creds, s.given.get? name = some creds ∧
      store.getCredentials name (lifespan c nonce s.db).1 = .ok creds

/-- **When a rotation keeps the accounts readable.**  Let any runs under the master key
    `key` have produced the database.  A start with master key `key'` and previous key
    `key` succeeds with all accounts readable exactly when the keys are the same or no
    process has ever been started on the database. -/
theorem rotation_readable_iff {key key' : Bytes} {s : Site}
    (h : Reaches siteStep (StartsWith key) .fresh s) {c : Credentials}
    (hload : loadMasterKeyFromCredentials c = .ok (key', some key)) (nonce : Bytes) :
    StartsReadable s c nonce ↔ key' = key ∨ s.db.canary = none := by
  have hinv : WrittenUnder key s := h.invariant (writtenUnder_fresh key)
    fun _ _ _ hinv hallowed hstep => writtenUnder_step hinv hallowed hstep
  obtain ⟨store, -, hloaded, ⟨hnone, hstart⟩ | ⟨hsome, hsame, hstart⟩ | ⟨hsome, hne, hstart⟩⟩ :=
    lifespan_cases hload nonce hinv.canary
  · refine iff_of_true ?_ (Or.inr hnone)
    refine ⟨store, by rw [hstart], ?_⟩
    intro name row hrow
    rw [hinv.empty hnone name] at hrow
    cases hrow
  · subst hsame
    refine iff_of_true ?_ (Or.inl rfl)
    refine ⟨store, by rw [hstart], ?_⟩
    intro name row hrow
    obtain ⟨hversion, creds, hgiven, hct⟩ := hinv.rows name row hrow
    refine ⟨creds, hgiven, ?_⟩
    rw [hstart]
    exact SecretStore.getCredentials_of_row hrow (by rw [hversion]; exact hloaded) hct
  · refine iff_of_false ?_ (not_or.mpr ⟨Ne.symm hne, hsome⟩)
    rintro ⟨store', hok, -⟩
    rw [hstart] at hok
    cases hok

/-- Thirty-two bytes of the same value. -/
def evenKey (b : UInt8) : Bytes := List.replicate 32 b

/-- A process is started, stores one account and stops. -/
def oneAccount (key : Bytes) : List SiteAct :=
  [.start ⟨some "/run/credentials/funding-tool", some key, none⟩ (List.replicate 12 1),
    .add "main" "" ⟨"vmPUZE6mv9SD5V", "NhqPtmdSJYdKjV", none⟩ (List.replicate 12 2)
      1767225600000000,
    .stop]

theorem rotation_readable_iff_sameKey :
    ∃ s, Reaches siteStep (StartsWith (evenKey 1)) .fresh s ∧
      s.db.accounts.get? "main" ≠ none ∧
      StartsReadable s ⟨some "/run/credentials/funding-tool", some (evenKey 1), some (evenKey 1)⟩
        (List.replicate 12 3) := by
  have hreach : Reaches siteStep (StartsWith (evenKey 1)) .fresh _ :=
    play_get_reaches (oneAccount (evenKey 1)) (by decide +kernel)
  exact ⟨_, hreach, by decide +kernel,
    (rotation_readable_iff hreach (by decide +kernel) _).mpr (Or.inl rfl)⟩

/-- **A rotation locks the store.**  The canary claims version 1, which is now the new key. -/
theorem rotation_fails :
    ∃ s, Reaches siteStep (StartsWith (evenKey 1)) .fresh s ∧
      loadMasterKeyFromCredentials
        ⟨some "/run/credentials/funding-tool", some (evenKey 2), some (evenKey 1)⟩ =
          .ok (evenKey 2, some (evenKey 1)) ∧
      ¬ StartsReadable s ⟨some "/run/credentials/funding-tool", some (evenKey 2),
        some (evenKey 1)⟩ (List.replicate 12 3) := by
  refine ⟨_, play_get_reaches (oneAccount (evenKey 1)) (by decide +kernel), by decide +kernel, ?_⟩
  rintro ⟨store, hok, -⟩
  have hfail : (lifespan ⟨some "/run/credentials/funding-tool", some (evenKey 2),
      some (evenKey 1)⟩ (List.replicate 12 3) ((play siteStep (StartsWith (evenKey 1)) .fresh
        (oneAccount (evenKey 1))).get (by decide +kernel)).db).2.toBool = false := by
    decide +kernel
  rw [hok] at hfail
  cases hfail

end FundingTool.SecretStoreRotation
