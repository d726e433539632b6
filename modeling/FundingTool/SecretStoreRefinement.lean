import FundingTool.SecretStoreRotation

/-!
# The encrypted store is a map from names to credentials

A directory maps names to credentials, each with the version it was written under; it knows
nothing of keys, nonces, ciphertexts or rows.  A database that is opened again and again, with
the same key or with a new one whose predecessor is passed along under the next version,
implements the directory: what the two loaded versions cannot open is refused by its version,
everything else comes back as it was given.

Two facts carry this through any number of rotations: a row of one of the two loaded versions
was encrypted under the key loaded for it, and no other row has a later version.
-/

namespace FundingTool.SecretStoreRefinement

open FundingTool.TransitionSystem FundingTool.SecretStore

/-! ## 1. The directory -/

/-- What was given for a name, and the version it was written under. -/
structure Given where
  credentials : ApiCredentials
  version : Int
deriving DecidableEq, Repr

abbrev Directory := String → Option Given

def Directory.empty : Directory := fun _ => none

def Directory.put (d : Directory) (name : String) (given : Option Given) : Directory :=
  fun other => if other = name then given else d other

theorem Directory.put_self (d : Directory) (name : String) (given : Option Given) :
    d.put name given name = given := if_pos rfl

theorem Directory.put_ne (d : Directory) {name other : String} (hne : other ≠ name)
    (given : Option Given) : d.put name given other = d other := if_neg hne

/-- What `get_credentials` answers while `version` is the active one. -/
def Directory.credentials (d : Directory) (version : Int) (name : String) :
    Except StoreError ApiCredentials :=
  match d name with
  | none => .error (.keyError name)
  | some given =>
      if given.version = version ∨ given.version = version - 1 then .ok given.credentials
      else .error (.versionNotLoaded given.version)

/-! ## 2. The store in use -/

/-- The arguments a store is opened with. -/
structure OpenArgs where
  masterKey : Bytes
  prevKey : Option Bytes
  activeVersion : Int

/-- `SecretStore(...)` and `init_schema`. -/
def openStore (args : OpenArgs) (nonce : Bytes) (db : SecretDb) :
    Except StoreError (SecretStore × SecretDb) :=
  match SecretStore.init args.masterKey args.prevKey args.activeVersion with
  | .error e => .error e
  | .ok store =>
      match store.initSchema nonce db with
      | .error e => .error e
      | .ok db' => .ok (store, db')

/-- The new key is the master key, its predecessor the previous one, of the next version. -/
def OpenArgs.rotated (args : OpenArgs) (newKey : Bytes) : OpenArgs :=
  ⟨newKey, some args.masterKey, args.activeVersion + 1⟩

/-- A store that is open, and the directory after the calls made so far. -/
structure Vault where
  args : OpenArgs
  store : SecretStore
  db : SecretDb
  directory : Directory

inductive VaultAct
  | add (name label : String) (creds : ApiCredentials) (nonce : Bytes) (now : Int)
  | delete (name : String)
  | updatePermissions (name : String) (read trade withdraw : Option Bool) (now : Int)
  | reopen (nonce : Bytes)
  | rotate (newKey nonce : Bytes)

def reopenWith (v : Vault) (args : OpenArgs) (nonce : Bytes) : Option Vault :=
  match openStore args nonce v.db with
  | .ok (store, db) => some ⟨args, store, db, v.directory⟩
  | .error _ => none

/-- One call; those that only read change nothing.  A call that raises changes nothing. -/
def vaultStep (v : Vault) : VaultAct → Option Vault
  | .add name label creds nonce now =>
      match v.store.addAccount name label creds nonce now v.db with
      | .ok db => some { v with
          db := db
          directory := v.directory.put name (some ⟨creds, v.args.activeVersion⟩) }
      | .error _ => some v
  | .delete name =>
      match deleteAccount name v.db with
      | .ok db => some { v with db := db, directory := v.directory.put name none }
      | .error _ => some v
  | .updatePermissions name read trade withdraw now =>
      some { v with db := updatePermissions name read trade withdraw now v.db }
  | .reopen nonce => reopenWith v v.args nonce
  | .rotate newKey nonce => reopenWith v (v.args.rotated newKey) nonce

/-! ## 3. Opening -/

/-- **The loaded keys**: the master key as the active version, the previous key as the one
    before, and no other. -/
theorem init_loads {masterKey : Bytes} {prevKey : Option Bytes} {version : Int}
    {store : SecretStore} (h : SecretStore.init masterKey prevKey version = .ok store) :
    store.activeVersion = version ∧ store.keys.get? version = some ⟨masterKey⟩ ∧
      (∀ key, prevKey = some key → store.keys.get? (version - 1) = some ⟨key⟩) ∧
      ∀ other, other ≠ version → other ≠ version - 1 → store.keys.get? other = none := by
  have hne : version ≠ version - 1 := by omega
  unfold SecretStore.init at h
  by_cases hlen : masterKey.length ≠ 32
  · rw [if_pos hlen] at h
    cases h
  · rw [if_neg hlen] at h
    rcases prevKey with _ | prev
    · simp only [Except.ok.injEq] at h
      subst h
      refine ⟨rfl, OrderedDict.get?_set_self _ _ _, nofun, ?_⟩
      intro other hother _
      exact OrderedDict.get?_set_ne _ _ hother
    · by_cases hprev : prev.length ≠ 32
      · simp only [if_pos hprev, reduceCtorEq] at h
      · simp only [if_neg hprev, Except.ok.injEq] at h
        subst h
        refine ⟨rfl, ?_, ?_, ?_⟩
        · rw [OrderedDict.get?_set_ne _ _ hne, OrderedDict.get?_set_self]
        · intro key hkey
          rw [Option.some.injEq] at hkey
          rw [← hkey]
          exact OrderedDict.get?_set_self _ _ _
        · intro other hother hother'
          rw [OrderedDict.get?_set_ne _ _ hother', OrderedDict.get?_set_ne _ _ hother]
          exact OrderedDict.get?_empty other

theorem initSchema_accounts {store : SecretStore} {nonce : Bytes} {db db' : SecretDb}
    (h : store.initSchema nonce db = .ok db') : db'.accounts = db.accounts := by
  unfold initSchema at h
  rcases hcanary : db.canary with _ | row
  · rcases hencrypt : store.encrypt nonce .canary with e | ct
    · simp only [hcanary, hencrypt, reduceCtorEq] at h
    · simp only [hcanary, hencrypt, Except.ok.injEq] at h
      rw [← h]
  · simp only [hcanary, Except.ok.injEq] at h
    rw [← h]

theorem openStore_ok {args : OpenArgs} {nonce : Bytes} {db db' : SecretDb} {store : SecretStore}
    (h : openStore args nonce db = .ok (store, db')) :
    SecretStore.init args.masterKey args.prevKey args.activeVersion = .ok store ∧
      db'.accounts = db.accounts := by
  unfold openStore at h
  rcases hinit : SecretStore.init args.masterKey args.prevKey args.activeVersion with e | opened
  · simp only [hinit, reduceCtorEq] at h
  · rcases hschema : opened.initSchema nonce db with e | schema
    · simp only [hinit, hschema, reduceCtorEq] at h
    · simp only [hinit, hschema, Except.ok.injEq, Prod.mk.injEq] at h
      obtain ⟨rfl, rfl⟩ := h
      exact ⟨rfl, initSchema_accounts hschema⟩

theorem reopenWith_some {v v' : Vault} {args : OpenArgs} {nonce : Bytes}
    (h : reopenWith v args nonce = some v') :
    SecretStore.init args.masterKey args.prevKey args.activeVersion = .ok v'.store ∧
      v'.args = args ∧ v'.db.accounts = v.db.accounts ∧ v'.directory = v.directory := by
  unfold reopenWith at h
  rcases hopen : openStore args nonce v.db with e | ⟨store, db⟩
  · simp only [hopen, reduceCtorEq] at h
  · simp only [hopen, Option.some.injEq] at h
    subst h
    obtain ⟨hinit, haccounts⟩ := openStore_ok hopen
    exact ⟨hinit, rfl, haccounts, rfl⟩

/-! ## 4. The simulation -/

/-- The row holds what was given, under the key loaded for its version, unless its version is
    an older one than those loaded. -/
def Encrypts (store : SecretStore) (version : Int) (given : Given) (row : AccountRow) : Prop :=
  row.keyVersion = given.version ∧ given.version ≤ version ∧
    (version - 1 ≤ given.version → ∃ cipher, store.keys.get? given.version = some cipher ∧
      row.ciphertext = cipher.encrypt row.nonce (.payload given.credentials.apiKey
        given.credentials.apiSecret given.credentials.passphrase))

structure Matches (v : Vault) : Prop where
  opened : SecretStore.init v.args.masterKey v.args.prevKey v.args.activeVersion = .ok v.store
  rows : ∀ name row, v.db.accounts.get? name = some row → ∃ given,
    v.directory name = some given ∧ Encrypts v.store v.args.activeVersion given row
  listed : ∀ name given, v.directory name = some given →
    ∃ row, v.db.accounts.get? name = some row

theorem Matches.get?_eq_none {v : Vault} (h : Matches v) {name : String}
    (hname : v.directory name = none) : v.db.accounts.get? name = none := by
  rcases hrow : v.db.accounts.get? name with _ | row
  · rfl
  · obtain ⟨given, hgiven, -⟩ := h.rows name row hrow
    rw [hname] at hgiven
    cases hgiven

theorem Matches.active {v : Vault} (h : Matches v) :
    v.store.activeVersion = v.args.activeVersion ∧
      v.store.keys.get? v.store.activeVersion = some ⟨v.args.masterKey⟩ := by
  obtain ⟨hactive, hkey, -⟩ := init_loads h.opened
  rw [hactive]
  exact ⟨rfl, hkey⟩

theorem matches_opened {args : OpenArgs} {nonce : Bytes} {store : SecretStore} {db : SecretDb}
    (h : openStore args nonce .fresh = .ok (store, db)) : Matches ⟨args, store, db, .empty⟩ := by
  obtain ⟨hinit, haccounts⟩ := openStore_ok h
  refine ⟨hinit, ?_, nofun⟩
  intro name row hrow
  simp only [haccounts] at hrow
  cases hrow

theorem matches_add {v : Vault} (h : Matches v) {name label : String} {creds : ApiCredentials}
    {nonce : Bytes} {now : Int} {db : SecretDb}
    (hadd : v.store.addAccount name label creds nonce now v.db = .ok db) :
    Matches { v with
      db := db
      directory := v.directory.put name (some ⟨creds, v.args.activeVersion⟩) } := by
  obtain ⟨hactive, hkey⟩ := h.active
  obtain ⟨cipher, hcipher, -, -, rfl⟩ := addAccount_ok hadd
  refine ⟨h.opened, ?_, ?_⟩
  · intro other row hrow
    by_cases hsame : other = name
    · subst hsame
      simp only [OrderedDict.get?_set_self, Option.some.injEq] at hrow
      subst hrow
      refine ⟨_, v.directory.put_self _ _, hactive, Int.le_refl _, fun _ => ⟨cipher, ?_, rfl⟩⟩
      rw [← hactive]
      exact hcipher
    · simp only [OrderedDict.get?_set_ne _ _ hsame] at hrow
      simp only [v.directory.put_ne hsame]
      exact h.rows other row hrow
  · intro other given hgiven
    by_cases hsame : other = name
    · subst hsame
      exact ⟨_, OrderedDict.get?_set_self _ _ _⟩
    · simp only [v.directory.put_ne hsame] at hgiven
      simp only [OrderedDict.get?_set_ne _ _ hsame]
      exact h.listed other given hgiven

theorem matches_delete {v : Vault} (h : Matches v) {name : String} {db : SecretDb}
    (hdelete : deleteAccount name v.db = .ok db) :
    Matches { v with db := db, directory := v.directory.put name none } := by
  have hdb := deleteAccount_ok hdelete
  subst hdb
  refine ⟨h.opened, ?_, ?_⟩
  · intro other row hrow
    by_cases hsame : other = name
    · subst hsame
      simp only [OrderedDict.get?_erase_self] at hrow
      cases hrow
    · simp only [OrderedDict.get?_erase_ne _ hsame] at hrow
      simp only [v.directory.put_ne hsame]
      exact h.rows other row hrow
  · intro other given hgiven
    by_cases hsame : other = name
    · subst hsame
      simp only [v.directory.put_self] at hgiven
      cases hgiven
    · simp only [v.directory.put_ne hsame] at hgiven
      simp only [OrderedDict.get?_erase_ne _ hsame]
      exact h.listed other given hgiven

theorem updatePermissions_keeps (name : String) (read trade withdraw : Option Bool) (now : Int)
    {db : SecretDb} {other : String} {row : AccountRow}
    (h : db.accounts.get? other = some row) :
    ∃ row', (updatePermissions name read trade withdraw now db).accounts.get? other =
      some row' := by
  unfold updatePermissions
  rcases hold : db.accounts.get? name with _ | old
  · exact ⟨row, h⟩
  · simp only [OrderedDict.get?_set]
    by_cases hsame : other = name
    · exact ⟨_, if_pos hsame⟩
    · exact ⟨row, (if_neg hsame).trans h⟩

theorem matches_update {v : Vault} (h : Matches v) (name : String)
    (read trade withdraw : Option Bool) (now : Int) :
    Matches { v with db := updatePermissions name read trade withdraw now v.db } := by
  refine ⟨h.opened, ?_, ?_⟩
  · intro other row hrow
    obtain ⟨old, hold, hversion, hnonce, hct⟩ := updatePermissions_get? hrow
    obtain ⟨given, hgiven, hencrypts⟩ := h.rows other old hold
    refine ⟨given, hgiven, ?_⟩
    unfold Encrypts
    rw [← hversion, ← hnonce, ← hct]
    exact hencrypts
  · intro other given hgiven
    obtain ⟨row, hrow⟩ := h.listed other given hgiven
    exact updatePermissions_keeps name read trade withdraw now hrow

/-- The same arguments load the same keys. -/
theorem matches_reopen {v v' : Vault} (h : Matches v) {nonce : Bytes}
    (hreopen : reopenWith v v.args nonce = some v') : Matches v' := by
  obtain ⟨hinit, hargs, haccounts, hdirectory⟩ := reopenWith_some hreopen
  have hstore : v'.store = v.store := by
    have hsame := hinit.symm.trans h.opened
    rw [Except.ok.injEq] at hsame
    exact hsame
  refine ⟨by rw [hargs]; exact hinit, ?_, ?_⟩
  · rw [haccounts, hdirectory, hargs, hstore]
    exact h.rows
  · rw [haccounts, hdirectory]
    exact h.listed

/-- **A rotation**: the rows of the former active version open with the previous key, those
    of the former previous version are no longer loaded. -/
theorem matches_rotate {v v' : Vault} (h : Matches v) {newKey nonce : Bytes}
    (hrotate : reopenWith v (v.args.rotated newKey) nonce = some v') : Matches v' := by
  obtain ⟨hinit, hargs, haccounts, hdirectory⟩ := reopenWith_some hrotate
  obtain ⟨hactive, hkey⟩ := h.active
  obtain ⟨-, -, hprev, -⟩ := init_loads hinit
  have hformer := hprev v.args.masterKey rfl
  have hversion : v.args.activeVersion + 1 - 1 = v.args.activeVersion := by omega
  refine ⟨by rw [hargs]; exact hinit, ?_, ?_⟩
  · rw [haccounts, hdirectory, hargs]
    intro name row hrow
    obtain ⟨given, hgiven, hrowVersion, hle, hloaded⟩ := h.rows name row hrow
    have hle' : given.version ≤ v.args.activeVersion + 1 := by omega
    refine ⟨given, hgiven, hrowVersion, hle', ?_⟩
    intro hrecent
    change v.args.activeVersion + 1 - 1 ≤ given.version at hrecent
    have heq : given.version = v.args.activeVersion := by omega
    obtain ⟨cipher, hcipher, hct⟩ := hloaded (by omega)
    rw [heq, ← hactive, hkey, Option.some.injEq] at hcipher
    refine ⟨⟨v.args.masterKey⟩, ?_, ?_⟩
    · rw [heq, ← hversion]
      exact hformer
    · rw [hcipher]
      exact hct
  · rw [haccounts, hdirectory]
    exact h.listed

theorem matches_step {v v' : Vault} {a : VaultAct} (h : Matches v)
    (hstep : vaultStep v a = some v') : Matches v' := by
  cases a with
  | add name label creds nonce now =>
      rcases hadd : v.store.addAccount name label creds nonce now v.db with e | db
      · simp only [vaultStep, hadd, Option.some.injEq] at hstep
        rw [← hstep]
        exact h
      · simp only [vaultStep, hadd, Option.some.injEq] at hstep
        rw [← hstep]
        exact matches_add h hadd
  | delete name =>
      rcases hdelete : deleteAccount name v.db with e | db
      · simp only [vaultStep, hdelete, Option.some.injEq] at hstep
        rw [← hstep]
        exact h
      · simp only [vaultStep, hdelete, Option.some.injEq] at hstep
        rw [← hstep]
        exact matches_delete h hdelete
  | updatePermissions name read trade withdraw now =>
      simp only [vaultStep, Option.some.injEq] at hstep
      rw [← hstep]
      exact matches_update h name read trade withdraw now
  | reopen nonce => exact matches_reopen h hstep
  | rotate newKey nonce => exact matches_rotate h hstep

/-! ## 5. What a caller sees -/

/-- The errors of `add_account` that are a `ValueError`. -/
def IsValueError : StoreError → Prop
  | .valueError _ => True
  | .accountExists _ => True
  | _ => False

theorem Matches.addAccount_refused {v : Vault} (h : Matches v) {name : String}
    (hrefused : isBlank name = true ∨ v.directory name ≠ none) (label : String)
    (creds : ApiCredentials) (nonce : Bytes) (now : Int) :
    ∃ e, IsValueError e ∧ v.store.addAccount name label creds nonce now v.db = .error e := by
  unfold addAccount
  by_cases hblank : isBlank name = true
  · rw [if_pos hblank]
    exact ⟨.valueError "name required", trivial, rfl⟩
  · rw [if_neg hblank]
    obtain ⟨given, hgiven⟩ := Option.ne_none_iff_exists'.mp (hrefused.resolve_left hblank)
    obtain ⟨row, hrow⟩ := h.listed name given hgiven
    simp only [SecretStore.encrypt, h.active.2, hrow]
    exact ⟨.accountExists name, trivial, rfl⟩

theorem Matches.addAccount_accepted {v : Vault} (h : Matches v) {name : String}
    (hblank : isBlank name = false) (hfree : v.directory name = none) (label : String)
    (creds : ApiCredentials) (nonce : Bytes) (now : Int) :
    ∃ db, v.store.addAccount name label creds nonce now v.db = .ok db := by
  unfold addAccount
  rw [if_neg (by rw [hblank]; exact Bool.false_ne_true)]
  simp only [SecretStore.encrypt, h.active.2, h.get?_eq_none hfree]
  exact ⟨_, rfl⟩

theorem Matches.deleteAccount_missing {v : Vault} (h : Matches v) {name : String}
    (hfree : v.directory name = none) : deleteAccount name v.db = .error (.keyError name) := by
  unfold deleteAccount
  rw [h.get?_eq_none hfree]

theorem Matches.deleteAccount_live {v : Vault} (h : Matches v) {name : String}
    (hlive : v.directory name ≠ none) : ∃ db, deleteAccount name v.db = .ok db := by
  obtain ⟨given, hgiven⟩ := Option.ne_none_iff_exists'.mp hlive
  obtain ⟨row, hrow⟩ := h.listed name given hgiven
  unfold deleteAccount
  rw [hrow]
  exact ⟨_, rfl⟩

theorem Matches.getCredentials {v : Vault} (h : Matches v) (name : String) :
    v.store.getCredentials name v.db = v.directory.credentials v.args.activeVersion name := by
  rcases hgiven : v.directory name with _ | given
  · simp only [SecretStore.getCredentials, h.get?_eq_none hgiven, Directory.credentials, hgiven]
  · obtain ⟨row, hrow⟩ := h.listed name given hgiven
    obtain ⟨given', hgiven', hversion, hle, hloaded⟩ := h.rows name row hrow
    rw [hgiven, Option.some.injEq] at hgiven'
    subst hgiven'
    simp only [Directory.credentials, hgiven]
    by_cases hrecent : given.version = v.args.activeVersion ∨
        given.version = v.args.activeVersion - 1
    · rw [if_pos hrecent]
      obtain ⟨cipher, hcipher, hct⟩ := hloaded (by omega)
      exact getCredentials_of_row hrow (by rw [hversion]; exact hcipher) hct
    · rw [if_neg hrecent]
      obtain ⟨-, -, -, hothers⟩ := init_loads h.opened
      have hnone := hothers given.version (fun heq => hrecent (Or.inl heq))
        fun heq => hrecent (Or.inr heq)
      simp only [SecretStore.getCredentials, hrow, SecretStore.decrypt, hversion, hnone]

/-- An `add` on store and directory: refused and without effect, or carried out on both. -/
theorem Matches.step_add {v : Vault} (h : Matches v) {name : String}
    (hblank : isBlank name = false) (label : String) (creds : ApiCredentials) (nonce : Bytes)
    (now : Int) :
    (v.directory name ≠ none ∧ vaultStep v (.add name label creds nonce now) = some v) ∨
    (v.directory name = none ∧ ∃ db, vaultStep v (.add name label creds nonce now) =
      some { v with
        db := db
        directory := v.directory.put name (some ⟨creds, v.args.activeVersion⟩) }) := by
  by_cases hfree : v.directory name = none
  · obtain ⟨db, hadd⟩ := h.addAccount_accepted hblank hfree label creds nonce now
    refine Or.inr ⟨hfree, db, ?_⟩
    simp only [vaultStep, hadd]
  · obtain ⟨e, -, herror⟩ := h.addAccount_refused (Or.inr hfree) label creds nonce now
    refine Or.inl ⟨hfree, ?_⟩
    simp only [vaultStep, herror]

theorem Matches.step_delete {v : Vault} (h : Matches v) (name : String) :
    (v.directory name = none ∧ vaultStep v (.delete name) = some v) ∨
    (v.directory name ≠ none ∧ ∃ db, vaultStep v (.delete name) =
      some { v with db := db, directory := v.directory.put name none }) := by
  by_cases hfree : v.directory name = none
  · refine Or.inl ⟨hfree, ?_⟩
    simp only [vaultStep, h.deleteAccount_missing hfree]
  · obtain ⟨db, hdelete⟩ := h.deleteAccount_live hfree
    refine Or.inr ⟨hfree, db, ?_⟩
    simp only [vaultStep, hdelete]

/-- The store implements the directory, as far as its methods show. -/
structure Implements (v : Vault) : Prop where
  add_refused : ∀ name label creds nonce now,
    (isBlank name = true ∨ v.directory name ≠ none) →
      (∃ e, IsValueError e ∧ v.store.addAccount name label creds nonce now v.db = .error e) ∧
        vaultStep v (.add name label creds nonce now) = some v
  add_accepted : ∀ name label creds nonce now, isBlank name = false → v.directory name = none →
    ∃ db, v.store.addAccount name label creds nonce now v.db = .ok db
  delete_refused : ∀ name, v.directory name = none →
    deleteAccount name v.db = .error (.keyError name) ∧ vaultStep v (.delete name) = some v
  delete_accepted : ∀ name, v.directory name ≠ none → ∃ db, deleteAccount name v.db = .ok db
  credentials : ∀ name, v.store.getCredentials name v.db =
    v.directory.credentials v.args.activeVersion name

/-- **The encrypted store is a map.**  After any calls, re-openings and rotations of the key
    on a fresh database, the store implements the directory of these calls. -/
theorem secretStore_implements_directory {args : OpenArgs} {nonce : Bytes} {store : SecretStore}
    {db : SecretDb} (hopen : openStore args nonce .fresh = .ok (store, db)) {v : Vault}
    (h : Reaches vaultStep Unguarded ⟨args, store, db, .empty⟩ v) : Implements v := by
  have hmatches : Matches v := h.invariant (matches_opened hopen)
    fun _ _ _ hinv _ hstep => matches_step hinv hstep
  refine ⟨?_, ?_, ?_, fun name => hmatches.deleteAccount_live, hmatches.getCredentials⟩
  · intro name label creds nonce now hrefused
    obtain ⟨e, hvalue, herror⟩ := hmatches.addAccount_refused hrefused label creds nonce now
    refine ⟨⟨e, hvalue, herror⟩, ?_⟩
    simp only [vaultStep, herror]
  · intro name label creds nonce now hblank hfree
    exact hmatches.addAccount_accepted hblank hfree label creds nonce now
  · intro name hfree
    have herror := hmatches.deleteAccount_missing hfree
    refine ⟨herror, ?_⟩
    simp only [vaultStep, herror]

/-- An account of each of three versions. -/
def threeVersions : List VaultAct :=
  [.add "old" "" ⟨"K1", "S1", some "P1"⟩ [1] 1,
    .rotate (SecretStoreRotation.evenKey 2) [2],
    .add "mid" "" ⟨"K2", "S2", none⟩ [3] 2,
    .reopen [4],
    .rotate (SecretStoreRotation.evenKey 3) [5],
    .add "new" "" ⟨"K3", "S3", none⟩ [6] 3]

def firstArgs : OpenArgs := ⟨SecretStoreRotation.evenKey 1, none, 1⟩

def firstStore : SecretStore :=
  ⟨OrderedDict.empty.set 1 ⟨SecretStoreRotation.evenKey 1⟩, 1⟩

def firstDb : SecretDb :=
  { SecretDb.fresh with
    canary := some ⟨1, [0], (AESGCM.mk (SecretStoreRotation.evenKey 1)).encrypt [0] .canary⟩ }

theorem secretStore_implements_directory_threeVersions :
    ∃ v, Reaches vaultStep Unguarded ⟨firstArgs, firstStore, firstDb, .empty⟩ v ∧
      Implements v ∧ v.directory "old" = some ⟨⟨"K1", "S1", some "P1"⟩, 1⟩ ∧
      v.args.activeVersion = 3 := by
  have hreach : Reaches vaultStep Unguarded ⟨firstArgs, firstStore, firstDb, .empty⟩ _ :=
    play_get_reaches threeVersions (by decide +kernel)
  have hopen : openStore firstArgs [0] .fresh = .ok (firstStore, firstDb) := rfl
  refine ⟨_, hreach, secretStore_implements_directory hopen hreach, ?_⟩
  decide +kernel

end FundingTool.SecretStoreRefinement
