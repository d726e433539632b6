import FundingTool.AccountRegistry
import FundingTool.SecretStoreRefinement

/-!
# Two stores, one record

The command line keeps credentials in `AccountStore`, the web service in `SecretStore`.  The
same additions and removals on both, with re-openings of either in between, leave the same
accounts, and key and secret come back alike.  The passphrase does not: the encrypted payload
has a field for it, the keyring references and the fields of the file have none.
-/

namespace FundingTool.StoreAgreement

open FundingTool.TransitionSystem FundingTool.Interaction
open FundingTool.AccountRegistry FundingTool.SecretStoreRefinement

/-! ## 1. The same calls on both -/

structure Stores where
  account : StoreState
  secret : Vault

/-- A call is made on both stores; either of them is opened again. -/
inductive StoresAct
  | add (name exchange label : String) (creds : ApiCredentials) (verified allowPlaintext : Bool)
      (clock : Nat → Int) (nonce : Bytes) (now : Int)
  | remove (name : String) (clock : Nat → Int)
  | reopenFile
  | reopenDatabase (nonce : Bytes)

def storesStep (available : Bool) (s : Stores) : StoresAct → Option Stores
  | .add name exchange label creds verified allowPlaintext clock nonce now => do
      let account ← AccountRegistry.step available s.account
        (.call (.add name exchange creds verified allowPlaintext) clock)
      let secret ← vaultStep s.secret (.add name label creds nonce now)
      some ⟨account, secret⟩
  | .remove name clock => do
      let account ← AccountRegistry.step available s.account (.call (.remove name) clock)
      let secret ← vaultStep s.secret (.delete name)
      some ⟨account, secret⟩
  | .reopenFile => do
      let account ← AccountRegistry.step available s.account .reopen
      some { s with account := account }
  | .reopenDatabase nonce => do
      let secret ← vaultStep s.secret (.reopen nonce)
      some { s with secret := secret }

/-- Names are not blank, keys and secrets not empty, and without a keyring plaintext is
    allowed. -/
def WellFormed (available : Bool) (_ : Stores) : StoresAct → Prop
  | .add name exchange _ creds verified allowPlaintext _ _ _ =>
      isBlank name = false ∧
        Consents available (.add name exchange creds verified allowPlaintext)
  | _ => True

instance (available : Bool) (s : Stores) (a : StoresAct) :
    Decidable (WellFormed available s a) := by
  unfold WellFormed
  split <;> infer_instance

/-! ## 2. The same accounts -/

/-- What the directory has for a name of this status. -/
def Status.given (version : Int) : Status → Option Given
  | .live creds => some ⟨creds, version⟩
  | _ => none

structure Together (available : Bool) (s : Stores) : Prop where
  agrees : Agrees available s.account
  matched : Matches s.secret
  same : ∀ name, s.secret.directory name =
    Status.given s.secret.args.activeVersion (s.account.registry.status name)

theorem Together.live_iff {available : Bool} {s : Stores} (h : Together available s)
    (name : String) : s.account.registry.Live name ↔ s.secret.directory name ≠ none := by
  rw [h.same name]
  rcases s.account.registry.status_cases name with ⟨creds, hlive⟩ | ⟨hfree, hunknown | hremoved⟩
  · rw [hlive]
    exact iff_of_true ⟨creds, hlive⟩ nofun
  · rw [hunknown]
    exact iff_of_false hfree (· rfl)
  · rw [hremoved]
    exact iff_of_false hfree (· rfl)

/-- A registry that refuses a call stays as it is; one that does not sets a status. -/
theorem next_add (r : Registry) (name exchange : String) (creds : ApiCredentials)
    (verified allowPlaintext : Bool) :
    (r.Live name → r.next (.add name exchange creds verified allowPlaintext) = r) ∧
      (¬ r.Live name → (r.next (.add name exchange creds verified allowPlaintext)).status =
        r.put name (.live creds)) := by
  rcases r.status_cases name with ⟨creds', hlive⟩ | ⟨hfree, hunknown | hremoved⟩
  · refine ⟨fun _ => ?_, fun hfree => absurd ⟨creds', hlive⟩ hfree⟩
    simp only [Registry.next, Registry.apply, hlive]
  · refine ⟨fun hlive => absurd hlive hfree, fun _ => ?_⟩
    simp only [Registry.next, Registry.apply, hunknown]
  · refine ⟨fun hlive => absurd hlive hfree, fun _ => ?_⟩
    simp only [Registry.next, Registry.apply, hremoved]

theorem next_remove (r : Registry) (name : String) :
    (¬ r.Live name → r.next (.remove name) = r) ∧
      (r.Live name → (r.next (.remove name)).status = r.put name .removed) := by
  rcases r.status_cases name with ⟨creds, hlive⟩ | ⟨hfree, hunknown | hremoved⟩
  · refine ⟨fun hfree => absurd ⟨creds, hlive⟩ hfree, fun _ => ?_⟩
    simp only [Registry.next, Registry.apply, hlive]
  · refine ⟨fun _ => ?_, fun hlive => absurd hlive hfree⟩
    simp only [Registry.next, Registry.apply, hunknown]
  · refine ⟨fun _ => ?_, fun hlive => absurd hlive hfree⟩
    simp only [Registry.next, Registry.apply, hremoved]

theorem same_put {d : Directory} {r : Registry} {version : Int}
    (h : ∀ name, d name = Status.given version (r.status name)) (name : String) (status : Status)
    (other : String) : d.put name (Status.given version status) other =
      Status.given version (r.put name status other) := by
  by_cases hsame : other = name
  · subst hsame
    rw [d.put_self, r.put_self]
  · rw [d.put_ne hsame, r.put_ne hsame]
    exact h other

theorem together_add {available : Bool} {s s' : Stores} (h : Together available s)
    {name exchange label : String} {creds : ApiCredentials} {verified allowPlaintext : Bool}
    {clock : Nat → Int} {nonce : Bytes} {now : Int} (hblank : isBlank name = false)
    (hconsents : Consents available (.add name exchange creds verified allowPlaintext))
    (hstep : storesStep available s
      (.add name exchange label creds verified allowPlaintext clock nonce now) = some s') :
    Together available s' := by
  simp only [storesStep, Option.bind_eq_bind, Option.bind_eq_some_iff, Option.some.injEq] at hstep
  obtain ⟨account, haccount, secret, hsecret, rfl⟩ := hstep
  have hallowed : Consenting available s.account
      (.call (.add name exchange creds verified allowPlaintext) clock) := hconsents
  refine ⟨agrees_step h.agrees hallowed haccount, matches_step h.matched hsecret, ?_⟩
  have hregistry : account.registry =
      s.account.registry.next (.add name exchange creds verified allowPlaintext) := by
    simp only [AccountRegistry.step, Option.some.injEq] at haccount
    rw [← haccount]
  obtain ⟨hkept, hput⟩ := next_add s.account.registry name exchange creds verified allowPlaintext
  rcases h.matched.step_add hblank label creds nonce now with ⟨hlive, hsame⟩ | ⟨hfree, db, hnew⟩
  · rw [hsame, Option.some.injEq] at hsecret
    subst hsecret
    simp only [hregistry, hkept ((h.live_iff name).mpr hlive)]
    exact h.same
  · rw [hnew, Option.some.injEq] at hsecret
    subst hsecret
    simp only [hregistry, hput (fun hlive => (h.live_iff name).mp hlive hfree)]
    exact same_put h.same name (.live creds)

theorem together_remove {available : Bool} {s s' : Stores} (h : Together available s)
    {name : String} {clock : Nat → Int}
    (hstep : storesStep available s (.remove name clock) = some s') : Together available s' := by
  simp only [storesStep, Option.bind_eq_bind, Option.bind_eq_some_iff, Option.some.injEq] at hstep
  obtain ⟨account, haccount, secret, hsecret, rfl⟩ := hstep
  have hconsents : Consenting available s.account (.call (.remove name) clock) := trivial
  refine ⟨agrees_step h.agrees hconsents haccount, matches_step h.matched hsecret, ?_⟩
  have hregistry : account.registry = s.account.registry.next (.remove name) := by
    simp only [AccountRegistry.step, Option.some.injEq] at haccount
    rw [← haccount]
  obtain ⟨hkept, hput⟩ := next_remove s.account.registry name
  rcases h.matched.step_delete name with ⟨hfree, hsame⟩ | ⟨hlive, db, hnew⟩
  · rw [hsame, Option.some.injEq] at hsecret
    subst hsecret
    simp only [hregistry, hkept (fun hlive => (h.live_iff name).mp hlive hfree)]
    exact h.same
  · rw [hnew, Option.some.injEq] at hsecret
    subst hsecret
    simp only [hregistry, hput ((h.live_iff name).mpr hlive)]
    exact same_put h.same name .removed

theorem together_step {available : Bool} {s s' : Stores} {a : StoresAct}
    (h : Together available s) (hallowed : WellFormed available s a)
    (hstep : storesStep available s a = some s') : Together available s' := by
  cases a with
  | add name exchange label creds verified allowPlaintext clock nonce now =>
      exact together_add h hallowed.1 hallowed.2 hstep
  | remove name clock => exact together_remove h hstep
  | reopenFile =>
      simp only [storesStep, Option.bind_eq_bind, Option.bind_eq_some_iff,
        Option.some.injEq] at hstep
      obtain ⟨account, haccount, rfl⟩ := hstep
      have hregistry : account.registry = s.account.registry := by
        simp only [AccountRegistry.step, Option.some.injEq] at haccount
        rw [← haccount]
      have hconsents : Consenting available s.account .reopen := trivial
      refine ⟨agrees_step h.agrees hconsents haccount, h.matched, ?_⟩
      rw [hregistry]
      exact h.same
  | reopenDatabase nonce =>
      simp only [storesStep, Option.bind_eq_bind, Option.bind_eq_some_iff,
        Option.some.injEq] at hstep
      obtain ⟨secret, hsecret, rfl⟩ := hstep
      obtain ⟨-, hargs, -, hdirectory⟩ := reopenWith_some hsecret
      refine ⟨h.agrees, matches_step h.matched hsecret, ?_⟩
      simp only [hdirectory, hargs]
      exact h.same

theorem together_reaches {available : Bool} {disk : Disk}
    (hempty : AccountData.load disk.file = ⟨none, .empty⟩) {args : OpenArgs} {nonce : Bytes}
    {store : SecretStore} {db : SecretDb} (hopen : openStore args nonce .fresh = .ok (store, db))
    {s : Stores} (h : Reaches (storesStep available) (WellFormed available)
      ⟨.opened disk, ⟨args, store, db, .empty⟩⟩ s) : Together available s := by
  have hstart : Together available ⟨.opened disk, ⟨args, store, db, .empty⟩⟩ :=
    ⟨agrees_opened available hempty, matches_opened hopen, fun _ => rfl⟩
  apply h.invariant hstart
  intro s a s' hs hallowed hstep
  exact together_step hs hallowed hstep

/-! ## 3. The same credentials -/

/-- What `AccountStore` and `SecretStore` return for a name. -/
def StoreState.answer (available : Bool) (s : StoreState) (name : String) :
    Except AccountError ApiCredentials :=
  ((AccountStore.getCredentials s.data name).runWith (performWith available) (fun _ => 0)
    s.disk).2

/-- For every account that is there both stores return what was added. -/
def ReturnWhatWasAdded (available : Bool) (s : Stores) : Prop :=
  ∀ name creds, s.account.registry.status name = .live creds →
    StoreState.answer available s.account name = .ok creds ∧
      s.secret.store.getCredentials name s.secret.db = .ok creds

theorem Together.answers {available : Bool} {s : Stores} (h : Together available s)
    {name : String} {creds : ApiCredentials}
    (hlive : s.account.registry.status name = .live creds) :
    StoreState.answer available s.account name = .ok ⟨creds.apiKey, creds.apiSecret, none⟩ ∧
      s.secret.store.getCredentials name s.secret.db = .ok creds := by
  constructor
  · unfold StoreState.answer
    rw [h.agrees.credentials name, Registry.credentials, hlive]
  · have hgiven := h.same name
    rw [hlive] at hgiven
    rw [h.matched.getCredentials]
    simp only [Directory.credentials, hgiven, Status.given, true_or, if_true]

/-- **When the stores agree**: in every state that the same calls reach on both, they return
    the credentials that were added exactly if none of these has a passphrase. -/
theorem stores_agree_iff {available : Bool} {disk : Disk}
    (hempty : AccountData.load disk.file = ⟨none, .empty⟩) {args : OpenArgs} {nonce : Bytes}
    {store : SecretStore} {db : SecretDb} (hopen : openStore args nonce .fresh = .ok (store, db))
    {s : Stores} (h : Reaches (storesStep available) (WellFormed available)
      ⟨.opened disk, ⟨args, store, db, .empty⟩⟩ s) :
    ReturnWhatWasAdded available s ↔
      ∀ name creds, s.account.registry.status name = .live creds → creds.passphrase = none := by
  have htogether := together_reaches hempty hopen h
  constructor
  · intro hreturn name creds hlive
    have hadded := (hreturn name creds hlive).1
    rw [(htogether.answers hlive).1, Except.ok.injEq] at hadded
    rw [← hadded]
  · intro hnone name creds hlive
    obtain ⟨haccount, hsecret⟩ := htogether.answers hlive
    refine ⟨?_, hsecret⟩
    rw [haccount, ← hnone name creds hlive]

def addBoth (name : String) (creds : ApiCredentials) : StoresAct :=
  .add name "okx" "" creds false false (fun _ => 0) [1] 0

theorem stores_agree_iff_withoutPassphrase :
    ∃ s, Reaches (storesStep true) (WellFormed true)
        ⟨.opened .empty, ⟨firstArgs, firstStore, firstDb, .empty⟩⟩ s ∧
      s.account.registry.status "main" = .live ⟨"K1", "S1", none⟩ ∧
      (ReturnWhatWasAdded true s ↔ ∀ name creds,
        s.account.registry.status name = .live creds → creds.passphrase = none) := by
  have hreach : Reaches (storesStep true) (WellFormed true)
      ⟨.opened .empty, ⟨firstArgs, firstStore, firstDb, .empty⟩⟩ _ :=
    play_get_reaches [addBoth "main" ⟨"K1", "S1", none⟩] (by decide +kernel)
  have hopen : openStore firstArgs [0] .fresh = .ok (firstStore, firstDb) := rfl
  exact ⟨_, hreach, by decide +kernel, stores_agree_iff rfl hopen hreach⟩

/-- **A passphrase is lost**: both stores take it, and one of them returns it. -/
theorem passphrase_lost :
    ∃ s, Reaches (storesStep true) (WellFormed true)
        ⟨.opened .empty, ⟨firstArgs, firstStore, firstDb, .empty⟩⟩ s ∧
      ¬ ReturnWhatWasAdded true s := by
  refine ⟨_, play_get_reaches [addBoth "main" ⟨"K1", "S1", some "P1"⟩] (by decide +kernel), ?_⟩
  intro hreturn
  have hadded := (hreturn "main" ⟨"K1", "S1", some "P1"⟩ (by decide +kernel)).1
  revert hadded
  decide +kernel

end FundingTool.StoreAgreement
