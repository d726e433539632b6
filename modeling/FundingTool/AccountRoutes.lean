import FundingTool.Interaction
import FundingTool.SecretStore

/-!
# The account routes (`web/routes/accounts.py`)

`create_account` verifies the credentials, inserts the row, writes the permission report
into the row of that name, and lists the accounts; other requests may run at every await
in between.  The report is written by name alone.  If the account has been deleted and
created again in the meantime, it lands in a row that holds other credentials.

While no request writes into a row of other credentials, every row carries a report that
`verify_credentials` returned for its own.
-/

namespace FundingTool.AccountRoutes

open FundingTool.TransitionSystem FundingTool.Interaction

/-! ## 1. Requests, responses, operations -/

/-- `AccountCreateRequest` -/
structure AccountCreateRequest where
  name : String
  label : String
  apiKey : String
  apiSecret : String
deriving DecidableEq, Repr

/-- `ApiCredentials(api_key=payload.api_key, api_secret=payload.api_secret)` -/
def AccountCreateRequest.creds (payload : AccountCreateRequest) : ApiCredentials :=
  ⟨payload.apiKey, payload.apiSecret, none⟩

structure AccountPermissions where
  read : Option Bool
  trade : Option Bool
  withdraw : Option Bool
deriving DecidableEq, Repr

def mapPermissionReport (report : PermissionReport) : AccountPermissions :=
  ⟨some report.readOk, report.tradingEnabled, report.withdrawalsEnabled⟩

structure AccountOut where
  name : String
  label : String
  createdAt : Int
  keyFirst6 : String
  permissions : AccountPermissions
deriving DecidableEq, Repr

def recordToOut (record : AccountRecord) : AccountOut :=
  ⟨record.name, record.label, record.createdAt, record.keyFirst6,
    ⟨record.permRead, record.permTrade, record.permWithdraw⟩⟩

inductive Response
  | accounts (accounts : List AccountOut)
  | created (account : AccountOut)
  | noContent
deriving DecidableEq, Repr

inductive RouteError
  | http (statusCode : Nat) (code message : String) (field : Option String)
  /-- An exception of the core, left to the handlers of the application. -/
  | core (e : FundingToolError)
deriving DecidableEq, Repr

/-- How `asyncio.wait_for(ex.verify_credentials(creds), timeout=10.0)` ends. -/
inductive VerifyAnswer
  | report (report : PermissionReport)
  | timeout
  | failed (e : FundingToolError)
deriving DecidableEq, Repr

inductive RouteOp where
  | verifyCredentials (creds : ApiCredentials)
  | addAccount (name label : String) (creds : ApiCredentials)
  | updatePermissions (name : String) (perms : AccountPermissions)
  | listAccounts
  | deleteAccount (name : String)

def RouteOp.Resp : RouteOp → Type
  | .verifyCredentials _ => VerifyAnswer
  | .addAccount .. => Except StoreError Unit
  | .updatePermissions .. => Unit
  | .listAccounts => List AccountRecord
  | .deleteAccount _ => Except StoreError Unit

abbrev Route := Prog RouteOp RouteOp.Resp RouteError

def verifyCredentials (creds : ApiCredentials) : Route VerifyAnswer :=
  .call (.verifyCredentials creds) fun r => .ret r

def addAccount (name label : String) (creds : ApiCredentials) : Route (Except StoreError Unit) :=
  .call (.addAccount name label creds) fun r => .ret r

def updatePermissions (name : String) (perms : AccountPermissions) : Route Unit :=
  .call (.updatePermissions name perms) fun r => .ret r

def listAccounts : Route (List AccountRecord) := .call .listAccounts fun r => .ret r

def deleteAccount (name : String) : Route (Except StoreError Unit) :=
  .call (.deleteAccount name) fun r => .ret r

/-! ## 2. The routes -/

def networkError : RouteError := .http 502 "network_error" "网络异常" none

/-- The report, or the exception the verification ends with. -/
def verified : VerifyAnswer → Except RouteError PermissionReport
  | .report report => .ok report
  | .timeout => .error networkError
  | .failed (.network _) => .error networkError
  | .failed e => .error (.core e)

/-- A `ValueError` of `add_account` is reported as a conflict. -/
def inserted : Except StoreError Unit → Except RouteError Unit
  | .ok () => .ok ()
  | .error _ => .error (.http 409 "validation_error" "账户名已存在" (some "account_name"))

def createAccount (payload : AccountCreateRequest) : Route Response := do
  let answer ← verifyCredentials payload.creds
  let report ← Prog.ofExcept (verified answer)
  let added ← addAccount payload.name payload.label payload.creds
  Prog.ofExcept (inserted added)
  updatePermissions payload.name (mapPermissionReport report)
  let records ← listAccounts
  match records.find? fun r => decide (r.name = payload.name) with
  | none => .raise (.http 500 "server_error" "账户创建后无法读取" none)
  | some record => pure (.created (recordToOut record))

def listAccountsRoute : Route Response := do
  let records ← listAccounts
  pure (.accounts (records.map recordToOut))

def deleteAccountRoute (name : String) : Route Response := do
  let deleted ← deleteAccount name
  match deleted with
  | .ok () => pure .noContent
  | .error _ => .raise (.http 404 "validation_error" "账户不存在" (some "account_name"))

/-! ## 3. Requests running at once -/

inductive AccountCall
  | list
  | create (payload : AccountCreateRequest)
  | delete (name : String)
deriving DecidableEq, Repr

def AccountCall.program : AccountCall → Route Response
  | .list => listAccountsRoute
  | .create payload => createAccount payload
  | .delete name => deleteAccountRoute name

/-- What the surroundings choose for a step: the exchange's answer, the nonce drawn and
    the clock. -/
structure RouteChoice where
  answer : VerifyAnswer
  nonce : Bytes
  now : Int

def perform (store : SecretStore) : (o : RouteOp) → RouteChoice → SecretDb → SecretDb × o.Resp
  | .verifyCredentials _, c, db => (db, c.answer)
  | .addAccount name label creds, c, db =>
      match store.addAccount name label creds c.nonce c.now db with
      | .ok db' => (db', .ok ())
      | .error e => (db, .error e)
  | .updatePermissions name perms, c, db =>
      (SecretStore.updatePermissions name perms.read perms.trade perms.withdraw c.now db, ())
  | .listAccounts, _, db => (db, SecretStore.listAccounts db)
  | .deleteAccount name, _, db =>
      match SecretStore.deleteAccount name db with
      | .ok db' => (db', .ok ())
      | .error e => (db, .error e)

/-- Every operation is an await, at which a request may be cancelled. -/
def routeMachine (store : SecretStore) :
    Machine RouteOp RouteOp.Resp RouteError Response SecretDb RouteChoice AccountCall where
  exec := perform store
  program := AccountCall.program
  interruptible := fun _ => true

abbrev RoutePool := Pool RouteOp RouteOp.Resp RouteError Response SecretDb AccountCall

/-! ## 4. Whose report a row carries -/

def payloadOf (creds : ApiCredentials) : Plaintext :=
  .payload creds.apiKey creds.apiSecret creds.passphrase

section Reports

-- `Returned creds report`: `verify_credentials` answers `report` for `creds` at some point
-- of the run.
variable (Returned : ApiCredentials → PermissionReport → Prop)

/-- The row has no permissions yet, or those of a report returned for its credentials. -/
def CarriesOwnReport (row : AccountRow) : Prop :=
  (row.permRead = none ∧ row.permTrade = none ∧ row.permWithdraw = none) ∨
  ∃ creds report, row.ciphertext.plaintext = payloadOf creds ∧ Returned creds report ∧
    (⟨row.permRead, row.permTrade, row.permWithdraw⟩ : AccountPermissions) =
      mapPermissionReport report

def RowsCarryOwnReports (db : SecretDb) : Prop :=
  ∀ name row, db.accounts.get? name = some row → CarriesOwnReport Returned row

/-- The exchange's answers are those of `Returned`. -/
def AnswersAs (_ : AccountCall) (_ : SecretDb) (o : RouteOp) (c : RouteChoice) : Prop :=
  match o, c.answer with
  | .verifyCredentials creds, .report report => Returned creds report
  | _, _ => True

/-- A request writes a report only into a row of its own credentials. -/
def UpdatesOwnRow (call : AccountCall) (db : SecretDb) : RouteOp → Prop
  | .updatePermissions name _ =>
      match call, db.accounts.get? name with
      | .create payload, some row => row.ciphertext.plaintext = payloadOf payload.creds
      | _, _ => True
  | _ => True

def OwnRowsOnly (call : AccountCall) (db : SecretDb) (o : RouteOp) (c : RouteChoice) : Prop :=
  AnswersAs Returned call db o c ∧ UpdatesOwnRow call db o

instance [∀ creds report, Decidable (Returned creds report)] (call : AccountCall)
    (db : SecretDb) (o : RouteOp) (c : RouteChoice) :
    Decidable (AnswersAs Returned call db o c) := by
  unfold AnswersAs
  split <;> infer_instance

instance (call : AccountCall) (db : SecretDb) (o : RouteOp) :
    Decidable (UpdatesOwnRow call db o) := by
  unfold UpdatesOwnRow
  split
  · split <;> infer_instance
  · infer_instance

instance [∀ creds report, Decidable (Returned creds report)] (call : AccountCall)
    (db : SecretDb) (o : RouteOp) (c : RouteChoice) :
    Decidable (OwnRowsOnly Returned call db o c) :=
  inferInstanceAs (Decidable (_ ∧ _))

variable {Returned} {store : SecretStore}

theorem rows_of_add {name label : String} {creds : ApiCredentials} {nonce : Bytes} {now : Int}
    {db db' : SecretDb} (h : RowsCarryOwnReports Returned db)
    (hadd : store.addAccount name label creds nonce now db = .ok db') :
    RowsCarryOwnReports Returned db' := by
  obtain ⟨cipher, -, -, -, rfl⟩ := SecretStore.addAccount_ok hadd
  intro name' row hrow
  simp only [OrderedDict.get?_set] at hrow
  by_cases hsame : name' = name
  · rw [if_pos hsame, Option.some.injEq] at hrow
    rw [← hrow]
    exact Or.inl ⟨rfl, rfl, rfl⟩
  · rw [if_neg hsame] at hrow
    exact h name' row hrow

theorem rows_of_delete {name : String} {db db' : SecretDb} (h : RowsCarryOwnReports Returned db)
    (hdelete : SecretStore.deleteAccount name db = .ok db') :
    RowsCarryOwnReports Returned db' := by
  have hdb := SecretStore.deleteAccount_ok hdelete
  subst hdb
  intro name' row hrow
  simp only [OrderedDict.get?_erase] at hrow
  by_cases hsame : name' = name
  · rw [if_pos hsame] at hrow
    cases hrow
  · rw [if_neg hsame] at hrow
    exact h name' row hrow

/-- **Writing a report into a row of its own credentials** keeps every row honest. -/
theorem rows_of_update {name : String} {creds : ApiCredentials} {report : PermissionReport}
    {now : Int} {db : SecretDb} (h : RowsCarryOwnReports Returned db)
    (hreturned : Returned creds report)
    (hown : ∀ row, db.accounts.get? name = some row →
      row.ciphertext.plaintext = payloadOf creds) :
    RowsCarryOwnReports Returned
      (SecretStore.updatePermissions name (mapPermissionReport report).read
        (mapPermissionReport report).trade (mapPermissionReport report).withdraw now db) := by
  unfold SecretStore.updatePermissions
  rcases hrow : db.accounts.get? name with _ | old
  · exact h
  · intro name' row hrow'
    simp only [OrderedDict.get?_set] at hrow'
    by_cases hsame : name' = name
    · rw [if_pos hsame, Option.some.injEq] at hrow'
      rw [← hrow']
      exact Or.inr ⟨creds, report, hown old hrow, hreturned, rfl⟩
    · rw [if_neg hsame] at hrow'
      exact h name' row hrow'

theorem createAccount_safe (payload : AccountCreateRequest) :
    (createAccount payload).Safe (perform store) (RowsCarryOwnReports Returned)
      (OwnRowsOnly Returned (.create payload)) fun _ => True := by
  have hverify : (verifyCredentials payload.creds).Safe (perform store)
      (RowsCarryOwnReports Returned) (OwnRowsOnly Returned (.create payload))
      fun answer => ∀ report, answer = .report report → Returned payload.creds report := by
    intro db c hinv hguard
    refine ⟨hinv, ?_⟩
    intro report hreport
    have hanswers := hguard.1
    simp only [perform] at hreport
    simp only [AnswersAs, hreport] at hanswers
    exact hanswers
  have hadd : (addAccount payload.name payload.label payload.creds).Safe (perform store)
      (RowsCarryOwnReports Returned) (OwnRowsOnly Returned (.create payload)) fun _ => True := by
    intro db c hinv _
    simp only [perform]
    rcases hstep : store.addAccount payload.name payload.label payload.creds c.nonce c.now db
      with e | db'
    · exact ⟨hinv, trivial⟩
    · exact ⟨rows_of_add hinv hstep, trivial⟩
  have hupdate : ∀ report, Returned payload.creds report →
      (updatePermissions payload.name (mapPermissionReport report)).Safe (perform store)
        (RowsCarryOwnReports Returned) (OwnRowsOnly Returned (.create payload)) fun _ => True := by
    intro report hreturned db c hinv hguard
    refine ⟨rows_of_update hinv hreturned ?_, trivial⟩
    intro row hrow
    have hown := hguard.2
    simp only [UpdatesOwnRow, hrow] at hown
    exact hown
  have hlist : listAccounts.Safe (perform store) (RowsCarryOwnReports Returned)
      (OwnRowsOnly Returned (.create payload)) fun _ => True :=
    fun _ _ hinv _ => ⟨hinv, trivial⟩
  apply Prog.Safe.bind hverify
  intro answer hanswer
  have hreport : (Prog.ofExcept (verified answer) : Route PermissionReport).Safe (perform store)
      (RowsCarryOwnReports Returned) (OwnRowsOnly Returned (.create payload))
      (Returned payload.creds) := by
    apply Prog.Safe.ofExcept
    intro report hok
    apply hanswer
    unfold verified at hok
    split at hok <;> simp_all
  apply Prog.Safe.bind hreport
  intro report hreturned
  apply Prog.Safe.bind hadd
  intro added _
  refine Prog.Safe.bind (Prog.Safe.ofExcept fun _ _ => trivial : Prog.Safe _ _ _ (fun _ => True) _)
    ?_
  intro _ _
  apply Prog.Safe.bind (hupdate report hreturned)
  intro _ _
  apply Prog.Safe.bind hlist
  intro records _
  split
  · trivial
  · trivial

theorem program_safe (call : AccountCall) :
    call.program.Safe (perform store) (RowsCarryOwnReports Returned)
      (OwnRowsOnly Returned call) fun _ => True := by
  cases call with
  | list => exact fun _ _ hinv _ => ⟨hinv, trivial⟩
  | create payload => exact createAccount_safe payload
  | delete name =>
      intro db c hinv _
      simp only [perform]
      rcases hstep : SecretStore.deleteAccount name db with e | db'
      · exact ⟨hinv, trivial⟩
      · exact ⟨rows_of_delete hinv hstep, trivial⟩

end Reports

/-- **Permissions belong to the stored key** in every run in which no request writes its
    report into a row of other credentials. -/
theorem rows_carry_own_reports {Returned : ApiCredentials → PermissionReport → Prop}
    {store : SecretStore} {canary : Option CanaryRow} {p : RoutePool}
    (h : (routeMachine store).Reachable (OwnRowsOnly Returned) ⟨OrderedDict.empty, canary⟩ p) :
    RowsCarryOwnReports Returned p.state := by
  refine (Machine.Reachable.sound (m := routeMachine store) program_safe ?_ h).1
  intro name row hrow
  cases hrow

/-! ## 5. Two keys under one name -/

def readOnlyKey : AccountCreateRequest := ⟨"main", "", "readonly1", "secret-one"⟩

def withdrawalKey : AccountCreateRequest := ⟨"main", "", "withdraw2", "secret-two"⟩

/-- One of the two keys may withdraw. -/
def reportFor (creds : ApiCredentials) : PermissionReport :=
  ⟨true, some false, some (decide (creds.apiKey = "withdraw2")), some false⟩

def openStore : SecretStore := ⟨OrderedDict.empty.set 1 ⟨List.replicate 32 7⟩, 1⟩

/-- A step with the exchange's answer for one of the keys. -/
def stepOf (i : Nat) (payload : AccountCreateRequest) :
    PoolAct AccountCall RouteChoice RouteError :=
  .advance i ⟨.report (reportFor payload.creds), List.replicate 12 0, 1767225600000000⟩

/-- One account created from beginning to end, while another request is waiting for the
    exchange. -/
def createdAlone : List (PoolAct AccountCall RouteChoice RouteError) :=
  [.spawn (.create readOnlyKey), .spawn (.create withdrawalKey), stepOf 1 withdrawalKey] ++
    List.replicate 4 (stepOf 0 readOnlyKey) ++ [stepOf 1 withdrawalKey]

theorem rows_carry_own_reports_createdAlone :
    ∃ p, (routeMachine openStore).Reachable
        (OwnRowsOnly fun creds report => report = reportFor creds) ⟨OrderedDict.empty, none⟩ p ∧
      p.state.accounts.get? "main" ≠ none ∧
      RowsCarryOwnReports (fun creds report => report = reportFor creds) p.state := by
  have hreach : (routeMachine openStore).Reachable
      (OwnRowsOnly fun creds report => report = reportFor creds) ⟨OrderedDict.empty, none⟩ _ :=
    play_get_reaches createdAlone (by decide +kernel)
  exact ⟨_, hreach, by decide +kernel, rows_carry_own_reports hreach⟩

/-- The first request inserts its row and waits; the account is deleted and created again
    with the other key, and then the first request writes its report. -/
def recreatedMeanwhile : List (PoolAct AccountCall RouteChoice RouteError) :=
  .spawn (.create readOnlyKey) :: List.replicate 2 (stepOf 0 readOnlyKey) ++
    [.spawn (.delete "main"), stepOf 1 readOnlyKey, .spawn (.create withdrawalKey)] ++
    List.replicate 4 (stepOf 2 withdrawalKey) ++ [stepOf 0 readOnlyKey]

/-- **A report lands in the wrong row.**  The stored key may withdraw, and its row says that
    it may not. -/
theorem report_of_another_key :
    ∃ p, (routeMachine openStore).Reachable
        (AnswersAs fun creds report => report = reportFor creds) ⟨OrderedDict.empty, none⟩ p ∧
      ¬ RowsCarryOwnReports (fun creds report => report = reportFor creds) p.state := by
  refine ⟨_, play_get_reaches recreatedMeanwhile (by decide +kernel), ?_⟩
  intro hrows
  have hrow : ((play (routeMachine openStore).step (Machine.Allowed
      (AnswersAs fun creds report => report = reportFor creds)) ⟨⟨OrderedDict.empty, none⟩, []⟩
      recreatedMeanwhile).get (by decide +kernel)).state.accounts.get? "main" = some
        { label := "", createdAt := 1767225600000000, keyFirst6 := "withdr", keyVersion := 1,
          nonce := List.replicate 12 0,
          ciphertext := ⟨List.replicate 32 7, List.replicate 12 0,
            .payload "withdraw2" "secret-two" none⟩,
          permRead := some true, permTrade := some false, permWithdraw := some false,
          permCheckedAt := some 1767225600000000 } := by
    decide +kernel
  rcases hrows "main" _ hrow with ⟨hnone, -⟩ | ⟨creds, report, hplain, rfl, hperms⟩
  · cases hnone
  · simp only [payloadOf, Plaintext.payload.injEq] at hplain
    simp only [mapPermissionReport, reportFor, ← hplain.1] at hperms
    revert hperms
    decide

end FundingTool.AccountRoutes
