import FundingTool.AccountStore
import FundingTool.Layers

/-!
# Credentials of `funding-tool history` (`cli/history_cmd.py`, `core/account_store.py`)

Four sources can give the credentials: the two options, the two environment variables, the
account of `--account` and the default account.  `resolve_credentials` goes through them in
that order and refuses a pair with one half; `history_command` first decides, by tests of its
own, whether to prompt instead.  A test for presence, `if value`, fails on the empty string,
`value is None` does not.

The two agree except on one half of the environment pair and nothing else: that prompts
(`command_prompts_half`), where every other half is refused.
-/

namespace FundingTool.CredentialResolution

open FundingTool.Interaction

/-! ## 1. Operations and errors -/

/-- What the command asks of its surroundings. -/
inductive CredentialOp
  | account (o : AccountOp)
  | print (text : String)
  /-- `typer.prompt(text, hide_input=hide_input)` -/
  | prompt (text : String) (hideInput : Bool)

/-- A prompt may be aborted. -/
def CredentialOp.Resp : CredentialOp → Type
  | .account o => o.Resp
  | .print _ => Unit
  | .prompt _ _ => Except Fault String

def IsPrompt : CredentialOp → Prop
  | .prompt _ _ => True
  | _ => False

inductive CredentialError
  | config (message : String)
  | missingCredentials (message : String)
  /-- What `get_credentials` raises. -/
  | store (e : AccountError)
  | aborted
deriving DecidableEq, Repr

/-- `isinstance(e, ConfigError)` -/
def CredentialError.isConfigError : CredentialError → Bool
  | .config _ => true
  | .store (.alreadyExists _) => true
  | .store (.notFound _) => true
  | .store .plaintextFallbackRequired => true
  | _ => false

/-- A program over the keyring and the file. -/
abbrev Resolution := Prog AccountOp AccountOp.Resp CredentialError ApiCredentials

abbrev Command := Prog CredentialOp CredentialOp.Resp CredentialError ApiCredentials

/-! ## 2. `resolve_credentials` -/

/-- The value, where `if value` holds of it. -/
def present (value : Option String) : Option String := value.filter (· ≠ "")

/-- `bool(value)` -/
def truthy (value : Option String) : Bool := (present value).isSome

def credentialsOf (data : AccountData) (name : String) : Resolution :=
  (AccountStore.getCredentials data name).interpret (fun o => .call o .ret) .store

/-- `resolve_credentials` -/
def resolveCredentials (data : AccountData) (cliApiKey cliApiSecret : Option String)
    (env : OrderedDict String String) (accountName : Option String) : Resolution :=
  if truthy cliApiKey ^^ truthy cliApiSecret then
    .raise (.config "--api-key and --api-secret must be provided together")
  else
    match present cliApiKey, present cliApiSecret with
    | some apiKey, some apiSecret => .ret ⟨apiKey, apiSecret, none⟩
    | _, _ =>
        let envKey := env.get? "BINANCE_API_KEY"
        let envSecret := env.get? "BINANCE_API_SECRET"
        if truthy envKey ^^ truthy envSecret then
          .raise (.config "BINANCE_API_KEY and BINANCE_API_SECRET must both be set")
        else
          match present envKey, present envSecret with
          | some apiKey, some apiSecret => .ret ⟨apiKey, apiSecret, none⟩
          | _, _ =>
              match present accountName with
              | some name => credentialsOf data name
              | none =>
                  match present (AccountStore.getDefaultName data) with
                  | some default => credentialsOf data default
                  | none =>
                      .raise (.missingCredentials ("no credentials found (no --api-key, " ++
                        "no BINANCE_API_KEY env, no --account, no default)"))

/-! ## 3. `history_command` -/

def prompt (text : String) (hideInput : Bool) :
    Prog CredentialOp CredentialOp.Resp CredentialError String :=
  .call (.prompt text hideInput) fun r =>
    match r with
    | .ok value => .ret value
    | .error _ => .raise .aborted

/-- `_prompt_for_credentials` -/
def promptForCredentials : Command :=
  .call (.print ("[yellow]No credentials provided.[/] Enter API key and secret to continue.\n" ++
    "(Set up an account with [bold]funding-tool account add[/] to avoid this prompt.)")) fun _ => do
      let apiKey ← prompt "API key" false
      let apiSecret ← prompt "API secret" true
      pure ⟨apiKey, apiSecret, none⟩

/-- A resolution as part of the command. -/
def resolving (p : Resolution) : Command := p.interpret (fun o => .call (.account o) .ret) id

/-- `history_command` until it has the credentials. -/
def command (data : AccountData) (env : OrderedDict String String)
    (account apiKey apiSecret : Option String) : Command :=
  let noCli := !(truthy apiKey || truthy apiSecret)
  let noEnvBoth :=
    !(truthy (env.get? "BINANCE_API_KEY") && truthy (env.get? "BINANCE_API_SECRET"))
  let noAccount := account.isNone
  let noDefault := (AccountStore.getDefaultName data).isNone
  if noCli && noEnvBoth && noAccount && noDefault then promptForCredentials
  else resolving (resolveCredentials data apiKey apiSecret env account)

/-! ## 4. Sources and their precedence -/

/-- What a source gives: nothing, one half of a pair, or the way to the credentials. -/
inductive Source
  | nothing
  | half
  | whole (p : Resolution)

/-- A pair, of which the halves that are not empty count. -/
def pairSource (key secret : Option String) : Source :=
  match present key, present secret with
  | none, none => .nothing
  | some apiKey, some apiSecret => .whole (.ret ⟨apiKey, apiSecret, none⟩)
  | _, _ => .half

def accountSource (data : AccountData) : Option String → Source
  | none => .nothing
  | some name => .whole (credentialsOf data name)

/-- The first source that gives anything. -/
def firstGiven : List Source → Source
  | [] => .nothing
  | .nothing :: rest => firstGiven rest
  | source :: _ => source

def cliSource (apiKey apiSecret : Option String) : Source := pairSource apiKey apiSecret

def envSource (env : OrderedDict String String) : Source :=
  pairSource (env.get? "BINANCE_API_KEY") (env.get? "BINANCE_API_SECRET")

/-- **No half-configured source is passed over.**  `given` says which account names count:
    all that are there, or all but the empty one. -/
structure NeverFallsThrough (given : Option String → Option String) (data : AccountData)
    (env : OrderedDict String String) (account apiKey apiSecret : Option String) : Prop where
  prompts : (command data env account apiKey apiSecret).Performs IsPrompt →
    cliSource apiKey apiSecret = .nothing ∧ envSource env = .nothing ∧
      given account = none ∧ given data.default = none
  cliHalf : cliSource apiKey apiSecret = .half →
    ∃ e, e.isConfigError = true ∧ command data env account apiKey apiSecret = .raise e
  envHalf : cliSource apiKey apiSecret = .nothing → envSource env = .half →
    ∃ e, e.isConfigError = true ∧ command data env account apiKey apiSecret = .raise e
  first : ∀ p, firstGiven [cliSource apiKey apiSecret, envSource env,
      accountSource data (given account), accountSource data (given data.default)] = .whole p →
    command data env account apiKey apiSecret = resolving p

/-- One half of the environment pair, and nothing else. -/
def HalfEnvironmentAlone (data : AccountData) (env : OrderedDict String String)
    (account apiKey apiSecret : Option String) : Prop :=
  cliSource apiKey apiSecret = .nothing ∧ envSource env = .half ∧ account = none ∧
    data.default = none

/-! ## 5. One source at a time -/

theorem pairSource_nothing {key secret : Option String} (h : pairSource key secret = .nothing) :
    present key = none ∧ present secret = none := by
  unfold pairSource at h
  rcases hkey : present key with _ | k <;> rcases hsecret : present secret with _ | s <;>
    simp only [hkey, hsecret, reduceCtorEq] at h
  exact ⟨rfl, rfl⟩

theorem pairSource_half {key secret : Option String} (h : pairSource key secret = .half) :
    (truthy key ^^ truthy secret) = true := by
  unfold pairSource at h
  rcases hkey : present key with _ | k <;> rcases hsecret : present secret with _ | s <;>
    simp only [hkey, hsecret, reduceCtorEq] at h <;> simp [truthy, hkey, hsecret]

theorem pairSource_whole {key secret : Option String} {p : Resolution}
    (h : pairSource key secret = .whole p) :
    ∃ k s, present key = some k ∧ present secret = some s ∧ p = .ret ⟨k, s, none⟩ := by
  unfold pairSource at h
  rcases hkey : present key with _ | k <;> rcases hsecret : present secret with _ | s <;>
    simp only [hkey, hsecret, reduceCtorEq, Source.whole.injEq] at h
  exact ⟨k, s, rfl, rfl, h.symm⟩

section

variable {data : AccountData} {env : OrderedDict String String}
  {account apiKey apiSecret : Option String}

theorem resolve_cliHalf (h : cliSource apiKey apiSecret = .half) :
    resolveCredentials data apiKey apiSecret env account =
      .raise (.config "--api-key and --api-secret must be provided together") := by
  unfold resolveCredentials
  rw [if_pos (pairSource_half h)]

theorem resolve_cliWhole {p : Resolution} (h : cliSource apiKey apiSecret = .whole p) :
    resolveCredentials data apiKey apiSecret env account = p := by
  obtain ⟨k, s, hkey, hsecret, rfl⟩ := pairSource_whole h
  unfold resolveCredentials
  rw [if_neg (by simp [truthy, hkey, hsecret])]
  simp only [hkey, hsecret]

theorem resolve_envHalf (hcli : cliSource apiKey apiSecret = .nothing)
    (h : envSource env = .half) :
    resolveCredentials data apiKey apiSecret env account =
      .raise (.config "BINANCE_API_KEY and BINANCE_API_SECRET must both be set") := by
  obtain ⟨hkey, hsecret⟩ := pairSource_nothing hcli
  unfold resolveCredentials
  rw [if_neg (by simp [truthy, hkey, hsecret])]
  simp only [hkey, hsecret]
  rw [if_pos (pairSource_half h)]

theorem resolve_envWhole (hcli : cliSource apiKey apiSecret = .nothing) {p : Resolution}
    (h : envSource env = .whole p) :
    resolveCredentials data apiKey apiSecret env account = p := by
  obtain ⟨hkey, hsecret⟩ := pairSource_nothing hcli
  obtain ⟨k, s, henvKey, henvSecret, rfl⟩ := pairSource_whole h
  unfold resolveCredentials
  rw [if_neg (by simp [truthy, hkey, hsecret])]
  simp only [hkey, hsecret]
  rw [if_neg (by simp [truthy, henvKey, henvSecret])]
  simp only [henvKey, henvSecret]

/-- With neither pair, an account gives the credentials. -/
theorem resolve_account (hcli : cliSource apiKey apiSecret = .nothing)
    (henv : envSource env = .nothing) {p : Resolution}
    (h : firstGiven [accountSource data (present account),
      accountSource data (present data.default)] = .whole p) :
    resolveCredentials data apiKey apiSecret env account = p := by
  obtain ⟨hkey, hsecret⟩ := pairSource_nothing hcli
  obtain ⟨henvKey, henvSecret⟩ := pairSource_nothing henv
  unfold resolveCredentials
  rw [if_neg (by simp [truthy, hkey, hsecret])]
  simp only [hkey, hsecret]
  rw [if_neg (by simp [truthy, henvKey, henvSecret])]
  simp only [henvKey, henvSecret, AccountStore.getDefaultName]
  rcases haccount : present account with _ | name <;> rw [haccount] at h
  · rcases hdefault : present data.default with _ | default <;> rw [hdefault] at h
    · cases h
    · exact Source.whole.inj h
  · exact Source.whole.inj h

/-! ## 6. The command -/

/-- The command prompts before it looks at one half of the environment pair. -/
theorem command_prompts (hcli : cliSource apiKey apiSecret = .nothing)
    (henv : ∀ p, envSource env ≠ .whole p) (haccount : account = none)
    (hdefault : data.default = none) :
    command data env account apiKey apiSecret = promptForCredentials := by
  obtain ⟨hkey, hsecret⟩ := pairSource_nothing hcli
  have hboth : (truthy (env.get? "BINANCE_API_KEY") && truthy (env.get? "BINANCE_API_SECRET")) =
      false := by
    rw [Bool.eq_false_iff]
    intro h
    obtain ⟨hk, hs⟩ := Bool.and_eq_true_iff.mp h
    obtain ⟨k, hk⟩ := Option.isSome_iff_exists.mp hk
    obtain ⟨s, hs⟩ := Option.isSome_iff_exists.mp hs
    exact henv (.ret ⟨k, s, none⟩) (by simp only [envSource, pairSource, hk, hs])
  unfold command
  rw [hboth]
  simp [truthy, hkey, hsecret, haccount, hdefault, AccountStore.getDefaultName]

/-- Whatever else is given, the command resolves. -/
theorem command_resolves (h : cliSource apiKey apiSecret = .nothing →
      (∀ p, envSource env ≠ .whole p) → account = none → data.default ≠ none) :
    command data env account apiKey apiSecret =
      resolving (resolveCredentials data apiKey apiSecret env account) := by
  unfold command
  refine if_neg fun hall => ?_
  simp only [AccountStore.getDefaultName, Bool.and_eq_true, Bool.not_eq_true',
    Option.isNone_iff_eq_none, Bool.or_eq_false_iff] at hall
  obtain ⟨⟨⟨⟨hkey, hsecret⟩, hboth⟩, haccount⟩, hdefault⟩ := hall
  have hnone : ∀ {value : Option String}, truthy value = false → present value = none :=
    fun h => Option.isSome_eq_false_iff.mp h |> Option.isNone_iff_eq_none.mp
  refine h ?_ ?_ haccount hdefault
  · simp only [cliSource, pairSource, hnone hkey, hnone hsecret]
  · intro p hp
    obtain ⟨k, s, hk, hs, -⟩ := pairSource_whole hp
    simp [truthy, hk, hs] at hboth

theorem not_performs_resolving (p : Resolution) : ¬ (resolving p).Performs IsPrompt := by
  intro h
  obtain ⟨o, ho⟩ := Prog.performs_interpret h
  rcases ho with hprompt | ⟨_, hret⟩
  · exact hprompt
  · exact hret

theorem promptForCredentials_performs : promptForCredentials.Performs IsPrompt :=
  .inr ⟨(), .inl trivial⟩

/-- One half of the environment pair prompts. -/
theorem command_prompts_half (h : HalfEnvironmentAlone data env account apiKey apiSecret) :
    command data env account apiKey apiSecret = promptForCredentials := by
  obtain ⟨hcli, henv, haccount, hdefault⟩ := h
  exact command_prompts hcli (fun p hp => by rw [henv] at hp; cases hp) haccount hdefault

theorem not_neverFallsThrough_half (given : Option String → Option String)
    (h : HalfEnvironmentAlone data env account apiKey apiSecret) :
    ¬ NeverFallsThrough given data env account apiKey apiSecret := by
  intro hnever
  have hprompts : (command data env account apiKey apiSecret).Performs IsPrompt := by
    rw [command_prompts_half h]
    exact promptForCredentials_performs
  obtain ⟨-, hnothing, -⟩ := hnever.prompts hprompts
  rw [h.2.1] at hnothing
  cases hnothing

end

/-! ## 7. When nothing is passed over -/

section

variable {data : AccountData} {env : OrderedDict String String}
  {account apiKey apiSecret : Option String}

theorem present_eq_none {value : Option String} (h : value = none) : present value = none :=
  congrArg present h

theorem present_of_ne {value : Option String} (h : value ≠ some "") : value = present value := by
  rcases value with _ | text
  · rfl
  · exact (filter_ne_empty fun hempty => h (congrArg some hempty)).symm

/-- **The first source that is given whole decides.** -/
theorem command_first {p : Resolution} (h : firstGiven [cliSource apiKey apiSecret, envSource env,
      accountSource data (present account), accountSource data (present data.default)] = .whole p) :
    command data env account apiKey apiSecret = resolving p := by
  rcases hcli : cliSource apiKey apiSecret with _ | _ | q <;> rw [hcli] at h
  · rcases henv : envSource env with _ | _ | q <;> rw [henv] at h
    · rw [command_resolves, resolve_account hcli henv h]
      intro _ _ haccount hdefault
      rw [present_eq_none haccount, present_eq_none hdefault] at h
      cases h
    · cases h
    · cases h
      rw [command_resolves fun _ hwhole => absurd henv (hwhole p), resolve_envWhole hcli henv]
  · cases h
  · cases h
    rw [command_resolves fun hnone => (by rw [hcli] at hnone; cases hnone), resolve_cliWhole hcli]

theorem command_cliHalf (h : cliSource apiKey apiSecret = .half) :
    command data env account apiKey apiSecret =
      .raise (.config "--api-key and --api-secret must be provided together") := by
  rw [command_resolves fun hnone => (by rw [h] at hnone; cases hnone), resolve_cliHalf h]
  rfl

theorem command_envHalf (hnot : ¬ HalfEnvironmentAlone data env account apiKey apiSecret)
    (hcli : cliSource apiKey apiSecret = .nothing) (h : envSource env = .half) :
    command data env account apiKey apiSecret =
      .raise (.config "BINANCE_API_KEY and BINANCE_API_SECRET must both be set") := by
  rw [command_resolves fun _ _ haccount hdefault => hnot ⟨hcli, h, haccount, hdefault⟩,
    resolve_envHalf hcli h]
  rfl

/-- What a command's surroundings make of the operations of the store. -/
def storeExec {χ σ : Type} (exec : (o : CredentialOp) → χ → σ → σ × o.Resp) :
    (o : AccountOp) → χ → σ → σ × o.Resp := fun o => exec (.account o)

theorem run_resolving {χ σ : Type} (exec : (o : CredentialOp) → χ → σ → σ × o.Resp) (c : χ)
    (p : Resolution) (s : σ) : (resolving p).run exec c s = p.run (storeExec exec) c s := by
  induction p generalizing s with
  | ret a => rfl
  | raise e => rfl
  | call o k ih => exact ih _ _

theorem run_credentialsOf {χ σ : Type} (exec : (o : AccountOp) → χ → σ → σ × o.Resp) (c : χ)
    (name : String) (s : σ) :
    (credentialsOf data name).run exec c s =
      (((AccountStore.getCredentials data name).run exec c s).1,
        ((AccountStore.getCredentials data name).run exec c s).2.mapError .store) := by
  unfold credentialsOf
  induction AccountStore.getCredentials data name generalizing s with
  | ret a => rfl
  | raise e => rfl
  | call o k ih => exact ih _ _

/-- What the first given account's `get_credentials` raises, the command raises. -/
theorem command_propagates {name : String}
    (hname : firstGiven [cliSource apiKey apiSecret, envSource env,
      accountSource data (present account), accountSource data (present data.default)] =
        .whole (credentialsOf data name))
    {χ σ : Type} {exec : (o : CredentialOp) → χ → σ → σ × o.Resp} {c : χ} {s s' : σ}
    {e : AccountError}
    (h : (AccountStore.getCredentials data name).run (storeExec exec) c s = (s', .error e)) :
    (command data env account apiKey apiSecret).run exec c s = (s', .error (.store e)) := by
  rw [command_first hname, run_resolving, run_credentialsOf, h]
  rfl

/-- Where the names that count are those `if account_name` lets through. -/
theorem neverFallsThrough_iff {given : Option String → Option String}
    (haccount : given account = present account)
    (hdefault : given data.default = present data.default) :
    NeverFallsThrough given data env account apiKey apiSecret ↔
      ¬ HalfEnvironmentAlone data env account apiKey apiSecret := by
  constructor
  · exact fun hnever hhalf => not_neverFallsThrough_half given hhalf hnever
  intro hnot
  refine ⟨?_, ?_, ?_, ?_⟩
  · intro hprompt
    by_contra hgiven
    refine not_performs_resolving _ (command_resolves ?_ ▸ hprompt)
    intro hcli hwhole hacc hdef
    rcases henv : envSource env with _ | _ | p
    · exact hgiven ⟨hcli, henv, haccount.trans (present_eq_none hacc),
        hdefault.trans (present_eq_none hdef)⟩
    · exact hnot ⟨hcli, henv, hacc, hdef⟩
    · exact hwhole p henv
  · exact fun hcli => ⟨_, rfl, command_cliHalf hcli⟩
  · exact fun hcli henv => ⟨_, rfl, command_envHalf hnot hcli henv⟩
  · intro p hp
    rw [haccount, hdefault] at hp
    exact command_first hp

end

/-- **Half-configured sources.**  Nothing is passed over exactly when one half of the
    environment pair does not stand alone.  Of the account names the empty one does not count;
    where none is empty, it makes no difference. -/
theorem sources_decide_iff (data : AccountData) (env : OrderedDict String String)
    (account apiKey apiSecret : Option String) :
    (NeverFallsThrough present data env account apiKey apiSecret ↔
        ¬ HalfEnvironmentAlone data env account apiKey apiSecret) ∧
      (account ≠ some "" → data.default ≠ some "" →
        (NeverFallsThrough id data env account apiKey apiSecret ↔
          ¬ HalfEnvironmentAlone data env account apiKey apiSecret)) :=
  ⟨neverFallsThrough_iff rfl rfl, fun haccount hdefault =>
    neverFallsThrough_iff (present_of_ne haccount) (present_of_ne hdefault)⟩

/-- No account, no options, and `BINANCE_API_KEY` without its secret. -/
theorem halfEnvironment_prompts :
    ¬ NeverFallsThrough present (AccountData.load none)
        (OrderedDict.empty.set "BINANCE_API_KEY" "K") none none none ∧
      command (AccountData.load none) (OrderedDict.empty.set "BINANCE_API_KEY" "K") none none none =
        promptForCredentials := by
  have hhalf : HalfEnvironmentAlone (AccountData.load none)
      (OrderedDict.empty.set "BINANCE_API_KEY" "K") none none none := by
    refine ⟨rfl, ?_, rfl, rfl⟩
    unfold envSource pairSource
    rw [OrderedDict.get?_set_self, OrderedDict.get?_set_ne _ _ (by decide)]
    rfl
  exact ⟨not_neverFallsThrough_half present hhalf, command_prompts_half hhalf⟩

end FundingTool.CredentialResolution
