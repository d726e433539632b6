import FundingTool.AuthVerifier
import FundingTool.TransitionSystem

/-!
# Password guesses under concurrency

Any number of `verify` calls run in a thread pool; every section of a call is one step.
The lock is released between the lock check and the record of the failure, so calls that
passed the check together compare together, whatever is recorded afterwards.

While the calls between check and record never exceed the failures still free, or are
one at a time, at most `lockout_max` passwords are compared in any span of
`lockout_secs`.
-/

namespace FundingTool.AuthLockout

open FundingTool.TransitionSystem FundingTool.AuthVerifier

/-! ## 1. Calls and their sections -/

/-- Where a call of `verify` stands. -/
inductive Phase
  | arrived (ip : String) (header : Option String)
  | admitted (ip : String) (header : Option String)
  | failing (ip : String)
  | succeeding (ip : String)
  | finished (result : Except AuthCode String)
  /-- `checkpw` has raised, past every record. -/
  | escaped
deriving DecidableEq

/-- The verifier's states, the clock, the calls, and the comparisons made so far. -/
structure Server where
  states : IpStates
  clock : Int
  calls : List Phase
  comparisons : List (String × Int)

def Server.start (clock : Int) : Server := ⟨OrderedDict.empty, clock, [], []⟩

inductive ServerAct
  | arrive (ip : String) (header : Option String)
  | run (i : Nat)
  | tick (d : Nat)

/-- The next section of one call: its new phase, with the states and the comparisons. -/
def nextSection (v : Verifier) (s : Server) : Phase → Option (Phase × IpStates × List (String × Int))
  | .arrived ip header =>
      let (states, locked) := Verifier.lockCheck ip s.clock s.states
      some (if locked then .finished (.error .webAuthLocked) else .admitted ip header,
        states, s.comparisons)
  | .admitted ip header =>
      match v.credentialsOf header with
      | none => some (.failing ip, s.states, s.comparisons)
      | some (user, pw) =>
          let phase := match v.compare user pw with
            | none => Phase.escaped
            | some true => .succeeding ip
            | some false => .failing ip
          some (phase, s.states, (ip, s.clock) :: s.comparisons)
  | .failing ip =>
      some (.finished (.error .webAuthRequired), v.recordFailure ip s.clock s.states,
        s.comparisons)
  | .succeeding ip =>
      some (.finished (.ok v.username), v.recordSuccess ip s.states, s.comparisons)
  | .finished _ => none
  | .escaped => none

def serverStep (v : Verifier) (s : Server) : ServerAct → Option Server
  | .arrive ip header => some { s with calls := s.calls ++ [.arrived ip header] }
  | .tick d => some { s with clock := s.clock + d }
  | .run i =>
      match s.calls[i]? with
      | none => none
      | some phase =>
          match nextSection v s phase with
          | none => none
          | some (phase', states, comparisons) =>
              some { s with states := states, calls := s.calls.set i phase',
                            comparisons := comparisons }

/-! ## 2. The guard -/

/-- The call has passed the lock check, and its failure is not recorded yet. -/
def Phase.inFlight (ip : String) : Phase → Bool
  | .admitted ip' _ => decide (ip' = ip)
  | .failing ip' => decide (ip' = ip)
  | _ => false

/-- The call has passed the lock check and has still to compare. -/
def Phase.toCompare (ip : String) : Phase → Bool
  | .admitted ip' _ => decide (ip' = ip)
  | _ => false

/-- The call has still to record its failure. -/
def Phase.toRecord (ip : String) : Phase → Bool
  | .failing ip' => decide (ip' = ip)
  | _ => false

/-- The header names no user with the right password. -/
def WrongPassword (v : Verifier) (header : Option String) : Prop :=
  match v.credentialsOf header with
  | none => True
  | some (user, pw) => v.compare user pw = some false

/-- All calls come from one address with wrong passwords. -/
def Guessing (v : Verifier) (ip : String) (_ : Server) : ServerAct → Prop
  | .arrive ip' header => ip' = ip ∧ WrongPassword v header
  | _ => True

/-- There is room for one more call between check and record. -/
def HasRoom (v : Verifier) (ip : String) (s : Server) : Prop :=
  (Verifier.stateOf s.states ip).failures + s.calls.countP (Phase.inFlight ip) < v.lockoutMax ∨
    s.calls.countP (Phase.inFlight ip) = 0

/-- A lock check that admits a call finds room for it. -/
def AdmitsWithRoom (v : Verifier) (ip : String) (s : Server) : ServerAct → Prop
  | .run i =>
      match s.calls[i]? with
      | some (.arrived ip' _) =>
          (Verifier.lockCheck ip' s.clock s.states).2 = true ∨ HasRoom v ip s
      | _ => True
  | _ => True

def GuessingWithRoom (v : Verifier) (ip : String) (s : Server) (a : ServerAct) : Prop :=
  Guessing v ip s a ∧ AdmitsWithRoom v ip s a

instance (v : Verifier) (header : Option String) : Decidable (WrongPassword v header) := by
  unfold WrongPassword
  split <;> infer_instance

instance (v : Verifier) (ip : String) (s : Server) (a : ServerAct) :
    Decidable (Guessing v ip s a) := by
  unfold Guessing
  split <;> infer_instance

instance (v : Verifier) (ip : String) (s : Server) : Decidable (HasRoom v ip s) :=
  inferInstanceAs (Decidable (_ ∨ _))

instance (v : Verifier) (ip : String) (s : Server) (a : ServerAct) :
    Decidable (AdmitsWithRoom v ip s a) := by
  unfold AdmitsWithRoom
  split
  · split <;> infer_instance
  · infer_instance

instance (v : Verifier) (ip : String) (s : Server) (a : ServerAct) :
    Decidable (GuessingWithRoom v ip s a) :=
  inferInstanceAs (Decidable (_ ∧ _))

/-! ## 3. Counting -/

/-- Replacing one element moves a count by what it and its replacement contribute. -/
theorem countP_set_add {α : Type} (p : α → Bool) {l : List α} {i : Nat} {a : α}
    (h : l[i]? = some a) (b : α) :
    (l.set i b).countP p + (p a).toNat = l.countP p + (p b).toNat := by
  induction l generalizing i with
  | nil => simp at h
  | cons first rest ih =>
      cases i with
      | zero =>
          simp only [List.getElem?_cons_zero, Option.some.injEq] at h
          subst h
          simp only [List.set_cons_zero, List.countP_cons]
          cases p first <;> cases p b <;> simp
      | succ i =>
          rw [List.getElem?_cons_succ] at h
          have := ih h
          simp only [List.set_cons_succ, List.countP_cons]
          omega

/-- The comparisons of a span `[x, x + lockout_secs)`. -/
def inSpan (v : Verifier) (ip : String) (x : Int) (comparison : String × Int) : Bool :=
  decide (comparison.1 = ip ∧ x ≤ comparison.2 ∧ comparison.2 < x + v.lockout)

/-- A comparison one lockout after all others shares no span with them. -/
theorem countP_inSpan_cons {v : Verifier} {ip : String} {comparisons : List (String × Int)}
    {now : Int} (hmax : 1 ≤ v.lockoutMax)
    (hlater : ∀ comparison ∈ comparisons, comparison.2 + v.lockout ≤ now)
    (hbound : ∀ x, comparisons.countP (inSpan v ip x) ≤ v.lockoutMax) (x : Int) :
    ((ip, now) :: comparisons).countP (inSpan v ip x) ≤ v.lockoutMax := by
  rw [List.countP_cons]
  by_cases hin : inSpan v ip x (ip, now) = true
  · have hnone : comparisons.countP (inSpan v ip x) = 0 := by
      rw [List.countP_eq_zero]
      intro comparison hmem
      have := hlater comparison hmem
      simp only [inSpan, decide_eq_true_eq] at hin ⊢
      omega
    rw [hnone, if_pos hin]
    omega
  · rw [if_neg hin]
    exact hbound x

theorem countP_inFlight (ip : String) (calls : List Phase) :
    calls.countP (Phase.inFlight ip) =
      calls.countP (Phase.toCompare ip) + calls.countP (Phase.toRecord ip) := by
  induction calls with
  | nil => rfl
  | cons phase rest ih =>
      have hphase : (if phase.inFlight ip then 1 else 0) =
          (if phase.toCompare ip then 1 else 0) + (if phase.toRecord ip then 1 else 0) := by
        cases phase <;> simp [Phase.inFlight, Phase.toCompare, Phase.toRecord]
      rw [List.countP_cons, List.countP_cons, List.countP_cons, ih, hphase]
      omega

/-! ## 4. The invariant -/

/-- A phase of a guessing call from `ip`. -/
def Guess (v : Verifier) (ip : String) : Phase → Prop
  | .arrived ip' header => ip' = ip ∧ WrongPassword v header
  | .admitted ip' header => ip' = ip ∧ WrongPassword v header
  | .failing ip' => ip' = ip
  | .succeeding _ => False
  | _ => True

/-- Early on the calls in flight fit the failures still free, and every comparison is
    recorded or in flight.  From the lock on calls pass one at a time, each of them a
    lockout after every earlier comparison. -/
structure Bounded (v : Verifier) (ip : String) (s : Server) : Prop where
  guess : ∀ phase ∈ s.calls, Guess v ip phase
  onlyIp : ∀ e ∈ s.states.entries, e.1 = ip
  past : ∀ comparison ∈ s.comparisons, comparison.2 ≤ s.clock
  bound : ∀ x, s.comparisons.countP (inSpan v ip x) ≤ v.lockoutMax
  mode :
    ((Verifier.stateOf s.states ip).failures + s.calls.countP (Phase.toCompare ip) +
        s.calls.countP (Phase.toRecord ip) ≤ v.lockoutMax ∧
      s.comparisons.length ≤ (Verifier.stateOf s.states ip).failures +
        s.calls.countP (Phase.toRecord ip)) ∨
    (v.lockoutMax ≤ (Verifier.stateOf s.states ip).failures ∧
      s.calls.countP (Phase.toCompare ip) + s.calls.countP (Phase.toRecord ip) ≤ 1 ∧
      (0 < s.calls.countP (Phase.toCompare ip) →
        ∀ comparison ∈ s.comparisons, comparison.2 + v.lockout ≤ s.clock))
  locked : s.calls.countP (Phase.toCompare ip) + s.calls.countP (Phase.toRecord ip) = 0 →
    v.lockoutMax ≤ (Verifier.stateOf s.states ip).failures →
    ∀ comparison ∈ s.comparisons,
      comparison.2 + v.lockout ≤ (Verifier.stateOf s.states ip).lockedUntil

theorem bounded_start (v : Verifier) (ip : String) (clock : Int) :
    Bounded v ip (.start clock) := by
  refine ⟨?_, ?_, ?_, fun _ => Nat.zero_le _, Or.inl ⟨Nat.zero_le _, Nat.zero_le _⟩, ?_⟩
  · intro phase h; cases h
  · intro e h; cases h
  · intro comparison h; cases h
  · intro _ _ comparison h; cases h

theorem onlyIp_setLast {states : IpStates} {ip : String} (h : ∀ e ∈ states.entries, e.1 = ip)
    (st : IpState) : ∀ e ∈ (states.setLast ip st).entries, e.1 = ip := by
  rintro ⟨ip', st'⟩ hmem
  rcases OrderedDict.mem_set.mp hmem with ⟨hip, -⟩ | ⟨-, hold⟩
  · exact hip
  · exact h _ (OrderedDict.mem_erase.mp hold).1

theorem recordFailure_only {v : Verifier} (hstate : 1 ≤ v.stateMax) {states : IpStates}
    {ip : String} (h : ∀ e ∈ states.entries, e.1 = ip) (now : Int) :
    v.recordFailure ip now states =
      states.setLast ip (v.failed now (Verifier.stateOf states ip)) := by
  have hlen := OrderedDict.length_le_one (onlyIp_setLast h (v.failed now (Verifier.stateOf states ip)))
  rw [Verifier.recordFailure, Verifier.evict, ← Verifier.stateOf, if_neg (by omega)]

theorem guess_set {v : Verifier} {ip : String} {calls : List Phase} {i : Nat}
    (h : ∀ phase ∈ calls, Guess v ip phase) (next : Phase) (hnext : Guess v ip next) :
    ∀ phase ∈ calls.set i next, Guess v ip phase := by
  intro phase hphase
  rcases List.mem_or_eq_of_mem_set hphase with hold | heq
  · exact h phase hold
  · rw [heq]
    exact hnext

/-! ## 5. One step keeps it -/

section Step

variable {v : Verifier} {ip : String} {s : Server} {i : Nat}

theorem bounded_arrive (h : Bounded v ip s) {header : Option String}
    (hwrong : WrongPassword v header) :
    Bounded v ip { s with calls := s.calls ++ [.arrived ip header] } := by
  obtain ⟨hguess, honly, hpast, hbound, hmode, hlocked⟩ := h
  refine ⟨?_, honly, hpast, hbound, ?_, ?_⟩
  · intro phase hphase
    rcases List.mem_append.mp hphase with hold | hnew
    · exact hguess phase hold
    · rw [List.mem_singleton.mp hnew]
      exact ⟨rfl, hwrong⟩
  · simpa [List.countP_append, Phase.toCompare, Phase.toRecord] using hmode
  · simpa [List.countP_append, Phase.toCompare, Phase.toRecord] using hlocked

theorem bounded_tick (h : Bounded v ip s) (d : Nat) :
    Bounded v ip { s with clock := s.clock + d } := by
  obtain ⟨hguess, honly, hpast, hbound, hmode, hlocked⟩ := h
  refine ⟨hguess, honly, ?_, hbound, ?_, hlocked⟩
  · intro comparison hmem
    have := hpast comparison hmem
    simp only
    omega
  · rcases hmode with hearly | ⟨hmax, hone, hlater⟩
    · exact Or.inl hearly
    · refine Or.inr ⟨hmax, hone, ?_⟩
      intro hpos comparison hmem
      have := hlater hpos comparison hmem
      simp only
      omega

/-- The lock check: it admits a call while there is room, or after the lockout. -/
theorem bounded_check (h : Bounded v ip s) {header : Option String}
    (hi : s.calls[i]? = some (.arrived ip header)) (hwrong : WrongPassword v header)
    (hroom : (Verifier.lockCheck ip s.clock s.states).2 = true ∨ HasRoom v ip s) :
    Bounded v ip { s with
      states := (Verifier.lockCheck ip s.clock s.states).1
      calls := s.calls.set i (if (Verifier.lockCheck ip s.clock s.states).2
        then .finished (.error .webAuthLocked) else .admitted ip header) } := by
  have hsame := Verifier.stateOf_lockCheck ip ip s.clock s.states
  have honly := onlyIp_setLast h.onlyIp (Verifier.stateOf s.states ip)
  by_cases hadmit : (Verifier.lockCheck ip s.clock s.states).2 = true
  · -- locked: the call ends, and no count moves
    rw [if_pos hadmit]
    have hcompare := countP_set_add (Phase.toCompare ip) hi (.finished (.error .webAuthLocked))
    have hrecord := countP_set_add (Phase.toRecord ip) hi (.finished (.error .webAuthLocked))
    simp only [Phase.toCompare, Phase.toRecord, Bool.toNat_false, Nat.add_zero]
      at hcompare hrecord
    refine ⟨guess_set h.guess (.finished _) trivial, honly, h.past, h.bound, ?_, ?_⟩
    · simp only [hsame, hcompare, hrecord]
      exact h.mode
    · simp only [hsame, hcompare, hrecord]
      exact h.locked
  · -- admitted: one more call has to compare
    rw [if_neg hadmit]
    have hopen : (Verifier.stateOf s.states ip).lockedUntil ≤ s.clock := by
      simp only [Verifier.lockCheck, decide_eq_true_eq] at hadmit
      rw [Verifier.stateOf]
      omega
    have hcompare := countP_set_add (Phase.toCompare ip) hi (.admitted ip header)
    have hrecord := countP_set_add (Phase.toRecord ip) hi (.admitted ip header)
    simp only [Phase.toCompare, Phase.toRecord, decide_true, Bool.toNat_false, Bool.toNat_true,
      Nat.add_zero] at hcompare hrecord
    have hfits : HasRoom v ip s := hroom.resolve_left hadmit
    rw [HasRoom, countP_inFlight] at hfits
    refine ⟨guess_set h.guess (.admitted ip header) ⟨rfl, hwrong⟩, honly, h.past, h.bound, ?_, ?_⟩
    · simp only [hsame, hcompare, hrecord]
      rcases h.mode with ⟨hfree, hlen⟩ | ⟨hmax, hone, hlater⟩
      · by_cases hlt : (Verifier.stateOf s.states ip).failures < v.lockoutMax
        · exact Or.inl ⟨by omega, hlen⟩
        · refine Or.inr ⟨by omega, by omega, ?_⟩
          intro _ comparison hmem
          have := h.locked (by omega) (by omega) comparison hmem
          omega
      · refine Or.inr ⟨hmax, by omega, ?_⟩
        intro _ comparison hmem
        have := h.locked (by omega) hmax comparison hmem
        omega
    · intro hzero
      simp only [hcompare] at hzero
      omega

/-- The comparison: in flight before and after. -/
theorem bounded_compare (hmax : 1 ≤ v.lockoutMax) (h : Bounded v ip s) {header : Option String}
    (hi : s.calls[i]? = some (.admitted ip header)) :
    Bounded v ip { s with
      calls := s.calls.set i (.failing ip)
      comparisons := (ip, s.clock) :: s.comparisons } := by
  have hcompare := countP_set_add (Phase.toCompare ip) hi (.failing ip)
  have hrecord := countP_set_add (Phase.toRecord ip) hi (.failing ip)
  simp only [Phase.toCompare, Phase.toRecord, decide_true, Bool.toNat_false, Bool.toNat_true,
    Nat.add_zero] at hcompare hrecord
  refine ⟨guess_set h.guess (.failing ip) rfl, h.onlyIp, ?_, ?_, ?_, ?_⟩
  · intro comparison hmem
    rcases List.mem_cons.mp hmem with rfl | hold
    · exact Int.le_refl _
    · exact h.past comparison hold
  · intro x
    rcases h.mode with ⟨hfree, hlen⟩ | ⟨-, -, hlater⟩
    · apply Nat.le_trans List.countP_le_length
      simp only [List.length_cons]
      omega
    · exact countP_inSpan_cons hmax (hlater (by omega)) h.bound x
  · rcases h.mode with ⟨hfree, hlen⟩ | ⟨hmax', hone, -⟩
    · refine Or.inl ⟨?_, ?_⟩
      · simp only
        omega
      · simp only [List.length_cons]
        omega
    · refine Or.inr ⟨hmax', ?_, ?_⟩
      · simp only
        omega
      · intro hpos
        simp only at hpos
        omega
  · intro hzero
    simp only at hzero
    omega

/-- A header without credentials is recorded without a comparison. -/
theorem bounded_malformed (h : Bounded v ip s) {header : Option String}
    (hi : s.calls[i]? = some (.admitted ip header)) :
    Bounded v ip { s with calls := s.calls.set i (.failing ip) } := by
  have hcompare := countP_set_add (Phase.toCompare ip) hi (.failing ip)
  have hrecord := countP_set_add (Phase.toRecord ip) hi (.failing ip)
  simp only [Phase.toCompare, Phase.toRecord, decide_true, Bool.toNat_false, Bool.toNat_true,
    Nat.add_zero] at hcompare hrecord
  refine ⟨guess_set h.guess (.failing ip) rfl, h.onlyIp, h.past, h.bound, ?_, ?_⟩
  · rcases h.mode with ⟨hfree, hlen⟩ | ⟨hmax, hone, -⟩
    · refine Or.inl ⟨?_, ?_⟩ <;> simp only <;> omega
    · refine Or.inr ⟨hmax, ?_, ?_⟩
      · simp only
        omega
      · intro hpos
        simp only at hpos
        omega
  · intro hzero
    simp only at hzero
    omega

/-- The record of a failure: one more failure, one call less in flight, and a lock from now
    on when the failures are used up. -/
theorem bounded_record (hstate : 1 ≤ v.stateMax) (h : Bounded v ip s)
    (hi : s.calls[i]? = some (.failing ip)) :
    Bounded v ip { s with
      states := v.recordFailure ip s.clock s.states
      calls := s.calls.set i (.finished (.error .webAuthRequired)) } := by
  have hcompare := countP_set_add (Phase.toCompare ip) hi (.finished (.error .webAuthRequired))
  have hrecord := countP_set_add (Phase.toRecord ip) hi (.finished (.error .webAuthRequired))
  simp only [Phase.toCompare, Phase.toRecord, decide_true, Bool.toNat_false, Bool.toNat_true,
    Nat.add_zero] at hcompare hrecord
  rw [recordFailure_only hstate h.onlyIp]
  have hnew := Verifier.stateOf_setLast s.states ip ip
    (v.failed s.clock (Verifier.stateOf s.states ip))
  rw [if_pos rfl] at hnew
  refine ⟨guess_set h.guess (.finished _) trivial, onlyIp_setLast h.onlyIp _, h.past, h.bound, ?_, ?_⟩
  · simp only [hnew, hcompare]
    simp only [Verifier.failed]
    rcases h.mode with ⟨hfree, hlen⟩ | ⟨hmax, hone, hlater⟩
    · exact Or.inl ⟨by omega, by omega⟩
    · exact Or.inr ⟨by omega, by omega, hlater⟩
  · intro _ hmax comparison hmem
    have hle := h.past comparison hmem
    simp only [hnew] at hmax ⊢
    simp only [Verifier.failed] at hmax ⊢
    rw [if_pos hmax]
    omega

theorem bounded_step (hmax : 1 ≤ v.lockoutMax) (hstate : 1 ≤ v.stateMax) {a : ServerAct}
    {s' : Server} (h : Bounded v ip s) (hallowed : GuessingWithRoom v ip s a)
    (hstep : serverStep v s a = some s') : Bounded v ip s' := by
  cases a with
  | arrive ip' header =>
      obtain ⟨⟨rfl, hwrong⟩, -⟩ := hallowed
      simp only [serverStep, Option.some.injEq] at hstep
      rw [← hstep]
      exact bounded_arrive h hwrong
  | tick d =>
      simp only [serverStep, Option.some.injEq] at hstep
      rw [← hstep]
      exact bounded_tick h d
  | run i =>
      rcases hi : s.calls[i]? with _ | phase
      · simp only [serverStep, hi, reduceCtorEq] at hstep
      · have hguess := h.guess phase (List.mem_of_getElem? hi)
        cases phase with
        | arrived ip' header =>
            obtain ⟨rfl, hwrong⟩ := hguess
            have hroom := hallowed.2
            simp only [AdmitsWithRoom, hi] at hroom
            simp only [serverStep, hi, nextSection, Option.some.injEq] at hstep
            rw [← hstep]
            exact bounded_check h hi hwrong hroom
        | admitted ip' header =>
            obtain ⟨rfl, hwrong⟩ := hguess
            rcases hcreds : v.credentialsOf header with _ | ⟨user, pw⟩
            · simp only [serverStep, hi, nextSection, hcreds, Option.some.injEq] at hstep
              rw [← hstep]
              exact bounded_malformed h hi
            · simp only [WrongPassword, hcreds] at hwrong
              simp only [serverStep, hi, nextSection, hcreds, hwrong, Option.some.injEq] at hstep
              rw [← hstep]
              exact bounded_compare hmax h hi
        | failing ip' =>
            have hip : ip' = ip := hguess
            subst hip
            simp only [serverStep, hi, nextSection, Option.some.injEq] at hstep
            rw [← hstep]
            exact bounded_record hstate h hi
        | succeeding ip' => exact absurd hguess id
        | finished result => simp only [serverStep, hi, nextSection, reduceCtorEq] at hstep
        | escaped => simp only [serverStep, hi, nextSection, reduceCtorEq] at hstep

end Step

/-- **Guesses are bounded** in every run in which each call the lock check admits finds
    room: in any span of `lockout_secs` at most `lockout_max` passwords are compared. -/
theorem comparisons_bounded {v : Verifier} (hmax : 1 ≤ v.lockoutMax) (hstate : 1 ≤ v.stateMax)
    {ip : String} {clock : Int} {s : Server}
    (h : Reaches (serverStep v) (GuessingWithRoom v ip) (.start clock) s) (x : Int) :
    s.comparisons.countP (inSpan v ip x) ≤ v.lockoutMax :=
  (h.invariant (bounded_start v ip clock) fun _ _ _ hinv hallowed hstep =>
    bounded_step hmax hstate hinv hallowed hstep).bound x

/-- A verifier with the default bounds, one password, and headers that are not encoded. -/
def sampleVerifier : Verifier where
  username := "admin"
  lockoutMax := 5
  lockoutSecs := 300
  stateMax := 4096
  decode := some
  checkpw pw := some (decide (pw = "s3cret"))

def guessHeader : Option String := some "Basic admin:guess"

/-- Five guesses one after the other, and one more after the lockout. -/
def patientGuesses : List ServerAct :=
  (List.range 5).flatMap (fun i => [.arrive "9.9.9.9" guessHeader, .run i, .run i, .run i]) ++
    [.tick 300000000, .arrive "9.9.9.9" guessHeader, .run 5, .run 5, .run 5]

theorem comparisons_bounded_patient :
    ∃ s, Reaches (serverStep sampleVerifier) (GuessingWithRoom sampleVerifier "9.9.9.9")
        (.start 0) s ∧ s.comparisons.length = 6 ∧
      ∀ x, s.comparisons.countP (inSpan sampleVerifier "9.9.9.9" x) ≤ 5 := by
  have hreach : Reaches (serverStep sampleVerifier) (GuessingWithRoom sampleVerifier "9.9.9.9")
      (.start 0) _ := play_get_reaches patientGuesses (by decide +kernel)
  exact ⟨_, hreach, by decide +kernel, comparisons_bounded (by decide) (by decide) hreach⟩

/-- Six calls pass the lock check before any of them compares. -/
def sixAtOnce : List ServerAct :=
  List.replicate 6 (.arrive "9.9.9.9" guessHeader) ++
    (List.range 6).map .run ++ (List.range 6).map .run

/-- **Six guesses in one instant**, with the default bound of five in five minutes. -/
theorem six_comparisons_at_once :
    ∃ s, Reaches (serverStep sampleVerifier) (Guessing sampleVerifier "9.9.9.9") (.start 0) s ∧
      ¬ s.comparisons.countP (inSpan sampleVerifier "9.9.9.9" 0) ≤ sampleVerifier.lockoutMax := by
  refine ⟨_, play_get_reaches sixAtOnce (by decide +kernel), ?_⟩
  decide +kernel

end FundingTool.AuthLockout
