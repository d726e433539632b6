import FundingTool.AuthCapacity

/-!
# Every failed login is counted

A call of `verify` that no lock refuses should leave a record: of the failure, or of the
success.  `checkpw` raises for some passwords, outside the `try` and before any record.
`verify_counts_iff` says of any states and any header whether the call is counted.
-/

namespace FundingTool.AuthCounting

open FundingTool.AuthVerifier FundingTool.OrderedDict FundingTool.AuthCapacity

/-! ## 1. What a counted call leaves -/

/-- At most the address unused for longest is forgotten. -/
def Evicted (recorded after : IpStates) : Prop := after = recorded ∨ after = recorded.popFirst

/-- The call of `ip` returns the username and resets its state, or asks for a login after
    counting one more failure; the other states are as before.  Then at most one state is
    forgotten, not the caller's while any may be kept, and there are not too many. -/
structure Counts (v : Verifier) (ip : String) (before recorded after : IpStates)
    (answer : Verifier.Answer) : Prop where
  ends : answer = .returned v.username ∧ recorded.get? ip = some .fresh ∨
    answer = .raised .webAuthRequired ∧ ∃ st, recorded.get? ip = some st ∧
      st.failures = (Verifier.stateOf before ip).failures + 1
  others : ∀ other, other ≠ ip → recorded.get? other = before.get? other
  evicted : Evicted recorded after
  kept : 0 < v.stateMax → after.get? ip = recorded.get? ip
  bounded : after.entries.length ≤ v.stateMax

def Counted (v : Verifier) (ip : String) (before after : IpStates) (answer : Verifier.Answer) :
    Prop :=
  ∃ recorded, Counts v ip before recorded after answer

/-- The states of the other addresses leave room for one more. -/
def HasRoom (v : Verifier) (ip : String) (states : IpStates) : Prop :=
  (states.erase ip).entries.length ≤ v.stateMax

instance (v : Verifier) (ip : String) (states : IpStates) : Decidable (HasRoom v ip states) :=
  inferInstanceAs (Decidable (_ ≤ _))

/-! ## 2. Recording -/

variable {v : Verifier} {ip : String} {states : IpStates}

theorem evicted_evictOver (bound : Nat) (d : IpStates) : Evicted d (d.evictOver bound) := by
  unfold evictOver
  by_cases hover : d.entries.length > bound
  · rw [if_pos hover]
    exact Or.inr rfl
  · rw [if_neg hover]
    exact Or.inl rfl

/-- An eviction is of one state, so it makes room for one. -/
theorem length_record_iff (st : IpState) :
    ((states.setLast ip st).evictOver v.stateMax).entries.length ≤ v.stateMax ↔
      HasRoom v ip states := by
  have hlength : (states.setLast ip st).entries.length = (states.erase ip).entries.length + 1 := by
    rw [entries_setLast, List.length_append]
    rfl
  unfold evictOver HasRoom
  by_cases hover : (states.setLast ip st).entries.length > v.stateMax
  · rw [if_pos hover]
    simp only [popFirst, List.length_tail]
    omega
  · rw [if_neg hover]
    omega

/-- What holds of a record, whether of a failure or of a success. -/
theorem counts_record {st : IpState} {answer : Verifier.Answer}
    (hends : answer = .returned v.username ∧ st = .fresh ∨
      answer = .raised .webAuthRequired ∧
        st.failures = (Verifier.stateOf states ip).failures + 1)
    (hroom : HasRoom v ip states) :
    Counts v ip states (states.setLast ip st) ((states.setLast ip st).evictOver v.stateMax)
      answer where
  ends := by
    have hown : (states.setLast ip st).get? ip = some st := by rw [get?_setLast, if_pos rfl]
    rcases hends with ⟨hanswer, rfl⟩ | ⟨hanswer, hfailures⟩
    · exact Or.inl ⟨hanswer, hown⟩
    · exact Or.inr ⟨hanswer, st, hown, hfailures⟩
  others other hne := by rw [get?_setLast, if_neg hne]
  evicted := evicted_evictOver _ _
  kept hpos := by
    have hused := (usedBefore_setLast_self states ip st).evictOver hpos
    rw [hused.get?, get?_setLast, if_pos rfl]
  bounded := (length_record_iff st).mpr hroom

/-! ## 3. Which calls are counted -/

/-- **A call that no lock refuses is counted** exactly when `checkpw` takes its password and
    the other states leave room for its own. -/
theorem verify_counts_iff (v : Verifier) {ip : String} (header : Option String)
    {checked : Int} (recorded : Int) {states : IpStates}
    (hopen : (Verifier.stateOf states ip).lockedUntil ≤ checked) :
    Counted v ip states (v.verify ip header checked recorded states).1
        (v.verify ip header checked recorded states).2 ↔
      Checkable v header ∧ HasRoom v ip states := by
  rcases verify_cases v ip header checked recorded states with
    ⟨hlocked, -⟩ | ⟨-, ⟨hcheckable, hrun | hrun⟩ | ⟨hnot, hrun⟩⟩
  · exact absurd hopen (Int.not_le.mpr hlocked)
  · rw [hrun]
    constructor
    · rintro ⟨record, hcounts⟩
      exact ⟨hcheckable, (length_record_iff _).mp hcounts.bounded⟩
    · rintro ⟨-, hroom⟩
      exact ⟨_, counts_record (Or.inr ⟨rfl, rfl⟩) hroom⟩
  · rw [hrun]
    constructor
    · rintro ⟨record, hcounts⟩
      exact ⟨hcheckable, (length_record_iff _).mp hcounts.bounded⟩
    · rintro ⟨-, hroom⟩
      exact ⟨_, counts_record (Or.inl ⟨rfl, rfl⟩) hroom⟩
  · -- the exception of `checkpw` is no answer
    rw [hrun]
    refine iff_of_false ?_ fun h => hnot h.1
    rintro ⟨record, hcounts⟩
    rcases hcounts.ends with ⟨hanswer, -⟩ | ⟨hanswer, -⟩
    · cases hanswer
    · cases hanswer

/-- A verifier with the default bounds and two headers it can decode.  `checkpw` takes 72
    bytes. -/
def longPasswords : Verifier where
  username := "admin"
  lockoutMax := 5
  lockoutSecs := 300
  stateMax := 4096
  decode text :=
    if text = "YWRtaW46Z3Vlc3M=" then some "admin:guess"
    else if text = "YWRtaW46" ++ String.ofList (List.replicate 24 ['Y', 'W', 'F', 'h']).flatten ++
      "YQ==" then some ("admin:" ++ String.ofList (List.replicate 73 'a'))
    else none
  checkpw pw := if pw.utf8ByteSize > 72 then none else some (decide (pw = "s3cret"))

theorem verify_counts_iff_guess :
    Counted longPasswords "9.9.9.9" OrderedDict.empty
      (longPasswords.verify "9.9.9.9" (some "Basic YWRtaW46Z3Vlc3M=") 0 0 OrderedDict.empty).1
      (longPasswords.verify "9.9.9.9" (some "Basic YWRtaW46Z3Vlc3M=") 0 0 OrderedDict.empty).2 := by
  refine (verify_counts_iff longPasswords _ 0 (by decide)).mpr ⟨?_, by decide⟩
  intro user pw hsome
  have hguess : longPasswords.credentialsOf (some "Basic YWRtaW46Z3Vlc3M=") =
      some ("admin", "guess") := by
    decide +kernel
  rw [hguess] at hsome
  obtain ⟨rfl, rfl⟩ := Prod.mk.inj (Option.some.inj hsome)
  decide +kernel

/-- **A long password is not counted**: the exception of `checkpw` leaves `verify`. -/
theorem verify_long_password :
    ¬ Counted longPasswords "9.9.9.9" OrderedDict.empty
      (longPasswords.verify "9.9.9.9" (some ("Basic YWRtaW46" ++
        String.ofList (List.replicate 24 ['Y', 'W', 'F', 'h']).flatten ++ "YQ==")) 0 0
          OrderedDict.empty).1
      (longPasswords.verify "9.9.9.9" (some ("Basic YWRtaW46" ++
        String.ofList (List.replicate 24 ['Y', 'W', 'F', 'h']).flatten ++ "YQ==")) 0 0
          OrderedDict.empty).2 := by
  have hescaped : (longPasswords.verify "9.9.9.9" (some ("Basic YWRtaW46" ++
      String.ofList (List.replicate 24 ['Y', 'W', 'F', 'h']).flatten ++ "YQ==")) 0 0
        OrderedDict.empty).2 = .escaped := by
    decide +kernel
  rw [hescaped]
  rintro ⟨record, hcounts⟩
  rcases hcounts.ends with ⟨hanswer, -⟩ | ⟨hanswer, -⟩
  · cases hanswer
  · cases hanswer

end FundingTool.AuthCounting
