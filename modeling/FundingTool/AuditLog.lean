import FundingTool.JsonRoundTrip
import FundingTool.OrderedDict

/-!
# The audit log (`web/audit.py`)

`log` refuses a call whose extras have a forbidden key or a value that is no scalar, and appends
a line of JSON for any other.  Its handler opens the file anew where the old one has been moved
away, so that the lines lie in a sequence of files.

`audit_log_readable`: whatever the texts of the calls are, each accepted call is one line, which
is read back as its record; a refused one leaves nothing.
-/

namespace FundingTool.AuditLog

open FundingTool.JsonText

/-! ## 1. Records -/

/-- A value of `extras`. -/
inductive Extra
  | none
  | str (s : String)
  | int (n : Int)
  | bool (b : Bool)
  /-- A value of another type, with the name of the type. -/
  | other (typeName : String)
deriving DecidableEq, Repr

abbrev Extras := OrderedDict String Extra

/-- The arguments of `log`, with the text of the current time. -/
structure Call where
  ts : String
  action : String
  ip : String
  user : Option String
  result : String
  target : Option String
  errorCode : Option String
  errorId : Option String
  extras : Option Extras

inductive AuditError
  /-- `forbidden audit keys: {bad}` -/
  | forbidden (bad : List String)
  /-- `audit extras value for {k!r} must be scalar (str/int/bool/None), got {…}` -/
  | notScalar (key typeName : String)
deriving DecidableEq, Repr

/-- `_FORBIDDEN_KEYS` -/
def forbiddenKeys : List String :=
  ["api_key", "api_secret", "master_key", "master_fingerprint", "password"]

/-- One round of the loop over `extras.items()`. -/
def scalar (key : String) : Extra → Except AuditError (String × Value)
  | .none => .ok (key, .null)
  | .str s => .ok (key, .str s)
  | .int n => .ok (key, .num (.ofInt n))
  | .bool b => .ok (key, .bool b)
  | .other typeName => .error (.notScalar key typeName)

def checkExtras : Option Extras → Except AuditError (List (String × Value))
  | some extras =>
      let bad := forbiddenKeys.filter fun key => key ∈ extras.keys
      if bad ≠ [] then .error (.forbidden bad)
      else extras.entries.mapM fun (key, value) => scalar key value
  | none => .ok []

def optionalText : Option String → Value
  | some s => .str s
  | none => .null

/-- `record`, before the extras. -/
def fields (call : Call) : OrderedDict String Value where
  entries := [("ts", .str call.ts), ("ip", .str call.ip), ("user", optionalText call.user),
    ("action", .str call.action), ("target", optionalText call.target),
    ("result", .str call.result), ("error_code", optionalText call.errorCode),
    ("error_id", optionalText call.errorId)]
  nodup := (by decide : ["ts", "ip", "user", "action", "target", "result", "error_code",
    "error_id"].Nodup)

/-- `record.update(extras)` -/
def update (record : OrderedDict String Value) (extras : List (String × Value)) :
    OrderedDict String Value :=
  extras.foldl (fun record extra => record.set extra.1 extra.2) record

def recordOf (call : Call) : Except AuditError Value := do
  let extras ← checkExtras call.extras
  return .obj (update (fields call) extras).entries

/-! ## 2. Files -/

/-- `ensure_ascii=False, separators=(",", ":")` -/
def compact : Style := ⟨false, false, false, none⟩

/-- The files that have been moved away, and the one at the path. -/
structure Files where
  earlier : List (List Char)
  current : List Char
deriving DecidableEq, Repr

inductive Event
  | log (call : Call)
  /-- The file is moved away, and the handler opens another one. -/
  | rotate

def Files.step (files : Files) : Event → Files
  | .log call =>
      match recordOf call with
      | .ok record => { files with current := files.current ++ (dumps compact record ++ ['\n']) }
      | .error _ => files
  | .rotate => ⟨files.earlier ++ [files.current], []⟩

def run (events : List Event) : Files := events.foldl Files.step ⟨[], []⟩

/-- The lines of a file, behind the part of one; every line has its end. -/
def linesFrom (part : List Char) : List Char → Option (List (List Char))
  | [] => if part = [] then some [] else none
  | c :: rest =>
      if c = '\n' then (linesFrom [] rest).map (part :: ·) else linesFrom (part ++ [c]) rest

/-- A file of JSON lines. -/
def readLog (text : List Char) : Option (List Value) := (linesFrom [] text).bind (·.mapM loads)

/-! ## 3. Reading the lines -/

theorem linesFrom_line {line : List Char} (h : ∀ c ∈ line, c ≠ '\n') (part rest : List Char) :
    linesFrom part (line ++ '\n' :: rest) = (linesFrom [] rest).map ((part ++ line) :: ·) := by
  induction line generalizing part with
  | nil => rw [List.nil_append, linesFrom, if_pos rfl, List.append_nil]
  | cons c line ih =>
      obtain ⟨hc, hline⟩ := List.forall_mem_cons.mp h
      rw [List.cons_append, linesFrom, if_neg hc, ih hline, List.append_assoc]
      rfl

theorem no_newline_dumps (v : Value) : ∀ c ∈ dumps compact v, c ≠ '\n' := by
  rintro c hc rfl
  exact absurd (line_dumps rfl v _ hc) (by decide)

/-- One more line. -/
theorem readLog_append {text : List Char} {records : List Value} (h : readLog text = some records)
    (v : Value) : readLog (text ++ (dumps compact v ++ ['\n'])) = some (records ++ [v]) := by
  have hlines : ∀ (text part : List Char) (lines : List (List Char)),
      linesFrom part text = some lines →
        linesFrom part (text ++ (dumps compact v ++ ['\n'])) =
          some (lines ++ [dumps compact v]) := by
    intro text
    induction text with
    | nil =>
        intro part lines hread
        rw [linesFrom] at hread
        by_cases hpart : part = []
        · rw [if_pos hpart, Option.some.injEq] at hread
          subst hpart
          subst hread
          rw [List.nil_append, linesFrom_line (no_newline_dumps v)]
          rfl
        · rw [if_neg hpart] at hread
          cases hread
    | cons c text ih =>
        intro part lines hread
        rw [linesFrom] at hread
        rw [List.cons_append, linesFrom]
        by_cases hc : c = '\n'
        · rw [if_pos hc] at hread ⊢
          obtain ⟨rest, hrest, rfl⟩ := Option.map_eq_some_iff.mp hread
          rw [ih [] rest hrest]
          rfl
        · rw [if_neg hc] at hread ⊢
          exact ih _ lines hread
  obtain ⟨lines, hread, hloads⟩ := Option.bind_eq_some_iff.mp h
  rw [readLog, hlines text [] lines hread, Option.bind_some, List.mapM_append, hloads]
  simp only [List.mapM_cons, loads_dumps, List.mapM_nil]
  rfl

/-- The files hold these records, in their order. -/
def Holds (files : Files) (records : List Value) : Prop :=
  ∃ groups last, files.earlier.mapM readLog = some groups ∧ readLog files.current = some last ∧
    groups.flatten ++ last = records

/-- The record an event adds. -/
def added : Event → List Value
  | .log call =>
      match recordOf call with
      | .ok record => [record]
      | .error _ => []
  | .rotate => []

theorem holds_step {files : Files} {records : List Value} (h : Holds files records) (e : Event) :
    Holds (files.step e) (records ++ added e) := by
  obtain ⟨groups, last, hearlier, hcurrent, rfl⟩ := h
  cases e with
  | log call =>
      rcases hrecord : recordOf call with e | record
      · simp only [Files.step, added, hrecord, List.append_nil]
        exact ⟨groups, last, hearlier, hcurrent, rfl⟩
      · simp only [Files.step, added, hrecord]
        exact ⟨groups, last ++ [record], hearlier, readLog_append hcurrent record,
          (List.append_assoc _ _ _).symm⟩
  | rotate =>
      refine ⟨groups ++ [last], [], ?_, rfl, ?_⟩
      · simp only [Files.step, List.mapM_append, hearlier, List.mapM_cons, hcurrent, List.mapM_nil]
        rfl
      · simp only [added, List.flatten_append, List.flatten_singleton, List.append_nil]

theorem holds_run (events : List Event) : Holds (run events) (events.flatMap added) := by
  have hfrom : ∀ (events : List Event) (files : Files) (records : List Value),
      Holds files records → Holds (events.foldl Files.step files)
        (records ++ events.flatMap added) := by
    intro events
    induction events with
    | nil =>
        intro files records h
        rw [List.flatMap_nil, List.append_nil]
        exact h
    | cons e events ih =>
        intro files records h
        rw [List.foldl_cons, List.flatMap_cons, ← List.append_assoc]
        exact ih _ _ (holds_step h e)
  exact hfrom events ⟨[], []⟩ [] ⟨[], [], rfl, rfl, rfl⟩

/-! ## 4. What a record says -/

/-- A name of a dict that was printed is looked up in the dict. -/
theorem member_entries (d : OrderedDict String Value) (key : String) :
    (Value.obj d.entries).member key = d.get? key := by
  have hnodup : (d.entries.reverse.map Prod.fst).Nodup := by
    rw [List.map_reverse, List.nodup_reverse]
    exact d.nodup
  apply Option.ext
  intro v
  rw [OrderedDict.get?_eq_some_iff, ← List.mem_reverse, Value.member]
  constructor
  · exact mem_of_lookup
  · intro hmem
    rcases hlookup : d.entries.reverse.lookup key with _ | w
    · have hne := List.lookup_eq_none_iff.mp hlookup (key, v) hmem
      exact absurd rfl (bne_iff_ne.mp hne)
    · rw [OrderedDict.entry_unique hnodup hmem (mem_of_lookup hlookup)]

theorem get?_update_other {extras : List (String × Value)} {key : String}
    (h : key ∉ extras.map Prod.fst) (record : OrderedDict String Value) :
    (update record extras).get? key = record.get? key := by
  induction extras generalizing record with
  | nil => rfl
  | cons extra extras ih =>
      rw [List.map_cons, List.mem_cons, not_or] at h
      rw [update, List.foldl_cons]
      exact (ih h.2 _).trans (OrderedDict.get?_set_ne _ _ h.1)

theorem get?_update_mem {extras : List (String × Value)} (hnodup : (extras.map Prod.fst).Nodup)
    {key : String} {v : Value} (h : (key, v) ∈ extras) (record : OrderedDict String Value) :
    (update record extras).get? key = some v := by
  induction extras generalizing record with
  | nil => cases h
  | cons extra extras ih =>
      rw [List.map_cons, List.nodup_cons] at hnodup
      rw [update, List.foldl_cons]
      rcases List.mem_cons.mp h with rfl | hmem
      · exact (get?_update_other hnodup.1 _).trans (OrderedDict.get?_set_self _ _ _)
      · exact ih hnodup.2 hmem _

/-- A scalar keeps its key. -/
theorem scalar_key {key : String} {extra : Extra} {out : String × Value}
    (h : scalar key extra = .ok out) : out.1 = key := by
  cases extra <;> cases h <;> rfl

/-- The checked extras, one by one. -/
theorem mapM_scalar {entries : List (String × Extra)} {out : List (String × Value)}
    (h : (entries.mapM fun (key, value) => scalar key value) = .ok out) :
    out.map Prod.fst = entries.map Prod.fst ∧
      ∀ key extra, (key, extra) ∈ entries →
        ∃ v, scalar key extra = .ok (key, v) ∧ (key, v) ∈ out := by
  induction entries generalizing out with
  | nil =>
      cases h
      exact ⟨rfl, fun _ _ hmem => by cases hmem⟩
  | cons entry entries ih =>
      rw [List.mapM_cons] at h
      rcases hfirst : scalar entry.1 entry.2 with e | first
      · simp only [hfirst] at h
        cases h
      rcases hrest : (entries.mapM fun (key, value) => scalar key value) with e | rest
      · simp only [hfirst, hrest] at h
        cases h
      simp only [hfirst, hrest] at h
      cases h
      obtain ⟨hkeys, hvalues⟩ := ih hrest
      have hkey := scalar_key hfirst
      refine ⟨by rw [List.map_cons, List.map_cons, hkeys, hkey], fun key extra hmem => ?_⟩
      rcases List.mem_cons.mp hmem with heq | hmem
      · subst heq
        obtain ⟨key', v⟩ := first
        cases hkey
        exact ⟨v, hfirst, List.mem_cons_self⟩
      · obtain ⟨v, hscalar, hv⟩ := hvalues key extra hmem
        exact ⟨v, hscalar, List.mem_cons_of_mem _ hv⟩

/-- Accepted extras: none of their keys is forbidden. -/
theorem checkExtras_some {extras : Extras} {out : List (String × Value)}
    (h : checkExtras (some extras) = .ok out) :
    (∀ key ∈ forbiddenKeys, key ∉ extras.keys) ∧
      (extras.entries.mapM fun (key, value) => scalar key value) = .ok out := by
  unfold checkExtras at h
  by_cases hbad : (forbiddenKeys.filter fun key => key ∈ extras.keys) ≠ []
  · simp only [if_pos hbad] at h
    cases h
  · simp only [if_neg hbad] at h
    refine ⟨fun key hkey hmem => ?_, h⟩
    have hnone := List.filter_eq_nil_iff.mp (not_not.mp hbad) key hkey
    exact hnone (decide_eq_true hmem)

/-- A record says what the call says. -/
structure Faithful (call : Call) (record : Value) : Prop where
  /-- An extra stands under its key, also where the record has a field of that name. -/
  extra : ∀ extras, call.extras = some extras → ∀ key extra, extras.get? key = some extra →
    ∃ v, scalar key extra = .ok (key, v) ∧ record.member key = some v
  field : ∀ key, (∀ extras, call.extras = some extras → key ∉ extras.keys) →
    record.member key = (fields call).get? key
  clean : ∀ key ∈ forbiddenKeys, record.member key = none

theorem faithful_recordOf {call : Call} {record : Value} (h : recordOf call = .ok record) :
    Faithful call record := by
  unfold recordOf at h
  rcases hcheck : checkExtras call.extras with e | out
  · rw [hcheck] at h
    cases h
  rw [hcheck] at h
  cases h
  have hclean : ∀ key ∈ forbiddenKeys, (fields call).get? key = none := by
    intro key hkey
    have hkeys : ∀ key ∈ forbiddenKeys, key ∉ ["ts", "ip", "user", "action", "target", "result",
        "error_code", "error_id"] := by decide
    rcases hvalue : (fields call).get? key with _ | v
    · rfl
    · exact absurd (OrderedDict.mem_keys.mpr ⟨v, hvalue⟩) (hkeys key hkey)
  rcases hextras : call.extras with _ | extras
  · rw [hextras] at hcheck
    cases hcheck
    refine ⟨fun _ hsome => ?_, fun key _ => ?_, fun key hkey => ?_⟩
    · rw [hextras] at hsome
      cases hsome
    · exact member_entries (fields call) key
    · exact (member_entries (fields call) key).trans (hclean key hkey)
  · rw [hextras] at hcheck
    obtain ⟨hforbidden, hmap⟩ := checkExtras_some hcheck
    obtain ⟨hkeys, hvalues⟩ := mapM_scalar hmap
    have hnodup : (out.map Prod.fst).Nodup := hkeys ▸ extras.nodup
    refine ⟨fun other hother key extra hextra => ?_, fun key hother => ?_, fun key hkey => ?_⟩
    · rw [hextras, Option.some.injEq] at hother
      subst hother
      obtain ⟨v, hscalar, hmem⟩ := hvalues key extra (OrderedDict.get?_eq_some_iff.mp hextra)
      exact ⟨v, hscalar, (member_entries _ key).trans (get?_update_mem hnodup hmem _)⟩
    · have hnot : key ∉ out.map Prod.fst := hkeys ▸ hother extras hextras
      exact (member_entries _ key).trans (get?_update_other hnot _)
    · have hnot : key ∉ out.map Prod.fst := hkeys ▸ hforbidden key hkey
      exact (member_entries _ key).trans ((get?_update_other hnot _).trans (hclean key hkey))

/-- A call is accepted if no key is forbidden and every value is a scalar. -/
def Acceptable (call : Call) : Prop :=
  ∀ extras, call.extras = some extras → (∀ key ∈ forbiddenKeys, key ∉ extras.keys) ∧
    ∀ key typeName, extras.get? key ≠ some (.other typeName)

theorem mapM_scalar_ok {entries : List (String × Extra)}
    (h : ∀ key typeName, (key, Extra.other typeName) ∉ entries) :
    ∃ out, (entries.mapM fun (key, value) => scalar key value) = .ok out := by
  induction entries with
  | nil => exact ⟨[], rfl⟩
  | cons entry entries ih =>
      obtain ⟨key, extra⟩ := entry
      obtain ⟨rest, hrest⟩ := ih fun key typeName hmem =>
        h key typeName (List.mem_cons_of_mem _ hmem)
      obtain ⟨first, hfirst⟩ : ∃ first, scalar key extra = .ok first := by
        cases extra with
        | other typeName => exact absurd List.mem_cons_self (h key typeName)
        | _ => exact ⟨_, rfl⟩
      refine ⟨first :: rest, ?_⟩
      rw [List.mapM_cons]
      simp only [hfirst, hrest]
      rfl

theorem accepted_iff (call : Call) : (∃ record, recordOf call = .ok record) ↔ Acceptable call := by
  constructor
  · rintro ⟨record, h⟩ extras hextras
    unfold recordOf at h
    rcases hcheck : checkExtras call.extras with e | out
    · rw [hcheck] at h
      cases h
    rw [hextras] at hcheck
    obtain ⟨hforbidden, hmap⟩ := checkExtras_some hcheck
    refine ⟨hforbidden, fun key typeName hother => ?_⟩
    obtain ⟨v, hscalar, -⟩ :=
      (mapM_scalar hmap).2 key (.other typeName) (OrderedDict.get?_eq_some_iff.mp hother)
    cases hscalar
  · intro h
    rcases hextras : call.extras with _ | extras
    · exact ⟨_, by rw [recordOf, hextras]; rfl⟩
    · obtain ⟨hforbidden, hscalars⟩ := h extras hextras
      have hbad : ¬ (forbiddenKeys.filter fun key => key ∈ extras.keys) ≠ [] := by
        rw [not_not, List.filter_eq_nil_iff]
        exact fun key hkey hmem => hforbidden key hkey (of_decide_eq_true hmem)
      obtain ⟨out, hout⟩ := @mapM_scalar_ok extras.entries fun key typeName hmem =>
        hscalars key typeName (OrderedDict.get?_eq_some_iff.mpr hmem)
      have hcheck : checkExtras (some extras) = .ok out := by
        simp only [checkExtras, if_neg hbad, hout]
      exact ⟨_, by rw [recordOf, hextras, hcheck]; rfl⟩

/-- **The log is read back.**  Whatever calls are made and whenever the file is moved away, the
    lines of the files are the records of the accepted calls, in order. -/
theorem audit_log_readable (events : List Event) :
    (∃ groups, ((run events).earlier ++ [(run events).current]).mapM readLog = some groups ∧
      groups.flatten = events.flatMap added) ∧
      ∀ call, ((∃ record, recordOf call = .ok record) ↔ Acceptable call) ∧
        ∀ record, recordOf call = .ok record → Faithful call record := by
  obtain ⟨groups, last, hearlier, hcurrent, hrecords⟩ := holds_run events
  refine ⟨⟨groups ++ [last], ?_, ?_⟩, fun call => ⟨accepted_iff call, fun record => ?_⟩⟩
  · rw [List.mapM_append, hearlier]
    simp only [List.mapM_cons, hcurrent, List.mapM_nil]
    rfl
  · rw [List.flatten_append, List.flatten_singleton, hrecords]
  · exact faithful_recordOf

/-- A user name with a line break in it. -/
def brokenName : Call :=
  { ts := "2026-01-01T00:00:00+00:00", action := "login", ip := "::1", user := some "a\r\nb",
    result := "fail", target := none, errorCode := none, errorId := none, extras := none }

example : (run [.log brokenName]).current.count '\n' = 1 := by decide +kernel

end FundingTool.AuditLog
