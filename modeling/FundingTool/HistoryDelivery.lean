import FundingTool.HistoryPayload

/-!
# The delivery of a history (`web/routes/history.py`)

`_job` dumps the payload of its result into the task manager, `history_result` takes it out of
the manager's memory or of a file, validates it once more and answers with it.  The manager is
the one on texts, in which processes end and writes fail with any part of a file written.

`history_delivered`: of a job that has returned, the route answers the payload of its own result,
the same from memory and from a file, and with every amount; it never fails to validate.
-/

namespace FundingTool.HistoryDelivery

open FundingTool.TransitionSystem FundingTool.TaskRestart FundingTool.TaskSnapshots
open FundingTool.TaskFiles FundingTool.WebModels FundingTool.JsonText
open FundingTool.AccountHistory (HistoryResult)
open FundingTool.Backtest (DateTime)
open FundingTool.IsoFormat

/-! ## 1. The route -/

/-- A literal with no digit but zeros before its exponent. -/
def isZero (n : Number) : Bool :=
  (n.literal.takeWhile fun c => c ≠ 'e' && c ≠ 'E').all fun c => !('1' ≤ c && c ≤ '9')

/-- `bool(value)` -/
def truthy : Value → Bool
  | .word .null => false
  | .word .false => false
  | .word _ => true
  | .num n => !isZero n
  | .str s => s ≠ ""
  | .arr items => !items.isEmpty
  | .obj members => !members.isEmpty

structure HistoryTaskStatus where
  status : String
  progress : Option (OrderedDict String Int)
  result : Option HistoryPayload
  error : Option (OrderedDict String String)

/-- `Literal["pending", "running", "done", "failed"]` -/
def readStatus : Value → Option String
  | .str s => if s ∈ ["pending", "running", "done", "failed"] then some s else none
  | _ => none

/-- `T | None`, of what `get` finds. -/
def readOptional {α : Type} (read : Value → Option α) : Option Value → Option (Option α)
  | none => some none
  | some (.word .null) => some none
  | some v => (read v).map some

/-- `HistoryPayload.model_validate(st["result"]) if st.get("result") else None` -/
def readResult (pyd : Pydantic) : Option Value → Option (Option HistoryPayload)
  | some v => if truthy v then (pyd.validate v).map some else some none
  | none => some none

/-- `HistoryTaskStatus(...)` of a status dict with this status. -/
def taskStatus (pyd : Pydantic) (st status : Value) : Option HistoryTaskStatus := do
  let result ← readResult pyd (st.member "result")
  let status ← readStatus status
  let progress ← readOptional (readDict pyd.readInt) (st.member "progress")
  let error ← readOptional (readDict readStr) (st.member "error")
  return ⟨status, progress, result, error⟩

/-- The body of the response. -/
def HistoryTaskStatus.body (pyd : Pydantic) (m : HistoryTaskStatus) : Value :=
  .obj [("status", .str m.status),
    ("progress", optional (fun d => .obj (d.map fun n => .num (.ofInt n)).entries) m.progress),
    ("result", optional (fun p => .obj (pyd.dump p)) m.result),
    ("error", optional (fun d => .obj (d.map Value.str).entries) m.error)]

inductive Failure
  /-- `HTTPException(status_code=404)` -/
  | notFound
  /-- An exception no handler is for: 500. -/
  | unhandled (type : String)
deriving DecidableEq, Repr

def historyResult (clock : Clock) (pyd : Pydantic) (c : DiskServer) (taskId : String) :
    Except Failure Value :=
  match c.statusOf clock taskId with
  | .error (.keyError _) => .error .notFound
  | .error .jsonDecodeError => .error (.unhandled "JSONDecodeError")
  | .ok st =>
      match st.member "status" with
      | none => .error (.unhandled "KeyError")
      | some status =>
          match taskStatus pyd st status with
          | some m => .ok (m.body pyd)
          | none => .error (.unhandled "ValidationError")

/-! ## 2. The jobs -/

/-- How `run_account_history` ends. -/
abbrev Run := Except BaseException (HistoryResult Decimal)

/-- `_job` -/
def job (pyd : Pydantic) : Run → JobEnd Payload
  | .error e => .raised e
  | .ok r =>
      match toHistoryPayload r with
      | some p => .returned (some (pyd.dump p))
      | none => .raised (.other "ValidationError" (pyd.complaint r))

/-- Every task has a run of its own, and its job ends with it; none is cancelled. -/
def Running (pyd : Pydantic) (jobs : String → Run) (c : DiskServer) (a : DiskAct) : Prop :=
  DiskUncancelled c a ∧ ∀ taskId errorId outcome,
    a = .server (.finish taskId errorId outcome) → outcome = job pyd (jobs taskId)

/-- The body of a task without progress. -/
def bodyOf (status : String) (result error : Value) : Value :=
  .obj [("status", .str status), ("progress", .null), ("result", result), ("error", error)]

/-- What may be answered of a task, before its job has ended and from then on. -/
inductive Answered (pyd : Pydantic) (run : Run) : Bool → Value → Prop
  | running : Answered pyd run false (bodyOf "running" .null .null)
  | done {r : HistoryResult Decimal} {p : HistoryPayload} (hrun : run = .ok r)
      (hpayload : toHistoryPayload r = some p) :
      Answered pyd run true (bodyOf "done" (.obj (pyd.dump p)) .null)
  | failed {e : BaseException} {errorId : String} (hend : job pyd run = .raised e) :
      Answered pyd run true (bodyOf "failed" .null
        (errorValue ⟨(mapCoreException errorId e).code, (mapCoreException errorId e).message⟩))

/-! ## 3. What the status entries hold -/

/-- `progress` is never set. -/
structure Unprogressed (v : View Payload) : Prop where
  entry : ∀ entry, v.entry = some entry → entry.progress = none
  writing : ∀ entry, v.stage = some (.writing entry) → entry.progress = none
  file : ∀ entry, v.file = some (.document entry) → entry.progress = none

theorem progress_record (errorId : String) (entry : Snapshot Payload) (ending : JobEnd Payload) :
    (TaskManager.record errorId entry ending).progress = entry.progress := by
  cases ending with
  | returned result => rfl
  | raised e =>
      simp only [TaskManager.record]
      split <;> rfl

theorem unprogressed_advance {taskId : String} {a : ServerAct Payload} {v v' : View Payload}
    (h : Unprogressed v) (hadvance : Advance taskId a v v') : Unprogressed v' := by
  cases hadvance with
  | frame => exact h
  | submit now =>
      refine ⟨?_, fun _ hstage => (by cases hstage), h.file⟩
      intro entry hentry
      cases hentry
      rfl
  | start => exact ⟨h.entry, fun _ hstage => (by cases hstage), h.file⟩
  | drop => exact ⟨h.entry, fun _ hstage => (by cases hstage), h.file⟩
  | finish errorId ending =>
      refine ⟨?_, fun _ hstage => (by cases hstage), h.file⟩
      intro entry hentry
      cases hentry
      rw [progress_record]
      exact h.entry _ rfl
  | openFile =>
      refine ⟨h.entry, ?_, fun _ hfile => (by cases hfile)⟩
      intro entry hstage
      cases hstage
      exact h.entry _ rfl
  | writeFile =>
      refine ⟨h.entry, fun _ hstage => (by cases hstage), ?_⟩
      intro entry hfile
      cases hfile
      exact h.writing _ rfl
  | failOpen => exact ⟨h.entry, fun _ hstage => (by cases hstage), h.file⟩
  | failWrite => exact ⟨h.entry, fun _ hstage => (by cases hstage), h.file⟩
  | sweep now hwhole => exact ⟨h.entry, h.writing, fun _ hfile => (by cases hfile)⟩
  | restart =>
      exact ⟨fun _ hentry => (by cases hentry), fun _ hstage => (by cases hstage), h.file⟩

theorem unprogressed_reaches {ttl : Int} {s : Server Payload}
    (h : Reaches serverStep Uncancelled (.fresh ttl) s) (taskId : String) :
    Unprogressed (s.view taskId) := by
  induction h with
  | start => constructor <;> intro _ heq <;> cases heq
  | step _ _ hstep ih => exact unprogressed_advance ih (serverStep_view hstep taskId)

theorem progress_answered {s : Server Payload} {taskId : String} (h : Unprogressed (s.view taskId))
    {entry : Snapshot Payload} (hanswer : s.manager.statusOf s.dir taskId = .ok entry) :
    entry.progress = none := by
  rcases TaskExpiry.statusOf_ok hanswer with hentry | ⟨-, hfile⟩
  · exact h.entry entry hentry
  · exact h.file entry hfile

section Runs

variable {clock : Clock} {pyd : Pydantic} {jobs : String → Run} {ttl : Int} {c c' : DiskServer}

/-- Only a job's end is an outcome. -/
theorem outcomes_step {a : DiskAct} (h : diskStep clock c a = some c') :
    c'.outcomes = c.outcomes ∨ ∃ taskId errorId outcome,
      a = .server (.finish taskId errorId outcome) ∧
        c'.outcomes = c.outcomes.set taskId outcome := by
  cases a with
  | flush taskId count =>
      obtain ⟨_, -, rfl⟩ := Option.map_eq_some_iff.mp h
      exact .inl rfl
  | server a =>
      cases a with
      | submit taskId now =>
          simp only [diskStep] at h
          split at h
          · cases h
          · cases h
            exact .inl rfl
      | cleanupExpired now =>
          cases h
          exact .inl rfl
      | restart =>
          cases h
          exact .inl rfl
      | finish taskId errorId outcome =>
          obtain ⟨_, -, rfl⟩ := Option.map_eq_some_iff.mp h
          exact .inr ⟨taskId, errorId, outcome, rfl, rfl⟩
      | _ =>
          obtain ⟨_, -, rfl⟩ := Option.map_eq_some_iff.mp h
          exact .inl rfl

theorem outcome_reaches (h : Reaches (diskStep clock) (Running pyd jobs) (.fresh ttl) c)
    {taskId : String} {outcome : JobEnd Payload} (ho : c.outcomes.get? taskId = some outcome) :
    outcome = job pyd (jobs taskId) := by
  induction h with
  | start => cases ho
  | step _ hallowed hstep ih =>
      rcases outcomes_step hstep with hsame | ⟨other, errorId, ending, ha, hset⟩
      · exact ih (hsame ▸ ho)
      · rw [hset, OrderedDict.get?_set] at ho
        split at ho
        · next heq =>
            cases ho
            rw [heq]
            exact hallowed.2 other errorId _ ha
        · exact ih ho

/-! ## 4. What the route makes of an entry -/

/-- The entry of a task without a result. -/
theorem historyResult_blank {taskId : String} {entry : Snapshot Payload}
    (h : c.statusOf clock taskId = .ok (document clock entry)) (hprogress : entry.progress = none)
    (hresult : entry.result = none) :
    historyResult clock pyd c taskId =
      .ok (bodyOf (statusText entry.status) .null (optional errorValue entry.error)) := by
  obtain ⟨status, progress, result, error, created⟩ := entry
  obtain rfl : progress = none := hprogress
  obtain rfl : result = none := hresult
  rw [historyResult, h]
  cases status <;> cases error <;> rfl

/-- The entry of a task with a payload. -/
theorem historyResult_payload {taskId : String} {entry : Snapshot Payload} {p : HistoryPayload}
    (h : c.statusOf clock taskId = .ok (document clock entry)) (hprogress : entry.progress = none)
    (hresult : entry.result = some (pyd.dump p)) (herror : entry.error = none) (hvalid : p.Valid) :
    historyResult clock pyd c taskId =
      .ok (bodyOf (statusText entry.status) (.obj (pyd.dump p)) .null) := by
  obtain ⟨status, progress, result, error, created⟩ := entry
  obtain rfl : progress = none := hprogress
  obtain rfl : result = some (pyd.dump p) := hresult
  obtain rfl : error = none := herror
  let st : Value := document clock ⟨status, none, some (pyd.dump p), none, created⟩
  have hread : readResult pyd (st.member "result") = some (some p.rescaled) := by
    change (pyd.validate (.obj (pyd.dump p))).map some = _
    rw [validate_dump hvalid]
    rfl
  have hmodel : taskStatus pyd st (.str (statusText status)) =
      some ⟨statusText status, none, some p.rescaled, none⟩ := by
    rw [taskStatus, hread]
    cases status <;> rfl
  have hbody : (HistoryTaskStatus.mk (statusText status) none (some p.rescaled) none).body pyd =
      bodyOf (statusText status) (.obj (pyd.dump p)) .null := by
    rw [← dump_rescaled p]
    rfl
  rw [historyResult, h]
  change (match taskStatus pyd st (.str (statusText status)) with
    | some m => Except.ok (m.body pyd)
    | none => .error (Failure.unhandled "ValidationError")) = _
  rw [hmodel]
  exact congrArg Except.ok hbody

/-- **An entry that agrees with its job is answered.** -/
theorem answered_agrees {taskId : String} {entry : Snapshot Payload} {run : Run}
    (h : c.statusOf clock taskId = .ok (document clock entry)) (hprogress : entry.progress = none)
    {outcome : Option (JobEnd Payload)} (hagrees : Agrees outcome entry)
    (houtcome : ∀ ending, outcome = some ending → ending = job pyd run)
    (hrange : ∀ r, run = .ok r → ResultInRange r) :
    ∃ v, historyResult clock pyd c taskId = .ok v ∧ Answered pyd run outcome.isSome v := by
  rcases outcome with _ | ending
  · obtain ⟨hstatus, hresult, herror⟩ := hagrees
    refine ⟨_, historyResult_blank h hprogress hresult, ?_⟩
    rw [hstatus, herror]
    exact .running
  have hend := houtcome ending rfl
  rcases ending with result | e
  · obtain ⟨hstatus, hresult, herror⟩ := hagrees
    rcases run with e | r
    · cases hend
    simp only [job] at hend
    split at hend
    · next p hpayload =>
        obtain rfl := JobEnd.returned.inj hend
        have hvalid := valid_of_result hpayload (hrange r rfl)
        refine ⟨_, historyResult_payload h hprogress hresult herror hvalid, ?_⟩
        rw [hstatus]
        exact .done rfl hpayload
    · cases hend
  · obtain ⟨hstatus, hresult, errorId, herror⟩ := hagrees
    refine ⟨_, historyResult_blank h hprogress hresult, ?_⟩
    rw [hstatus, herror]
    exact .failed hend.symm

/-! ## 5. The delivery -/

/-- What a client is told of a task. -/
structure Delivered (clock : Clock) (pyd : Pydantic) (jobs : String → Run) (c : DiskServer)
    (taskId : String) : Prop where
  answered : ∀ v, historyResult clock pyd c taskId = .ok v →
    Answered pyd (jobs taskId) (c.outcomes.get? taskId).isSome v
  /-- A task of this process is answered. -/
  current : taskId ∈ c.issued → taskId ∉ c.earlier →
    ∃ v, historyResult clock pyd c taskId = .ok v
  /-- What is not answered has no task, or a file that was cut off. -/
  unhandled : ∀ type, historyResult clock pyd c taskId = .error (.unhandled type) →
    type = "JSONDecodeError" ∧ taskId ∈ c.earlier
  /-- A result that is shown is read as that of the task's own run, with every amount. -/
  amounts : ∀ v members, historyResult clock pyd c taskId = .ok v →
    v.member "result" = some (.obj members) →
      ∃ r q, jobs taskId = .ok r ∧ pyd.validate (.obj members) = some q ∧ SameAmounts q r

/-- What the manager answers, the route answers. -/
theorem answered_reaches (h : Reaches (diskStep clock) (Running pyd jobs) (.fresh ttl) c)
    (hrange : ∀ taskId r, jobs taskId = .ok r → ResultInRange r) {taskId : String} {st : Value}
    (hst : c.statusOf clock taskId = .ok st) :
    ∃ v, historyResult clock pyd c taskId = .ok v ∧
      Answered pyd (jobs taskId) (c.outcomes.get? taskId).isSome v := by
  have hdisk := h.mono fun _ _ hallowed => hallowed.1
  obtain ⟨files, entry, hreach, rfl, hanswer⟩ := answered_entry hdisk hst
  have hprogress := progress_answered (unprogressed_reaches hreach taskId) hanswer
  have hagrees := (sound_reaches hreach).agrees hanswer
  exact answered_agrees hst hprogress hagrees (fun _ ho => outcome_reaches h ho) (hrange taskId)

/-- **A job's own result is delivered**, from memory and from a file, whatever else happens. -/
theorem history_delivered (h : Reaches (diskStep clock) (Running pyd jobs) (.fresh ttl) c)
    (hrange : ∀ taskId r, jobs taskId = .ok r → ResultInRange r) (taskId : String) :
    Delivered clock pyd jobs c taskId := by
  have hdisk := h.mono fun _ _ hallowed => hallowed.1
  have hanswered : ∀ v, historyResult clock pyd c taskId = .ok v →
      Answered pyd (jobs taskId) (c.outcomes.get? taskId).isSome v := by
    intro v hv
    rcases hst : c.statusOf clock taskId with e | st
    · rw [historyResult, hst] at hv
      cases e <;> cases hv
    · obtain ⟨v', hv', hanswer⟩ := answered_reaches h hrange hst
      obtain rfl := Except.ok.inj (hv.symm.trans hv')
      exact hanswer
  refine ⟨hanswered, ?_, ?_, ?_⟩
  · intro hissued hearlier
    obtain ⟨st, hst⟩ := current_answered hdisk hissued hearlier
    obtain ⟨v, hv, -⟩ := answered_reaches h hrange hst
    exact ⟨v, hv⟩
  · intro type herror
    rcases hst : c.statusOf clock taskId with e | st
    · cases e with
      | keyError other =>
          rw [historyResult, hst] at herror
          cases herror
      | jsonDecodeError =>
          have hearlier := (unreadable_torn hdisk hst).1
          rw [historyResult, hst] at herror
          cases herror
          exact ⟨rfl, hearlier⟩
    · obtain ⟨v, hv, -⟩ := answered_reaches h hrange hst
      cases hv.symm.trans herror
  · intro v members hv hmember
    have hanswer := hanswered v hv
    generalize hrun : jobs taskId = run at hanswer
    generalize (c.outcomes.get? taskId).isSome = ended at hanswer
    cases hanswer with
    | running => cases hmember
    | @done r p hok hpayload =>
        obtain rfl : pyd.dump p = members := Value.obj.inj (Option.some.inj hmember)
        refine ⟨r, p.rescaled, hok, ?_, sameAmounts_rescaled hpayload⟩
        exact validate_dump (valid_of_result hpayload (hrange taskId r (hrun.trans hok)))
    | failed => cases hmember

end Runs

/-- How UTC and wall clocks are printed. -/
def printIso : DateTime → String
  | .aware instant => String.ofList (wallText instant ++ ['Z'])
  | .naive wall => String.ofList (wallText wall)

/-- A wall clock takes 19 or 26 characters. -/
def readIsoText (text : List Char) : DateTime :=
  if text.length % 7 = 6 then .aware (readIso (text.dropLast ++ "+00:00".toList))
  else .naive (readIso (text ++ "+00:00".toList))

theorem readIsoText_printIso {t : DateTime} (h : TimeInRange t) :
    readIsoText (printIso t).toList = t := by
  cases t with
  | aware instant =>
      have hlength : (wallText instant ++ ['Z']).length % 7 = 6 := by
        rw [List.length_append]
        rcases wallText_length instant with h | h <;> rw [h] <;> rfl
      rw [printIso, String.toList_ofList, readIsoText, if_pos hlength, List.dropLast_concat]
      exact congrArg DateTime.aware (readIso_isoformat h)
  | naive wall =>
      have hlength : ¬ (wallText wall).length % 7 = 6 := by
        rcases wallText_length wall with h | h <;> rw [h] <;> decide
      rw [printIso, String.toList_ofList, readIsoText, if_neg hlength]
      exact congrArg DateTime.naive (readIso_isoformat (show InRange wall from h))

/-- `pydantic` on texts. -/
def onTexts : Pydantic where
  printTime := printIso
  readTime
    | .str text => some (readIsoText text.toList)
    | _ => none
  readDecimal
    | .str text => (Decimal.ofText text).filter isFinite
    | _ => none
  readInt
    | .num n => some (readInt n.literal)
    | _ => none
  complaint _ := "Input should be a finite number"
  readTime_print _ h := congrArg some (readIsoText_printIso h)
  readDecimal_text _ := rfl

def btc : OrderedDict String Decimal := OrderedDict.empty.set "BTCUSDT" (.finite false 1 2)

def january : OrderedDict String Decimal := OrderedDict.empty.set "2026-01" (.finite false 1 2)

/-- One payment, whose amount the exchange has written as `1E+2`. -/
def oneHundred : HistoryResult Decimal :=
  ⟨.aware 1767225600000000, .aware 1767312000000000,
    [⟨1767229200500000, "BTCUSDT", .finite false 1 2, "7"⟩], .finite false 1 2, btc, january⟩

def hundredPayload : HistoryPayload :=
  ⟨oneHundred.start, oneHundred.stop, oneHundred.total, btc, january,
    [⟨.aware 1767229200500000, "BTCUSDT", .finite false 1 2, "7"⟩]⟩

def hundredEntry : Snapshot Payload :=
  ⟨.done, none, some (onTexts.dump hundredPayload), none, 1767312000⟩

def keptOnDisk : List DiskAct :=
  [.server (.submit "t1" 1767312000), .server (.start "t1"),
    .server (.finish "t1" "e1" (job onTexts (.ok oneHundred))), .server (.openFile "t1"),
    .server (.writeFile "t1"), .server .restart]

/-- What a client receives of it. -/
def shownOnDisk : List Char :=
  "\x7b\"status\": \"done\", \"progress\": null, \"result\": \x7b\"start\": ".toList ++
    "\"2026-01-01T00:00:00Z\", \"end\": \"2026-01-02T00:00:00Z\", \"total\": \"100\", ".toList ++
    "\"by_symbol\": \x7b\"BTCUSDT\": \"100\"\x7d, ".toList ++
    "\"by_month\": \x7b\"2026-01\": \"100\"\x7d, \"records\": [\x7b\"timestamp\": ".toList ++
    "\"2026-01-01T01:00:00.500000Z\", \"symbol\": \"BTCUSDT\", \"amount_usdt\": ".toList ++
    "\"100\", \"tran_id\": \"7\"\x7d]\x7d, \"error\": null\x7d".toList

/-- Where it leaves the disk. -/
def afterRestart : DiskServer :=
  (play (diskStep wholeSeconds) DiskUncancelled (.fresh 3600) keptOnDisk).get (by decide +kernel)

theorem history_delivered_rescaled :
    Delivered wholeSeconds onTexts (fun _ => .ok oneHundred) afterRestart "t1" ∧
      (historyResult wholeSeconds onTexts afterRestart "t1").toOption.map (dumps .plain) =
        some shownOnDisk := by
  have hreach : Reaches (diskStep wholeSeconds) (Running onTexts fun _ => .ok oneHundred)
      (.fresh 3600) afterRestart := by
    refine play_reaches_of ?_ (Option.some_get _).symm
    intro a ha s hallowed
    refine ⟨hallowed, ?_⟩
    rintro taskId errorId outcome rfl
    simp only [keptOnDisk, List.mem_cons, reduceCtorEq, DiskAct.server.injEq,
      ServerAct.finish.injEq, List.not_mem_nil, or_false, false_or] at ha
    exact ha.2.2
  have hrange : ResultInRange oneHundred := by
    have hstart : InRange 1767225600000000 := by decide +kernel
    have hstop : InRange 1767312000000000 := by decide +kernel
    exact ⟨hstart, hstop, by decide +kernel⟩
  have hdelivered : Delivered wholeSeconds onTexts (fun _ => .ok oneHundred) afterRestart "t1" := by
    refine history_delivered hreach ?_ "t1"
    rintro taskId r hr
    cases hr
    exact hrange
  refine ⟨hdelivered, ?_⟩
  -- The file is read by `loads_text`.
  have hmemory : (afterRestart.manager.status.get? "t1").isNone = true := by decide +kernel
  have hfile : afterRestart.dir.get? "t1" = some (text wholeSeconds hundredEntry) := by
    decide +kernel
  have hstatus : afterRestart.statusOf wholeSeconds "t1" =
      .ok (document wholeSeconds hundredEntry) := by
    rw [DiskServer.statusOf, Option.isNone_iff_eq_none.mp hmemory, hfile]
    simp only [loads_text]
  have hvalid : hundredPayload.Valid := valid_of_result (r := oneHundred) rfl hrange
  rw [historyResult_payload hstatus rfl rfl rfl hvalid]
  change some (dumps .plain (bodyOf "done" (.obj (onTexts.dump hundredPayload)) .null)) = _
  exact congrArg some (by decide +kernel)

end FundingTool.HistoryDelivery
