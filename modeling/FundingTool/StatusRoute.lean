import FundingTool.TaskFiles
import FundingTool.TaskPoll

/-!
# `GET /api/history/result/{task_id}` (`web/routes/history.py`, `web/main.py`)

The path of `useTaskPoll` arrives percent-encoded and is decoded before it is matched.  The
route answers with the task's snapshot, or raises; the handlers of the app make an envelope of
what is raised, and `api.ts` takes the error out of it again.

`taskIdOf_resultPath`: the route sees the task id the page has asked for.
-/

namespace FundingTool.StatusRoute

open FundingTool.Http (Json)
open FundingTool.Api (ApiResult Phase parseError isOk)
open FundingTool.JsonText (hexValue)
open FundingTool.TaskFiles (statusText codeText)
open FundingTool.TaskPoll (resultPath encodeURIComponent percentEncode isUnreserved)
open FundingTool.TaskRestart (Server)

/-! ## 1. The path -/

/-- The byte of an escape. -/
def escapedByte (c high low : Char) : Option UInt8 :=
  if c = '%' then
    match hexValue high, hexValue low with
    | some h, some l => some (UInt8.ofNat (16 * h + l))
    | _, _ => none
  else none

/-- The bytes of `unquote`: what is no escape stays as it is. -/
def unquoteBytes : List Char → List UInt8
  | [] => []
  | [c] => String.utf8EncodeChar c
  | [c, d] => String.utf8EncodeChar c ++ String.utf8EncodeChar d
  | c :: high :: low :: rest =>
      match escapedByte c high low with
      | some byte => byte :: unquoteBytes rest
      | none => String.utf8EncodeChar c ++ unquoteBytes (high :: low :: rest)

/-- `unquote`, where the bytes are UTF-8. -/
def unquote (path : String) : Option String :=
  String.fromUTF8? (unquoteBytes path.toList).toByteArray

def routePrefix : List Char := "/history/result/".toList

/-- `task_id` of the path, in the part of it that is behind the prefix of the app. -/
def taskIdOf (path : String) : Option String := do
  let decoded ← unquote path
  let segment := decoded.toList.drop routePrefix.length
  if decoded.toList.take routePrefix.length = routePrefix ∧ segment ≠ [] ∧ '/' ∉ segment then
    some (String.ofList segment)
  else none

theorem unquoteBytes_plain {c : Char} (h : c ≠ '%') (rest : List Char) :
    unquoteBytes (c :: rest) = String.utf8EncodeChar c ++ unquoteBytes rest := by
  rcases rest with _ | ⟨high, _ | ⟨low, rest⟩⟩
  · exact (List.append_nil _).symm
  · rfl
  · rw [unquoteBytes, escapedByte, if_neg h]

theorem unquoteBytes_escaped (byte : UInt8) (rest : List Char) :
    unquoteBytes (percentEncode byte ++ rest) = byte :: unquoteBytes rest := by
  have hdigit : ∀ n : Fin 16, hexValue (TaskPoll.hexDigit n) = some n.val := by decide
  have hlt : byte.toNat < 256 := byte.toNat_lt
  have hhigh := hdigit ⟨byte.toNat / 16, by omega⟩
  have hlow := hdigit ⟨byte.toNat % 16, Nat.mod_lt _ (by decide)⟩
  have hbyte : UInt8.ofNat (16 * (byte.toNat / 16) + byte.toNat % 16) = byte := by
    rw [Nat.div_add_mod]
    exact UInt8.ofNat_toNat
  simp only [percentEncode, List.cons_append, List.nil_append, unquoteBytes, escapedByte, if_true,
    hhigh, hlow, hbyte]

theorem unquoteBytes_append (text rest : List Char) (h : '%' ∉ text) :
    unquoteBytes (text ++ rest) = text.flatMap String.utf8EncodeChar ++ unquoteBytes rest := by
  induction text with
  | nil => rfl
  | cons c text ih =>
      rw [List.mem_cons, not_or] at h
      rw [List.cons_append, unquoteBytes_plain (Ne.symm h.1), ih h.2, List.flatMap_cons,
        List.append_assoc]

theorem unquoteBytes_percentEncode (bytes : List UInt8) (rest : List Char) :
    unquoteBytes (bytes.flatMap percentEncode ++ rest) = bytes ++ unquoteBytes rest := by
  induction bytes with
  | nil => rfl
  | cons byte bytes ih =>
      rw [List.flatMap_cons, List.append_assoc, unquoteBytes_escaped, ih, List.cons_append]

/-- **`unquote` undoes `encodeURIComponent`**, byte by byte. -/
theorem unquoteBytes_encoded (text : String) :
    unquoteBytes (encodeURIComponent text).toList = text.toList.flatMap String.utf8EncodeChar := by
  have hall : ∀ cs rest : List Char, unquoteBytes ((cs.flatMap fun c =>
      if isUnreserved c then [c] else (String.utf8EncodeChar c).flatMap percentEncode) ++ rest) =
        cs.flatMap String.utf8EncodeChar ++ unquoteBytes rest := by
    intro cs rest
    induction cs with
    | nil => rfl
    | cons c cs ih =>
        rw [List.flatMap_cons, List.flatMap_cons, List.append_assoc, List.append_assoc]
        by_cases hc : isUnreserved c = true
        · have hplain : c ≠ '%' := by
            rintro rfl
            revert hc
            decide
          rw [if_pos hc, List.cons_append, List.nil_append, unquoteBytes_plain hplain, ih]
        · rw [if_neg hc, unquoteBytes_percentEncode, ih]
  rw [encodeURIComponent, String.toList_ofList]
  have henc := hall text.toList []
  rwa [List.append_nil, show unquoteBytes [] = [] from rfl, List.append_nil] at henc

theorem fromUTF8?_utf8Encode (text : List Char) :
    String.fromUTF8? (text.flatMap String.utf8EncodeChar).toByteArray =
      some (String.ofList text) := by
  have hvalid : (text.flatMap String.utf8EncodeChar).toByteArray.IsValidUTF8 := .intro text rfl
  rw [String.fromUTF8?, dif_pos hvalid]
  rfl

/-- **The route reads the task id the page has written.** -/
theorem taskIdOf_resultPath {taskId : String} (hne : taskId ≠ "") (hslash : '/' ∉ taskId.toList) :
    taskIdOf (resultPath taskId) = some taskId := by
  have hbytes : unquoteBytes (resultPath taskId).toList =
      (routePrefix ++ taskId.toList).flatMap String.utf8EncodeChar := by
    rw [resultPath, String.toList_append, unquoteBytes_append _ _ (by decide),
      unquoteBytes_encoded, List.flatMap_append]
    rfl
  have hdecoded : unquote (resultPath taskId) =
      some (String.ofList (routePrefix ++ taskId.toList)) := by
    rw [unquote, hbytes, fromUTF8?_utf8Encode]
  have hsegment : taskId.toList ≠ [] := by
    intro hnil
    exact hne (String.toList_inj.mp hnil)
  rw [taskIdOf, hdecoded]
  simp only [Option.bind_eq_bind, Option.bind_some, String.toList_ofList, List.drop_left,
    List.take_left, hsegment, hslash, ne_eq, not_false_eq_true, and_self, if_true,
    String.ofList_toList]

/-! ## 2. The answer -/

/-- The envelope of an error. -/
def errorBody (code message : String) (field errorId : Option String) : Json :=
  .obj [("error", .obj [("code", .str code), ("message", .str message),
    ("field", field.elim .null .str), ("error_id", errorId.elim .null .str)])]

/-- `_unhandled` -/
def unhandled (e : WebError) : Nat × Json :=
  (e.httpStatus, errorBody (codeText e.code) e.message e.field e.errorId)

variable {ρ : Type} (payload : ρ → Json)

/-- `HistoryTaskStatus` of a task's entry; `payload` is its result as the model dumps it. -/
def statusBody (entry : Snapshot ρ) : Json :=
  .obj [("status", .str (statusText entry.status)), ("progress", entry.progress.elim .null payload),
    ("result", entry.result.elim .null payload),
    ("error", entry.error.elim .null fun e =>
      .obj [("code", .str (codeText e.code)), ("message", .str e.message)])]

/-- The route, with the handlers of the app; `errorId` is drawn for an unhandled exception. -/
def historyResult (errorId : String) (s : Server ρ) (path : String) : Nat × Json :=
  match taskIdOf path with
  | none => (404, .obj [("detail", .str "Not Found")])
  | some taskId =>
      match s.manager.statusOf s.dir taskId with
      | .ok entry => (200, statusBody payload entry)
      | .error (.keyError _) => (404, errorBody "validation_error" "任务不存在或已过期" none none)
      | .error .jsonDecodeError => unhandled (mapCoreException errorId (.other "JSONDecodeError" ""))

/-- What `api.get` makes of a response with a body. -/
def apiResult (response : Nat × Json) : ApiResult :=
  if isOk response.1 then ⟨some response.2, none⟩
  else ⟨none, parseError response.1 (.ok response.2)⟩

/-- `request` from its two awaits on. -/
def settles (status : Nat) (body : Json) : Phase :=
  match Phase.afterFetch (.responded status) with
  | .reading => .afterJson (.ok body)
  | .parsing status => .afterError status (.ok body)
  | phase => phase

theorem settles_eq {status : Nat} (hstatus : status ≠ 204) (body : Json) :
    ∃ cause, settles status body = .settled cause (.resolved (apiResult (status, body))) := by
  by_cases hok : isOk status = true
  · simp only [settles, Phase.afterFetch, apiResult, hok, hstatus, if_true, if_false]
    exact ⟨_, rfl⟩
  · simp only [settles, Phase.afterFetch, apiResult, hok, if_false, Bool.false_eq_true]
    exact ⟨_, rfl⟩

/-- **A task in memory is answered with its entry.** -/
theorem apiResult_historyResult (errorId : String) {s : Server ρ} {taskId : String}
    {entry : Snapshot ρ} (hne : taskId ≠ "") (hslash : '/' ∉ taskId.toList)
    (hstatus : s.manager.statusOf s.dir taskId = .ok entry) :
    apiResult (historyResult payload errorId s (resultPath taskId)) =
      ⟨some (statusBody payload entry), none⟩ := by
  rw [historyResult, taskIdOf_resultPath hne hslash]
  simp only [hstatus]
  rfl

theorem isTerminal_statusBody (entry : Snapshot ρ) :
    TaskPoll.isTerminal (Api.member (some (statusBody payload entry)) "status") = true ↔
      entry.status ≠ .running := by
  have hmember : Api.member (some (statusBody payload entry)) "status" =
      some (.str (statusText entry.status)) := by
    simp only [Api.member, statusBody]
    rfl
  rw [hmember]
  cases entry.status <;> decide

end FundingTool.StatusRoute
