import Ds4Spark.Lib.Readback
import Ds4Spark.Queue.Submit
import Mathlib.Data.List.Nodup

/-!
# Ds4Spark.Adapter.Requests

What the SparkRunner adapter makes of its input records: one request for each, under an id that is safe
as a file name and that no earlier record got (`safe_request_id`), and the response row it writes for a
result, under the record's own custom id.

* `safeRequestId_fresh`: the id is a new one, whatever the custom ids are.
* `jobsLoop_ids`: so the requests of one input have different ids.

`str.isalnum` needs the Unicode tables and stays a parameter.
-/

namespace Ds4Spark
namespace Adapter

open Queue (InferenceRequest Error)

/-! ## `safe_request_id` -/

section RequestId

variable (isalnum : Char → Bool)

/-- `ch if ch.isalnum() or ch in "._-" else "-"`. -/
def safeChar (ch : Char) : Char :=
  if isalnum ch || ch = '.' || ch = '_' || ch = '-' then ch else '-'

/-- `value.strip(".-_")`. -/
def stripMarks (value : List Char) : List Char :=
  let mark (ch : Char) : Bool := ch = '.' || ch = '-' || ch = '_'
  ((value.dropWhile mark).reverse.dropWhile mark).reverse

/-- The id before it is compared with those that are taken. -/
def baseId (value : String) (index : Nat) : String :=
  let base := String.ofList (stripMarks (value.toList.map (safeChar isalnum)))
  if base = "" then "request-" ++ toString index else base

/-- `f"{base}-{index}-{suffix}"`. -/
def suffixed (base : String) (index suffix : Nat) : String :=
  base ++ "-" ++ toString index ++ "-" ++ toString suffix

/-- The `while` loop; `fuel` bounds its turns. -/
def firstUnseen (seen : List String) (base : String) (index : Nat) : Nat → Nat → String → String
  | 0, _, candidate => candidate
  | fuel + 1, suffix, candidate =>
    if candidate ∈ seen then
      firstUnseen seen base index fuel (suffix + 1) (suffixed base index suffix)
    else candidate

/-- `safe_request_id`; the loop ends within one turn more than there are ids taken. -/
def safeRequestId (value : String) (index : Nat) (seen : List String) : String :=
  let base := baseId isalnum value index
  firstUnseen seen base index (seen.length + 1) 1 base

end RequestId

section Fresh

variable {seen : List String} {base : String} {index : Nat}

theorem suffixed_injective : Function.Injective (suffixed base index) := by
  intro m n h
  exact toString_nat_injective ((String.append_right_inj _).mp h)

/-- A loop that ends with an id that is taken has gone through all its turns. -/
theorem firstUnseen_taken : ∀ {fuel suffix : Nat} {candidate : String},
    firstUnseen seen base index fuel suffix candidate ∈ seen →
      ∀ k < fuel, suffixed base index (suffix + k) ∈ seen := by
  intro fuel
  induction fuel with
  | zero =>
    intro suffix candidate _ k hk
    omega
  | succ fuel ih =>
    intro suffix candidate h k hk
    unfold firstUnseen at h
    split at h
    · cases k with
      | zero =>
        cases fuel with
        | zero => exact h
        | succ fuel =>
          unfold firstUnseen at h
          split at h
          · assumption
          · exact h
      | succ k =>
        have hrest := ih h k (by omega)
        rwa [show suffix + (k + 1) = suffix + 1 + k by omega]
    · rename_i hfree
      exact absurd h hfree

theorem safeRequestId_fresh (isalnum : Char → Bool) (value : String) (index : Nat)
    (seen : List String) : safeRequestId isalnum value index seen ∉ seen := by
  intro htaken
  have hall := firstUnseen_taken htaken
  have hsub : (List.range (seen.length + 1)).map
      (fun k => suffixed (baseId isalnum value index) index (1 + k)) ⊆ seen := by
    intro id hid
    obtain ⟨k, hk, rfl⟩ := List.mem_map.mp hid
    exact hall k (List.mem_range.mp hk)
  have hnodup : ((List.range (seen.length + 1)).map
      (fun k => suffixed (baseId isalnum value index) index (1 + k))).Nodup :=
    List.nodup_range.map fun i j h => Nat.add_left_cancel (suffixed_injective h)
  -- more different ids than there are taken
  have hle := (List.subperm_of_subset hnodup hsub).length_le
  rw [List.length_map, List.length_range] at hle
  omega

end Fresh

/-! ## `sparkrunner_request` -/

/-- What the adapter reads of a model profile. -/
structure ModelProfile where
  profileId : String
  supportsChat : Bool
  supportedJobClasses : List String

/-- `preferred_job_class`. -/
def preferredJobClass (supported : List String) (chat : Bool) : Except Error String :=
  let preferred := if chat then ["tool_chat", "analysis", "summary", "atom_edit"]
    else ["atom_edit", "analysis", "summary", "triage"]
  match preferred.find? (fun c => supported.contains c), supported with
  | some jobClass, _ => .ok jobClass
  | none, jobClass :: _ => .ok jobClass
  | none, [] => .error (.valueError "tuple index out of range")

/-- `record.get("custom_id") or record.get("request_id")`, when it is true. -/
def givenId (record : JsonObj) : Option Json :=
  (record.getTrue "custom_id").or (record.getTrue "request_id")

/-- The `custom_id` of record number `index`. -/
def customId (record : JsonObj) (index : Nat) : String :=
  ((givenId record).map Json.pyStr).getD ("request-" ++ toString index)

/-- The `raw_messages` of a record. -/
def rawMessages (record : JsonObj) : List Json :=
  match record.get? "messages" with
  | some (.arr messages) => messages
  | _ => []

/-- The `prompt` of a record. -/
def promptOf (record : JsonObj) : String :=
  match record.getTrue "prompt" with
  | some prompt => prompt.pyStr
  | none => String.intercalate "\n" (((rawMessages record).filterMap Json.objOf?).map
      (fun message => ((message.get? "content").getD (.str "")).pyStr))

def jobClassOf (profile : ModelProfile) (record : JsonObj) (chat : Bool) : Except Error String :=
  match record.getTrue "job_class" with
  | some jobClass => .ok jobClass.pyStr
  | none => preferredJobClass profile.supportedJobClasses chat

/-- `dict(record.get("output_contract") or {"format": "text"})`. -/
def outputContractOf (record : JsonObj) : Except Error JsonObj :=
  match (record.getTrue "output_contract").map Json.pyDict with
  | none => .ok [("format", .str "text")]
  | some (some contract) => .ok contract
  | some none => .error (.valueError "output_contract is not a dict")

/-- The dict that `sparkrunner_request` builds. -/
def requestData (profile : ModelProfile) (record : JsonObj) (requestId : String) :
    Except Error JsonObj := do
  let chat := profile.supportsChat && !(rawMessages record).isEmpty
  let jobClass ← jobClassOf profile record chat
  let maxTokens ← Queue.asInt (((record.getTrue "max_tokens").or
    (record.getTrue "max_completion_tokens")).getD (.int 1024))
  let thinking ← Queue.asInt ((record.getTrue "thinking_budget_tokens").getD (.int 0))
  let outputContract ← outputContractOf record
  .ok [
    ("format", .str "ds4-inference-request-v1"),
    ("request_id", .str requestId),
    ("capability", .null),
    ("chat", .bool chat),
    ("immediate", .bool (((record.get? "immediate").map Json.truthy).getD false)),
    ("job_class", .str jobClass),
    ("max_output_tokens", .int maxTokens),
    ("thinking_budget_tokens", .int thinking),
    ("temperature", (record.get? "temperature").getD (.float 0)),
    ("input", .obj [("messages", .arr (rawMessages record)), ("prompt", .str (promptOf record)),
      ("suffix", .str (promptOf record))]),
    ("output_contract", .obj outputContract),
    ("model_pin", .obj [("profile_id", .str profile.profileId)])]

/-- `sparkrunner_request`, under the id that `safe_request_id` gives. -/
def sparkrunnerRequest (profile : ModelProfile) (record : JsonObj) (requestId : String) :
    Except Error InferenceRequest :=
  (requestData profile record requestId).bind InferenceRequest.fromJson

/-- A record with the request that is built from it. -/
structure Job where
  request : InferenceRequest
  record : JsonObj
  index : Nat

def Job.requestId (job : Job) : String := job.request.requestId

def Job.customId (job : Job) : String := Adapter.customId job.record job.index

/-- The list comprehension over `enumerate(records)`; `seen` are the ids that are taken. -/
def jobsLoop (isalnum : Char → Bool) (profile : ModelProfile) :
    List String → List (JsonObj × Nat) → Except Error (List Job)
  | _, [] => .ok []
  | seen, (record, index) :: records => do
    let requestId := safeRequestId isalnum (customId record index) index seen
    let request ← sparkrunnerRequest profile record requestId
    let jobs ← jobsLoop isalnum profile (requestId :: seen) records
    .ok (⟨request, record, index⟩ :: jobs)

/-! ## The response row -/

inductive ResponseFormat where
  | sparkrunner | inference
deriving DecidableEq

/-- The settings of the output; `dumps` is `json.dumps(x, sort_keys=True)`. -/
structure Output where
  model : String
  responseFormat : ResponseFormat
  dumps : Json → String

/-- The `custom_id` of a response row. -/
def rowId (record result : JsonObj) : String :=
  (((givenId record).or (result.getTrue "request_id")).map Json.pyStr).getD "request"

/-- The `text` of a response row. -/
def rowText (out : Output) (result : JsonObj) : Json :=
  let text := match (result.get? "output").getD (.obj []) with
    | .obj output => (JsonObj.get? output "text").getD (.str "")
    | _ => .str ""
  if !text.truthy ∧ Json.strOf? (result.get? "status") ≠ some "completed" then
    .str (((result.getTrue "error").map Json.pyStr).getD (out.dumps (.obj result)))
  else text

/-- `_response_row`. -/
def responseRow (out : Output) (record result : JsonObj) : JsonObj :=
  match out.responseFormat with
  | .inference => result
  | .sparkrunner => [
    ("custom_id", .str (rowId record result)),
    ("model", .str out.model),
    ("text", .str (rowText out result).pyStr),
    ("candidates", .arr [.obj [("text", .str (rowText out result).pyStr)]]),
    ("usage", (result.get? "usage").getD (.obj []))]

/-! ## The ids -/

section Ids

variable {isalnum : Char → Bool} {profile : ModelProfile} {record : JsonObj} {requestId : String}
  {request : InferenceRequest}

theorem requestData_requestId {data : JsonObj}
    (h : requestData profile record requestId = .ok data) :
    Queue.strField data "request_id" = requestId := by
  obtain ⟨jobClass, _, h⟩ := Queue.bind_eq_ok h
  obtain ⟨maxTokens, _, h⟩ := Queue.bind_eq_ok h
  obtain ⟨thinking, _, h⟩ := Queue.bind_eq_ok h
  obtain ⟨outputContract, _, h⟩ := Queue.bind_eq_ok h
  cases h
  rfl

theorem sparkrunnerRequest_requestId
    (h : sparkrunnerRequest profile record requestId = .ok request) :
    request.requestId = requestId := by
  obtain ⟨data, hdata, h⟩ := Queue.bind_eq_ok h
  rw [(Queue.fromJson_fields h).1, requestData_requestId hdata]

/-- One job for each record, under ids that are new and all different. -/
theorem jobsLoop_ids (records : List (JsonObj × Nat)) : ∀ {seen : List String} {jobs : List Job},
    jobsLoop isalnum profile seen records = .ok jobs →
      jobs.map (fun job => (job.record, job.index)) = records ∧
        (jobs.map Job.requestId).Nodup ∧ ∀ id ∈ jobs.map Job.requestId, id ∉ seen := by
  induction records with
  | nil =>
    intro seen jobs h
    cases h
    simp
  | cons entry records ih =>
    intro seen jobs h
    obtain ⟨record, index⟩ := entry
    obtain ⟨request, hrequest, h⟩ := Queue.bind_eq_ok h
    obtain ⟨rest, hrest, h⟩ := Queue.bind_eq_ok h
    cases h
    obtain ⟨hrecords, hnodup, hnew⟩ := ih hrest
    have hid := sparkrunnerRequest_requestId hrequest
    have hfresh := safeRequestId_fresh isalnum (customId record index) index seen
    refine ⟨by rw [List.map_cons, hrecords], ?_, ?_⟩
    · rw [List.map_cons, List.nodup_cons]
      refine ⟨fun hmem => hnew _ hmem ?_, hnodup⟩
      change request.requestId ∈ _
      rw [hid]
      exact List.mem_cons_self
    · intro id hmem hseen
      rcases List.mem_cons.mp hmem with rfl | hmem
      · refine hfresh ?_
        rw [← hid]
        exact hseen
      · exact hnew id hmem (List.mem_cons_of_mem _ hseen)

end Ids

end Adapter
end Ds4Spark
