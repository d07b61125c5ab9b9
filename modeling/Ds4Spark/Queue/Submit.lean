import Ds4Spark.Queue.Kv

/-!
# Ds4Spark.Queue.Submit

`submit_requests` and `submit_cpu_requests`: one transaction that inserts the batch, a row and a
`submitted` event per request, and refreshes the batch. A model request starts `queued`, a CPU
request starts `ready`. An error anywhere leaves the database as it was.

The profile registry and the topology are used through `resolve` and `assign_profile`.
-/

namespace Ds4Spark
namespace Queue

/-- The fields of `InferenceRequest` that submission reads. -/
structure InferenceRequest where
  requestId : String
  capability : Option String
  chat : Bool
  immediate : Bool
  priority : Option Int
  jobClass : String
  input : JsonObj
  modelPin : Option JsonObj
  raw : JsonObj

def requestFormat : String := "ds4-inference-request-v1"

/-- `int(data[key])`. -/
def intField (data : JsonObj) (key : String) : Except Error Int :=
  match (data.get? key).bind Json.pyInt with
  | some i => .ok i
  | none => .error (.valueError ("invalid literal for int(): " ++ key))

def requiredFields : List String :=
  ["request_id", "chat", "immediate", "job_class", "max_output_tokens", "thinking_budget_tokens",
    "input", "output_contract"]

/-- `str(data[key])` and `bool(data[key])`, for a key that is there. -/
def strField (data : JsonObj) (key : String) : String := ((data.get? key).map Json.pyStr).getD ""

def boolField (data : JsonObj) (key : String) : Bool := ((data.get? key).map Json.truthy).getD false

/-- `InferenceRequest.from_json`. A `temperature` is taken to be a number, `input` and
`output_contract` to be objects, and a capability or a model pin to be of its declared type. -/
def InferenceRequest.fromJson (data : JsonObj) : Except Error InferenceRequest := do
  if Json.strOf? (data.get? "format") ≠ some requestFormat then
    .error (.valueError ("unsupported request format: " ++
      ((data.get? "format").map Json.pyRepr).getD "None"))
  let missing := requiredFields.filter (fun key => !data.has key)
  if !missing.isEmpty then
    .error (.valueError ("inference request missing fields: " ++ pyReprList missing))
  let maxOutputTokens ← intField data "max_output_tokens"
  let thinkingBudgetTokens ← intField data "thinking_budget_tokens"
  if maxOutputTokens < 1 then .error (.valueError "max_output_tokens must be positive")
  if thinkingBudgetTokens < 0 then
    .error (.valueError "thinking_budget_tokens must be non-negative")
  let priority ← if data.has "priority" then (intField data "priority").map some else .ok none
  if priority.any (· < 0) then .error (.valueError "priority must be non-negative")
  .ok {
    requestId := strField data "request_id"
    capability := Json.strOf? (data.get? "capability")
    chat := boolField data "chat"
    immediate := boolField data "immediate"
    priority := priority
    jobClass := strField data "job_class"
    input := Json.asObj (data.get? "input")
    modelPin := (data.get? "model_pin").bind Json.objOf?
    raw := data }

/-- A check that raises has not raised when the function goes through. -/
theorem ok_of_check {c : Prop} [Decidable c] {α β : Type} {e : Error} {x : Except Error α}
    {y : β → Except Error α} {a : α} (h : (if c then Except.error e >>= y else x) = .ok a) :
    x = .ok a := by
  split at h
  · cases h
  · exact h

/-- Where the fields of a request come from. -/
theorem fromJson_fields {data : JsonObj} {request : InferenceRequest}
    (h : InferenceRequest.fromJson data = .ok request) :
    request.requestId = strField data "request_id" ∧ request.input = Json.asObj (data.get? "input") ∧
      request.raw = data := by
  unfold InferenceRequest.fromJson at h
  have hfields := ok_of_check (ok_of_check h)
  obtain ⟨maxOutputTokens, _, h⟩ := bind_eq_ok hfields
  obtain ⟨thinkingBudgetTokens, _, h⟩ := bind_eq_ok h
  have htokens := ok_of_check (ok_of_check h)
  split at htokens
  · obtain ⟨priority, _, h⟩ := bind_eq_ok htokens
    cases ok_of_check h
    exact ⟨rfl, rfl, rfl⟩
  · obtain ⟨priority, _, h⟩ := bind_eq_ok htokens
    cases ok_of_check h
    exact ⟨rfl, rfl, rfl⟩

/-- `SparkAssignment`. `assign_profile` sets a compute domain only together with a service. -/
structure SparkAssignment where
  nodeId : String
  reason : String
  nodeIds : List String
  serviceId : Option String
  computeDomain : Option String
  domainOfService : serviceId = none → computeDomain = none

structure Topology where
  bindOnSubmit : Bool
  assignProfile : String → Bool → List (String × Nat) → Except Error SparkAssignment

/-- `registry`, `topology`, and the SHA-256 of a text. -/
structure SubmitEnv where
  resolve : InferenceRequest → Except Error String
  topology : Option Topology
  sha256Hex : String → String

/-! ## Priorities and cache references -/

/-- `validated_priority`, for a priority or an `immediate` flag that is given. -/
def validatedPriority (priority : Option Int) (immediate : Bool) : Except Error Int :=
  match priority with
  | none => .ok (if immediate then 0 else 10)
  | some p => if p < 0 then .error (.valueError "priority must be non-negative") else .ok p

/-- `request_priority`: an override is taken as it is. -/
def requestPriority (req : InferenceRequest) (priorityOverride : Option Int) : Except Error Int :=
  match priorityOverride with
  | some p => .ok p
  | none => validatedPriority req.priority req.immediate

def kvCachePlanFormat : String := "ds4-kv-cache-plan-v1"

/-- `ensure_cache_refs_resolved`. -/
def ensureCacheRefsResolved (input : JsonObj) : Except Error Unit :=
  if input.has "kv_cache_ref" ∧ !Json.isStr (input.get? "shared_prefix") then
    .error (.valueError "input.kv_cache_ref must be resolved before queueing")
  else if input.has "kv_cache_ref" ∧ !Json.isStr (input.get? "shared_prefix_hash") then
    .error (.valueError "resolved input.kv_cache_ref must set shared_prefix_hash")
  else
    match input.get? "kv_cache_plan" with
    | some (.obj plan) =>
      match JsonObj.get? plan "format" with
      | some (.str f) =>
        if f = kvCachePlanFormat then .ok ()
        else .error (.valueError "resolved input.kv_cache_plan has unsupported format")
      | _ => .error (.valueError "resolved input.kv_cache_plan has unsupported format")
    | _ =>
      if input.has "kv_cache" then
        .error (.valueError "input.kv_cache must be resolved before queueing")
      else .ok ()

/-! ## Rows -/

/-- A row as both inserts leave the columns they do not name. -/
def blankRow (requestId batchId : String) (kind : RequestKind) (state : RequestState)
    (priority : Int) (immediate : Bool) (profileId : String) (requestJson : JsonObj) (now : Time) :
    RequestRow where
  requestId := requestId
  batchId := batchId
  requestKind := kind
  serviceName := none
  state := state
  priority := priority
  immediate := immediate
  selectedProfileId := profileId
  selectedNodeId := none
  selectedServiceId := none
  selectedNodeIds := none
  selectedComputeDomain := none
  computeLeaseId := none
  requestJson := requestJson
  requestJsonHash := none
  resultJson := none
  error := none
  cancelRequested := false
  kvKey := none
  kvBytes := 0
  kvShardCount := 0
  kvShardBytes := 0
  createdAt := now
  updatedAt := now
  readyAt := none
  startedAt := none
  completedAt := none
  leaseId := none
  leasedBy := none
  leaseExpiresAt := none
  heartbeatAt := none
  attemptCount := 0

/-- `int(ceil(kv_bytes / max(1, count)))`, the division read as exact. -/
def ceilShare (kvBytes count : Nat) : Nat := (kvBytes + (max 1 count - 1)) / max 1 count

/-- The binding a topology decided on: all null for a late-bound request. -/
def RequestRow.bind (row : RequestRow) (assignment : Option SparkAssignment) : RequestRow :=
  match assignment with
  | none => row
  | some a =>
    let nodeIds := if a.nodeIds.isEmpty then [a.nodeId] else a.nodeIds
    let shards := if pyTrue a.serviceId then nodeIds.length else 0
    { row with
      selectedNodeId := some a.nodeId, selectedServiceId := a.serviceId
      selectedNodeIds := some nodeIds, selectedComputeDomain := a.computeDomain
      kvShardCount := shards
      kvShardBytes := if pyTrue a.serviceId then ceilShare row.kvBytes shards else 0 }

/-- The assignment, when submission binds the request to it. -/
def boundAssignment (topology : Option Topology) (assignment : Option SparkAssignment) :
    Option SparkAssignment :=
  assignment.filter (fun a => (topology.map Topology.bindOnSubmit).getD false ||
    a.serviceId.isSome || a.reason == "resident_profile_group")

def requestJsonHash (env : SubmitEnv) (raw : JsonObj) : String :=
  "sha256:" ++ env.sha256Hex (Json.obj raw).dumps

/-- The row `submit_requests` inserts. -/
def modelRow (env : SubmitEnv) (req : InferenceRequest) (batchId profileId : String)
    (priority : Int) (assignment : Option SparkAssignment) (now : Time) : RequestRow :=
  let row := blankRow req.requestId batchId .model .queued priority req.immediate profileId req.raw now
  RequestRow.bind { row with
    requestJsonHash := some (requestJsonHash env req.raw)
    kvKey := (kvNeed req.input req.raw).1, kvBytes := (kvNeed req.input req.raw).2 } assignment

/-- `insert into requests` and the `submitted` event. -/
def Db.insertRequest (db : Db) (row : RequestRow) (payload : JsonObj) (now : Time) :
    Except Error Db :=
  match db.requests.insert? row with
  | none => .error (.integrityError "requests.request_id")
  | some requests => .ok ({ db with requests := requests }.event now row.requestId "submitted" row.state payload)

/-- `insert into batches`. -/
def Db.insertBatch (db : Db) (batchId : String) (now : Time) : Except Error Db :=
  match db.batches.insert? ⟨batchId, .queued, 0, 0, 0, 0, 0, 0, 0, 0, now, now⟩ with
  | none => .error (.integrityError "batches.batch_id")
  | some batches => .ok { db with batches := batches }

def submittedPayload (row : RequestRow) : JsonObj :=
  [("batch_id", .str row.batchId), ("priority", .int row.priority),
    ("node_binding", .str (if pyTrue row.selectedNodeId then "bound" else "lease")),
    ("selected_node_id", Json.ofStr? row.selectedNodeId),
    ("selected_service_id", Json.ofStr? row.selectedServiceId),
    ("selected_compute_domain", Json.ofStr? row.selectedComputeDomain)]

/-! ## `submit_requests` -/

/-- `d[key] = d.get(key, 0) + 1`. -/
def bump {κ : Type} [DecidableEq κ] (counts : List (κ × Nat)) (key : κ) : List (κ × Nat) :=
  if counts.any (fun kv => kv.1 = key) then
    counts.map (fun kv => if kv.1 = key then (kv.1, kv.2 + 1) else kv)
  else counts ++ [(key, 1)]

/-- `_count`. -/
def count {κ : Type} [DecidableEq κ] (values : List κ) : List (κ × Nat) := values.foldl bump []

structure SubmitArgs where
  requests : List InferenceRequest
  env : SubmitEnv
  batchId : Option String := none
  priority : Option Int := none
  uuid : String
  now : Time

structure SubmitResult where
  batchId : String
  requestIds : List String
  requestCount : Nat
  selectedProfiles : List (String × Nat)
  selectedNodes : List (String × Nat)
  selectedServices : List (String × Nat)
  priorityCounts : List (Int × Nat)

def submitResult (batchId : String) (rows : List RequestRow) : SubmitResult where
  batchId := batchId
  requestIds := rows.map RequestRow.requestId
  requestCount := rows.length
  selectedProfiles := count (rows.map RequestRow.selectedProfileId)
  selectedNodes := count (rows.filterMap (fun r => r.selectedNodeId.filter (fun n => n != "")))
  selectedServices := count (rows.filterMap (fun r => r.selectedServiceId.filter (fun n => n != "")))
  priorityCounts := count (rows.map RequestRow.priority)

/-- `topology.assign_profile(..) if topology is not None else None`. -/
def SubmitArgs.assign (args : SubmitArgs) (profileId : String) (immediate : Bool)
    (load : List (String × Nat)) : Except Error (Option SparkAssignment) :=
  match args.env.topology with
  | none => .ok none
  | some t => (t.assignProfile profileId immediate load).map some

/-- One turn of the submission loop up to the insert: the row, and the load it adds. -/
def submitRow (args : SubmitArgs) (batchId : String) (load : List (String × Nat))
    (req : InferenceRequest) : Except Error (RequestRow × List (String × Nat)) := do
  ensureCacheRefsResolved req.input
  let profileId ← args.env.resolve req
  let priority ← requestPriority req args.priority
  let assignment ← args.assign profileId req.immediate load
  let row := modelRow args.env req batchId profileId priority
    (boundAssignment args.env.topology assignment) args.now
  .ok (row, if pyTrue row.selectedNodeId then bump load (strOr row.selectedNodeId) else load)

/-- The submission loop. -/
def submitLoop (args : SubmitArgs) (batchId : String) :
    List (String × Nat) → List InferenceRequest → Db → Except Error (Db × List RequestRow)
  | _, [], db => .ok (db, [])
  | load, req :: reqs, db => do
    let (row, load) ← submitRow args batchId load req
    let db ← db.insertRequest row (submittedPayload row) args.now
    let (db, rows) ← submitLoop args batchId load reqs db
    .ok (db, row :: rows)

/-- `order by request_id`. -/
def byRequestId (rows : List RequestRow) : List RequestRow :=
  rows.insertionSort (fun a b => a.requestId ≤ b.requestId)

/-- The hash column, or the hash of a row stored without one. -/
def storedHash (env : SubmitEnv) (row : RequestRow) : String :=
  if pyTrue row.requestJsonHash then strOr row.requestJsonHash else requestJsonHash env row.requestJson

/-- The ids of the requests that `differs`, as a Python list is printed. -/
def mismatches (requests : List InferenceRequest) (differs : InferenceRequest → Bool) :
    Option String :=
  let ids := ((requests.filter differs).map InferenceRequest.requestId).insertionSort
    (fun a b => a ≤ b)
  if ids.isEmpty then none
  else some (pyReprList ids)

/-- `_existing_submission`. -/
def Db.existingSubmission (db : Db) (args : SubmitArgs) (batchId : String) :
    Except Error (Option SubmitResult) := do
  let rows := byRequestId (db.requests.select (fun r => r.batchId = batchId))
  if rows.isEmpty then return none
  if (args.requests.map InferenceRequest.requestId).insertionSort (fun a b => a ≤ b) ≠
      rows.map RequestRow.requestId then
    .error (.valueError ("batch_id already exists with different requests: " ++ batchId))
  let expected ← args.requests.mapM
    (fun req => (requestPriority req args.priority).map (fun p => (req.requestId, p)))
  let stored (req : InferenceRequest) := rows.find? (fun r => r.requestId = req.requestId)
  if let some ids := mismatches args.requests
      (fun req => (stored req).map RequestRow.priority ≠ expected.lookup req.requestId) then
    .error (.valueError ("batch_id already exists with different priority for requests: " ++ ids))
  if let some ids := mismatches args.requests
      (fun req => (stored req).map (storedHash args.env) ≠ some (requestJsonHash args.env req.raw)) then
    .error (.valueError ("batch_id already exists with different request payloads: " ++ ids))
  return some (submitResult batchId rows)

/-- `submit_requests`. -/
def submitRequests (args : SubmitArgs) (db : Db) : Except Error (Db × SubmitResult) :=
  if args.requests.isEmpty then .error (.valueError "cannot submit an empty request set")
  else do
    let batchId := if pyTrue args.batchId then strOr args.batchId else "batch-" ++ args.uuid
    match ← db.existingSubmission args batchId with
    | some existing => .ok (db, existing)
    | none =>
      let db ← db.insertBatch batchId args.now
      let (db, rows) ← submitLoop args batchId [] args.requests db
      .ok (db.refreshBatch args.now batchId, submitResult batchId rows)

/-! ## `submit_cpu_requests` -/

structure SubmitCpuArgs where
  service : String
  items : List JsonObj
  batchId : Option String := none
  immediate : Bool := false
  nodeId : Option String := none
  timeoutS : Option Time := none
  priority : Option Int := none
  uuid : String
  now : Time

/-- `f"{n:06d}"`. -/
def sixDigits (n : Nat) : String :=
  String.ofList (List.replicate (6 - (Nat.toDigits 10 n).length) '0' ++ Nat.toDigits 10 n)

/-- The request id of item number `n`. -/
def cpuRequestId (batchId : String) (n : Nat) (item : JsonObj) : String :=
  match ((item.get? "custom_id").filter Json.truthy).orElse
      (fun _ => (item.get? "request_id").filter Json.truthy) with
  | some id => id.pyStr
  | none => batchId ++ "-" ++ sixDigits n

/-- The row of item number `n`. -/
def cpuRow (args : SubmitCpuArgs) (batchId : String) (priority : Int) (n : Nat) (item : JsonObj) :
    RequestRow :=
  let payload := match args.timeoutS with
    | none => item
    | some t => item.set "__ds4_queue_timeout_s" (.float t)
  { blankRow (cpuRequestId batchId n item) batchId .cpu .ready priority args.immediate
      ("cpu:" ++ args.service) payload args.now with
    serviceName := some args.service, selectedNodeId := args.nodeId, readyAt := some args.now }

def submitCpuLoop (args : SubmitCpuArgs) (batchId : String) (priority : Int) :
    Nat → List JsonObj → Db → Except Error (Db × List RequestRow)
  | _, [], db => .ok (db, [])
  | n, item :: items, db => do
    let row := cpuRow args batchId priority n item
    let db ← db.insertRequest row [("batch_id", .str batchId), ("priority", .int priority),
      ("service", .str args.service)] args.now
    let (db, rows) ← submitCpuLoop args batchId priority (n + 1) items db
    .ok (db, row :: rows)

/-- The transaction of `submit_cpu_requests`. -/
def submitCpuItems (args : SubmitCpuArgs) (priority : Int) (db : Db) :
    Except Error (Db × SubmitResult) := do
  let batchId := if pyTrue args.batchId then strOr args.batchId else "cpu-" ++ args.uuid
  let db ← db.insertBatch batchId args.now
  let (db, rows) ← submitCpuLoop args batchId priority 0 args.items db
  .ok (db.refreshBatch args.now batchId,
    { submitResult batchId rows with
      selectedProfiles := []
      selectedNodes := if pyTrue args.nodeId then [(strOr args.nodeId, rows.length)] else []
      selectedServices := [(args.service, rows.length)] })

/-- `submit_cpu_requests`. -/
def submitCpuRequests (args : SubmitCpuArgs) (db : Db) : Except Error (Db × SubmitResult) :=
  (validatedPriority args.priority args.immediate).bind fun priority =>
    if args.items.isEmpty then .error (.valueError "cannot submit an empty CPU request set")
    else submitCpuItems args priority db

end Queue
end Ds4Spark
