import Ds4Spark.Queue.ComputeLease

/-!
# Ds4Spark.Queue.Select

Which rows an operation works on: the queued rows `prepare_ready` binds (`_queued_rows`), the
ready rows `claim_ready_batch` takes (`_ready_rows`, with shape bucketing and the token budget),
and the two waits that make a claim come back empty (`_should_wait_for_ready_floor`,
`_has_recent_queued_peer`).
-/

namespace Ds4Spark
namespace Queue

/-! ## Row order -/

/-- `order by priority, created_at, request_id`. -/
def queuedBefore (a b : RequestRow) : Bool :=
  a.priority < b.priority || (a.priority == b.priority &&
    (a.createdAt < b.createdAt || (a.createdAt == b.createdAt && a.requestId ≤ b.requestId)))

/-- A nullable column in an `order by`: null comes first. -/
def nullsFirst : Option Time → Option Time → Bool
  | none, some _ => true
  | some a, some b => a < b
  | _, none => false

/-- `order by priority, ready_at, created_at, request_id`. -/
def readyBefore (a b : RequestRow) : Bool :=
  a.priority < b.priority || (a.priority == b.priority &&
    (nullsFirst a.readyAt b.readyAt || (a.readyAt == b.readyAt &&
      (a.createdAt < b.createdAt || (a.createdAt == b.createdAt && a.requestId ≤ b.requestId)))))

/-! ## Row filters -/

/-- `node_id`, `batch_id`, `selected_service_id`, the share flag, the lease quantum and the clock
that both row selections are called with. -/
structure Scope where
  nodeId : Option String
  batchId : Option String
  selectedServiceId : Option String := none
  shareComputeDomain : Bool := false
  quantumS : Time := 0
  rowsNow : Time

/-- The oldest unexpired compute lease, when it is to be preferred. -/
def Db.preferredLease (db : Db) (quantumS now : Time) : Option ComputeLease :=
  ((db.computeLeases.select (fun l => now < l.leaseExpiresAt)).insertionSort
    (fun a b => a.createdAt ≤ b.createdAt)).head?.filter
      (fun l => !db.computeLeaseShouldDrain l quantumS now)

/-- The clauses on batch, service and compute domain. -/
def Db.inScope (db : Db) (scope : Scope) (r : RequestRow) : Bool :=
  (!pyTrue scope.batchId || r.batchId = strOr scope.batchId) &&
  match scope.selectedServiceId with
  | some serviceId => r.selectedServiceId = some serviceId
  | none =>
    if pyTrue scope.batchId || scope.shareComputeDomain then true
    else
      match db.preferredLease scope.quantumS scope.rowsNow with
      | none => true
      | some lease =>
        (!pyTrue lease.serviceId || r.selectedServiceId = lease.serviceId) &&
          (lease.computeDomain = "" || r.selectedComputeDomain = some lease.computeDomain)

/-- `_queued_rows`. -/
def Db.queuedRows (db : Db) (scope : Scope) (eligible : List String) (limit : Int) :
    List RequestRow :=
  ((db.requests.select (fun r => r.state = .queued ∧
      (scope.nodeId = none ∨ r.selectedNodeId = none ∨ r.selectedNodeId = scope.nodeId) ∧
      (eligible = [] ∨ r.selectedProfileId ∈ eligible) ∧ db.inScope scope r)).insertionSort
    (fun a b => queuedBefore a b)).take (max 1 limit).toNat

/-! ## Token estimates and shapes -/

/-- `_reserved_prompt_tokens`. -/
def reservedPromptTokens (input : JsonObj) : Int :=
  let contextBudget := Json.asObj ((Json.asObj (input.get? "metadata")).get? "context_budget")
  let benchmarkShape := Json.asObj (input.get? "benchmark_shape")
  let openai := Json.asObj (input.get? "openai")
  let orElse (a b : Int) : Int := if a ≠ 0 then a else b
  let truncate := orElse (Json.safeInt (openai.get? "truncate_prompt_tokens") 0)
    (Json.safeInt (contextBudget.get? "truncate_prompt_tokens") 0)
  let estimated := orElse (Json.safeInt (input.get? "estimated_prompt_tokens") 0)
    (orElse (Json.safeInt (contextBudget.get? "estimated_prompt_tokens") 0)
      (Json.safeInt (benchmarkShape.get? "input_tokens") 0))
  let promptBudget := Json.safeInt (contextBudget.get? "prompt_budget_tokens") 0
  if 0 < truncate ∧ 0 < estimated then min truncate estimated
  else if 0 < truncate then truncate
  else if 0 < estimated then estimated
  else if 0 < promptBudget then promptBudget
  else max 1 (Json.inputTextBytes (.obj input) / 4 : Nat)

/-- `_row_reserved_tokens`. -/
def rowReservedTokens (row : RequestRow) (decodeTokenReserve : Int) : Int :=
  let raw := row.requestJson
  let output := Json.safeInt (raw.get? "max_output_tokens") 0
  let thinking := Json.safeInt (raw.get? "thinking_budget_tokens") 0
  let decode := max 0 output + max 0 thinking
  let decode := if 0 < decodeTokenReserve then min decode decodeTokenReserve else decode
  max 1 (reservedPromptTokens (Json.asObj (raw.get? "input")) + decode)

/-- The greedy pass of `_limit_ready_rows_by_token_budget`; `used` is `none` before the first row. -/
def tokenBudgetLoop (tokenLimit decodeTokenReserve : Int) :
    Option Int → List RequestRow → List RequestRow
  | _, [] => []
  | used, row :: rows =>
    let need := rowReservedTokens row decodeTokenReserve
    match used with
    | none => row :: tokenBudgetLoop tokenLimit decodeTokenReserve (some need) rows
    | some u =>
      if u + need ≤ tokenLimit then
        row :: tokenBudgetLoop tokenLimit decodeTokenReserve (some (u + need)) rows
      else tokenBudgetLoop tokenLimit decodeTokenReserve (some u) rows

/-- `_limit_ready_rows_by_token_budget`. -/
def limitReadyRowsByTokenBudget (rows : List RequestRow) (tokenLimit decodeTokenReserve : Int) :
    List RequestRow :=
  if tokenLimit ≤ 0 ∨ rows.length ≤ 1 then rows
  else tokenBudgetLoop tokenLimit decodeTokenReserve none rows

/-- `_ready_shape_key`. -/
def readyShapeKey (row : RequestRow) : String :=
  let raw := row.requestJson
  let input := Json.asObj (raw.get? "input")
  let field (d : JsonObj) (key : String) : Json := (d.get? key).getD .null
  (Json.obj [
    ("benchmark_output_tokens", field (Json.asObj (input.get? "benchmark_shape")) "output_tokens"),
    ("chat", field raw "chat"),
    ("max_output_tokens", field raw "max_output_tokens"),
    ("openai", .obj (Json.asObj (input.get? "openai"))),
    ("openai_extra_body", .obj (Json.asObj (input.get? "openai_extra_body"))),
    ("temperature", field raw "temperature"),
    ("thinking_budget_tokens", field raw "thinking_budget_tokens"),
    ("top_p", field raw "top_p")]).dumps

/-- `_ready_shape_bucket`: the largest bucket up to `limit`, the earliest of equals. -/
def readyShapeBucket (rows : List RequestRow) (limit : Nat) : List RequestRow :=
  ((rows.map (fun r => rows.filter (fun x => readyShapeKey x = readyShapeKey r))).foldl
    (fun best b => if min best.length limit < min b.length limit then b else best) []).take limit

/-! ## Ready rows -/

/-- A per-service setting: the service's own, else that of `"*"` (only where `star` allows it). -/
def serviceSetting (settings : List (String × Int)) (star : Bool) (serviceId : Option String) :
    Option Int :=
  (serviceId.bind (fun s => settings.lookup s)).orElse
    (fun _ => if star then settings.lookup "*" else none)

/-- `_service_batch_limit`. -/
def serviceBatchLimit (serviceId : Option String) (limits : List (String × Int)) (default : Int) :
    Nat :=
  let limit := (max 1 default).toNat
  match serviceSetting limits false serviceId with
  | none => limit
  | some configured => min limit (max 1 configured).toNat

/-- `_service_batch_token_limit` and `_service_batch_decode_token_reserve`. -/
def serviceTokenSetting (serviceId : Option String) (settings : List (String × Int)) : Int :=
  match serviceSetting settings true serviceId with
  | none => 0
  | some configured => max 0 configured

/-- `_ready_row_scope`: the rows that may share a cohort with `first`. -/
def sameCohort (first : RequestRow) (shapeBucket : Bool) (r : RequestRow) : Bool :=
  r.selectedProfileId = first.selectedProfileId ∧ r.selectedServiceId = first.selectedServiceId ∧
    r.selectedComputeDomain = first.selectedComputeDomain ∧
      (!shapeBucket || r.priority = first.priority)

/-- The ready rows of a scope in claim order. -/
def Db.readyInScope (db : Db) (scope : Scope) : List RequestRow :=
  (db.requests.select (fun r => r.state = .ready ∧
      (scope.nodeId = none ∨ r.selectedNodeId = scope.nodeId) ∧ db.inScope scope r)).insertionSort
    (fun a b => readyBefore a b)

/-- `_ready_rows`. -/
def Db.readyRows (db : Db) (scope : Scope) (limit : Int) (limits : List (String × Int))
    (shapeBucketing : Bool) (lookahead : Int) : List RequestRow :=
  match (db.readyInScope scope).head? with
  | none => []
  | some first =>
    let serviceLimit := serviceBatchLimit first.selectedServiceId limits limit
    let cohort := (db.readyInScope scope).filter (sameCohort first shapeBucketing)
    if shapeBucketing then
      readyShapeBucket (cohort.take (max serviceLimit (serviceLimit * (max 1 lookahead).toNat)))
        serviceLimit
    else cohort.take serviceLimit

/-! ## Waits -/

/-- `float(row["ready_at"] or row["updated_at"] or now)`. -/
def readyTime (now : Time) (row : RequestRow) : Time :=
  if row.readyAt.getD 0 ≠ 0 then row.readyAt.getD 0
  else if row.updatedAt ≠ 0 then row.updatedAt
  else now

/-- `_has_recent_queued_peer`. -/
def Db.hasRecentQueuedPeer (db : Db) (first : RequestRow) (nodeId batchId : Option String)
    (now lingerS : Time) : Bool :=
  db.requests.rows.any (fun r => r.state = .queued ∧ r.selectedProfileId = first.selectedProfileId ∧
    (nodeId = none ∨ r.selectedNodeId = none ∨ r.selectedNodeId = nodeId) ∧
    (!pyTrue batchId || r.batchId = strOr batchId) ∧
    r.selectedServiceId = first.selectedServiceId ∧
    r.selectedComputeDomain = first.selectedComputeDomain ∧ now - r.updatedAt < max 0 lingerS)

/-- `_row_batch_request_count`. -/
def Db.rowBatchRequestCount (db : Db) (row : RequestRow) : Nat :=
  match db.batches.find? row.batchId with
  | none => 1
  | some batch => max 1 batch.requestCount

/-- `_should_wait_for_ready_floor`. -/
def Db.shouldWaitForReadyFloor (db : Db) (rows : List RequestRow) (floor : Int) (timeoutS : Time)
    (largeTokenThreshold decodeTokenReserve : Int) (nodeId batchId : Option String) (now : Time) :
    Bool :=
  match rows with
  | [] => false
  | first :: _ =>
    if floor ≤ 1 ∨ floor ≤ rows.length then false
    else if 0 < largeTokenThreshold ∧
        largeTokenThreshold ≤ rowReservedTokens first decodeTokenReserve then false
    else if rows.length = 1 ∧ db.rowBatchRequestCount first ≤ 1 ∧
        !db.hasRecentQueuedPeer first nodeId batchId now (max 0 timeoutS) then false
    else if timeoutS ≤ 0 then true
    else
      -- `now` less the oldest ready time is below the timeout
      rows.all (fun r => now - readyTime now r < timeoutS)

end Queue
end Ds4Spark
