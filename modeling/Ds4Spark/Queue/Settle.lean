import Ds4Spark.Queue.Dispatch

/-!
# Ds4Spark.Queue.Settle

The operations that end a request or send it back: `finish_request`, `retry_transport_failure`,
`cancel` and `requeue_expired_leases`.

Each one reads rows first and then runs a list of actions on them: statements, and the notice
files it writes (`_write_notice`). The list is a value, so the same operation can be run as one
atomic step (`execAll`), with a fault in the middle, or from rows read earlier.
-/

namespace Ds4Spark
namespace Queue

/-- What `_write_notice` puts in `<root>/notices/<request_id>.json`. -/
structure Notice where
  requestId : String
  state : RequestState
  result : JsonObj

inductive Action where
  | exec (f : Db → Db)
  | notice (n : Notice)

def Action.apply : Action → Db → Db
  | .exec f, db => f db
  | .notice _, db => db

/-- The database after a whole list of actions. -/
def execAll (acts : List Action) (db : Db) : Db := acts.foldl (fun db a => a.apply db) db

@[simp] theorem execAll_nil (db : Db) : execAll [] db = db := rfl

@[simp] theorem execAll_exec (f : Db → Db) (acts : List Action) (db : Db) :
    execAll (.exec f :: acts) db = execAll acts (f db) := rfl

@[simp] theorem execAll_notice (n : Notice) (acts : List Action) (db : Db) :
    execAll (.notice n :: acts) db = execAll acts db := rfl

theorem execAll_append (as bs : List Action) (db : Db) :
    execAll (as ++ bs) db = execAll bs (execAll as db) := by
  simp [execAll]

/-- `lease_id=null, leased_by=null, lease_expires_at=null, heartbeat_at=null`. -/
def RequestRow.dropLease (r : RequestRow) : RequestRow :=
  { r with leaseId := none, leasedBy := none, leaseExpiresAt := none, heartbeatAt := none }

/-- The columns every terminal update sets. -/
def RequestRow.finish (state : RequestState) (result : JsonObj) (error : Option String) (now : Time)
    (r : RequestRow) : RequestRow :=
  { r.dropLease with
    state := state, resultJson := some result, error := error, completedAt := some now
    updatedAt := now }

theorem RequestRow.finish_requestId (state : RequestState) (result : JsonObj) (error : Option String)
    (now : Time) (r : RequestRow) : (r.finish state result error now).requestId = r.requestId := rfl

/-- `where request_id=? and lease_id=? and state='running'`. -/
def holdsLease (requestId leaseId : String) (r : RequestRow) : Bool :=
  r.requestId = requestId ∧ r.leaseId = some leaseId ∧ r.state = .running

/-- `dict(result, status="cancelled", ignored_result=True)`. -/
def ignoredResult (result : JsonObj) : JsonObj :=
  JsonObj.set (JsonObj.set result "status" (.str "cancelled")) "ignored_result" (.bool true)

/-! ## `finish_request` -/

structure FinishArgs where
  requestId : String
  leaseId : String
  state : RequestState
  result : JsonObj
  error : Option String := none
  now : Time

/-- `final`. -/
def FinishArgs.final (args : FinishArgs) (row : RequestRow) : RequestState :=
  if row.cancelRequested then .cancelled else args.state

def FinishArgs.finalResult (args : FinishArgs) (row : RequestRow) : JsonObj :=
  if args.final row = .cancelled then ignoredResult args.result else args.result

/-- `None if final == "completed" else (error or final)`. -/
def FinishArgs.finalError (args : FinishArgs) (row : RequestRow) : Option String :=
  if args.final row = .completed then none
  else if pyTrue args.error then args.error
  else some (args.final row).name

/-- The transaction of `finish_request` on the row it read. -/
def finishActions (args : FinishArgs) (row : RequestRow) : List Action := [
  .exec (fun db => db.updateRequests (holdsLease args.requestId args.leaseId)
    (RequestRow.finish (args.final row) (args.finalResult row) (args.finalError row) args.now)
    (RequestRow.finish_requestId _ _ _ _)),
  .exec (fun db => if pyTrue row.kvKey then db.idleRequestKv args.requestId args.now else db),
  .exec (fun db => db.releaseUnusedComputeLease row.computeLeaseId),
  .exec (fun db => db.event args.now args.requestId (args.final row).name (args.final row)
    [("batch_id", .str row.batchId), ("service_id", Json.ofStr? row.selectedServiceId)]),
  .exec (fun db => db.refreshBatch args.now row.batchId)]

/-- The notice `finish_request` writes after the commit. -/
def FinishArgs.notice (args : FinishArgs) (row : RequestRow) : Notice :=
  ⟨args.requestId, args.final row, args.finalResult row⟩

/-- `finish_request`: the database and the value returned. -/
def finishRequest (args : FinishArgs) (db : Db) : Except Error (Db × Bool) :=
  if !args.state.isTerminal then
    .error (.valueError ("unsupported terminal state: " ++ args.state.name))
  else
    match db.running? args.requestId args.leaseId with
    | none => .ok (db, false)
    | some row => .ok (execAll (finishActions args row) db, true)

/-! ## `retry_transport_failure` -/

/-- `loads` is `json.loads`; only `_result_error` uses it. -/
structure RetryArgs where
  requestId : String
  leaseId : String
  result : JsonObj
  maxAttempts : Int
  loads : String → Option Json
  now : Time

/-- `_result_error`; the empty text when there is none. -/
def resultError (loads : String → Option Json) (result : JsonObj) : String :=
  let truthyField (d : JsonObj) (key : String) : Option Json := (d.get? key).filter Json.truthy
  match truthyField (Json.asObj (result.get? "transport")) "error" with
  | some e => e.pyStr
  | none =>
    match truthyField result "error" with
    | some e => e.pyStr
    | none =>
      match truthyField (Json.asObj (result.get? "output")) "text" with
      | none => ""
      | some text =>
        match loads text.pyStr with
        | none => String.ofList (text.pyStr.toList.take 4000)
        | some parsed =>
          match truthyField (Json.asObj (some parsed)) "error" with
          | some e => e.pyStr
          | none => ""

/-- `_result_error(result) or "transport_failed"`. -/
def RetryArgs.error (args : RetryArgs) : String :=
  if resultError args.loads args.result = "" then "transport_failed"
  else resultError args.loads args.result

/-- The value `retry_transport_failure` returns. -/
inductive RetryOutcome where
  | lost | cancelled | requeued | failed
deriving DecidableEq, Repr

def RetryArgs.outcome (args : RetryArgs) (row : RequestRow) : RetryOutcome :=
  if row.cancelRequested then .cancelled
  else if (row.attemptCount : Int) < args.maxAttempts then .requeued
  else .failed

/-- The columns a request gets that is sent back after a transport failure. -/
def RequestRow.requeue (error : String) (now : Time) (r : RequestRow) : RequestRow :=
  { r.unbind.dropLease with
    state := .queued, readyAt := none, resultJson := none, error := some error
    computeLeaseId := none, updatedAt := now }

theorem RequestRow.unbind_requestId (r : RequestRow) : r.unbind.requestId = r.requestId := by
  unfold RequestRow.unbind; split <;> rfl

theorem RequestRow.requeue_requestId (error : String) (now : Time) (r : RequestRow) :
    (r.requeue error now).requestId = r.requestId := r.unbind_requestId

def retryCancelledActions (args : RetryArgs) (row : RequestRow) : List Action := [
  .exec (fun db => db.updateRequests (holdsLease args.requestId args.leaseId)
    (RequestRow.finish .cancelled (ignoredResult args.result) (some "cancelled") args.now)
    (RequestRow.finish_requestId _ _ _ _)),
  .exec (fun db => db.deleteRequestKv args.requestId),
  .exec (fun db => db.releaseUnusedComputeLease row.computeLeaseId),
  .exec (fun db => db.event args.now args.requestId "cancelled" .cancelled
    [("batch_id", .str row.batchId), ("after_transport_error", .str args.error)]),
  .exec (fun db => db.refreshBatch args.now row.batchId),
  .notice ⟨args.requestId, .cancelled, ignoredResult args.result⟩]

def retryRequeuedActions (args : RetryArgs) (row : RequestRow) : List Action := [
  .exec (fun db => db.deleteRequestKv args.requestId),
  .exec (fun db => db.updateRequests (holdsLease args.requestId args.leaseId)
    (RequestRow.requeue args.error args.now) (RequestRow.requeue_requestId _ _)),
  .exec (fun db => db.releaseUnusedComputeLease row.computeLeaseId),
  .exec (fun db => db.event args.now args.requestId "transport_requeued" .queued
    [("batch_id", .str row.batchId), ("attempt_count", .int row.attemptCount),
      ("max_attempts", .int args.maxAttempts), ("error", .str args.error)]),
  .exec (fun db => db.refreshBatch args.now row.batchId)]

def retryFailedActions (args : RetryArgs) (row : RequestRow) : List Action := [
  .exec (fun db => db.updateRequests (holdsLease args.requestId args.leaseId)
    (RequestRow.finish .failed args.result (some args.error) args.now)
    (RequestRow.finish_requestId _ _ _ _)),
  .exec (fun db => db.deleteRequestKv args.requestId),
  .exec (fun db => db.releaseUnusedComputeLease row.computeLeaseId),
  .exec (fun db => db.event args.now args.requestId "failed" .failed
    [("batch_id", .str row.batchId), ("attempt_count", .int row.attemptCount),
      ("error", .str args.error)]),
  .exec (fun db => db.refreshBatch args.now row.batchId)]

/-- The transaction of `retry_transport_failure` on the row it read. -/
def retryActions (args : RetryArgs) (row : RequestRow) : List Action :=
  match args.outcome row with
  | .cancelled => retryCancelledActions args row
  | .requeued => retryRequeuedActions args row
  | _ => retryFailedActions args row

/-- The notice of the failed branch, the only one written after the commit. -/
def RetryArgs.notice? (args : RetryArgs) (row : RequestRow) : Option Notice :=
  if args.outcome row = .failed then some ⟨args.requestId, .failed, args.result⟩ else none

/-- `retry_transport_failure`: the database and the value returned. -/
def retryTransportFailure (args : RetryArgs) (db : Db) : Db × RetryOutcome :=
  match db.running? args.requestId args.leaseId with
  | none => (db, .lost)
  | some row => (execAll (retryActions args row) db, args.outcome row)

/-! ## `cancel` -/

/-- Whose requests a `cancel` is about; `job_id` is another name for `batch_id`. -/
inductive CancelTarget where
  | request (requestId : String)
  | batch (batchId : String)
  | nothing

structure CancelArgs where
  requestId : Option String := none
  batchId : Option String := none
  jobId : Option String := none
  reason : String := "cancelled by operator"
  forceRunning : Bool := false
  now : Time

/-- `job_batch_id`. -/
def jobBatchId (batchId jobId : Option String) : Except Error (Option String) :=
  if batchId.isSome ∧ jobId.isSome ∧ batchId ≠ jobId then
    .error (.valueError "batch_id and job_id must match when both are provided")
  else .ok (batchId.or jobId)

/-- The two checks before the transaction. An empty `request_id` makes the query compare with null. -/
def CancelArgs.target (args : CancelArgs) : Except Error CancelTarget := do
  match args.requestId, ← jobBatchId args.batchId args.jobId with
  | some r, none => .ok (if r = "" then .nothing else .request r)
  | none, some b => .ok (.batch b)
  | _, _ => .error (.valueError "exactly one of request_id, batch_id, or job_id is required")

def CancelTarget.meets : CancelTarget → RequestRow → Bool
  | .request requestId, r => r.requestId = requestId
  | .batch batchId, r => r.batchId = batchId
  | .nothing, _ => false

/-- The rows `cancel` reads. -/
def Db.cancelRows (db : Db) (target : CancelTarget) : List RequestRow :=
  (db.requests.select target.meets).insertionSort (fun a b => a.requestId ≤ b.requestId)

def cancelledResult (row : RequestRow) (reason : String) (forced : Bool) : JsonObj :=
  [("format", .str "ds4-inference-cancelled-v1"), ("request_id", .str row.requestId),
    ("status", .str "cancelled"), ("reason", .str reason)] ++
    if forced then [("forced", .bool true)] else []

/-- The update of a row that is not running: its lease columns are left as they are. -/
def RequestRow.cancelIdle (result : JsonObj) (reason : String) (now : Time) (r : RequestRow) :
    RequestRow :=
  { r with
    state := .cancelled, resultJson := some result, error := some reason
    completedAt := some now, updatedAt := now }

/-- The update of a running row under `force_running`. -/
def RequestRow.cancelForced (result : JsonObj) (reason : String) (now : Time) (r : RequestRow) :
    RequestRow :=
  { r.finish .cancelled result (some reason) now with computeLeaseId := none }

/-- The update of a running row otherwise. -/
def RequestRow.mark (now : Time) (r : RequestRow) : RequestRow :=
  { r with cancelRequested := true, updatedAt := now }

theorem RequestRow.cancelIdle_requestId (result : JsonObj) (reason : String) (now : Time)
    (r : RequestRow) : (r.cancelIdle result reason now).requestId = r.requestId := rfl

theorem RequestRow.cancelForced_requestId (result : JsonObj) (reason : String) (now : Time)
    (r : RequestRow) : (r.cancelForced result reason now).requestId = r.requestId := rfl

theorem RequestRow.mark_requestId (now : Time) (r : RequestRow) :
    (r.mark now).requestId = r.requestId := rfl

/-- The statements both cancelling branches share. -/
def cancelRowActions (args : CancelArgs) (row : RequestRow) (forced : Bool)
    (update : RequestRow → RequestRow) (h : ∀ r, (update r).requestId = r.requestId) :
    List Action := [
  .exec (fun db => db.updateRequests (fun r => r.requestId = row.requestId) update h),
  .exec (fun db => db.deleteRequestKv row.requestId),
  .exec (fun db => db.releaseUnusedComputeLease row.computeLeaseId),
  .exec (fun db => db.event args.now row.requestId "cancelled" .cancelled
    ([("batch_id", .str row.batchId), ("reason", .str args.reason)] ++
      if forced then [("forced", .bool true)] else [])),
  .notice ⟨row.requestId, .cancelled, cancelledResult row args.reason forced⟩]

/-- What the loop does with a row. -/
inductive CancelChoice where
  | skip | mark | force | cancel
deriving DecidableEq

def CancelArgs.choice (args : CancelArgs) (row : RequestRow) : CancelChoice :=
  if row.state.isTerminal then .skip
  else if row.state = .running then (if args.forceRunning then .force else .mark)
  else .cancel

/-- One turn of the loop of `cancel`. -/
def cancelTurn (args : CancelArgs) (row : RequestRow) : List Action :=
  match args.choice row with
  | .skip => []
  | .mark => [.exec (fun db => db.updateRequests (fun r => r.requestId = row.requestId)
      (RequestRow.mark args.now) (RequestRow.mark_requestId args.now))]
  | .force => cancelRowActions args row true
      (RequestRow.cancelForced (cancelledResult row args.reason true) args.reason args.now)
      (RequestRow.cancelForced_requestId _ _ _)
  | .cancel => cancelRowActions args row false
      (RequestRow.cancelIdle (cancelledResult row args.reason false) args.reason args.now)
      (RequestRow.cancelIdle_requestId _ _ _)

/-- The transaction of `cancel` on the rows it read. -/
def cancelActions (args : CancelArgs) (rows : List RequestRow) : List Action :=
  rows.flatMap (cancelTurn args) ++
    [.exec (fun db => db.refreshBatches args.now (rows.map RequestRow.batchId).dedup)]

structure CancelResult where
  cancelledRequestIds : List String
  runningCancelRequestedIds : List String
  skippedStateCounts : List (RequestState × Nat)

def cancelResult (args : CancelArgs) (rows : List RequestRow) : CancelResult where
  cancelledRequestIds := (rows.filter (fun r => args.choice r = .force ∨ args.choice r = .cancel)).map
    RequestRow.requestId
  runningCancelRequestedIds := (rows.filter (fun r => args.choice r = .mark)).map RequestRow.requestId
  skippedStateCounts := (RequestState.completed :: .failed :: .cancelled :: []).filterMap (fun s =>
    let n := (rows.filter (fun r => r.state = s)).length
    if n = 0 then none else some (s, n))

/-- `cancel`. -/
def cancel (args : CancelArgs) (db : Db) : Except Error (Db × CancelResult) := do
  let target ← args.target
  let rows := db.cancelRows target
  .ok (execAll (cancelActions args rows) db, cancelResult args rows)

/-! ## `requeue_expired_leases` -/

structure ReapArgs where
  maxAttempts : Int := 3
  now : Time

/-- The rows the reaper works on. -/
def Db.expiredRows (db : Db) (now : Time) : List RequestRow :=
  (db.requests.select (fun r => (r.state = .prefilling ∨ r.state = .running) ∧
    r.leaseExpiresAt.any (fun t => t ≤ now))).insertionSort (fun a b =>
      a.leaseExpiresAt.getD 0 < b.leaseExpiresAt.getD 0 ∨
        (a.leaseExpiresAt.getD 0 = b.leaseExpiresAt.getD 0 ∧ a.requestId ≤ b.requestId))

/-- `_failure`. -/
def failure (requestId error : String) : JsonObj :=
  [("format", .str "ds4-inference-failure-v1"), ("request_id", .str requestId),
    ("status", .str "failed"), ("error", .str error)]

def expiredResult (row : RequestRow) : JsonObj :=
  failure row.requestId ("lease expired after " ++ toString row.attemptCount ++ " attempts")

/-- Whether the reaper fails the row instead of requeueing it. -/
def ReapArgs.fails (args : ReapArgs) (row : RequestRow) : Bool :=
  args.maxAttempts ≤ (row.attemptCount : Int)

/-- The columns a requeued row gets; unlike after a transport failure, `ready_at`, `result_json`
and `error` stay. -/
def RequestRow.reapRequeue (now : Time) (r : RequestRow) : RequestRow :=
  { r.unbind.dropLease with state := .queued, computeLeaseId := none, updatedAt := now }

theorem RequestRow.reapRequeue_requestId (now : Time) (r : RequestRow) :
    (r.reapRequeue now).requestId = r.requestId := r.unbind_requestId

/-- The statements of a turn that differ between the two outcomes. -/
def reapUpdate (args : ReapArgs) (row : RequestRow) : List Action :=
  if args.fails row then [
    .exec (fun db => db.updateRequests (fun r => r.requestId = row.requestId)
      (RequestRow.finish .failed (expiredResult row) (some "lease_expired") args.now)
      (RequestRow.finish_requestId _ _ _ _)),
    .notice ⟨row.requestId, .failed, expiredResult row⟩]
  else [
    .exec (fun db => db.deleteRequestKv row.requestId),
    .exec (fun db => db.updateRequests (fun r => r.requestId = row.requestId)
      (RequestRow.reapRequeue args.now) (RequestRow.reapRequeue_requestId args.now))]

/-- One turn of the loop of `requeue_expired_leases`. -/
def reapTurn (args : ReapArgs) (row : RequestRow) : List Action :=
  reapUpdate args row ++ [
    .exec (fun db => db.releaseUnusedComputeLease row.computeLeaseId),
    .exec (fun db => db.event args.now row.requestId "lease_expired"
      (if args.fails row then .failed else .queued)
      [("batch_id", .str row.batchId), ("attempt_count", .int row.attemptCount)]),
    .exec (fun db => db.refreshBatch args.now row.batchId)]

/-- The transaction of `requeue_expired_leases`: its first statement is a write, so the rows are
read inside it. -/
def reapActions (args : ReapArgs) (db : Db) : List Action :=
  .exec (fun db => db.dropUnusedExpiredLeases args.now) ::
    (db.expiredRows args.now).flatMap (reapTurn args)

structure ReapResult where
  requeuedCount : Nat
  failedCount : Nat

/-- `requeue_expired_leases`. -/
def requeueExpiredLeases (args : ReapArgs) (db : Db) : Db × ReapResult :=
  (execAll (reapActions args db) db,
    ⟨((db.expiredRows args.now).filter (fun r => !args.fails r)).length,
      ((db.expiredRows args.now).filter args.fails).length⟩)

end Queue
end Ds4Spark
