import Ds4Spark.Queue.Kv
import Ds4Spark.Queue.Select

/-!
# Ds4Spark.Queue.Dispatch

The operations of a worker before it settles a request: `prepare_ready` (queued to ready, with the
KV reservation), `claim_ready_batch` (ready to running, under the compute lease of the cohort),
`heartbeat`, `stream_delta`, and the release of `prefilling` rows after a restart.
-/

namespace Ds4Spark
namespace Queue

/-! ## `prepare_ready` -/

structure PrepareArgs where
  scope : Scope
  eligibleProfileIds : List String
  limit : Int
  leasedBy : String
  maxNodeDepth : Int := 0
  kvCapacityBytes : Int := 0
  kvShardLayoutsByProfile : List (String × Layout) := []
  uuid : Nat → String
  now : Time

/-- `_node_depth`. -/
def Db.nodeDepth (db : Db) (nodeId : String) : Nat :=
  (db.requests.select (fun r => r.requestKind = .model ∧
    (r.state = .prefilling ∨ r.state = .ready ∨ r.state = .running) ∧
      r.selectedNodeId = some nodeId)).length

/-- `bind_node_id`. -/
def bindNodeId (args : PrepareArgs) (row : RequestRow) : Option String :=
  (pyOr row.selectedNodeId args.scope.nodeId).filter (fun n => n != "")

/-- The columns a prepared row gets. -/
def RequestRow.makeReady (bind : Option String) (nodeIds : Option (List String)) (now : Time)
    (r : RequestRow) : RequestRow :=
  { r with
    state := .ready, selectedNodeId := r.selectedNodeId.or bind
    selectedNodeIds := r.selectedNodeIds.or nodeIds, readyAt := some now, updatedAt := now
    leaseId := none, leasedBy := none, leaseExpiresAt := none, heartbeatAt := none }

theorem RequestRow.makeReady_requestId (bind : Option String) (nodeIds : Option (List String))
    (now : Time) (r : RequestRow) : (r.makeReady bind nodeIds now).requestId = r.requestId := rfl

/-- The layout a call hands to the reservation of a row. -/
def PrepareArgs.layout (args : PrepareArgs) (row : RequestRow) : Option Layout :=
  args.kvShardLayoutsByProfile.lookup row.selectedProfileId

/-- The row's KV does not fit: it stays queued, with an event. -/
def Db.capacityWait (db : Db) (args : PrepareArgs) (row : RequestRow) : Db :=
  db.event args.now row.requestId "kv_capacity_wait" .queued
    [("batch_id", .str row.batchId), ("node_id", Json.ofStr? (bindNodeId args row)),
      ("service_id", Json.ofStr? row.selectedServiceId),
      ("kv_capacity_bytes", .int args.kvCapacityBytes)]

/-- The row's KV is reserved: it becomes ready, with an event. -/
def Db.prefilled (db : Db) (args : PrepareArgs) (uuid : String) (row : RequestRow) : Db :=
  let bind := bindNodeId args row
  let nodeIds := row.selectedNodeIds.or (bind.map (fun n => [n]))
  (db.updateRequests (fun r => r.requestId = row.requestId ∧ r.state = .queued)
    (RequestRow.makeReady bind nodeIds args.now)
    (RequestRow.makeReady_requestId bind nodeIds args.now)).event args.now row.requestId
      "prefilled" .ready
      [("batch_id", .str row.batchId), ("node_id", Json.ofStr? bind),
        ("service_id", Json.ofStr? row.selectedServiceId),
        ("lease_id", .str (args.leasedBy ++ ":prefill:" ++ uuid))]

/-- One turn of the loop: the row becomes ready, or waits for KV capacity. -/
def prepareRow (args : PrepareArgs) (uuid : String) (row : RequestRow) (db : Db) : Db × Bool :=
  match db.reserveKv row (bindNodeId args row) args.kvCapacityBytes args.now (args.layout row) with
  | none => (db.capacityWait args row, false)
  | some db =>
    if (db.request? row.requestId).any (fun r => r.state = .queued) then
      (db.prefilled args uuid row, true)
    else (db, false)

/-- The loop over the queued rows, and the rows it made ready. -/
def prepareLoop (args : PrepareArgs) : Nat → List RequestRow → Db → Db × List RequestRow
  | _, [], db => (db, [])
  | n, row :: rows, db =>
    let step := prepareRow args (args.uuid n) row db
    let rest := prepareLoop args (n + 1) rows step.1
    (rest.1, if step.2 then row :: rest.2 else rest.2)

/-- `remaining`: the limit, cut to the room the node has. -/
def Db.remaining (db : Db) (args : PrepareArgs) : Int :=
  match args.scope.nodeId with
  | some node =>
    if 0 < args.maxNodeDepth then min args.limit (max 0 (args.maxNodeDepth - db.nodeDepth node))
    else args.limit
  | none => args.limit

/-- `prepare_ready`: the database and `made_ready`. -/
def prepareReady (args : PrepareArgs) (db : Db) : Db × Nat :=
  let remaining := db.remaining args
  if remaining ≤ 0 then (db, 0)
  else
    let done := prepareLoop args 0 (db.queuedRows args.scope args.eligibleProfileIds remaining) db
    (done.1.refreshBatches args.now (done.2.map RequestRow.batchId).dedup, done.2.length)

/-! ## `claim_ready_batch` -/

structure ClaimArgs where
  scope : Scope
  limit : Int
  leasedBy : String
  leaseTtlS : Time
  batchLingerS : Time := 0
  batchLimitsByService : List (String × Int) := []
  batchTokenLimitsByService : List (String × Int) := []
  batchDecodeTokenReservesByService : List (String × Int) := []
  computeLeaseId : Option String := none
  readyShapeBucketing : Bool := false
  readyShapeLookahead : Int := 1
  minReadyRows : Int := 0
  minReadyTimeoutS : Time := 0
  minReadyLargeTokenThreshold : Int := 0
  uuid : Nat → String
  computeUuid : String
  now : Time

structure QueueClaim where
  requestId : String
  batchId : String
  requestKind : RequestKind
  selectedProfileId : String
  selectedNodeId : Option String
  leaseId : String
  attemptCount : Nat
  serviceName : Option String
  payload : JsonObj
  selectedServiceId : Option String
  selectedNodeIds : List String
  selectedComputeDomain : Option String
  computeLeaseId : Option String

/-- `_claim`. -/
def claimOf (row : RequestRow) (leaseId : String) (computeLeaseId : Option String) : QueueClaim where
  requestId := row.requestId
  batchId := row.batchId
  requestKind := row.requestKind
  selectedProfileId := row.selectedProfileId
  selectedNodeId := row.selectedNodeId.filter (fun s => s != "")
  leaseId := leaseId
  attemptCount := row.attemptCount + 1
  serviceName := row.serviceName.filter (fun s => s != "")
  payload := row.requestJson
  selectedServiceId := row.selectedServiceId.filter (fun s => s != "")
  selectedNodeIds := rowNodeIds row row.selectedNodeId
  selectedComputeDomain := row.selectedComputeDomain.filter (fun s => s != "")
  computeLeaseId := computeLeaseId

/-- The rows a claim works on: the ready rows, cut to the token budget. -/
def Db.claimRows (db : Db) (args : ClaimArgs) : List RequestRow :=
  let rows := db.readyRows args.scope args.limit args.batchLimitsByService args.readyShapeBucketing
    args.readyShapeLookahead
  match rows with
  | [] => []
  | first :: _ =>
    limitReadyRowsByTokenBudget rows
      (serviceTokenSetting first.selectedServiceId args.batchTokenLimitsByService)
      (serviceTokenSetting first.selectedServiceId args.batchDecodeTokenReservesByService)

/-- The three reasons to come back empty before the lease is touched. -/
def Db.claimWaits (db : Db) (args : ClaimArgs) (first : RequestRow) (rows : List RequestRow) : Bool :=
  let reserve := serviceTokenSetting first.selectedServiceId args.batchDecodeTokenReservesByService
  db.shouldWaitForReadyFloor rows args.minReadyRows args.minReadyTimeoutS
      args.minReadyLargeTokenThreshold reserve args.scope.nodeId args.scope.batchId args.now ||
    (decide (rows.length < serviceBatchLimit first.selectedServiceId args.batchLimitsByService
        args.limit ∧ 0 < args.batchLingerS) &&
      -- `now` less the newest ready time is below the linger
      (rows.any (fun r => args.now - readyTime args.now r < args.batchLingerS) ||
        db.hasRecentQueuedPeer first args.scope.nodeId args.scope.batchId args.now args.batchLingerS))

/-- The compute lease of the cohort: shared, extended or acquired. -/
def Db.claimLease (db : Db) (args : ClaimArgs) (first : RequestRow) (count : Nat) : Db × Acquired :=
  if args.scope.shareComputeDomain then (db, .noDomain)
  else if pyTrue args.computeLeaseId then
    db.extendComputeLease first count (strOr args.computeLeaseId) args.leasedBy args.leaseTtlS
      args.scope.quantumS args.now
  else
    db.acquireComputeLease first count args.leasedBy args.computeUuid args.leaseTtlS
      args.scope.quantumS args.now

/-- The columns a claimed row gets. -/
def RequestRow.claim (leaseId : String) (computeLeaseId : Option String) (args : ClaimArgs)
    (r : RequestRow) : RequestRow :=
  { r with
    state := .running, leaseId := some leaseId, computeLeaseId := computeLeaseId
    leasedBy := some args.leasedBy, leaseExpiresAt := some (args.now + args.leaseTtlS)
    heartbeatAt := some args.now, startedAt := some args.now, updatedAt := args.now
    attemptCount := r.attemptCount + 1 }

theorem RequestRow.claim_requestId (leaseId : String) (computeLeaseId : Option String)
    (args : ClaimArgs) (r : RequestRow) :
    (r.claim leaseId computeLeaseId args).requestId = r.requestId := rfl

/-- The update and the event of a claim. -/
def Db.started (db : Db) (args : ClaimArgs) (leaseId : String) (computeLeaseId : Option String)
    (row : RequestRow) : Db :=
  (db.updateRequests (fun r => r.requestId = row.requestId ∧ r.state = .ready)
    (RequestRow.claim leaseId computeLeaseId args)
    (RequestRow.claim_requestId leaseId computeLeaseId args)).event args.now row.requestId
      "started" .running
      [("batch_id", .str row.batchId), ("lease_id", .str leaseId),
        ("node_id", Json.ofStr? row.selectedNodeId),
        ("service_id", Json.ofStr? row.selectedServiceId),
        ("compute_domain", Json.ofStr? row.selectedComputeDomain),
        ("compute_lease_id", Json.ofStr? computeLeaseId)]

/-- One turn of the claim loop. -/
def claimRow (args : ClaimArgs) (leaseId : String) (computeLeaseId : Option String)
    (row : RequestRow) (db : Db) : Db × Option QueueClaim :=
  if (db.request? row.requestId).any (fun r => r.state = .ready) then
    (db.started args leaseId computeLeaseId row, some (claimOf row leaseId computeLeaseId))
  else (db, none)

def claimLoop (args : ClaimArgs) (computeLeaseId : Option String) :
    Nat → List RequestRow → Db → Db × List QueueClaim
  | _, [], db => (db, [])
  | n, row :: rows, db =>
    let step := claimRow args (args.leasedBy ++ ":run:" ++ args.uuid n) computeLeaseId row db
    let rest := claimLoop args computeLeaseId (n + 1) rows step.1
    (rest.1, step.2.toList ++ rest.2)

/-- `claim_ready_batch`. -/
def claimReadyBatch (args : ClaimArgs) (db : Db) : Db × List QueueClaim :=
  match db.claimRows args with
  | [] => (db, [])
  | first :: rest =>
    let rows := first :: rest
    if db.claimWaits args first rows then (db, [])
    else
      let leased := db.claimLease args first rows.length
      match leased.2 with
      | .refused => (leased.1, [])
      | acquired =>
        let done := claimLoop args acquired.id? 0 rows leased.1
        -- an acquired lease is dropped again when no row was claimed under it
        let db := if done.2.isEmpty ∧ args.computeLeaseId = none ∧ acquired.id?.isSome then
            { done.1 with
              computeLeases := done.1.computeLeases.delete
                (fun l => acquired.id? = some l.computeLeaseId) }
          else done.1
        (db.refreshBatches args.now (done.2.map QueueClaim.batchId).dedup, done.2)

/-! ## `heartbeat` and `stream_delta` -/

structure HeartbeatArgs where
  leaseIds : List String
  leaseTtlS : Time
  now : Time

/-- The columns a heartbeat sets. -/
def RequestRow.beat (now ttl : Time) (r : RequestRow) : RequestRow :=
  { r with heartbeatAt := some now, leaseExpiresAt := some (now + ttl), updatedAt := now }

theorem RequestRow.beat_requestId (now ttl : Time) (r : RequestRow) :
    (r.beat now ttl).requestId = r.requestId := rfl

/-- A running row that the heartbeat names. -/
def HeartbeatArgs.meets (args : HeartbeatArgs) (r : RequestRow) : Bool :=
  r.state = .running ∧ (r.leaseId.any (fun id => id ∈ args.leaseIds.filter (fun s => s != "")))

/-- `heartbeat`: the database and the number of rows it refreshed. -/
def heartbeat (args : HeartbeatArgs) (db : Db) : Db × Nat :=
  let rows := db.requests.select args.meets
  let computeLeaseIds := rows.filterMap (fun r => r.computeLeaseId.filter (fun s => s != ""))
  let db := db.updateRequests args.meets (RequestRow.beat args.now args.leaseTtlS)
    (RequestRow.beat_requestId args.now args.leaseTtlS)
  (db.renewLeases (fun l => l.computeLeaseId ∈ computeLeaseIds) args.now args.leaseTtlS 0,
    rows.length)

structure DeltaArgs where
  requestId : String
  text : String
  payload : JsonObj
  now : Time

/-- `stream_delta`; a request that has no row yet is logged as running. -/
def streamDelta (args : DeltaArgs) (db : Db) : Db :=
  if args.text = "" then db
  else
    db.event args.now args.requestId "delta"
      (((db.request? args.requestId).map RequestRow.state).getD .running)
      (args.payload.set "text" (.str args.text))

/-! ## `_release_prefilling_locked` -/

/-- `selected_..=case when selected_service_id is null then null else selected_.. end`. -/
def RequestRow.unbind (r : RequestRow) : RequestRow :=
  if r.selectedServiceId = none then
    { r with selectedNodeId := none, selectedNodeIds := none, selectedComputeDomain := none }
  else r

/-- The columns a released row gets. -/
def RequestRow.releasePrefilling (now : Time) (r : RequestRow) : RequestRow :=
  { r.unbind with
    state := .queued, leaseId := none, computeLeaseId := none, leasedBy := none
    leaseExpiresAt := none, heartbeatAt := none, readyAt := none, updatedAt := now }

theorem RequestRow.releasePrefilling_requestId (now : Time) (r : RequestRow) :
    (r.releasePrefilling now).requestId = r.requestId := by
  unfold RequestRow.releasePrefilling RequestRow.unbind; split <;> rfl

/-- The rows `_release_prefilling_locked` reads. -/
def Db.prefillingRows (db : Db) (staleS now : Time) : List RequestRow :=
  (db.requests.select (fun r => r.state = .prefilling ∧
    (staleS ≤ 0 ∨ r.updatedAt ≤ now - staleS))).insertionSort
      (fun a b => a.updatedAt < b.updatedAt ∨ a.updatedAt = b.updatedAt ∧ a.requestId ≤ b.requestId)

/-- `_release_prefilling_locked`, as `release_jit_kv_waits` and `recover_jit_kv_startup` call it. -/
def releasePrefilling (reason : String) (staleS now : Time) (db : Db) : Db × Nat :=
  let rows := db.prefillingRows staleS now
  let ids := rows.map RequestRow.requestId
  let db := db.updateRequests (fun r => r.requestId ∈ ids) (RequestRow.releasePrefilling now)
    (RequestRow.releasePrefilling_requestId now)
  let db := rows.foldl (fun db row =>
    (db.event now row.requestId "jit_kv_recovered" .queued
      [("batch_id", .str row.batchId), ("reason", .str reason)]).releaseUnusedComputeLease
        row.computeLeaseId) db
  (db.refreshBatches now (rows.map RequestRow.batchId).dedup, rows.length)

end Queue
end Ds4Spark
