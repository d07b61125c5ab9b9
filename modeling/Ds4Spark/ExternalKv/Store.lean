import Ds4Spark.Queue.Schema
import Mathlib.Data.List.Dedup

/-!
# Ds4Spark.ExternalKv.Store

External KV objects: the tables `kv_memory_objects`, `kv_memory_shards` and `kv_memory_leases`, and
the operations of `InferenceQueue` on them. Each is one transaction, and an error leaves the tables as
they were. Looking an object up writes nothing that is kept: the connection is closed without a commit.

An object is never deleted: eviction marks it and its shards.
-/

namespace Ds4Spark
namespace ExternalKv

open Queue (Error Time asInt raiseIf)

structure ObjKey where
  nameSpace : String
  kvKey : String
  serviceId : String
deriving DecidableEq

/-- `_normalize_namespace`, `_require_kv_key` and `_require_service_id`. -/
def ObjKey.normalize (k : ObjKey) : Except Error ObjKey := do
  raiseIf (k.kvKey = "") "kv_key is required"
  raiseIf (k.serviceId = "") "service_id is required"
  .ok { k with nameSpace := if k.nameSpace = "" then "default" else k.nameSpace }

structure KvObject where
  key : ObjKey
  profileId : Option String
  modelId : Option String
  owner : Option String
  contentHash : Option String
  totalBytes : Int
  totalTokens : Int
  state : String
  pinCount : Int
  priority : Int
  ttlExpiresAt : Option Time
  metadata : JsonObj
  createdAt : Time
  updatedAt : Time
  lastUsedAt : Time

structure ShardKey where
  object : ObjKey
  nodeId : String
  stageIndex : Int
deriving DecidableEq

structure KvShard where
  key : ShardKey
  stageCount : Int
  layerStart : Option Int
  layerEnd : Option Int
  bytes : Int
  state : String
  storageUri : Option String
  gpuResident : Bool
  metadata : JsonObj
  createdAt : Time
  updatedAt : Time
  lastUsedAt : Time

structure KvLease where
  leaseId : String
  key : ObjKey
  mode : String
  owner : Option String
  expiresAt : Time
  createdAt : Time
  updatedAt : Time

structure KvDb where
  objects : Table KvObject KvObject.key
  shards : Table KvShard KvShard.key
  leases : Table KvLease KvLease.leaseId

namespace KvDb

def empty : KvDb := ⟨.empty, .empty, .empty⟩

def object? (db : KvDb) (k : ObjKey) : Option KvObject := db.objects.find? k

def shardsOf (db : KvDb) (k : ObjKey) : List KvShard := db.shards.select (fun s => s.key.object = k)

def leasesOf (db : KvDb) (k : ObjKey) : List KvLease := db.leases.select (fun l => l.key = k)

/-- `update kv_memory_objects set .. where namespace=? and kv_key=? and service_id=?`. -/
def updateObject (db : KvDb) (k : ObjKey) (f : KvObject → KvObject) (hf : ∀ r, (f r).key = r.key) :
    KvDb :=
  { db with objects := db.objects.update (fun r => r.key = k) f hf }

/-- The same for the shards, with more conditions on them. -/
def updateShards (db : KvDb) (k : ObjKey) (p : KvShard → Bool) (f : KvShard → KvShard)
    (hf : ∀ r, (f r).key = r.key) : KvDb :=
  { db with shards := db.shards.update (fun r => r.key.object = k && p r) f hf }

def touchShards (db : KvDb) (k : ObjKey) (now : Time) : KvDb :=
  db.updateShards k (fun _ => true) (fun r => { r with updatedAt := now, lastUsedAt := now })
    (fun _ => rfl)

end KvDb

/-! ## Shard manifests -/

/-- `int(shard.get(key, default) or default)`. -/
def intOrElse (shard : JsonObj) (key : String) (default : Int) : Except Error Int :=
  asInt (JsonObj.orElse shard key (.int default))

/-- `int(shard[key]) if shard.get(key) is not None else None`. -/
def intOrNone (shard : JsonObj) (key : String) : Except Error (Option Int) :=
  match shard.get? key with
  | none | some .null => .ok none
  | some v => (asInt v).map some

/-- `dict(shard.get("metadata") or {})`. -/
def metadataOf (shard : JsonObj) : Except Error JsonObj :=
  match (JsonObj.orElse shard "metadata" (.obj [])).pyDict with
  | some d => .ok d
  | none => .error (.valueError "metadata is not a mapping")

/-- `str(shard["storage_uri"]) if shard.get("storage_uri") is not None else None`. -/
def storageUriOf (shard : JsonObj) : Option String :=
  match shard.get? "storage_uri" with
  | none | some .null => none
  | some v => some v.pyStr

/-- The loop of `validate_external_kv_shards`: the `(node_id, stage_index)` pairs seen so far, and
the stage counts. -/
def validateLoop (count : Nat) : List JsonObj → List (String × Int) → List Int →
    Except Error (List Int)
  | [], _, stageCounts => .ok stageCounts
  | shard :: rest, seen, stageCounts => do
    let nodeId := (JsonObj.orElse shard "node_id" (.str "")).pyStr
    raiseIf (nodeId = "") "external KV shard missing node_id"
    let stageIndex ← intOrElse shard "stage_index" 0
    let stageCount ← intOrElse shard "stage_count" count
    raiseIf (stageIndex < 0 ∨ stageCount < 1 ∨ stageCount ≤ stageIndex)
      "external KV shard has invalid stage_index/stage_count"
    raiseIf ((nodeId, stageIndex) ∈ seen)
      ("duplicate external KV shard for " ++ nodeId ++ " stage " ++ toString stageIndex)
    validateLoop count rest (seen ++ [(nodeId, stageIndex)]) (stageCounts ++ [stageCount])

/-- `validate_external_kv_shards`. -/
def validateExternalKvShards (shardList : List JsonObj) (totalBytes : Int) : Except Error Unit := do
  raiseIf (shardList = []) ("external KV objects must be declared with explicit node-local shard " ++
    "manifests; spark0 aggregation is forbidden")
  let stageCounts ← validateLoop shardList.length shardList [] []
  match stageCounts.dedup with
  | [stageCount] =>
    raiseIf (stageCount ≠ shardList.length)
      "external KV shard manifest must include exactly one shard per pipeline stage"
    let nodes := (shardList.map (fun shard => ((shard.get? "node_id").getD .null).pyStr)).dedup
    raiseIf (totalBytes > 0 ∧ stageCount > 1 ∧ (nodes.length : Int) < stageCount)
      "external KV pipeline shards must be node-local, not aggregated on a single node"
  | _ => .error (.valueError "external KV shards must agree on stage_count")

/-- `_metadata_partition_fingerprint`. -/
def metadataPartitionFingerprint (metadata : JsonObj) : Option String :=
  match (Json.strOf? (metadata.get? "layer_partition_fingerprint")).filter (fun s => s ≠ "") with
  | some value => some value
  | none =>
    (Json.strOf? ((Json.asObj (metadata.get? "kv_cache_contract")).get? "fingerprint")).filter
      (fun s => s ≠ "")

/-- `_validate_external_kv_partition_fingerprint`. -/
def validatePartitionFingerprint (metadata : JsonObj) (shards : List JsonObj) : Except Error Unit :=
  match metadataPartitionFingerprint metadata with
  | none => .ok ()
  | some expected => do
    let actuals ← shards.mapM (fun shard => (metadataOf shard).map metadataPartitionFingerprint)
    raiseIf (actuals.any (fun actual => actual.any (fun value => value ≠ expected)))
      "external KV shard layer partition fingerprint mismatch"

/-! ## `upsert_external_kv_object` -/

structure UpsertArgs where
  key : ObjKey
  profileId : Option String
  modelId : Option String
  owner : Option String
  contentHash : Option String
  totalBytes : Int
  totalTokens : Int
  state : String
  pinCount : Int
  priority : Int
  ttlS : Option Rat
  metadata : JsonObj
  shards : List JsonObj
  now : Time

def ttlExpiresAt (now : Time) (ttlS : Option Rat) : Option Time := ttlS.map (fun t => now + max 0 t)

def shardRow (args : UpsertArgs) (k : ObjKey) (shard : JsonObj) : Except Error KvShard := do
  let stageIndex ← intOrElse shard "stage_index" 0
  let stageCount ← intOrElse shard "stage_count" args.shards.length
  let layerStart ← intOrNone shard "layer_start"
  let layerEnd ← intOrNone shard "layer_end"
  let bytes ← intOrElse shard "bytes" 0
  let metadata ← metadataOf shard
  .ok {
    key := ⟨k, ((shard.get? "node_id").getD .null).pyStr, stageIndex⟩
    stageCount := stageCount
    layerStart := layerStart
    layerEnd := layerEnd
    bytes := max 0 bytes
    state := (JsonObj.orElse shard "state" (.str args.state)).pyStr
    storageUri := storageUriOf shard
    gpuResident := ((shard.get? "gpu_resident").getD (.bool false)).truthy
    metadata := metadata
    createdAt := args.now
    updatedAt := args.now
    lastUsedAt := args.now }

def insertShards (args : UpsertArgs) (k : ObjKey) :
    List JsonObj → Table KvShard KvShard.key → Except Error (Table KvShard KvShard.key)
  | [], t => .ok t
  | shard :: rest, t => do
    let row ← shardRow args k shard
    match t.insert? row with
    | some t' => insertShards args k rest t'
    | none => .error (.integrityError "kv_memory_shards")

def upsertExternalKvObject (args : UpsertArgs) (db : KvDb) : Except Error KvDb := do
  let k ← args.key.normalize
  validateExternalKvShards args.shards args.totalBytes
  validatePartitionFingerprint args.metadata args.shards
  let row : KvObject := {
    key := k
    profileId := args.profileId
    modelId := args.modelId
    owner := args.owner
    contentHash := args.contentHash
    totalBytes := max 0 args.totalBytes
    totalTokens := max 0 args.totalTokens
    state := args.state
    pinCount := max 0 args.pinCount
    priority := args.priority
    ttlExpiresAt := ttlExpiresAt args.now args.ttlS
    metadata := args.metadata
    createdAt := ((db.object? k).map KvObject.createdAt).getD args.now
    updatedAt := args.now
    lastUsedAt := args.now }
  let shards ← insertShards args k args.shards (db.shards.delete (fun s => s.key.object = k))
  .ok { db with objects := db.objects.replace row, shards := shards }

/-! ## The operations on an object that is there -/

/-- The row that most operations start from. -/
def KvDb.required (db : KvDb) (k : ObjKey) : Except Error KvObject :=
  match db.object? k with
  | some row => .ok row
  | none => .error (.valueError "external KV object is missing")

structure TouchArgs where
  key : ObjKey
  owner : Option String
  state : Option String
  priority : Option Int
  ttlS : Option Rat
  metadata : JsonObj
  now : Time

def externalKvTouch (args : TouchArgs) (db : KvDb) : Except Error KvDb := do
  let k ← args.key.normalize
  let row ← db.required k
  let db := db.updateObject k (fun r => { r with
      metadata := row.metadata.update args.metadata
      updatedAt := args.now
      lastUsedAt := args.now
      owner := if args.owner.isSome then args.owner else r.owner
      state := args.state.getD r.state
      priority := args.priority.getD r.priority
      ttlExpiresAt :=
        if args.ttlS.isSome then ttlExpiresAt args.now args.ttlS else r.ttlExpiresAt })
    (fun _ => rfl)
  .ok (db.touchShards k args.now)

structure LeaseArgs where
  key : ObjKey
  leaseId : String
  owner : Option String
  mode : String
  ttlS : Rat
  now : Time

def leaseModes : List String := ["read", "write", "prefetch", "pin"]

def externalKvLease (args : LeaseArgs) (db : KvDb) : Except Error KvDb := do
  let k ← args.key.normalize
  raiseIf (args.mode ∉ leaseModes) "unsupported external KV lease mode"
  let _ ← db.required k
  let lease : KvLease := {
    leaseId := args.leaseId
    key := k
    mode := args.mode
    owner := args.owner
    expiresAt := args.now + max 1 args.ttlS
    createdAt := args.now
    updatedAt := args.now }
  match (db.leases.delete (fun l => l.expiresAt ≤ args.now)).insert? lease with
  | none => .error (.integrityError "kv_memory_leases.lease_id")
  | some leases =>
    let db := { db with leases := leases }.updateObject k
      (fun r => { r with lastUsedAt := args.now, updatedAt := args.now }) (fun _ => rfl)
    .ok (db.touchShards k args.now)

def externalKvRelease (leaseId : String) (db : KvDb) : Except Error KvDb :=
  .ok { db with leases := db.leases.delete (fun l => l.leaseId = leaseId) }

structure TransitionArgs where
  key : ObjKey
  state : String
  shardState : Option String
  metadata : JsonObj
  now : Time

def externalKvTransition (args : TransitionArgs) (db : KvDb) : Except Error KvDb := do
  let k ← args.key.normalize
  let row ← db.required k
  let db := db.updateObject k (fun r => { r with
      state := args.state
      metadata := row.metadata.update args.metadata
      updatedAt := args.now
      lastUsedAt := args.now }) (fun _ => rfl)
  match args.shardState with
  | none => .ok db
  | some shardState => .ok (db.updateShards k (fun _ => true)
      (fun r => { r with state := shardState, updatedAt := args.now, lastUsedAt := args.now })
      (fun _ => rfl))

structure PinArgs where
  key : ObjKey
  delta : Int
  now : Time

/-- The update of `external_kv_pin`. -/
def KvDb.setPins (db : KvDb) (k : ObjKey) (pinCount : Int) (now : Time) : KvDb :=
  db.updateObject k (fun r => { r with pinCount := pinCount, updatedAt := now, lastUsedAt := now })
    (fun _ => rfl)

def externalKvPin (args : PinArgs) (db : KvDb) : Except Error KvDb := do
  let k ← args.key.normalize
  let row ← db.required k
  .ok (db.setPins k (max 0 (row.pinCount + args.delta)) args.now)

structure EvictArgs where
  key : ObjKey
  reason : String
  now : Time

/-- The two updates of `external_kv_evict`. -/
def KvDb.markEvicted (db : KvDb) (k : ObjKey) (reason : String) (now : Time) : KvDb :=
  (db.updateObject k (fun r => { r with
      state := "evicted"
      metadata := [("evicted_reason", .str (if reason = "" then "operator" else reason))]
      updatedAt := now
      lastUsedAt := now }) (fun _ => rfl)).updateShards k (fun _ => true)
    (fun r => { r with
      state := "evicted", gpuResident := false, updatedAt := now, lastUsedAt := now })
    (fun _ => rfl)

def externalKvEvict (args : EvictArgs) (db : KvDb) : Except Error KvDb := do
  let k ← args.key.normalize
  match db.object? k with
  | none => .ok db
  | some row =>
    raiseIf (row.pinCount > 0) "cannot evict a pinned external KV object"
    .ok (db.markEvicted k args.reason args.now)

/-! ## `external_kv_commit_shards` -/

structure CommitArgs where
  key : ObjKey
  objectState : String
  shardState : String
  shardUpdates : List JsonObj
  now : Time

/-- A field that is given and not null. -/
def given (update : JsonObj) (key : String) : Option Json :=
  match update.get? key with
  | none | some .null => none
  | some v => some v

/-- The rows that an update of `update_external_kv_shard` is about. -/
def updateMatches (update : JsonObj) (stageIndex : Option Int) (r : KvShard) : Bool :=
  (given update "node_id").all (fun v => r.key.nodeId = v.pyStr) &&
    stageIndex.all (fun i => r.key.stageIndex = i)

/-- A column that is set only when the update has the field. -/
def whenGiven {α : Type} (update : JsonObj) (key : String) (value : Except Error α) :
    Except Error (Option α) :=
  if update.has key then value.map some else .ok none

/-- `update_external_kv_shard`, with the number of rows it changed. -/
def updateExternalKvShard (k : ObjKey) (update : JsonObj) (defaultState : String) (now : Time)
    (db : KvDb) : Except Error (KvDb × Nat) := do
  let bytes ← whenGiven update "bytes" (intOrElse update "bytes" 0)
  let metadata ← whenGiven update "metadata" (metadataOf update)
  let stageIndex ← intOrNone update "stage_index"
  let p := updateMatches update stageIndex
  let db' := db.updateShards k p (fun r => { r with
      state := (JsonObj.orElse update "state" (.str defaultState)).pyStr
      updatedAt := now
      lastUsedAt := now
      bytes := (bytes.map (max 0)).getD r.bytes
      storageUri := if update.has "storage_uri" then storageUriOf update else r.storageUri
      gpuResident := ((update.get? "gpu_resident").map Json.truthy).getD r.gpuResident
      metadata := metadata.getD r.metadata }) (fun _ => rfl)
  .ok (db', ((db.shardsOf k).filter p).length)

def readyStates : List String := ["ready_on_ssd", "gpu_resident", "available", "archived", "ready"]

/-- `external_kv_object_state_from_shards`. -/
def objectStateFromShards (db : KvDb) (k : ObjKey) (requestedState : String) : String :=
  let states := (db.shardsOf k).map KvShard.state
  if states = [] then "missing_shards"
  else if states.all (fun s => s ∈ readyStates) then requestedState
  else if states.any (fun s => s ∈ ["failed", "corrupt", "missing"]) then "degraded"
  else "partial"

def applyUpdates (args : CommitArgs) (k : ObjKey) : List JsonObj → KvDb → Except Error KvDb
  | [], db => .ok db
  | update :: rest, db => do
    let (db', changed) ← updateExternalKvShard k update args.shardState args.now db
    raiseIf (changed ≠ 1 ∧ ((given update "node_id").isSome ∨ (given update "stage_index").isSome))
      ("expected exactly one external KV shard update, changed " ++ toString changed)
    applyUpdates args k rest db'

def externalKvCommitShards (args : CommitArgs) (db : KvDb) : Except Error KvDb := do
  let k ← args.key.normalize
  let _ ← db.required k
  let db₁ := if args.shardUpdates = [] then db.updateShards k (fun _ => true)
      (fun r => { r with state := args.shardState, updatedAt := args.now, lastUsedAt := args.now })
      (fun _ => rfl)
    else db
  let db₂ ← applyUpdates args k args.shardUpdates db₁
  .ok (db₂.updateObject k (fun r => { r with
      state := objectStateFromShards db₂ k args.objectState
      totalBytes := ((db₂.shardsOf k).map KvShard.bytes).sum
      updatedAt := args.now
      lastUsedAt := args.now }) (fun _ => rfl))

end ExternalKv

end Ds4Spark
