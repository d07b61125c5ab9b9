import Ds4Spark.Queue.Schema

/-!
# Ds4Spark.Queue.Kv

KV reservations: what a request needs (`_kv_need`), which idle entries have to go to make room for
it (`_kv_victims_to_fit`), and the reservation itself on one node (`_reserve_legacy_kv`) or on
every stage of a pipeline layout (`_reserve_pipeline_kv`).
-/

namespace Ds4Spark
namespace Queue

/-- `_kv_need`: the first truthy key of the request and its byte estimate. -/
def kvNeed (input raw : JsonObj) : Option String × Nat :=
  let metadata := Json.asObj (raw.get? "metadata")
  let key := [input.get? "kv_cache_key", metadata.get? "kv_cache_key",
    input.get? "shared_prefix_hash", input.get? "skeleton_hash"].findSome?
      (fun v => v.filter Json.truthy)
  let bytes := (input.get? "kv_bytes_estimate").orElse (fun _ => metadata.get? "kv_bytes_estimate")
  (key.map Json.pyStr, (Json.safeInt (bytes.filter Json.truthy) 0).toNat)

/-- `_row_node_ids`. -/
def rowNodeIds (row : RequestRow) (fallbackNodeId : Option String) : List String :=
  let values := (row.selectedNodeIds.getD []).filter (fun n => n != "")
  if values.isEmpty then (if pyTrue fallbackNodeId then fallbackNodeId.toList else []) else values

/-- One entry of `cache_shards`. -/
structure Shard where
  nodeId : String
  stageIndex : Int
  stageCount : Int
  layerStart : Option Int
  layerEnd : Option Int
  bytes : Int

/-- A pipeline layout is used through its `cache_shards(request_id, kv_key, total_bytes)` only. -/
abbrev Layout := String → String → Nat → List Shard

/-! ## Eviction -/

/-- The loop over the idle entries: what it deletes, and the bytes still used after it. -/
def evictLoop (need capacity : Int) : Int → List (String × Nat) → List String × Int
  | used, [] => ([], used)
  | used, v :: vs =>
    if used + need ≤ capacity then ([], used)
    else
      let rest := evictLoop need capacity (used - v.2) vs
      (v.1 :: rest.1, rest.2)

/-- `_kv_victims_to_fit`, from the bytes used and the idle entries in eviction order. -/
def victimsToFit (used : Nat) (idle : List (String × Nat)) (need capacity : Int) :
    Option (List String) :=
  if capacity ≤ 0 then some []
  else if (evictLoop need capacity used idle).2 + need > capacity then none
  else some (evictLoop need capacity used idle).1

/-- `order by last_used_at, created_at`. -/
def olderUse (a b : Time × Time) : Bool := a.1 < b.1 || (a.1 == b.1 && a.2 ≤ b.2)

/-- `_kv_victims_to_fit(table="kv_entries")`. -/
def Db.kvVictims (db : Db) (nodeId : String) (need capacity : Int) : Option (List String) :=
  victimsToFit (db.kvEntries.total KvEntry.bytes (fun e => e.nodeId = nodeId))
    (((db.kvEntries.select (fun e => e.nodeId = nodeId ∧ e.state = .idle)).insertionSort
      (fun a b => olderUse (a.lastUsedAt, a.createdAt) (b.lastUsedAt, b.createdAt))).map
        (fun e => (e.kvKey, e.bytes))) need capacity

/-- `_kv_victims_to_fit(table="kv_shard_entries")`. -/
def Db.kvShardVictims (db : Db) (serviceId nodeId : String) (need capacity : Int) :
    Option (List String) :=
  victimsToFit
    (db.kvShardEntries.total KvShardEntry.bytes (fun e => e.serviceId = serviceId ∧ e.nodeId = nodeId))
    (((db.kvShardEntries.select
        (fun e => e.serviceId = serviceId ∧ e.nodeId = nodeId ∧ e.state = .idle)).insertionSort
      (fun a b => olderUse (a.lastUsedAt, a.createdAt) (b.lastUsedAt, b.createdAt))).map
        (fun e => (e.kvKey, e.bytes))) need capacity

/-! ## Reservation -/

/-- `delete from kv_entries where node_id=? and kv_key=?` for each victim. -/
def Db.dropKv (db : Db) (nodeId : String) (victims : List String) : Db :=
  { db with kvEntries := db.kvEntries.delete (fun e => e.nodeId = nodeId ∧ e.kvKey ∈ victims) }

/-- The deletes and the insert of `_reserve_legacy_kv`. -/
def Db.reserveEntry (db : Db) (row : RequestRow) (node key : String) (need : Nat) (now : Time)
    (victims : List String) : Db :=
  let db := db.dropKv node victims
  { db with
    kvEntries := db.kvEntries.replace ⟨node, key, row.requestId, need, .ready, now, now, now⟩ }

/-- `_reserve_legacy_kv`; `none` is its `False`. -/
def Db.reserveLegacyKv (db : Db) (row : RequestRow) (nodeId : Option String) (key : String)
    (need : Nat) (capacity : Int) (now : Time) : Option Db :=
  match nodeId with
  | none => none
  | some node =>
    match db.kvVictims node need capacity with
    | none => none
    | some victims => some (db.reserveEntry row node key need now victims)

/-- The shards `_reserve_pipeline_kv` reserves: the layout's, or an even split over the nodes. -/
def pipelineShards (row : RequestRow) (nodeIds : List String) (key : String) (need : Nat)
    (layout : Option Layout) : List Shard :=
  match layout with
  | some cacheShards => cacheShards row.requestId key need
  | none =>
    let even := if row.kvShardBytes ≠ 0 then row.kvShardBytes
      else (need + (max 1 nodeIds.length - 1)) / max 1 nodeIds.length
    nodeIds.mapIdx (fun i node => ⟨node, i, nodeIds.length, none, none, even⟩)

def Shard.size (s : Shard) : Nat := s.bytes.toNat

/-- Every shard's victims, all against the rows there are before the reservation. -/
def Db.shardEvictions (db : Db) (serviceId : String) (capacity : Int) :
    List Shard → Option (List (String × List String))
  | [] => some []
  | s :: ss =>
    match db.kvShardVictims serviceId s.nodeId s.size capacity with
    | none => none
    | some victims => (db.shardEvictions serviceId capacity ss).map ((s.nodeId, victims) :: ·)

/-- `delete from kv_shard_entries where service_id=? and node_id=? and kv_key=?` for each victim. -/
def Db.dropShards (db : Db) (serviceId : String) (evictions : List (String × List String)) : Db :=
  { db with
    kvShardEntries := db.kvShardEntries.delete (fun e => e.serviceId = serviceId ∧
      evictions.any (fun ev => e.nodeId = ev.1 ∧ e.kvKey ∈ ev.2)) }

/-- The `kv_shard_entries` row of a shard. -/
def shardEntry (row : RequestRow) (serviceId key : String) (now : Time) (stageCount : Nat)
    (s : Shard) : KvShardEntry :=
  ⟨serviceId, s.nodeId, key, row.requestId, s.stageIndex,
    if s.stageCount ≠ 0 then s.stageCount else stageCount, s.layerStart, s.layerEnd, s.size, .ready,
    now, now, now⟩

/-- `insert or replace into kv_shard_entries` for each shard. -/
def Db.putShards (db : Db) (row : RequestRow) (serviceId key : String) (now : Time)
    (stageCount : Nat) (shards : List Shard) : Db :=
  { db with
    kvShardEntries := shards.foldl
      (fun t s => t.replace (shardEntry row serviceId key now stageCount s)) db.kvShardEntries }

/-- `kv_shard_count=?, kv_shard_bytes=?`. -/
def RequestRow.withShards (count bytes : Nat) (r : RequestRow) : RequestRow :=
  { r with kvShardCount := count, kvShardBytes := bytes }

theorem RequestRow.withShards_requestId (count bytes : Nat) (r : RequestRow) :
    (r.withShards count bytes).requestId = r.requestId := rfl

/-- The writes of `_reserve_pipeline_kv`. -/
def Db.reserveShards (db : Db) (row : RequestRow) (serviceId key : String) (now : Time)
    (shards : List Shard) (evictions : List (String × List String)) : Db :=
  let stageCount := max 1 shards.length
  let db := (db.dropShards serviceId evictions).putShards row serviceId key now stageCount shards
  db.updateRequests (fun r => r.requestId = row.requestId)
    (RequestRow.withShards stageCount ((shards.map Shard.size).foldl max 0))
    (RequestRow.withShards_requestId stageCount ((shards.map Shard.size).foldl max 0))

/-- `_reserve_pipeline_kv`; `none` is its `False`. -/
def Db.reservePipelineKv (db : Db) (row : RequestRow) (serviceId : String) (nodeIds : List String)
    (key : String) (need : Nat) (capacity : Int) (now : Time) (layout : Option Layout) : Option Db :=
  let shards := pipelineShards row nodeIds key need layout
  if shards.isEmpty then some db
  else
    match db.shardEvictions serviceId capacity shards with
    | none => none
    | some evictions => some (db.reserveShards row serviceId key now shards evictions)

/-- A request whose KV is spread over a pipeline's nodes. -/
def pipelined (row : RequestRow) (nodeId : Option String) : Bool :=
  strOr row.selectedServiceId ≠ "" ∧ (rowNodeIds row nodeId).length > 1

/-- `_reserve_kv`; `none` is its `False`. -/
def Db.reserveKv (db : Db) (row : RequestRow) (nodeId : Option String) (capacity : Int) (now : Time)
    (layout : Option Layout) : Option Db :=
  if !pyTrue row.kvKey || row.kvBytes = 0 then some db
  else if pipelined row nodeId then
    db.reservePipelineKv row (strOr row.selectedServiceId) (rowNodeIds row nodeId) (strOr row.kvKey)
      row.kvBytes capacity now layout
  else db.reserveLegacyKv row nodeId (strOr row.kvKey) row.kvBytes capacity now

/-- The shards of a pipelined request. -/
def rowShards (row : RequestRow) (nodeId : Option String) (layout : Option Layout) : List Shard :=
  pipelineShards row (rowNodeIds row nodeId) (strOr row.kvKey) row.kvBytes layout

/-- What a reservation that succeeds has done. -/
inductive Reserved (db : Db) (row : RequestRow) (nodeId : Option String) (capacity : Int)
    (now : Time) (layout : Option Layout) : Db → Prop where
  | unneeded (h : pyTrue row.kvKey = false ∨ row.kvBytes = 0) :
      Reserved db row nodeId capacity now layout db
  | noShards (hp : pipelined row nodeId = true) (hs : rowShards row nodeId layout = []) :
      Reserved db row nodeId capacity now layout db
  | pipeline (evictions : List (String × List String)) (hp : pipelined row nodeId = true)
      (hk : pyTrue row.kvKey = true ∧ row.kvBytes ≠ 0)
      (he : db.shardEvictions (strOr row.selectedServiceId) capacity (rowShards row nodeId layout) =
        some evictions) :
      Reserved db row nodeId capacity now layout (db.reserveShards row (strOr row.selectedServiceId)
        (strOr row.kvKey) now (rowShards row nodeId layout) evictions)
  | legacy (node : String) (victims : List String) (hp : pipelined row nodeId = false)
      (hk : pyTrue row.kvKey = true ∧ row.kvBytes ≠ 0) (hn : nodeId = some node)
      (hv : db.kvVictims node row.kvBytes capacity = some victims) :
      Reserved db row nodeId capacity now layout
        (db.reserveEntry row node (strOr row.kvKey) row.kvBytes now victims)

theorem reserveKv_cases {db db' : Db} {row : RequestRow} {nodeId : Option String} {capacity : Int}
    {now : Time} {layout : Option Layout}
    (h : db.reserveKv row nodeId capacity now layout = some db') :
    Reserved db row nodeId capacity now layout db' := by
  unfold Db.reserveKv at h
  split at h
  · rename_i hneed
    cases h
    refine .unneeded ?_
    simpa using hneed
  · rename_i hneed
    simp only [Bool.or_eq_true, Bool.not_eq_true', decide_eq_true_eq, not_or, Bool.not_eq_false]
      at hneed
    split at h
    · rename_i hp
      simp only [Db.reservePipelineKv] at h
      split at h
      · rename_i hs
        cases h
        exact .noShards hp (List.isEmpty_iff.mp hs)
      · split at h
        · cases h
        · rename_i evictions he
          cases h
          exact .pipeline evictions hp hneed he
    · rename_i hp
      unfold Db.reserveLegacyKv at h
      split at h
      · cases h
      · rename_i node
        split at h
        · cases h
        · rename_i victims hv
          cases h
          exact .legacy node victims (Bool.eq_false_iff.mpr hp) hneed rfl hv

/-! ## Release -/

/-- `_delete_request_kv`. -/
def Db.deleteRequestKv (db : Db) (requestId : String) : Db :=
  { db with
    kvEntries := db.kvEntries.delete (fun e => e.requestId = requestId)
    kvShardEntries := db.kvShardEntries.delete (fun e => e.requestId = requestId) }

/-- `state='idle', last_used_at=?, updated_at=?`. -/
def KvEntry.idle (now : Time) (e : KvEntry) : KvEntry :=
  { e with state := .idle, lastUsedAt := now, updatedAt := now }

def KvShardEntry.idle (now : Time) (e : KvShardEntry) : KvShardEntry :=
  { e with state := .idle, lastUsedAt := now, updatedAt := now }

theorem KvEntry.idle_key (now : Time) (e : KvEntry) : (e.idle now).key = e.key := rfl

theorem KvShardEntry.idle_key (now : Time) (e : KvShardEntry) : (e.idle now).key = e.key := rfl

/-- `update kv_entries set state='idle' .. where request_id=?`, and the same of the shards. -/
def Db.idleRequestKv (db : Db) (requestId : String) (now : Time) : Db :=
  { db with
    kvEntries := db.kvEntries.update (fun e => e.requestId = requestId) (KvEntry.idle now)
      (KvEntry.idle_key now)
    kvShardEntries := db.kvShardEntries.update (fun e => e.requestId = requestId)
      (KvShardEntry.idle now) (KvShardEntry.idle_key now) }

end Queue
end Ds4Spark
