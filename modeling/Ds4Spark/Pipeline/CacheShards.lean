import Ds4Spark.Pipeline.Cover
import Mathlib.Algebra.Order.Floor.Ring
import Mathlib.Algebra.Order.BigOperators.Group.List
import Mathlib.Algebra.Order.Field.Rat
import Mathlib.Data.Rat.Floor
import Mathlib.Tactic.FieldSimp
import Mathlib.Tactic.Linarith
import Mathlib.Tactic.Positivity

/-!
# Ds4Spark.Pipeline.CacheShards

The KV shards of a pipeline service: how many bytes each stage reserves, and the contract that goes with
them. SHA-256 is a parameter.

* `KvPipelineService`: a service with its `kv_cache` settings.
* `cacheShards`, `estimateKvShardBytes`: one shard for every stage, all of the same size.
* `cacheShards_bytes`: the stages share the bytes evenly, rounded up; the sum is enough, and so is the
  shard of every stage with no more layers than the average.
* `cacheShards_short`: the shard of a stage with more layers may be smaller than its part of the layers.
-/

namespace Ds4Spark
namespace Pipeline

open Queue (Error)

structure KvPipelineService extends PipelineService where
  kvCache : JsonObj

namespace KvPipelineService

/-- `PipelineService.from_json` with the field `kv_cache`. -/
def fromJson (data : JsonObj) (knownNodeIds : List String) : Except Error KvPipelineService :=
  (PipelineService.fromJson data knownNodeIds).map (fun service =>
    { service with kvCache := (Json.pyDict ((data.get? "kv_cache").getD (.obj []))).getD [] })

variable (sha256Hex : String → String) (s : KvPipelineService)

def shardCount : Nat := s.nodeIds.length

/-- `str(self.kv_cache.get("sharding", "pipeline_layers"))`. -/
def cacheSharding : String := ((s.kvCache.get? "sharding").getD (.str "pipeline_layers")).pyStr

def externalBackend : String :=
  ((s.kvCache.get? "external_backend").getD ((s.kvCache.get? "backend").getD (.str "unknown"))).pyStr

def estimateKvShardBytes (totalBytes : Int) : Int :=
  if totalBytes ≤ 0 then 0
  else if s.cacheSharding = "replicated" then totalBytes
  else ⌈(totalBytes : Rat) / (max 1 s.shardCount : Nat)⌉

def kvCacheContractPayload : JsonObj :=
  [("service_id", .str s.serviceId), ("profile_id", .str s.profileId), ("model_id", .str s.modelId),
    ("dtype", .str s.dtype), ("pipeline_parallel_size", .int s.pipelineParallelSize),
    ("tensor_parallel_size", .int s.tensorParallelSize), ("total_layers", .int s.totalLayers),
    ("node_ids", .arr (s.nodeIds.map Json.str)), ("layer_partition", .arr (s.layerPartition.map Json.int)),
    ("cache_sharding", .str s.cacheSharding), ("external_backend", .str s.externalBackend)]

/-- `_sha256_json` of the payload. -/
def fingerprint : String := "sha256:" ++ sha256Hex (Json.dumps (.obj s.kvCacheContractPayload))

def kvCacheContract : JsonObj :=
  ("format", Json.str "ds4-pipeline-kv-cache-contract-v1") :: s.kvCacheContractPayload ++
    [("layer_partition_source", .str s.layerPartitionSource), ("fingerprint", .str (s.fingerprint sha256Hex))]

end KvPipelineService

structure CacheShard where
  profileId : String
  serviceId : String
  nodeId : String
  stageIndex : Nat
  stageCount : Int
  kvKey : String
  requestId : String
  bytes : Int
  layerStart : Int
  layerEnd : Int
  metadata : JsonObj

def CacheShard.layerCount (shard : CacheShard) : Int := shard.layerEnd - shard.layerStart

namespace KvPipelineService

variable (sha256Hex : String → String) (s : KvPipelineService)

def cacheShards (requestId kvKey : String) (totalBytes : Int) : List CacheShard :=
  if kvKey = "" ∨ totalBytes ≤ 0 then []
  else s.stages.map (fun stage =>
    { profileId := s.profileId
      serviceId := s.serviceId
      nodeId := stage.nodeId
      stageIndex := stage.stageIndex
      stageCount := stage.stageCount
      kvKey := kvKey
      requestId := requestId
      bytes := s.estimateKvShardBytes totalBytes
      layerStart := stage.layerStart
      layerEnd := stage.layerEnd
      metadata := [("kv_cache_contract", .obj (s.kvCacheContract sha256Hex)),
        ("layer_partition_fingerprint", .str (s.fingerprint sha256Hex))] })

end KvPipelineService

/-! ## How much is reserved -/

section Reserved

variable {s : KvPipelineService} {kvKey : String} {totalBytes : Int}

theorem shardCount_pos (s : KvPipelineService) : 0 < s.shardCount :=
  List.length_pos_of_mem s.entry_mem

theorem estimateKvShardBytes_eq (hpos : 0 < totalBytes) (hmode : s.cacheSharding ≠ "replicated") :
    s.estimateKvShardBytes totalBytes = ⌈(totalBytes : Rat) / s.shardCount⌉ := by
  have hmax : max 1 s.shardCount = s.shardCount := by
    have := shardCount_pos s
    omega
  rw [KvPipelineService.estimateKvShardBytes, if_neg (by omega), if_neg hmode, hmax]

theorem cacheShards_eq (sha256Hex : String → String) (s : KvPipelineService) (requestId : String)
    (hkey : kvKey ≠ "") (hpos : 0 < totalBytes) :
    (s.cacheShards sha256Hex requestId kvKey totalBytes).length = s.shardCount ∧
      ∀ shard ∈ s.cacheShards sha256Hex requestId kvKey totalBytes,
        shard.bytes = s.estimateKvShardBytes totalBytes := by
  have hreserves : ¬ (kvKey = "" ∨ totalBytes ≤ 0) := by
    rintro (hnone | hnone)
    · exact hkey hnone
    · omega
  rw [KvPipelineService.cacheShards, if_neg hreserves]
  constructor
  · rw [List.length_map, stages_length]
    rfl
  · intro shard hshard
    obtain ⟨stage, _, rfl⟩ := List.mem_map.mp hshard
    rfl

/-- A stage with no more layers than the average needs no more than the even share. -/
theorem part_le_share {layerCount totalLayers count : Int} (hcount : 0 < count) (hlayers : 0 < totalLayers)
    (hpos : 0 < totalBytes) (haverage : layerCount * count ≤ totalLayers) :
    (totalBytes : Rat) * layerCount / totalLayers ≤ totalBytes / count := by
  have hcount' : (0 : Rat) < count := by exact_mod_cast hcount
  have hlayers' : (0 : Rat) < totalLayers := by exact_mod_cast hlayers
  have hpos' : (0 : Rat) ≤ totalBytes := by exact_mod_cast le_of_lt hpos
  have haverage' : (layerCount : Rat) * count ≤ totalLayers := by exact_mod_cast haverage
  rw [div_le_div_iff₀ hlayers' hcount', mul_assoc]
  exact mul_le_mul_of_nonneg_left haverage' hpos'

theorem le_count_mul_share {count : Nat} (hcount : 0 < count) :
    totalBytes ≤ count * ⌈(totalBytes : Rat) / count⌉ := by
  have hcount' : (0 : Rat) < count := by exact_mod_cast hcount
  have hshare : (totalBytes : Rat) ≤ count * ⌈(totalBytes : Rat) / count⌉ := by
    calc (totalBytes : Rat) = count * (totalBytes / count) := by field_simp
      _ ≤ count * ⌈(totalBytes : Rat) / count⌉ := mul_le_mul_of_nonneg_left (Int.le_ceil _) (le_of_lt hcount')
  exact_mod_cast hshare

theorem totalLayers_pos (s : KvPipelineService) : 0 < s.totalLayers := by
  have hcounts := s.valid.pos
  have hlength := s.valid.length
  have hsum := List.card_nsmul_le_sum s.layerPartition 1 hcounts
  have hnodes := List.length_pos_of_mem s.entry_mem
  rw [nsmul_eq_mul, mul_one, s.valid.sum, hlength] at hsum
  omega

/-- The stages share the bytes evenly and round up: together they reserve enough, and so does each stage
with no more layers than the average. -/
theorem cacheShards_bytes (sha256Hex : String → String) (s : KvPipelineService) (requestId kvKey : String)
    (totalBytes : Int) (hkey : kvKey ≠ "") (hpos : 0 < totalBytes) (hmode : s.cacheSharding ≠ "replicated") :
    (∀ shard ∈ s.cacheShards sha256Hex requestId kvKey totalBytes,
      shard.bytes = ⌈(totalBytes : Rat) / s.shardCount⌉) ∧
    (∀ shard ∈ s.cacheShards sha256Hex requestId kvKey totalBytes,
      shard.layerCount * s.shardCount ≤ s.totalLayers →
        ⌈(totalBytes : Rat) * shard.layerCount / s.totalLayers⌉ ≤ shard.bytes) ∧
    totalBytes ≤ ((s.cacheShards sha256Hex requestId kvKey totalBytes).map CacheShard.bytes).sum := by
  have hcount := shardCount_pos s
  obtain ⟨hlength, hbytes⟩ := cacheShards_eq sha256Hex s requestId hkey hpos
  rw [estimateKvShardBytes_eq hpos hmode] at hbytes
  refine ⟨hbytes, ?_, ?_⟩
  · intro shard hshard haverage
    rw [hbytes shard hshard]
    refine Int.ceil_le_ceil ?_
    have hpart := part_le_share (by exact_mod_cast hcount) (totalLayers_pos s) hpos haverage
    exact_mod_cast hpart
  · have hsum := List.card_nsmul_le_sum
      ((s.cacheShards sha256Hex requestId kvKey totalBytes).map CacheShard.bytes)
      ⌈(totalBytes : Rat) / s.shardCount⌉ (by
        intro bytes hmem
        obtain ⟨shard, hshard, rfl⟩ := List.mem_map.mp hmem
        exact le_of_eq (hbytes shard hshard).symm)
    rw [List.length_map, hlength, nsmul_eq_mul] at hsum
    exact le_trans (le_count_mul_share hcount) hsum

end Reserved

/-- The service of the tests: eight nodes with 7 to 9 layers each. -/
def qwen27 : KvPipelineService where
  serviceId := "qwen27_bf16_pp8"
  profileId := "qwen27_bf16"
  modelId := "qwen27"
  entryNodeId := "n1"
  nodeIds := ["n1", "n2", "n3", "n4", "n5", "n6", "n7", "n8"]
  apiBaseUrl := "http://n1:8000"
  computeDomain := "qwen27_bf16_pp8"
  pipelineParallelSize := 8
  tensorParallelSize := 1
  totalLayers := 64
  layerPartition := [7, 8, 7, 9, 9, 9, 8, 7]
  layerPartitionSource := "explicit"
  dtype := "bfloat16"
  maxBatchSize := 1
  entry_mem := by decide
  size_eq := by decide
  valid := ⟨by decide, by decide, by decide⟩
  kvCache := []

/-- 8000 bytes of KV: a stage with 9 of the 64 layers needs 1125 of them, and 1000 are reserved. -/
theorem cacheShards_short :
    qwen27.cacheSharding = "pipeline_layers" ∧
    ¬ ∀ shard ∈ qwen27.cacheShards id "request" "doc:abc" 8000,
      ⌈(8000 : Rat) * shard.layerCount / qwen27.totalLayers⌉ ≤ shard.bytes := by
  refine ⟨rfl, ?_⟩
  decide +kernel

/-- The same bytes: every stage gets 1000, which is enough for the stages with 7 or 8 layers. -/
theorem cacheShards_bytes_qwen27 :
    (∀ shard ∈ qwen27.cacheShards id "request" "doc:abc" 8000,
      shard.bytes = ⌈((8000 : Int) : Rat) / qwen27.shardCount⌉) ∧
    (∀ shard ∈ qwen27.cacheShards id "request" "doc:abc" 8000,
      shard.layerCount * qwen27.shardCount ≤ qwen27.totalLayers →
        ⌈((8000 : Int) : Rat) * shard.layerCount / qwen27.totalLayers⌉ ≤ shard.bytes) ∧
    (8000 : Int) ≤ ((qwen27.cacheShards id "request" "doc:abc" 8000).map CacheShard.bytes).sum :=
  cacheShards_bytes id qwen27 "request" "doc:abc" 8000 (by decide) (by decide) (by decide)

end Pipeline
end Ds4Spark
