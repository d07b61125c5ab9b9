import Ds4Spark.ExternalKv.Store
import Mathlib.Data.List.Perm.Subperm

/-!
# Ds4Spark.ExternalKv.Manifest

What `validate_external_kv_shards` says about the stages of a shard list.

Its last text promises exactly one shard per pipeline stage, but a duplicate is a repeated pair of node
and stage: two nodes may both declare stage 0.

* `accepted`: what an accepted list satisfies.
* `one_per_stage_iff`: an accepted list covers its stages exactly when its stage indexes are distinct.
* `upsert_stages`: the stored shards have the stage indexes of the list.
-/

namespace Ds4Spark
namespace ExternalKv

open Queue (Error Time raiseIf bind_eq_ok not_of_raiseIf)

/-- `int(shard.get("stage_index", 0) or 0)`. -/
def stageIndexOf (shard : JsonObj) : Except Error Int := intOrElse shard "stage_index" 0

def stageCountOf (shards : List JsonObj) (shard : JsonObj) : Except Error Int :=
  intOrElse shard "stage_count" shards.length

/-- The stage indexes that a shard list declares, in its order. -/
def stagesOf (shards : List JsonObj) : List Int :=
  shards.filterMap (fun shard => (stageIndexOf shard).toOption)

/-- Exactly one of `stages` for every stage index below `n`. -/
def OnePerStage (n : Nat) (stages : List Int) : Prop := ∀ i < n, stages.count (i : Int) = 1

instance (n : Nat) (stages : List Int) : Decidable (OnePerStage n stages) := by
  unfold OnePerStage
  infer_instance

/-! ## Stage indexes in range -/

/-- As many indexes as stages, all in range: each stage has one exactly when none is there twice. -/
theorem onePerStage_iff_nodup {stages : List Int} (h : ∀ i ∈ stages, 0 ≤ i ∧ i < stages.length) :
    OnePerStage stages.length stages ↔ stages.Nodup := by
  constructor
  · intro hone
    rw [List.nodup_iff_count_le_one]
    intro i
    by_cases hi : i ∈ stages
    · obtain ⟨hpos, hlt⟩ := h i hi
      have hcount := hone i.toNat (by omega)
      rw [Int.toNat_of_nonneg hpos] at hcount
      omega
    · rw [List.count_eq_zero_of_not_mem hi]
      omega
  · intro hnodup i hi
    -- the indexes are `0 .. n-1` in some order
    have hsub : stages ⊆ (List.range stages.length).map Int.ofNat := by
      intro j hj
      obtain ⟨hpos, hlt⟩ := h j hj
      rw [List.mem_map]
      exact ⟨j.toNat, List.mem_range.mpr (by omega), Int.toNat_of_nonneg hpos⟩
    have hperm : stages.Perm ((List.range stages.length).map Int.ofNat) :=
      (List.subperm_of_subset hnodup hsub).perm_of_length_le (by simp)
    have hmem : (i : Int) ∈ stages := by
      rw [hperm.mem_iff, List.mem_map]
      exact ⟨i, List.mem_range.mpr hi, rfl⟩
    exact List.count_eq_one_of_mem hnodup hmem

/-! ## Accepted lists -/

/-- What the loop checks of one shard. -/
structure Placed (count : Nat) (shard : JsonObj) (stageCount : Int) : Prop where
  count_eq : intOrElse shard "stage_count" count = .ok stageCount
  placed : ∃ i, stageIndexOf shard = .ok i ∧ 0 ≤ i ∧ i < stageCount

theorem validateLoop_placed {count : Nat} {shards : List JsonObj} {seen : List (String × Int)}
    {stageCounts result : List Int} (h : validateLoop count shards seen stageCounts = .ok result) :
    (∀ n ∈ stageCounts, n ∈ result) ∧ ∀ shard ∈ shards, ∃ n ∈ result, Placed count shard n := by
  induction shards generalizing seen stageCounts with
  | nil =>
    cases h
    exact ⟨fun n hn => hn, by simp⟩
  | cons shard rest ih =>
    obtain ⟨_, _, h⟩ := bind_eq_ok h
    obtain ⟨i, hi, h⟩ := bind_eq_ok h
    obtain ⟨n, hn, h⟩ := bind_eq_ok h
    obtain ⟨_, hrange, h⟩ := bind_eq_ok h
    obtain ⟨_, _, h⟩ := bind_eq_ok h
    obtain ⟨hkept, hrest⟩ := ih h
    have hvalid := not_of_raiseIf hrange
    refine ⟨fun m hm => hkept m (List.mem_append_left _ hm), ?_⟩
    intro s hs
    rcases List.mem_cons.mp hs with rfl | hs
    · exact ⟨n, hkept n (by simp), hn, i, hi, by omega, by omega⟩
    · exact hrest s hs

/-- A list is accepted only when its shards all name its length as the stage count. -/
theorem accepted {shards : List JsonObj} {totalBytes : Int}
    (h : validateExternalKvShards shards totalBytes = .ok ()) :
    ∀ shard ∈ shards, Placed shards.length shard shards.length := by
  obtain ⟨_, _, h⟩ := bind_eq_ok h
  obtain ⟨counts, hcounts, h⟩ := bind_eq_ok h
  obtain ⟨-, hplaced⟩ := validateLoop_placed hcounts
  split at h
  · rename_i stageCount hdedup
    obtain ⟨_, hcount, _⟩ := bind_eq_ok h
    have hlength : stageCount = shards.length := not_not.mp (not_of_raiseIf hcount)
    intro shard hshard
    obtain ⟨n, hn, hp⟩ := hplaced shard hshard
    have hsingle : n = stageCount := by
      rw [← List.mem_dedup, hdedup] at hn
      exact List.mem_singleton.mp hn
    rw [← hlength, ← hsingle]
    exact hp
  · cases h

/-- Shards in their places have one stage index each, in range. -/
theorem stagesOf_placed {count : Nat} {n : Int} {shards : List JsonObj}
    (h : ∀ shard ∈ shards, Placed count shard n) :
    (stagesOf shards).length = shards.length ∧ ∀ i ∈ stagesOf shards, 0 ≤ i ∧ i < n := by
  induction shards with
  | nil => exact ⟨rfl, by simp [stagesOf]⟩
  | cons shard rest ih =>
    obtain ⟨hlength, hrange⟩ := ih (fun s hs => h s (List.mem_cons_of_mem _ hs))
    obtain ⟨i, hi, hpos, hlt⟩ := (h shard List.mem_cons_self).placed
    have hcons : stagesOf (shard :: rest) = i :: stagesOf rest := by
      rw [stagesOf, List.filterMap_cons, hi]
      rfl
    rw [hcons]
    exact ⟨by simp [hlength], by simpa [hpos, hlt] using hrange⟩

theorem one_per_stage_iff {shards : List JsonObj} {totalBytes : Int}
    (h : validateExternalKvShards shards totalBytes = .ok ()) :
    OnePerStage shards.length (stagesOf shards) ↔ (stagesOf shards).Nodup := by
  obtain ⟨hlength, hrange⟩ := stagesOf_placed (accepted h)
  rw [← hlength] at hrange ⊢
  exact onePerStage_iff_nodup hrange

/-! ## The stored shards -/

theorem insert?_rows {t t' : Table KvShard KvShard.key} {row : KvShard} (h : t.insert? row = some t') :
    t'.rows = t.rows ++ [row] := by
  unfold Table.insert? at h
  split at h
  · cases h
  · cases h
    rfl

theorem shardRow_key {args : UpsertArgs} {k : ObjKey} {shard : JsonObj} {row : KvShard}
    (h : shardRow args k shard = .ok row) :
    row.key.object = k ∧ stageIndexOf shard = .ok row.key.stageIndex := by
  obtain ⟨i, hi, h⟩ := bind_eq_ok h
  obtain ⟨_, _, h⟩ := bind_eq_ok h
  obtain ⟨_, _, h⟩ := bind_eq_ok h
  obtain ⟨_, _, h⟩ := bind_eq_ok h
  obtain ⟨_, _, h⟩ := bind_eq_ok h
  obtain ⟨_, _, h⟩ := bind_eq_ok h
  cases h
  exact ⟨rfl, hi⟩

/-- The shards of a list are stored behind the others, with the stage indexes of the list. -/
theorem insertShards_rows {args : UpsertArgs} {k : ObjKey} {shards : List JsonObj}
    {t t' : Table KvShard KvShard.key} (h : insertShards args k shards t = .ok t') :
    ∃ rows, t'.rows = t.rows ++ rows ∧ (∀ r ∈ rows, r.key.object = k) ∧
      rows.map (fun r => r.key.stageIndex) = stagesOf shards := by
  induction shards generalizing t with
  | nil =>
    cases h
    exact ⟨[], (List.append_nil _).symm, by simp, rfl⟩
  | cons shard rest ih =>
    obtain ⟨row, hrow, h⟩ := bind_eq_ok h
    obtain ⟨hobject, hstage⟩ := shardRow_key hrow
    split at h
    · rename_i t₁ hinsert
      obtain ⟨rows, hrows, hobjects, hstages⟩ := ih h
      refine ⟨row :: rows, ?_, ?_, ?_⟩
      · rw [hrows, insert?_rows hinsert, List.append_assoc]
        rfl
      · simpa [hobject] using hobjects
      · rw [List.map_cons, hstages, stagesOf, stagesOf, List.filterMap_cons, hstage]
        rfl
    · cases h

/-- After a committed declaration, the shards stored for the object are those of its list. -/
theorem upsert_stages {args : UpsertArgs} {db db' : KvDb} (h : upsertExternalKvObject args db = .ok db') :
    validateExternalKvShards args.shards args.totalBytes = .ok () ∧
      ∀ k, args.key.normalize = .ok k →
        (db'.shardsOf k).map (fun r => r.key.stageIndex) = stagesOf args.shards := by
  obtain ⟨k, hk, h⟩ := bind_eq_ok h
  obtain ⟨_, hvalid, h⟩ := bind_eq_ok h
  obtain ⟨_, _, h⟩ := bind_eq_ok h
  obtain ⟨shards, hshards, h⟩ := bind_eq_ok h
  cases h
  refine ⟨hvalid, ?_⟩
  intro k' hk'
  rw [hk] at hk'
  cases hk'
  obtain ⟨rows, hrows, hobjects, hstages⟩ := insertShards_rows hshards
  have hold : (db.shards.delete (fun s => s.key.object = k)).rows.filter
      (fun s => s.key.object = k) = [] := by
    simp [Table.delete, List.filter_filter]
  have hnew : rows.filter (fun s => s.key.object = k) = rows :=
    List.filter_eq_self.mpr (fun r hr => by simpa using hobjects r hr)
  rw [KvDb.shardsOf, Table.select, hrows, List.filter_append, hold, hnew, List.nil_append, hstages]

/-- For every shard list that is accepted: its shards agree on the stage count `n`, and there is exactly
one shard for each stage index below `n`, in the list and among the shards stored from it, exactly when
no two shards of the list declare the same stage index. -/
theorem one_shard_per_stage {shards : List JsonObj} {totalBytes : Int}
    (h : validateExternalKvShards shards totalBytes = .ok ()) :
    ∃ n : Nat, (∀ shard ∈ shards, stageCountOf shards shard = .ok n) ∧
      (OnePerStage n (stagesOf shards) ↔ (stagesOf shards).Nodup) ∧
      ∀ (args : UpsertArgs) (db db' : KvDb) (k : ObjKey), args.shards = shards →
        upsertExternalKvObject args db = .ok db' → args.key.normalize = .ok k →
          (OnePerStage n ((db'.shardsOf k).map (fun r => r.key.stageIndex)) ↔
            (stagesOf shards).Nodup) := by
  refine ⟨shards.length, fun shard hshard => (accepted h shard hshard).count_eq,
    one_per_stage_iff h, ?_⟩
  intro args db db' k hshards hupsert hk
  rw [(upsert_stages hupsert).2 k hk, hshards]
  exact one_per_stage_iff h

/-- Two nodes that both declare stage 0 of two. -/
def twoHeads : List JsonObj :=
  [[("node_id", .str "a"), ("stage_index", .int 0), ("stage_count", .int 2), ("bytes", .int 8)],
    [("node_id", .str "b"), ("stage_index", .int 0), ("stage_count", .int 2), ("bytes", .int 8)]]

def declareTwoHeads : UpsertArgs where
  key := ⟨"default", "k", "s"⟩
  profileId := none
  modelId := none
  owner := none
  contentHash := none
  totalBytes := 16
  totalTokens := 1
  state := "ready_on_ssd"
  pinCount := 0
  priority := 100
  ttlS := none
  metadata := []
  shards := twoHeads
  now := 0

theorem one_shard_per_stage_twoHeads :
    ∃ n : Nat, (∀ shard ∈ twoHeads, stageCountOf twoHeads shard = .ok n) ∧
      (OnePerStage n (stagesOf twoHeads) ↔ (stagesOf twoHeads).Nodup) := by
  obtain ⟨n, hcounts, hstages, -⟩ := one_shard_per_stage
    (show validateExternalKvShards twoHeads 16 = .ok () from rfl)
  exact ⟨n, hcounts, hstages⟩

/-- The list is accepted and stored, with no shard for stage 1: all shards are ready, and a stage of the
pipeline has none. -/
theorem twoHeads_miss_stage :
    (¬ ∀ (shards : List JsonObj) (totalBytes : Int) (n : Nat),
      validateExternalKvShards shards totalBytes = .ok () →
        (∀ shard ∈ shards, stageCountOf shards shard = .ok n) → OnePerStage n (stagesOf shards)) ∧
      ¬ ∀ (args : UpsertArgs) (db : KvDb) (k : ObjKey),
        upsertExternalKvObject args KvDb.empty = .ok db → args.key.normalize = .ok k →
          (∀ s ∈ db.shardsOf k, s.state ∈ readyStates) →
            ∀ i < args.shards.length, ∃ s ∈ db.shardsOf k, s.key.stageIndex = (i : Int) := by
  constructor
  · intro h
    have hone := h twoHeads 16 2 rfl (by
      intro shard hshard
      rcases List.mem_pair.mp hshard with rfl | rfl <;> rfl)
    exact absurd hone (by decide +kernel)
  · intro h
    obtain ⟨s, hs, hstage⟩ := h declareTwoHeads _ ⟨"default", "k", "s"⟩ rfl rfl (by decide +kernel) 1
      (by decide)
    revert hstage
    revert s
    decide +kernel

end ExternalKv

end Ds4Spark
