import Ds4Spark.Lib.Pool
import Ds4Spark.Queue.Effects

/-!
# Ds4Spark.Queue.KvPool

The two KV tables as one pool of slots: a node's slot for a key, and a service's slot for a key on
a node. A row in state `ready` is a slot in use, an `idle` row is kept for later; the owner is the
row's `request_id`.

* `reserveKv_reserves`: a reservation is a `Pool.Reserves`; eviction takes idle rows only.
* `finish_pool`, `retry_pool`, `cancel_pool`, `reap_pool`: what the settling operations free.
-/

namespace Ds4Spark
namespace Queue

/-- The primary keys of `kv_entries` and of `kv_shard_entries`. -/
inductive Slot where
  | entry (nodeId kvKey : String)
  | shard (serviceId nodeId kvKey : String)
deriving DecidableEq

def KvEntry.holding (e : KvEntry) : Holding String := ⟨e.requestId, e.state = .ready⟩

def KvShardEntry.holding (e : KvShardEntry) : Holding String := ⟨e.requestId, e.state = .ready⟩

def Db.pool (db : Db) : Pool Slot String
  | .entry n k => (db.kvEntries.find? (n, k)).map KvEntry.holding
  | .shard sv n k => (db.kvShardEntries.find? (sv, n, k)).map KvShardEntry.holding

/-- What a slot holds is a row of one of the two tables. -/
theorem pool_row {db : Db} {s : Slot} {h : Holding String} (hp : db.pool s = some h) :
    (∃ e ∈ db.kvEntries.rows, e.holding = h) ∨ ∃ e ∈ db.kvShardEntries.rows, e.holding = h := by
  cases s with
  | entry n k =>
    obtain ⟨e, he, hh⟩ := Option.map_eq_some_iff.mp hp
    exact .inl ⟨e, (Table.find?_some he).1, hh⟩
  | shard sv n k =>
    obtain ⟨e, he, hh⟩ := Option.map_eq_some_iff.mp hp
    exact .inr ⟨e, (Table.find?_some he).1, hh⟩

section Frame

variable (db : Db) (now : Time)

theorem pool_congr {db db' : Db} (h : db'.kvEntries = db.kvEntries)
    (hs : db'.kvShardEntries = db.kvShardEntries) : db'.pool = db.pool := by
  funext s
  cases s with
  | entry n k => simp only [Db.pool, h]
  | shard sv n k => simp only [Db.pool, hs]

@[simp] theorem pool_event (id type : String) (s : RequestState) (p : JsonObj) :
    (db.event now id type s p).pool = db.pool := pool_congr rfl rfl

@[simp] theorem pool_refreshBatch (b : String) : (db.refreshBatch now b).pool = db.pool :=
  pool_congr rfl rfl

@[simp] theorem pool_release (id : Option String) : (db.releaseUnusedComputeLease id).pool = db.pool :=
  pool_congr (release_kvEntries db id) (release_kvShardEntries db id)

@[simp] theorem pool_updateRequests (p : RequestRow → Bool) (f : RequestRow → RequestRow)
    (hf : ∀ r, (f r).requestId = r.requestId) : (db.updateRequests p f hf).pool = db.pool :=
  pool_congr rfl rfl

@[simp] theorem pool_deleteRequestKv (rid : String) : (db.deleteRequestKv rid).pool = db.pool.drop rid := by
  funext s
  cases s with
  | entry n k =>
    have h := Table.find?_delete db.kvEntries (fun e => e.requestId = rid) (n, k)
    simp only [Db.pool, Db.deleteRequestKv, Pool.drop, h]
    cases db.kvEntries.find? (n, k) with
    | none => rfl
    | some e => by_cases he : e.requestId = rid <;> simp [Option.filter, KvEntry.holding, he]
  | shard sv n k =>
    have h := Table.find?_delete db.kvShardEntries (fun e => e.requestId = rid) (sv, n, k)
    simp only [Db.pool, Db.deleteRequestKv, Pool.drop, h]
    cases db.kvShardEntries.find? (sv, n, k) with
    | none => rfl
    | some e => by_cases he : e.requestId = rid <;> simp [Option.filter, KvShardEntry.holding, he]

@[simp] theorem pool_idleRequestKv (rid : String) :
    (db.idleRequestKv rid now).pool = db.pool.rest rid := by
  funext s
  cases s with
  | entry n k =>
    have h := Table.find?_update db.kvEntries (fun e => e.requestId = rid) _ (KvEntry.idle_key now) (n, k)
    simp only [Db.pool, Db.idleRequestKv, Pool.rest, h]
    cases db.kvEntries.find? (n, k) with
    | none => rfl
    | some e => by_cases he : e.requestId = rid <;> simp [KvEntry.holding, KvEntry.idle, he]
  | shard sv n k =>
    have h := Table.find?_update db.kvShardEntries (fun e => e.requestId = rid) _
      (KvShardEntry.idle_key now) (sv, n, k)
    simp only [Db.pool, Db.idleRequestKv, Pool.rest, h]
    cases db.kvShardEntries.find? (sv, n, k) with
    | none => rfl
    | some e => by_cases he : e.requestId = rid <;> simp [KvShardEntry.holding, KvShardEntry.idle, he]

end Frame

/-! ## Eviction and reservation -/

theorem evictLoop_subset (need capacity : Int) (used : Int) (vs : List (String × Nat)) :
    ∀ k ∈ (evictLoop need capacity used vs).1, ∃ b, (k, b) ∈ vs := by
  induction vs generalizing used with
  | nil => intro k hk; simp [evictLoop] at hk
  | cons v vs ih =>
    intro k hk
    unfold evictLoop at hk
    split at hk
    · simp at hk
    · rcases List.mem_cons.mp hk with rfl | hk
      · exact ⟨v.2, by simp⟩
      · obtain ⟨b, hb⟩ := ih _ k hk
        exact ⟨b, by simp [hb]⟩

theorem victimsToFit_subset {used : Nat} {idle : List (String × Nat)} {need capacity : Int}
    {victims : List String} (h : victimsToFit used idle need capacity = some victims) :
    ∀ k ∈ victims, ∃ b, (k, b) ∈ idle := by
  unfold victimsToFit at h
  split at h
  · cases h
    simp
  · split at h
    · cases h
    · cases h
      exact evictLoop_subset _ _ _ _

section Reserve

variable {db : Db} {row : RequestRow}

theorem kvVictims_idle {node : String} {need capacity : Int} {victims : List String}
    (h : db.kvVictims node need capacity = some victims) :
    ∀ k ∈ victims, ¬ Pool.Used db.pool (.entry node k) := by
  intro k hk ⟨hold, hp, hu⟩
  obtain ⟨b, hb⟩ := victimsToFit_subset h k hk
  obtain ⟨e, he, hkb⟩ := List.mem_map.mp hb
  rw [List.mem_insertionSort, Table.mem_select] at he
  simp only [decide_eq_true_eq] at he
  obtain ⟨hmem, hn, hidle⟩ := he
  have hkey : e.key = (node, k) := by
    rw [KvEntry.key, hn]
    simp [(Prod.mk.inj hkb).1]
  have hfind : db.kvEntries.find? (node, k) = some e := hkey ▸ Table.find?_of_mem hmem
  simp only [Db.pool, hfind, Option.map_some, Option.some.injEq] at hp
  subst hp
  simp [KvEntry.holding, hidle] at hu

theorem kvShardVictims_idle {service node : String} {need capacity : Int} {victims : List String}
    (h : db.kvShardVictims service node need capacity = some victims) :
    ∀ k ∈ victims, ¬ Pool.Used db.pool (.shard service node k) := by
  intro k hk ⟨hold, hp, hu⟩
  obtain ⟨b, hb⟩ := victimsToFit_subset h k hk
  obtain ⟨e, he, hkb⟩ := List.mem_map.mp hb
  rw [List.mem_insertionSort, Table.mem_select] at he
  simp only [decide_eq_true_eq] at he
  obtain ⟨hmem, hs, hn, hidle⟩ := he
  have hkey : e.key = (service, node, k) := by
    rw [KvShardEntry.key, hs, hn]
    simp [(Prod.mk.inj hkb).1]
  have hfind : db.kvShardEntries.find? (service, node, k) = some e := hkey ▸ Table.find?_of_mem hmem
  simp only [Db.pool, hfind, Option.map_some, Option.some.injEq] at hp
  subst hp
  simp [KvShardEntry.holding, hidle] at hu

theorem shardEvictions_idle {service : String} {capacity : Int} {shards : List Shard}
    {evictions : List (String × List String)}
    (h : db.shardEvictions service capacity shards = some evictions) :
    ∀ ev ∈ evictions, ∀ k ∈ ev.2, ¬ Pool.Used db.pool (.shard service ev.1 k) := by
  induction shards generalizing evictions with
  | nil =>
    cases h
    simp
  | cons s ss ih =>
    unfold Db.shardEvictions at h
    split at h
    · cases h
    · rename_i victims hv
      obtain ⟨rest, hrest, rfl⟩ := Option.map_eq_some_iff.mp h
      intro ev hev
      rcases List.mem_cons.mp hev with rfl | hev
      · exact kvShardVictims_idle hv
      · exact ih hrest ev hev

/-- The slots a reservation fills. -/
def shardSlots (service key : String) (shards : List Shard) : List Slot :=
  shards.map (fun s => .shard service s.nodeId key)

theorem reserveEntry_reserves {node : String} {key : String} {need : Nat} {capacity : Int} {now : Time}
    {victims : List String} (hv : db.kvVictims node need capacity = some victims) :
    Pool.Reserves db.pool (db.reserveEntry row node key need now victims).pool [.entry node key]
      row.requestId := by
  have hfind : ∀ n k, (db.reserveEntry row node key need now victims).kvEntries.find? (n, k) =
      if (n, k) = (node, key) then some ⟨node, key, row.requestId, need, .ready, now, now, now⟩
      else (db.kvEntries.find? (n, k)).filter (fun e => !decide (e.nodeId = node ∧ e.kvKey ∈ victims)) := by
    intro n k
    have hd := Table.find?_delete db.kvEntries (fun e => e.nodeId = node ∧ e.kvKey ∈ victims) (n, k)
    rw [← hd]
    exact Table.find?_replace _ _ _
  constructor
  · intro s hs
    simp only [List.mem_singleton] at hs
    subst hs
    simp only [Db.pool, hfind, if_true]
    rfl
  · intro s hs
    cases s with
    | shard sv n k => exact .inl rfl
    | entry n k =>
      have hne : (n, k) ≠ (node, key) := by
        intro he
        cases he
        simp at hs
      simp only [Db.pool, hfind, if_neg hne]
      cases hf : db.kvEntries.find? (n, k) with
      | none => exact .inl rfl
      | some e =>
        by_cases hc : e.nodeId = node ∧ e.kvKey ∈ victims
        · refine .inr ⟨by simp [hc], fun hu => ?_⟩
          have hkey : e.key = (n, k) := (Table.find?_some hf).2
          have hn : n = node := (congrArg Prod.fst hkey).symm.trans hc.1
          have hk : k ∈ victims := by
            have : e.kvKey = k := congrArg Prod.snd hkey
            rw [← this]
            exact hc.2
          subst hn
          exact kvVictims_idle hv k hk hu
        · exact .inl (by simp [Option.filter, hc])

/-- A replace for each shard: the shards' slots are the request's, the others as before. -/
theorem putShards_holding (service key : String) (now : Time) (count : Nat) (shards : List Shard)
    (t : Table KvShardEntry KvShardEntry.key) (k : String × String × String) :
    ((shards.foldl (fun t s => t.replace (shardEntry row service key now count s)) t).find? k).map
        KvShardEntry.holding =
      if ∃ s ∈ shards, k = (service, s.nodeId, key) then some ⟨row.requestId, true⟩
      else (t.find? k).map KvShardEntry.holding := by
  induction shards generalizing t with
  | nil => simp
  | cons s ss ih =>
    have hkey : (shardEntry row service key now count s).key = (service, s.nodeId, key) := rfl
    rw [List.foldl_cons, ih, Table.find?_replace, hkey]
    simp only [List.mem_cons, exists_eq_or_imp]
    by_cases hss : ∃ s ∈ ss, k = (service, s.nodeId, key)
    · rw [if_pos hss, if_pos (.inr hss)]
    · by_cases hs : k = (service, s.nodeId, key)
      · rw [if_neg hss, if_pos hs, if_pos (.inl hs)]
        rfl
      · rw [if_neg hss, if_neg hs, if_neg (not_or.mpr ⟨hs, hss⟩)]

theorem reserveShards_reserves {service key : String} {capacity : Int} {now : Time}
    {shards : List Shard} {evictions : List (String × List String)}
    (he : db.shardEvictions service capacity shards = some evictions) :
    Pool.Reserves db.pool (db.reserveShards row service key now shards evictions).pool
      (shardSlots service key shards) row.requestId := by
  have hpool : ∀ sv n k, (db.reserveShards row service key now shards evictions).pool (.shard sv n k) =
      if ∃ s ∈ shards, (sv, n, k) = (service, s.nodeId, key) then some ⟨row.requestId, true⟩
      else ((db.dropShards service evictions).kvShardEntries.find? (sv, n, k)).map
        KvShardEntry.holding :=
    fun sv n k => putShards_holding service key now _ shards _ _
  constructor
  · intro s hs
    obtain ⟨sh, hsh, rfl⟩ := List.mem_map.mp hs
    rw [hpool, if_pos ⟨sh, hsh, rfl⟩]
  · intro s hs
    cases s with
    | entry n k => exact .inl rfl
    | shard sv n k =>
      have hne : ¬ ∃ s ∈ shards, (sv, n, k) = (service, s.nodeId, key) := by
        rintro ⟨sh, hsh, heq⟩
        cases heq
        exact hs (List.mem_map.mpr ⟨sh, hsh, rfl⟩)
      have hd := Table.find?_delete db.kvShardEntries (fun e => e.serviceId = service ∧
        evictions.any (fun ev => e.nodeId = ev.1 ∧ e.kvKey ∈ ev.2)) (sv, n, k)
      rw [hpool, if_neg hne]
      simp only [Db.dropShards, Db.pool, hd]
      cases hf : db.kvShardEntries.find? (sv, n, k) with
      | none => exact .inl rfl
      | some e =>
        by_cases hc : e.serviceId = service ∧
            (evictions.any (fun ev => e.nodeId = ev.1 ∧ e.kvKey ∈ ev.2)) = true
        · refine .inr ⟨by simp only [Option.filter_some, hc, and_self, decide_true,
            Bool.not_true, Bool.false_eq_true, if_false, Option.map_none], fun hu => ?_⟩
          obtain ⟨ev, hev, hnk⟩ := List.any_eq_true.mp hc.2
          simp only [decide_eq_true_eq] at hnk
          have hkey : e.key = (sv, n, k) := (Table.find?_some hf).2
          cases hkey
          have hidle := shardEvictions_idle he ev hev e.kvKey hnk.2
          rw [← hnk.1, ← hc.1] at hidle
          exact hidle hu
        · exact .inl (by simp only [Option.filter_some, hc, decide_false, Bool.not_false, if_true])

/-- Whether a request needs KV at all. -/
def RequestRow.needsKv (row : RequestRow) : Bool := pyTrue row.kvKey ∧ row.kvBytes ≠ 0

/-- The slots a request relies on, when it is bound to `node`. -/
def RequestRow.slots (row : RequestRow) (node : Option String) (layout : Option Layout) : List Slot :=
  if !row.needsKv then []
  else if pipelined row node then
    shardSlots (strOr row.selectedServiceId) (strOr row.kvKey) (rowShards row node layout)
  else node.toList.map (fun n => .entry n (strOr row.kvKey))

/-- Eviction takes idle rows only, and the request gets every slot it relies on. -/
theorem reserveKv_reserves {db' : Db} {node : Option String} {capacity : Int} {now : Time}
    {layout : Option Layout} (h : db.reserveKv row node capacity now layout = some db') :
    Pool.Reserves db.pool db'.pool (row.slots node layout) row.requestId := by
  have hnone : Pool.Reserves db.pool db.pool [] row.requestId := ⟨by simp, fun s _ => .inl rfl⟩
  cases reserveKv_cases h with
  | unneeded hk =>
    have hn : row.needsKv = false := by
      rcases hk with hk | hk <;> simp [RequestRow.needsKv, hk]
    simpa [RequestRow.slots, hn] using hnone
  | noShards hp hs =>
    have hnil : row.slots node layout = [] := by
      unfold RequestRow.slots
      rw [hp, hs]
      simp [shardSlots]
    rw [hnil]
    exact hnone
  | pipeline evictions hp hk he =>
    have hn : row.needsKv = true := by simpa [RequestRow.needsKv] using hk
    simpa [RequestRow.slots, hn, hp] using reserveShards_reserves he
  | legacy node victims hp hk hn hv =>
    subst hn
    have hneed : row.needsKv = true := by simpa [RequestRow.needsKv] using hk
    simpa [RequestRow.slots, hneed, hp] using reserveEntry_reserves hv

end Reserve

/-! ## What the operations do to the pool -/

section Operations

variable {db : Db} {row : RequestRow}

theorem finish_pool (args : FinishArgs) : (execAll (finishActions args row) db).pool =
    if pyTrue row.kvKey then db.pool.rest args.requestId else db.pool := by
  simp only [finishActions, execAll_exec, execAll_nil, pool_refreshBatch, pool_event, pool_release]
  split <;> simp

theorem retry_pool (args : RetryArgs) :
    (execAll (retryActions args row) db).pool = db.pool.drop args.requestId := by
  unfold retryActions
  cases args.outcome row <;> simp [retryCancelledActions, retryRequeuedActions, retryFailedActions]

theorem cancel_pool (args : CancelArgs) : (execAll (cancelTurn args row) db).pool =
    match args.choice row with
    | .skip | .mark => db.pool
    | .force | .cancel => db.pool.drop row.requestId := by
  unfold cancelTurn
  cases args.choice row <;> simp [cancelRowActions]

theorem reap_pool (args : ReapArgs) : (execAll (reapTurn args row) db).pool =
    if args.fails row then db.pool else db.pool.drop row.requestId := by
  unfold reapTurn reapUpdate
  split <;> simp

end Operations

end Queue
end Ds4Spark
