import Ds4Spark.Queue.LifeCycle

/-!
# Ds4Spark.Queue.KvCapacity

KV capacity. A reservation sums one table, and of `kv_shard_entries` the rows of one service: so
what is bounded is a node's `kv_entries`, and each service's `kv_shard_entries` on it.

* `victimsToFit_spec`: what is evicted makes enough room.
* `reserveEntry_usage`, `reserveShards_usage`: a reservation stays within the capacity.
* `Block.usage`: nothing else adds bytes.
-/

namespace Ds4Spark
namespace Queue

/-- A row of a service on a node. -/
def KvShardEntry.on (service node : String) (e : KvShardEntry) : Bool :=
  e.serviceId = service ∧ e.nodeId = node

/-- The bytes on a node: of the legacy entries, or of a service's shards. -/
def Db.usage (db : Db) (service : Option String) (node : String) : Nat :=
  match service with
  | none => db.kvEntries.total KvEntry.bytes (fun e => e.nodeId = node)
  | some sv => db.kvShardEntries.total KvShardEntry.bytes (KvShardEntry.on sv node)

def WithinCapacity (capacity : Int) (db : Db) : Prop :=
  ∀ service node, (db.usage service node : Int) ≤ capacity

/-- A `prepare_ready` is called with this capacity. -/
def Op.usesCapacity (capacity : Int) : Op → Prop
  | .prepareReady args => args.kvCapacityBytes = capacity
  | _ => True

/-! ## Eviction makes room -/

theorem evictLoop_spec (need capacity used : Int) (vs : List (String × Nat)) :
    ∃ n, evictLoop need capacity used vs =
      ((vs.take n).map Prod.fst, used - (((vs.take n).map Prod.snd).sum : Nat)) := by
  induction vs generalizing used with
  | nil => exact ⟨0, by simp [evictLoop]⟩
  | cons v vs ih =>
    unfold evictLoop
    split
    · exact ⟨0, by simp⟩
    · obtain ⟨n, hn⟩ := ih (used - v.2)
      refine ⟨n + 1, ?_⟩
      simp only [hn, List.take_succ_cons, List.map_cons, List.sum_cons, Prod.mk.injEq, true_and]
      omega

/-- The victims are the first idle rows, and with them gone the new bytes fit. -/
theorem victimsToFit_spec {ρ : Type} {rows : List ρ} {name : ρ → String} {bytes : ρ → Nat}
    {used : Nat} {need capacity : Int} {victims : List String} (hC : 0 < capacity)
    (h : victimsToFit used (rows.map (fun e => (name e, bytes e))) need capacity = some victims) :
    ∃ n, victims = (rows.take n).map name ∧
      (used : Int) - (((rows.take n).map bytes).sum : Nat) + need ≤ capacity := by
  obtain ⟨n, hn⟩ := evictLoop_spec need capacity used (rows.map (fun e => (name e, bytes e)))
  unfold victimsToFit at h
  rw [if_neg (by omega), hn] at h
  split at h
  · cases h
  · rename_i hfit
    cases h
    refine ⟨n, ?_, ?_⟩
    · simp [← List.map_take]
    · simp only [← List.map_take, List.map_map] at hfit
      exact not_lt.mp hfit

/-- Evicting from a table: the rows that stay leave room for the new bytes. -/
theorem delete_fit {ρ κ : Type} {key : ρ → κ} {t : Table ρ key} {idle : List ρ} {name : ρ → String}
    {bytes : ρ → Nat} {p q : ρ → Bool} {need capacity : Int} {victims : List String}
    (hC : 0 < capacity)
    (h : victimsToFit (t.total bytes p) (idle.map (fun e => (name e, bytes e))) need capacity =
      some victims)
    (hidle : idle.Subperm t.rows) (hp : ∀ e ∈ idle, p e = true)
    (hq : ∀ e ∈ idle, name e ∈ victims → q e = true) :
    ((t.delete q).total bytes p : Int) + need ≤ capacity := by
  obtain ⟨n, rfl, hfit⟩ := victimsToFit_spec hC h
  have htaken : ∀ e ∈ idle.take n, (p e && q e) = true := by
    intro e he
    have hmem := List.mem_of_mem_take he
    rw [hp e hmem, hq e hmem (List.mem_map.mpr ⟨e, he, rfl⟩)]
    rfl
  have hsum := Table.sum_le_total ((List.take_sublist n idle).subperm.trans hidle) bytes htaken
  have hsplit := t.total_delete_add q bytes p
  omega

section Reserve

variable {db : Db} {row : RequestRow} {capacity : Int}

theorem kvVictims_fit {node : String} {need : Int} {victims : List String} (hC : 0 < capacity)
    (h : db.kvVictims node need capacity = some victims) :
    ((db.dropKv node victims).usage none node : Int) + need ≤ capacity := by
  refine delete_fit hC h ((List.perm_insertionSort _ _).subperm.trans List.filter_sublist.subperm) ?_ ?_
  · intro e he
    rw [List.mem_insertionSort, Table.mem_select] at he
    simp only [decide_eq_true_eq] at he ⊢
    exact he.2.1
  · intro e he hv
    rw [List.mem_insertionSort, Table.mem_select] at he
    simp only [decide_eq_true_eq] at he ⊢
    exact ⟨he.2.1, hv⟩

theorem kvShardVictims_fit {service node : String} {need : Int} {victims : List String}
    {evictions : List (String × List String)} (hC : 0 < capacity)
    (h : db.kvShardVictims service node need capacity = some victims)
    (hmem : (node, victims) ∈ evictions) :
    ((db.dropShards service evictions).usage (some service) node : Int) + need ≤ capacity := by
  refine delete_fit hC h ((List.perm_insertionSort _ _).subperm.trans List.filter_sublist.subperm) ?_ ?_
  · intro e he
    rw [List.mem_insertionSort, Table.mem_select] at he
    simp only [decide_eq_true_eq] at he ⊢
    exact decide_eq_true ⟨he.2.1, he.2.2.1⟩
  · intro e he hv
    rw [List.mem_insertionSort, Table.mem_select] at he
    simp only [decide_eq_true_eq] at he ⊢
    exact ⟨he.2.1, List.any_eq_true.mpr ⟨_, hmem, by simpa using ⟨he.2.2.1, hv⟩⟩⟩

/-- Every shard has its victims among the evictions. -/
theorem shardEvictions_mem {service : String} {shards : List Shard}
    {evictions : List (String × List String)}
    (h : db.shardEvictions service capacity shards = some evictions) :
    ∀ s ∈ shards, ∃ victims, db.kvShardVictims service s.nodeId s.size capacity = some victims ∧
      (s.nodeId, victims) ∈ evictions := by
  induction shards generalizing evictions with
  | nil => simp
  | cons s ss ih =>
    unfold Db.shardEvictions at h
    split at h
    · cases h
    · rename_i victims hv
      obtain ⟨rest, hrest, rfl⟩ := Option.map_eq_some_iff.mp h
      intro s' hs'
      rcases List.mem_cons.mp hs' with rfl | hs'
      · exact ⟨victims, hv, by simp⟩
      · obtain ⟨vs, hvs, hm⟩ := ih hrest s' hs'
        exact ⟨vs, hvs, by simp [hm]⟩

theorem reserveEntry_usage {node key : String} {need : Nat} {now : Time} {victims : List String}
    (hC : 0 < capacity) (hv : db.kvVictims node need capacity = some victims)
    (hI : WithinCapacity capacity db) :
    WithinCapacity capacity (db.reserveEntry row node key need now victims) := by
  intro service n
  cases service with
  | some sv => exact hI (some sv) n
  | none =>
    have hadd : (db.reserveEntry row node key need now victims).usage none n ≤
        (db.dropKv node victims).usage none n + if node = n then need else 0 := by
      have h := Table.total_replace_le (db.dropKv node victims).kvEntries
        ⟨node, key, row.requestId, need, .ready, now, now, now⟩ KvEntry.bytes (fun e => e.nodeId = n)
      simp only [decide_eq_true_eq] at h
      exact h
    have hdrop : (db.dropKv node victims).usage none n ≤ db.usage none n :=
      Table.total_delete_le _ _ _ _
    by_cases hn : node = n
    · subst hn
      have hfit := kvVictims_fit hC hv
      rw [if_pos rfl] at hadd
      omega
    · have hold := hI none n
      rw [if_neg hn] at hadd
      omega

/-- The rows of a service on a node under any other key. -/
def KvShardEntry.besides (service node key : String) (e : KvShardEntry) : Bool :=
  e.on service node && !decide (e.key = (service, node, key))

/-- One replacement per shard, all under one key: on each node the last shard's row counts. -/
theorem putShards_total {service key : String} {now : Time} {count : Nat} {shards : List Shard}
    {t t' : Table KvShardEntry KvShardEntry.key} (n : String)
    (ht : shards.foldl (fun t s => t.replace (shardEntry row service key now count s)) t = t') :
    t'.total KvShardEntry.bytes (KvShardEntry.on service n) ≤
        t.total KvShardEntry.bytes (KvShardEntry.on service n) ∧ (∀ s ∈ shards, s.nodeId ≠ n) ∨
      ∃ s ∈ shards, s.nodeId = n ∧ t'.total KvShardEntry.bytes (KvShardEntry.on service n) ≤
        t.total KvShardEntry.bytes (KvShardEntry.besides service n key) + s.size := by
  induction shards generalizing t with
  | nil =>
    subst ht
    exact .inl ⟨le_refl _, by simp⟩
  | cons s ss ih =>
    have hon : (shardEntry row service key now count s).on service n = decide (s.nodeId = n) := by
      simp [shardEntry, KvShardEntry.on]
    have hkey : (shardEntry row service key now count s).key = (service, s.nodeId, key) := rfl
    have hreplace := t.total_replace (shardEntry row service key now count s) KvShardEntry.bytes
      (KvShardEntry.on service n)
    have hothers := t.total_replace_le (shardEntry row service key now count s) KvShardEntry.bytes
      (KvShardEntry.besides service n key)
    have hbesides : (shardEntry row service key now count s).besides service n key = false := by
      by_cases hn : s.nodeId = n <;> simp [KvShardEntry.besides, hon, hkey, hn]
    rw [hbesides] at hothers
    rw [hon, hkey] at hreplace
    have ht' : ss.foldl (fun t s => t.replace (shardEntry row service key now count s))
        (t.replace (shardEntry row service key now count s)) = t' := ht
    rcases ih ht' with ⟨hle, hnone⟩ | ⟨s', hs', hn', hle⟩
    · by_cases hn : s.nodeId = n
      · -- the row just put is the one that counts
        right
        refine ⟨s, by simp, hn, ?_⟩
        subst hn
        simp only [decide_true, if_true] at hreplace
        exact hle.trans (le_of_eq hreplace)
      · left
        have hmono := t.total_mono KvShardEntry.bytes
          (p := fun x => x.on service n && !decide (x.key = (service, s.nodeId, key)))
          (q := KvShardEntry.on service n) (fun x hx => by simp at hx; exact hx.1)
        simp only [hn, decide_false, Bool.false_eq_true, if_false] at hreplace
        refine ⟨by omega, ?_⟩
        intro s₁ hs₁
        rcases List.mem_cons.mp hs₁ with rfl | hs₁
        · exact hn
        · exact hnone s₁ hs₁
    · right
      refine ⟨s', by simp [hs'], hn', ?_⟩
      simp only [Bool.false_eq_true, if_false, Nat.add_zero] at hothers
      omega

theorem putShards_total_other {service sv key : String} {now : Time} {count : Nat}
    {shards : List Shard} {t t' : Table KvShardEntry KvShardEntry.key} (n : String)
    (hsv : sv ≠ service)
    (ht : shards.foldl (fun t s => t.replace (shardEntry row service key now count s)) t = t') :
    t'.total KvShardEntry.bytes (KvShardEntry.on sv n) ≤
      t.total KvShardEntry.bytes (KvShardEntry.on sv n) := by
  induction shards generalizing t with
  | nil =>
    subst ht
    exact le_refl _
  | cons s ss ih =>
    have ht' : ss.foldl (fun t s => t.replace (shardEntry row service key now count s))
        (t.replace (shardEntry row service key now count s)) = t' := ht
    have hreplace := t.total_replace_le (shardEntry row service key now count s) KvShardEntry.bytes
      (KvShardEntry.on sv n)
    have hoff : (shardEntry row service key now count s).on sv n = false := by
      simp [shardEntry, KvShardEntry.on, hsv.symm]
    rw [hoff] at hreplace
    simp only [Bool.false_eq_true, if_false, Nat.add_zero] at hreplace
    exact (ih ht').trans hreplace

theorem reserveShards_usage {service key : String} {now : Time} {shards : List Shard}
    {evictions : List (String × List String)} (hC : 0 < capacity)
    (he : db.shardEvictions service capacity shards = some evictions)
    (hI : WithinCapacity capacity db) :
    WithinCapacity capacity (db.reserveShards row service key now shards evictions) := by
  intro sv n
  cases sv with
  | none => exact hI none n
  | some sv =>
    have hdrop : ∀ sv, (db.dropShards service evictions).usage (some sv) n ≤ db.usage (some sv) n :=
      fun sv => Table.total_delete_le _ _ _ _
    by_cases hsv : sv = service
    · subst hsv
      have hold := hI (some sv) n
      have hold' := hdrop sv
      have hput := @putShards_total row sv key now (max 1 shards.length) shards
        (db.dropShards sv evictions).kvShardEntries _ n rfl
      change (db.reserveShards row sv key now shards evictions).usage (some sv) n ≤
          (db.dropShards sv evictions).usage (some sv) n ∧ _ ∨ ∃ s ∈ shards, s.nodeId = n ∧
        (db.reserveShards row sv key now shards evictions).usage (some sv) n ≤ _ at hput
      rcases hput with ⟨hle, _⟩ | ⟨s, hs, hn, hle⟩
      · omega
      · obtain ⟨victims, hv, hmem⟩ := shardEvictions_mem he s hs
        have hfit := kvShardVictims_fit hC hv hmem
        have hmono := (db.dropShards sv evictions).kvShardEntries.total_mono KvShardEntry.bytes
          (p := KvShardEntry.besides sv n key) (q := KvShardEntry.on sv n)
          (fun x hx => by simp [KvShardEntry.besides] at hx; exact hx.1)
        rw [hn] at hfit
        change _ ≤ (db.dropShards sv evictions).usage (some sv) n at hmono
        omega
    · have hle : (db.reserveShards row service key now shards evictions).usage (some sv) n ≤
          (db.dropShards service evictions).usage (some sv) n := putShards_total_other n hsv rfl
      have hold := hI (some sv) n
      have hold' := hdrop sv
      omega

theorem reserveKv_usage {db' : Db} {node : Option String} {now : Time} {layout : Option Layout}
    (hC : 0 < capacity) (h : db.reserveKv row node capacity now layout = some db')
    (hI : WithinCapacity capacity db) : WithinCapacity capacity db' := by
  cases reserveKv_cases h with
  | unneeded _ => exact hI
  | noShards _ _ => exact hI
  | pipeline evictions hp hk he => exact reserveShards_usage hC he hI
  | legacy node victims hp hk hn hv => exact reserveEntry_usage hC hv hI

end Reserve

/-! ## Nothing else adds bytes -/

section Frame

variable (db : Db) (now : Time)

theorem usage_congr {db db' : Db} (h : db'.kvEntries = db.kvEntries)
    (hs : db'.kvShardEntries = db.kvShardEntries) : db'.usage = db.usage := by
  funext service node
  cases service with
  | none => simp only [Db.usage, h]
  | some sv => simp only [Db.usage, hs]

@[simp] theorem usage_event (id type : String) (s : RequestState) (p : JsonObj) :
    (db.event now id type s p).usage = db.usage := usage_congr rfl rfl

@[simp] theorem usage_refreshBatch (b : String) : (db.refreshBatch now b).usage = db.usage :=
  usage_congr rfl rfl

@[simp] theorem usage_release (id : Option String) :
    (db.releaseUnusedComputeLease id).usage = db.usage :=
  usage_congr (release_kvEntries db id) (release_kvShardEntries db id)

@[simp] theorem usage_updateRequests (p : RequestRow → Bool) (f : RequestRow → RequestRow)
    (hf : ∀ r, (f r).requestId = r.requestId) : (db.updateRequests p f hf).usage = db.usage :=
  usage_congr rfl rfl

@[simp] theorem usage_idleRequestKv (rid : String) : (db.idleRequestKv rid now).usage = db.usage := by
  funext service node
  cases service with
  | none => exact Table.total_update _ _ _ (KvEntry.idle_key now) _ _ (fun _ => rfl) (fun _ => rfl)
  | some sv =>
    exact Table.total_update _ _ _ (KvShardEntry.idle_key now) _ _ (fun _ => rfl) (fun _ => rfl)

@[simp] theorem usage_updateRequests_deleteRequestKv (p : RequestRow → Bool)
    (f : RequestRow → RequestRow) (hf : ∀ r, (f r).requestId = r.requestId) (rid : String) :
    ((db.updateRequests p f hf).deleteRequestKv rid).usage = (db.deleteRequestKv rid).usage :=
  usage_congr rfl rfl

theorem usage_deleteRequestKv (rid : String) (service : Option String) (node : String) :
    (db.deleteRequestKv rid).usage service node ≤ db.usage service node := by
  cases service <;> exact Table.total_delete_le _ _ _ _

end Frame

section Blocks

variable {op : Op} {db₀ db db' : Db}

/-- A block adds bytes only by a reservation. -/
theorem Block.usage (h : Block op db₀ db db') :
    (∀ service node, db'.usage service node ≤ db.usage service node) ∨
    ∃ args row uuid db₁, op = .prepareReady args ∧ db' = db₁.prefilled args uuid row ∧
      db.reserveKv row (bindNodeId args row) args.kvCapacityBytes args.now (args.layout row) =
        some db₁ := by
  have hsame : db'.usage = db.usage →
      ∀ service node, db'.usage service node ≤ db.usage service node := by
    intro he service node
    rw [he]
  cases h with
  | batches b => exact .inl (hsame rfl)
  | submit row hrow h =>
    refine .inl (hsame ?_)
    unfold Db.insertRequest at h
    split at h
    · cases h
    · cases h
      exact usage_congr rfl rfl
  | capacityWait args row hop hrow hs => exact .inl (hsame (usage_event _ _ _ _ _ _))
  | prefilled args row uuid hop h₀ hrow hs h => exact .inr ⟨args, row, uuid, _, hop, rfl, h⟩
  | lease args first count hop hreach =>
    obtain ⟨_, _, hk, hks⟩ := @claimLease_frame db₀ args first count
    exact .inl (hsame (usage_congr hk hks))
  | started args row lease computeLease hop hrow hs hl =>
    refine .inl (hsame ?_)
    simp only [Db.started, usage_event, usage_updateRequests]
  | finish args row hop ht h =>
    refine .inl (hsame ?_)
    simp only [finishActions, execAll_exec, execAll_nil, usage_refreshBatch, usage_event,
      usage_release]
    split <;> simp
  | retry args row hop h =>
    left
    intro service node
    unfold retryActions
    cases args.outcome row <;>
      simpa [retryCancelledActions, retryRequeuedActions, retryFailedActions] using
        usage_deleteRequestKv db₀ args.requestId service node
  | cancel args target row hop ht h₀ hrow =>
    left
    intro service node
    unfold cancelTurn
    cases args.choice row with
    | skip | mark => simp
    | force | cancel =>
      simpa [cancelRowActions] using usage_deleteRequestKv db row.requestId service node
  | dropExpired args hop => exact .inl (hsame rfl)
  | reap args row hop h₀ hrow hs =>
    left
    intro service node
    unfold reapTurn reapUpdate
    split
    · simp
    · simpa using usage_deleteRequestKv db row.requestId service node
  | heartbeat args hop => exact .inl (hsame rfl)
  | delta args hop =>
    refine .inl (hsame ?_)
    unfold Queue.streamDelta
    split
    · rfl
    · exact usage_event _ _ _ _ _ _

theorem next_withinCapacity {capacity : Int} (hC : 0 < capacity) (hpre : NoPrefilling db)
    (hop : op.usesCapacity capacity) (hI : WithinCapacity capacity db) :
    WithinCapacity capacity (op.next db) := by
  refine invariant_of_steps (WithinCapacity capacity) ?_ (next_blocks hpre op) hI
  intro db₁ db₂ hblock hI service node
  rcases hblock.usage with hle | ⟨args, row, uuid, db₃, rfl, rfl, hres⟩
  · have hnode := hle service node
    have hold := hI service node
    omega
  · have hc : args.kvCapacityBytes = capacity := hop
    rw [hc] at hres
    have hfit := reserveKv_usage hC hres hI service node
    simpa only [Db.prefilled, usage_event, usage_updateRequests] using hfit

end Blocks

/-- On every node, the legacy entries and each service's shards stay within the capacity that every
`prepare_ready` is called with. -/
theorem kv_capacity {capacity : Int} (hC : 0 < capacity) {ops : List Op}
    (hops : ∀ op ∈ ops, op.usesCapacity capacity) :
    WithinCapacity capacity (run Op.next ops Db.empty) := by
  have halong : Along Op.next (fun _ op => op.usesCapacity capacity) ops Db.empty :=
    along_of_forall hops _
  have hrun := halong.invariant (fun db => NoPrefilling db ∧ WithinCapacity capacity db) ?_ ?_
  · exact hrun.2
  · intro db op hop ⟨hpre, hI⟩
    exact ⟨next_noPrefilling hpre op, next_withinCapacity hC hpre hop hI⟩
  · refine ⟨empty_noPrefilling, ?_⟩
    intro service node
    cases service <;> exact le_of_lt hC

/-- Two requests of two services whose pipelines share the nodes `n` and `m`. -/
def twoServices : List Op := [
  modelCall "a" ["r"] (kvInput "k" 8) (some ⟨"n", "group", ["n", "m"], some "sa", none, fun _ => rfl⟩) 0,
  modelCall "b" ["s"] (kvInput "k" 8) (some ⟨"n", "group", ["n", "m"], some "sb", none, fun _ => rfl⟩) 1,
  prepareCall none 5 2]

theorem twoServices_capacity : ∀ op ∈ twoServices, op.usesCapacity 5 := by
  intro op hop
  simp only [twoServices, List.mem_cons, List.not_mem_nil, or_false] at hop
  rcases hop with rfl | rfl | rfl
  · trivial
  · trivial
  · rfl

theorem kv_capacity_twoServices : WithinCapacity 5 (run Op.next twoServices Db.empty) :=
  kv_capacity (by decide) twoServices_capacity

/-- Taken over both tables and every service, a node can hold more than the capacity. -/
theorem node_over_capacity : ¬ ∀ (capacity : Int) (ops : List Op), 0 < capacity →
    (∀ op ∈ ops, op.usesCapacity capacity) → ∀ node : String,
      (((run Op.next ops Db.empty).kvEntries.total KvEntry.bytes (fun e => e.nodeId = node) +
        (run Op.next ops Db.empty).kvShardEntries.total KvShardEntry.bytes (fun e => e.nodeId = node) :
          Nat) : Int) ≤ capacity := by
  intro h
  have hnode := h 5 twoServices (by decide) twoServices_capacity "n"
  have hbytes : (run Op.next twoServices Db.empty).kvEntries.total KvEntry.bytes
      (fun e => e.nodeId = "n") + (run Op.next twoServices Db.empty).kvShardEntries.total
        KvShardEntry.bytes (fun e => e.nodeId = "n") = 8 := by decide +kernel
  rw [hbytes] at hnode
  omega

end Queue
end Ds4Spark
