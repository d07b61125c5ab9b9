import Ds4Spark.ExternalKv.Manifest
import Ds4Spark.ExternalKv.Pins

/-!
# Ds4Spark.ExternalKv.Commit

What a commit of shard updates leaves in the tables.

* `updateRow`: what one update makes of a shard that it names; `committedShard` runs the updates that
  name a shard over it. Its fields are read from the last update that carries them.
* `commit_shards`: in every reachable state, a call raises and changes nothing, or it leaves `Committed`.
* `Declared`: every object has shards, in every reachable state, so no object is ever `missing_shards`.
-/

namespace Ds4Spark
namespace ExternalKv

open Queue (Error Time raiseIf asInt bind_eq_ok not_of_raiseIf)

/-! ## Updates -/

/-- An update names a shard: it gives the shard's node and stage, or leaves them open. -/
def Named (shard : ShardKey) (update : JsonObj) : Bool :=
  (given update "node_id").all (fun v => shard.nodeId = v.pyStr) &&
    (given update "stage_index").all (fun v => v.pyInt = some shard.stageIndex)

def stateOfUpdate (shardState : String) (update : JsonObj) : String :=
  (JsonObj.orElse update "state" (.str shardState)).pyStr

def bytesOfUpdate (update : JsonObj) : Int :=
  max 0 ((JsonObj.orElse update "bytes" (.int 0)).pyInt.getD 0)

def residentOfUpdate (update : JsonObj) : Bool := ((update.get? "gpu_resident").getD .null).truthy

def metadataOfUpdate (update : JsonObj) : JsonObj := (metadataOf update).toOption.getD []

/-- The values of an update can be read: `int` and `dict` do not raise on them. -/
structure Readable (update : JsonObj) : Prop where
  bytes : update.has "bytes" = true → ((JsonObj.orElse update "bytes" (.int 0)).pyInt).isSome
  metadata : update.has "metadata" = true → (metadataOf update).isOk = true
  stageIndex : ∀ v, given update "stage_index" = some v → v.pyInt.isSome

/-- A shard after an update that names it. -/
def updateRow (args : CommitArgs) (update : JsonObj) (s : KvShard) : KvShard :=
  { s with
    state := stateOfUpdate args.shardState update
    updatedAt := args.now
    lastUsedAt := args.now
    bytes := if update.has "bytes" then bytesOfUpdate update else s.bytes
    storageUri := if update.has "storage_uri" then storageUriOf update else s.storageUri
    gpuResident := if update.has "gpu_resident" then residentOfUpdate update else s.gpuResident
    metadata := if update.has "metadata" then metadataOfUpdate update else s.metadata }

/-- A shard after the updates that name it, one after another. -/
def updatedShard (args : CommitArgs) (updates : List JsonObj) (s : KvShard) : KvShard :=
  run (updateRow args) (updates.filter (Named s.key)) s

@[simp] theorem updateRow_key (args : CommitArgs) (update : JsonObj) (s : KvShard) :
    (updateRow args update s).key = s.key := rfl

section Update

variable {args : CommitArgs} {k : ObjKey} {update : JsonObj} {db db' : KvDb} {changed : Nat}

theorem asInt_ok {v : Json} {i : Int} (h : asInt v = .ok i) : v.pyInt = some i := by
  unfold asInt at h
  split at h
  · rename_i hv
    cases h
    exact hv
  · cases h

theorem intOrNone_eq (key : String) : intOrNone update key =
    match given update key with
    | none => .ok none
    | some v => (asInt v).map some := by
  unfold intOrNone given
  cases update.get? key with
  | none => rfl
  | some v => cases v <;> rfl

theorem intOrNone_ok {key : String} {result : Option Int} (h : intOrNone update key = .ok result) :
    given update key = none ∧ result = none ∨
      ∃ v i, given update key = some v ∧ v.pyInt = some i ∧ result = some i := by
  rw [intOrNone_eq] at h
  split at h
  · rename_i hnone
    cases h
    exact Or.inl ⟨hnone, rfl⟩
  · rename_i v hv
    cases hi : asInt v with
    | error e =>
      rw [hi] at h
      cases h
    | ok i =>
      rw [hi] at h
      cases h
      exact Or.inr ⟨v, i, hv, asInt_ok hi, rfl⟩

theorem updateMatches_eq {stageIndex : Option Int} (h : intOrNone update "stage_index" = .ok stageIndex)
    (s : KvShard) : updateMatches update stageIndex s = Named s.key update := by
  unfold updateMatches Named
  rcases intOrNone_ok h with ⟨hnone, rfl⟩ | ⟨v, i, hv, hi, rfl⟩
  · rw [hnone]
    rfl
  · simp only [hv, hi, Option.all_some, Option.some.injEq, eq_comm]

/-- A column that an update sets, or leaves when it does not have the field. -/
theorem whenGiven_ok {α β : Type} {key : String} {value : Except Error α} {result : Option α}
    (h : whenGiven update key value = .ok result) {set : α → β} {new old : β}
    (hset : ∀ a, value = .ok a → set a = new) :
    (result.map set).getD old = if update.has key then new else old := by
  unfold whenGiven at h
  split at h
  · rename_i hgiven
    rw [if_pos hgiven]
    cases value with
    | error e => cases h
    | ok a =>
      cases h
      exact hset a rfl
  · rename_i hgiven
    cases h
    rw [if_neg hgiven]
    rfl

theorem whenGiven_isOk {α : Type} {key : String} {value : Except Error α} {result : Option α}
    (h : whenGiven update key value = .ok result) (hgiven : update.has key = true) :
    value.isOk = true := by
  rw [whenGiven, if_pos hgiven] at h
  cases value with
  | error e => cases h
  | ok a => rfl

theorem updateExternalKvShard_readable
    (h : updateExternalKvShard k update args.shardState args.now db = .ok (db', changed)) :
    Readable update := by
  obtain ⟨bytes, hbytes, h⟩ := bind_eq_ok h
  obtain ⟨metadata, hmetadata, h⟩ := bind_eq_ok h
  obtain ⟨stageIndex, hstage, h⟩ := bind_eq_ok h
  refine ⟨fun hgiven => ?_, whenGiven_isOk hmetadata, fun v hv => ?_⟩
  · have hok := whenGiven_isOk hbytes hgiven
    unfold intOrElse at hok
    cases hint : asInt (JsonObj.orElse update "bytes" (.int 0)) with
    | error e =>
      rw [hint] at hok
      cases hok
    | ok i => rw [asInt_ok hint, Option.isSome_some]
  · rcases intOrNone_ok hstage with ⟨hnone, _⟩ | ⟨w, i, hw, hi, _⟩
    · rw [hnone] at hv
      cases hv
    · rw [hw] at hv
      cases hv
      rw [hi, Option.isSome_some]

theorem getD_map_truthy {old : Bool} : ((update.get? "gpu_resident").map Json.truthy).getD old =
    if update.has "gpu_resident" then residentOfUpdate update else old := by
  unfold JsonObj.has residentOfUpdate
  cases update.get? "gpu_resident" <;> rfl

/-- `update_external_kv_shard` changes the shards that the update names, and counts them. -/
theorem updateExternalKvShard_ok
    (h : updateExternalKvShard k update args.shardState args.now db = .ok (db', changed)) :
    db'.shards.rows = db.shards.rows.map
        (fun s => if s.key.object = k ∧ Named s.key update then updateRow args update s else s) ∧
      db'.objects = db.objects ∧ db'.leases = db.leases ∧
      changed = ((db.shardsOf k).filter (fun s => Named s.key update)).length := by
  obtain ⟨bytes, hbytes, h⟩ := bind_eq_ok h
  obtain ⟨metadata, hmetadata, h⟩ := bind_eq_ok h
  obtain ⟨stageIndex, hstage, h⟩ := bind_eq_ok h
  have hmatches := updateMatches_eq hstage
  have hmax : ∀ i, intOrElse update "bytes" 0 = .ok i → max 0 i = bytesOfUpdate update := by
    intro i hi
    rw [bytesOfUpdate, asInt_ok hi]
    rfl
  have hdict : ∀ d, metadataOf update = .ok d → id d = metadataOfUpdate update := by
    intro d hd
    rw [metadataOfUpdate, hd]
    rfl
  cases h
  refine ⟨?_, rfl, rfl, ?_⟩
  · refine List.map_congr_left (fun s _ => ?_)
    have hmeta : (metadata.map id).getD s.metadata = _ := whenGiven_ok hmetadata hdict
    rw [Option.map_id] at hmeta
    simp only [hmatches, Bool.and_eq_true, decide_eq_true_eq, updateRow, stateOfUpdate, getD_map_truthy,
      whenGiven_ok hbytes hmax, ← hmeta, id_eq]
  · congr 2
    funext s
    exact hmatches s

/-- The updates of a call, one after another; a shard that none names is as it was. -/
theorem applyUpdates_ok {updates : List JsonObj} (h : applyUpdates args k updates db = .ok db') :
    db'.shards.rows = db.shards.rows.map
        (fun s => if s.key.object = k then updatedShard args updates s else s) ∧
      db'.objects = db.objects ∧ db'.leases = db.leases := by
  induction updates generalizing db with
  | nil =>
    cases h
    refine ⟨?_, rfl, rfl⟩
    simp [updatedShard]
  | cons update rest ih =>
    obtain ⟨⟨db₁, changed⟩, hupdate, h⟩ := bind_eq_ok h
    obtain ⟨_, _, h⟩ := bind_eq_ok h
    obtain ⟨hrows₁, hobjects₁, hleases₁, _⟩ := updateExternalKvShard_ok hupdate
    obtain ⟨hrows, hobjects, hleases⟩ := ih h
    refine ⟨?_, hobjects.trans hobjects₁, hleases.trans hleases₁⟩
    rw [hrows, hrows₁, List.map_map]
    refine List.map_congr_left (fun s _ => ?_)
    by_cases hs : s.key.object = k
    · cases hnamed : Named s.key update with
      | true => simp [updatedShard, hs, hnamed]
      | false => simp [updatedShard, hs, hnamed]
    · simp [hs]

theorem applyUpdates_readable {updates : List JsonObj} (h : applyUpdates args k updates db = .ok db') :
    ∀ update ∈ updates, Readable update := by
  induction updates generalizing db with
  | nil => simp
  | cons update rest ih =>
    obtain ⟨⟨db₁, changed⟩, hupdate, h⟩ := bind_eq_ok h
    obtain ⟨_, _, h⟩ := bind_eq_ok h
    rw [List.forall_mem_cons]
    exact ⟨updateExternalKvShard_readable hupdate, ih h⟩

end Update

/-! ## The fields of an updated shard -/

section Fields

variable (args : CommitArgs) (updates : List JsonObj) (s : KvShard)

/-- The last of the updates that names the shard and carries the field. -/
def lastWith (key : String) : Option JsonObj :=
  ((updates.filter (Named s.key)).filter (fun u => u.has key)).getLast?

/-- The last of the updates that names the shard. -/
def lastNaming : Option JsonObj := (updates.filter (Named s.key)).getLast?

theorem updatedShard_state : (updatedShard args updates s).state =
    ((lastNaming updates s).map (stateOfUpdate args.shardState)).getD s.state := by
  have h := run_last (updateRow args) KvShard.state (fun _ => true) (stateOfUpdate args.shardState)
    (fun _ _ => rfl) (updates.filter (Named s.key)) s
  rwa [List.filter_true] at h

theorem updatedShard_bytes : (updatedShard args updates s).bytes =
    ((lastWith updates s "bytes").map bytesOfUpdate).getD s.bytes :=
  run_last (updateRow args) KvShard.bytes (fun u => u.has "bytes") bytesOfUpdate (fun _ _ => rfl)
    (updates.filter (Named s.key)) s

theorem updatedShard_storageUri : (updatedShard args updates s).storageUri =
    ((lastWith updates s "storage_uri").map storageUriOf).getD s.storageUri :=
  run_last (updateRow args) KvShard.storageUri (fun u => u.has "storage_uri") storageUriOf (fun _ _ => rfl)
    (updates.filter (Named s.key)) s

theorem updatedShard_gpuResident : (updatedShard args updates s).gpuResident =
    ((lastWith updates s "gpu_resident").map residentOfUpdate).getD s.gpuResident :=
  run_last (updateRow args) KvShard.gpuResident (fun u => u.has "gpu_resident") residentOfUpdate (fun _ _ => rfl)
    (updates.filter (Named s.key)) s

theorem updatedShard_metadata : (updatedShard args updates s).metadata =
    ((lastWith updates s "metadata").map metadataOfUpdate).getD s.metadata :=
  run_last (updateRow args) KvShard.metadata (fun u => u.has "metadata") metadataOfUpdate (fun _ _ => rfl)
    (updates.filter (Named s.key)) s

theorem updatedShard_unnamed (h : ∀ update ∈ updates, Named s.key update = false) :
    updatedShard args updates s = s := by
  have hnone : updates.filter (Named s.key) = [] := by
    rw [List.filter_eq_nil_iff]
    intro update hupdate
    simp [h update hupdate]
  rw [updatedShard, hnone, run_nil]

/-- The columns that no update sets. -/
structure SameShape (s s' : KvShard) : Prop where
  key : s'.key = s.key
  stageCount : s'.stageCount = s.stageCount
  layerStart : s'.layerStart = s.layerStart
  layerEnd : s'.layerEnd = s.layerEnd
  createdAt : s'.createdAt = s.createdAt

theorem updatedShard_shape : SameShape s (updatedShard args updates s) := by
  unfold updatedShard
  generalize updates.filter (Named s.key) = named
  induction named using List.reverseRecOn with
  | nil => exact ⟨rfl, rfl, rfl, rfl, rfl⟩
  | append_singleton named update ih =>
    rw [run_append]
    exact ⟨ih.key, ih.stageCount, ih.layerStart, ih.layerEnd, ih.createdAt⟩

end Fields

/-! ## Every object has shards -/

/-- `_recover_prefetch_manifests_locked`. -/
def recoverPrefetchManifests (staleS : Rat) (now : Time) (db : KvDb) : KvDb :=
  let pending (state : String) (updatedAt : Time) : Bool :=
    state ∈ ["prefetch_requested", "prefetch_inflight"] && (staleS ≤ 0 || updatedAt ≤ now - staleS)
  { db with
    objects := db.objects.update (fun r => pending r.state r.updatedAt)
      (fun r => { r with state := "declared", updatedAt := now, lastUsedAt := now }) (fun _ => rfl)
    shards := db.shards.update (fun r => pending r.state r.updatedAt)
      (fun r => { r with
        state := "declared", gpuResident := false, updatedAt := now, lastUsedAt := now })
      (fun _ => rfl) }

/-- The calls that write the tables of the objects. -/
inductive StoreOp where
  | call (op : KvOp)
  | recover (staleS : Rat) (now : Time)

def StoreOp.next : StoreOp → KvDb → KvDb
  | .call op, db => op.next db
  | .recover staleS now, db => recoverPrefetchManifests staleS now db

/-- Every object has a shard. -/
def Declared (db : KvDb) : Prop :=
  ∀ k ∈ db.objects.rows.map KvObject.key, k ∈ db.shards.rows.map (fun s => s.key.object)

/-- No row of the two tables comes or goes. -/
structure SameKeys (db db' : KvDb) : Prop where
  objects : db'.objects.rows.map KvObject.key = db.objects.rows.map KvObject.key
  shards : db'.shards.rows.map KvShard.key = db.shards.rows.map KvShard.key

section Keys

variable {db db' db₁ : KvDb} {k : ObjKey}

theorem SameKeys.refl (db : KvDb) : SameKeys db db := ⟨rfl, rfl⟩

theorem SameKeys.trans (h₁ : SameKeys db db₁) (h₂ : SameKeys db₁ db') : SameKeys db db' :=
  ⟨h₂.objects.trans h₁.objects, h₂.shards.trans h₁.shards⟩

theorem SameKeys.declared (h : SameKeys db db') (hdb : Declared db) : Declared db' := by
  have hobjects : db'.shards.rows.map (fun s => s.key.object) =
      db.shards.rows.map (fun s => s.key.object) := by
    have := congrArg (List.map ShardKey.object) h.shards
    rwa [List.map_map, List.map_map] at this
  unfold Declared
  rw [h.objects, hobjects]
  exact hdb

theorem update_keys {ρ κ : Type} {key : ρ → κ} (t : Table ρ key) (p : ρ → Bool) (f : ρ → ρ)
    (hf : ∀ r, key (f r) = key r) : (t.update p f hf).rows.map key = t.rows.map key := by
  rw [Table.update, List.map_map]
  refine List.map_congr_left (fun r _ => ?_)
  rw [Function.comp_apply]
  split
  · exact hf r
  · rfl

theorem sameKeys_updateObject {f : KvObject → KvObject} {hf : ∀ r, (f r).key = r.key} :
    SameKeys db (db.updateObject k f hf) := ⟨update_keys _ _ _ hf, rfl⟩

theorem sameKeys_updateShards {p : KvShard → Bool} {f : KvShard → KvShard}
    {hf : ∀ r, (f r).key = r.key} : SameKeys db (db.updateShards k p f hf) :=
  ⟨rfl, update_keys _ _ _ hf⟩

theorem sameKeys_recover (staleS : Rat) (now : Time) :
    SameKeys db (recoverPrefetchManifests staleS now db) := by
  constructor
  · unfold recoverPrefetchManifests
    apply update_keys
    exact fun _ => rfl
  · unfold recoverPrefetchManifests
    apply update_keys
    exact fun _ => rfl

theorem applyUpdates_sameKeys {args : CommitArgs} {updates : List JsonObj}
    (h : applyUpdates args k updates db = .ok db') : SameKeys db db' := by
  obtain ⟨hrows, hobjects, _⟩ := applyUpdates_ok h
  refine ⟨by rw [hobjects], ?_⟩
  rw [hrows, List.map_map]
  refine List.map_congr_left (fun s _ => ?_)
  rw [Function.comp_apply]
  split
  · exact (updatedShard_shape args updates s).key
  · rfl

/-- The update of an empty list. -/
def updateAll (args : CommitArgs) (s : KvShard) : KvShard :=
  { s with state := args.shardState, updatedAt := args.now, lastUsedAt := args.now }

theorem updateAll_key (args : CommitArgs) (s : KvShard) : (updateAll args s).key = s.key := rfl

/-- The call of `external_kv_commit_shards` before the object is written. -/
def KvDb.afterUpdates (db : KvDb) (args : CommitArgs) (k : ObjKey) : Except Error KvDb :=
  applyUpdates args k args.shardUpdates (if args.shardUpdates = [] then
    db.updateShards k (fun _ => true) (updateAll args) (updateAll_key args) else db)

theorem afterUpdates_sameKeys {args : CommitArgs} (h : db.afterUpdates args k = .ok db') :
    SameKeys db db' := by
  refine SameKeys.trans ?_ (applyUpdates_sameKeys h)
  split
  · exact sameKeys_updateShards
  · exact .refl db

theorem commit_sameKeys {args : CommitArgs} (h : externalKvCommitShards args db = .ok db') :
    SameKeys db db' := by
  obtain ⟨k, _, h⟩ := bind_eq_ok h
  obtain ⟨row, _, h⟩ := bind_eq_ok h
  obtain ⟨db₂, hupdates, h⟩ := bind_eq_ok h
  cases h
  exact (afterUpdates_sameKeys hupdates).trans sameKeys_updateObject

/-- A declared object has a shard: its list is not empty. -/
theorem upsert_has_shard {args : UpsertArgs} (h : upsertExternalKvObject args db = .ok db')
    (hk : args.key.normalize = .ok k) : ∃ s ∈ db'.shards.rows, s.key.object = k := by
  obtain ⟨hvalid, hstages⟩ := upsert_stages h
  have hlength := (stagesOf_placed (accepted hvalid)).1
  obtain ⟨_, hnonempty, _⟩ := bind_eq_ok hvalid
  have hpos : 0 < ((db'.shardsOf k).map (fun r => r.key.stageIndex)).length := by
    rw [hstages k hk, hlength]
    exact List.length_pos_iff.mpr (not_of_raiseIf hnonempty)
  rw [List.length_map] at hpos
  obtain ⟨s, hs⟩ := List.exists_mem_of_length_pos hpos
  obtain ⟨hmem, hobject⟩ := Table.mem_select.mp hs
  exact ⟨s, hmem, by simpa using hobject⟩

theorem upsert_declared {args : UpsertArgs} (h : upsertExternalKvObject args db = .ok db')
    (hdb : Declared db) : Declared db' := by
  have hupsert := h
  obtain ⟨k, hk, h⟩ := bind_eq_ok h
  obtain ⟨_, _, h⟩ := bind_eq_ok h
  obtain ⟨_, _, h⟩ := bind_eq_ok h
  obtain ⟨shards, hshards, h⟩ := bind_eq_ok h
  cases h
  obtain ⟨rows, hrows, _, _⟩ := insertShards_rows hshards
  intro k' hk'
  obtain ⟨row, hrow, rfl⟩ := List.mem_map.mp hk'
  rcases Table.mem_replace.mp hrow with ⟨hold, hne⟩ | rfl
  · -- another object keeps its shards
    have hne : row.key ≠ k := hne
    obtain ⟨s, hs, hobject⟩ := List.mem_map.mp (hdb row.key (List.mem_map_of_mem hold))
    refine List.mem_map.mpr ⟨s, ?_, hobject⟩
    rw [hrows]
    exact List.mem_append_left _ (Table.mem_delete.mpr ⟨hs, by simp [hobject, hne]⟩)
  · obtain ⟨s, hs, hobject⟩ := upsert_has_shard hupsert hk
    exact List.mem_map.mpr ⟨s, hs, hobject⟩

theorem next_declared (op : KvOp) (hdb : Declared db) : Declared (op.next db) := by
  unfold KvOp.next
  split
  · rename_i db' h
    cases op with
    | upsert args => exact upsert_declared h hdb
    | touch args =>
      obtain ⟨k, _, h⟩ := bind_eq_ok h
      obtain ⟨row, _, h⟩ := bind_eq_ok h
      cases h
      exact (sameKeys_updateObject.trans sameKeys_updateShards).declared hdb
    | lease args =>
      obtain ⟨k, _, h⟩ := bind_eq_ok h
      obtain ⟨_, _, h⟩ := bind_eq_ok h
      obtain ⟨row, _, h⟩ := bind_eq_ok h
      dsimp only at h
      split at h
      · cases h
      · cases h
        exact ((SameKeys.mk rfl rfl).trans
          (sameKeys_updateObject.trans sameKeys_updateShards)).declared hdb
    | release leaseId =>
      cases h
      exact hdb
    | transition args =>
      obtain ⟨k, _, h⟩ := bind_eq_ok h
      obtain ⟨row, _, h⟩ := bind_eq_ok h
      dsimp only at h
      split at h
      · cases h
        exact sameKeys_updateObject.declared hdb
      · cases h
        exact (sameKeys_updateObject.trans sameKeys_updateShards).declared hdb
    | pin args =>
      obtain ⟨k, _, h⟩ := bind_eq_ok h
      obtain ⟨row, _, h⟩ := bind_eq_ok h
      cases h
      exact sameKeys_updateObject.declared hdb
    | evict args =>
      obtain ⟨k, _, h⟩ := bind_eq_ok h
      split at h
      · cases h
        exact hdb
      · obtain ⟨_, _, h⟩ := bind_eq_ok h
        cases h
        exact (sameKeys_updateObject.trans sameKeys_updateShards).declared hdb
    | commit args => exact (commit_sameKeys h).declared hdb
  · exact hdb

/-- In every reachable state, every object has a shard. -/
theorem declared_run (ops : List StoreOp) : Declared (run StoreOp.next ops KvDb.empty) := by
  induction ops using List.reverseRecOn with
  | nil => exact fun k hk => absurd hk List.not_mem_nil
  | append_singleton ops op ih =>
    rw [run_append, run_cons, run_nil]
    cases op with
    | call op => exact next_declared op ih
    | recover staleS now => exact (sameKeys_recover staleS now).declared ih

end Keys

/-! ## A commit -/

/-- A shard of the object after the call: an empty list is an update of every shard. -/
def committedShard (args : CommitArgs) (s : KvShard) : KvShard :=
  if args.shardUpdates = [] then updateAll args s else updatedShard args args.shardUpdates s

/-- The state of an object by the states of its shards, of which it has one at least. -/
def objectState (requestedState : String) (shards : List KvShard) : String :=
  if shards.all (fun s => s.state ∈ readyStates) then requestedState
  else if shards.any (fun s => s.state ∈ ["failed", "corrupt", "missing"]) then "degraded"
  else "partial"

/-- Each field of a shard after the call. -/
structure ShardCommitted (args : CommitArgs) (s s' : KvShard) : Prop where
  shape : SameShape s s'
  state : s'.state = if args.shardUpdates = [] then args.shardState
    else ((lastNaming args.shardUpdates s).map (stateOfUpdate args.shardState)).getD s.state
  bytes : s'.bytes =
    ((lastWith args.shardUpdates s "bytes").map bytesOfUpdate).getD s.bytes
  storageUri : s'.storageUri =
    ((lastWith args.shardUpdates s "storage_uri").map storageUriOf).getD s.storageUri
  gpuResident : s'.gpuResident =
    ((lastWith args.shardUpdates s "gpu_resident").map residentOfUpdate).getD s.gpuResident
  metadata : s'.metadata =
    ((lastWith args.shardUpdates s "metadata").map metadataOfUpdate).getD s.metadata
  unnamed : args.shardUpdates ≠ [] →
    (∀ update ∈ args.shardUpdates, Named s.key update = false) → s' = s

/-- What a call on the object `k` leaves. -/
structure Committed (args : CommitArgs) (k : ObjKey) (db db' : KvDb) : Prop where
  readable : ∀ update ∈ args.shardUpdates, Readable update
  shards : db'.shards.rows =
    db.shards.rows.map (fun s => if s.key.object = k then committedShard args s else s)
  fields : ∀ s, ShardCommitted args s (committedShard args s)
  object : ∃ row, db.object? k = some row ∧ db'.object? k = some { row with
    totalBytes := ((db'.shardsOf k).map KvShard.bytes).sum
    state := objectState args.objectState (db'.shardsOf k)
    updatedAt := args.now
    lastUsedAt := args.now }
  objects : ∀ k' ≠ k, db'.object? k' = db.object? k'
  leases : db'.leases = db.leases

section Commit

variable {args : CommitArgs} {db db' : KvDb} {k : ObjKey}

theorem committedShard_fields (args : CommitArgs) (s : KvShard) :
    ShardCommitted args s (committedShard args s) := by
  unfold committedShard
  split
  · rename_i hempty
    constructor
    · exact ⟨rfl, rfl, rfl, rfl, rfl⟩
    · rw [if_pos hempty]
      rfl
    all_goals first
      | exact fun hne => absurd hempty hne
      | rw [lastWith, hempty]; rfl
  · rename_i hne
    exact {
      shape := updatedShard_shape args _ s
      state := by rw [if_neg hne, updatedShard_state]
      bytes := updatedShard_bytes args _ s
      storageUri := updatedShard_storageUri args _ s
      gpuResident := updatedShard_gpuResident args _ s
      metadata := updatedShard_metadata args _ s
      unnamed := fun _ h => updatedShard_unnamed args _ s h }

/-- With a shard there, the state that the code computes is one of the three. -/
theorem objectStateFromShards_eq (h : db.shardsOf k ≠ []) (requestedState : String) :
    objectStateFromShards db k requestedState = objectState requestedState (db.shardsOf k) := by
  unfold objectStateFromShards objectState
  have hstates : (db.shardsOf k).map KvShard.state ≠ [] := by simpa using h
  simp only [if_neg hstates, List.all_map, List.any_map]
  rfl

theorem Declared.shardsOf_ne_nil (hdb : Declared db) {row : KvObject} (h : db.object? k = some row) :
    db.shardsOf k ≠ [] := by
  obtain ⟨hrow, rfl⟩ := Table.find?_some h
  obtain ⟨s, hs, hobject⟩ := List.mem_map.mp (hdb row.key (List.mem_map_of_mem hrow))
  have hmem : s ∈ db.shardsOf row.key := Table.mem_select.mpr ⟨hs, by simpa using hobject⟩
  exact List.ne_nil_of_mem hmem

/-- The rows of the shards after the updates of the call. -/
theorem afterUpdates_rows (h : db.afterUpdates args k = .ok db') :
    db'.shards.rows =
        db.shards.rows.map (fun s => if s.key.object = k then committedShard args s else s) ∧
      db'.objects = db.objects ∧ db'.leases = db.leases := by
  unfold KvDb.afterUpdates at h
  split at h
  · rename_i hempty
    rw [hempty] at h
    cases h
    refine ⟨List.map_congr_left (fun s _ => ?_), rfl, rfl⟩
    simp only [committedShard, hempty, if_true, Bool.and_true, decide_eq_true_eq]
  · rename_i hne
    obtain ⟨hrows, hobjects, hleases⟩ := applyUpdates_ok h
    refine ⟨?_, hobjects, hleases⟩
    rw [hrows]
    refine List.map_congr_left (fun s _ => ?_)
    rw [committedShard, if_neg hne]

theorem committed_of_ok (hdb : Declared db) (h : externalKvCommitShards args db = .ok db') :
    ∃ k, args.key.normalize = .ok k ∧ Committed args k db db' := by
  obtain ⟨k, hk, h⟩ := bind_eq_ok h
  obtain ⟨row, hrow, h⟩ := bind_eq_ok h
  obtain ⟨db₂, hupdates, h⟩ := bind_eq_ok h
  obtain ⟨hrows, hobjects, hleases⟩ := afterUpdates_rows hupdates
  cases h
  have hobject : ∀ k', db₂.object? k' = db.object? k' := by
    intro k'
    rw [KvDb.object?, hobjects]
    rfl
  have hne : db₂.shardsOf k ≠ [] :=
    ((afterUpdates_sameKeys hupdates).declared hdb).shardsOf_ne_nil
      ((hobject k).trans (required_ok hrow))
  refine ⟨k, hk, applyUpdates_readable hupdates, hrows, committedShard_fields args, ⟨row, required_ok hrow, ?_⟩, ?_, hleases⟩
  · rw [object?_updateObject, hobject, required_ok hrow, Option.map_some, if_pos rfl,
      objectStateFromShards_eq hne]
    rfl
  · intro k' hk'
    rw [object?_updateObject, hobject]
    have hother : ¬ k = k' := fun h => hk' h.symm
    simp only [if_neg hother, Option.map_id']

/-- In every reachable state: a commit of shard updates raises, and the tables are as they were, or it
leaves the object as the last updates say. -/
theorem commit_shards (ops : List StoreOp) (args : CommitArgs) :
    let db := run StoreOp.next ops KvDb.empty
    (∃ e, externalKvCommitShards args db = .error e ∧ KvOp.next (.commit args) db = db) ∨
      ∃ k db', args.key.normalize = .ok k ∧ externalKvCommitShards args db = .ok db' ∧
        KvOp.next (.commit args) db = db' ∧ Committed args k db db' := by
  intro db
  cases h : externalKvCommitShards args db with
  | error e =>
    refine Or.inl ⟨e, rfl, ?_⟩
    simp only [KvOp.next, KvOp.apply, h]
  | ok db' =>
    obtain ⟨k, hk, hcommitted⟩ := committed_of_ok (declared_run ops) h
    refine Or.inr ⟨k, db', hk, rfl, ?_, hcommitted⟩
    simp only [KvOp.next, KvOp.apply, h]

/-- A commit of a negative size on the one shard of the example object. -/
def commitNegative : CommitArgs where
  key := exampleKey
  objectState := "available"
  shardState := "ready_on_ssd"
  shardUpdates := [[("node_id", .str "a"), ("bytes", .int (-5))]]
  now := 1

def negativeCommitted : KvDb := KvOp.next (.commit commitNegative) (declare.next KvDb.empty)

/-- A negative size is stored as zero, so the field is not the value of the update. -/
theorem negative_bytes_clamped : ¬ ∀ (ops : List StoreOp) (args : CommitArgs) (db' : KvDb) (k : ObjKey)
    (s : KvShard) (update : JsonObj) (value : Int),
    args.key.normalize = .ok k →
      externalKvCommitShards args (run StoreOp.next ops KvDb.empty) = .ok db' → s ∈ db'.shardsOf k →
        lastWith args.shardUpdates s "bytes" = some update →
          update.get? "bytes" = some (.int value) → s.bytes = value := by
  intro h
  have hbytes := h [.call declare] commitNegative negativeCommitted exampleKey
    ((negativeCommitted.shardsOf exampleKey).head (by decide +kernel))
    [("node_id", .str "a"), ("bytes", .int (-5))] (-5) rfl rfl (List.head_mem _) rfl rfl
  exact absurd hbytes (by decide +kernel)

end Commit

end ExternalKv

end Ds4Spark
