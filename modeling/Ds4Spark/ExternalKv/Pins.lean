import Ds4Spark.ExternalKv.Store
import Ds4Spark.Lib.Run

/-!
# Ds4Spark.ExternalKv.Pins

The pin count of an object against the calls that were committed on it, and what eviction spares.

* `bump`: what a committed call makes of the count; `pinsAlong` folds it over a run.
* `pins_kept`: in every run, the column is that fold.
* `evict_spares_pinned`: while the fold is positive, no eviction changes the object or its shards. A
  lease is not looked at: `leased_evicted`.
-/

namespace Ds4Spark
namespace ExternalKv

open Queue (Error Time bind_eq_ok not_of_raiseIf)

inductive KvOp where
  | upsert (args : UpsertArgs)
  | touch (args : TouchArgs)
  | lease (args : LeaseArgs)
  | release (leaseId : String)
  | transition (args : TransitionArgs)
  | pin (args : PinArgs)
  | evict (args : EvictArgs)
  | commit (args : CommitArgs)

namespace KvOp

def apply : KvOp → KvDb → Except Error KvDb
  | .upsert args => upsertExternalKvObject args
  | .touch args => externalKvTouch args
  | .lease args => externalKvLease args
  | .release leaseId => externalKvRelease leaseId
  | .transition args => externalKvTransition args
  | .pin args => externalKvPin args
  | .evict args => externalKvEvict args
  | .commit args => externalKvCommitShards args

/-- An error rolls back. -/
def next (op : KvOp) (db : KvDb) : KvDb :=
  match op.apply db with
  | .ok db' => db'
  | .error _ => db

end KvOp

/-- Whether a call names the object `k`. -/
def names (key k : ObjKey) : Bool := key.normalize.toOption.any (fun k' => k' = k)

/-- What a committed call makes of the pins of `k`; `none` while there is no such object. -/
def bump (k : ObjKey) : KvOp → Option Int → Option Int
  | .upsert args, n => if names args.key k then some (max 0 args.pinCount) else n
  | .pin args, n => if names args.key k then n.map (fun n => max 0 (n + args.delta)) else n
  | _, n => n

/-- The fold of `bump` over the calls of a run that were committed. -/
def pinsAlong (k : ObjKey) : List KvOp → KvDb → Option Int → Option Int
  | [], _, n => n
  | op :: ops, db, n =>
    pinsAlong k ops (op.next db) (if (op.apply db).isOk then bump k op n else n)

def KvDb.pins (db : KvDb) (k : ObjKey) : Option Int := (db.object? k).map KvObject.pinCount

/-! ## What the writes do to the pins -/

section Writes

variable {db db' : KvDb} {k k' : ObjKey} {f : KvObject → KvObject} {hf : ∀ r, (f r).key = r.key}

theorem names_iff {key : ObjKey} (hkey : key.normalize = .ok k') : names key k = decide (k' = k) := by
  simp only [names, hkey, Except.toOption, Option.any_some]

theorem object?_updateObject : (db.updateObject k' f hf).object? k =
    (db.object? k).map (fun r => if k' = k then f r else r) := by
  rw [KvDb.object?, KvDb.updateObject, Table.find?_update]
  cases h : db.objects.find? k with
  | none => simp only [KvDb.object?, h, Option.map_none]
  | some r =>
    have hr : r.key = k := (Table.find?_some h).2
    simp only [KvDb.object?, h, Option.map_some, hr, decide_eq_true_eq, @eq_comm _ k k']

@[simp] theorem object?_updateShards {p : KvShard → Bool} {g : KvShard → KvShard}
    {hg : ∀ r, (g r).key = r.key} : (db.updateShards k' p g hg).object? k = db.object? k := rfl

@[simp] theorem object?_touchShards {now : Time} : (db.touchShards k' now).object? k = db.object? k :=
  rfl

/-- An update that leaves the pin column alone leaves all pins alone. -/
theorem pins_updateObject (h : ∀ r, (f r).pinCount = r.pinCount) :
    (db.updateObject k' f hf).pins k = db.pins k := by
  rw [KvDb.pins, object?_updateObject, KvDb.pins, Option.map_map]
  congr 1
  funext r
  simp only [Function.comp_apply]
  split
  · exact h r
  · rfl

theorem pins_setPins {n : Int} {now : Time} :
    (db.setPins k' n now).pins k = (db.pins k).map (fun m => if k' = k then n else m) := by
  rw [KvDb.pins, KvDb.setPins, object?_updateObject, KvDb.pins, Option.map_map, Option.map_map]
  congr 1
  funext r
  simp only [Function.comp_apply]
  split <;> rfl

theorem required_ok {row : KvObject} (h : db.required k = .ok row) : db.object? k = some row := by
  unfold KvDb.required at h
  split at h
  · rename_i hrow
    cases h
    exact hrow
  · cases h

theorem pins_updateExternalKvShard {update : JsonObj} {state : String} {now : Time} {changed : Nat}
    (h : updateExternalKvShard k' update state now db = .ok (db', changed)) :
    db'.object? k = db.object? k := by
  obtain ⟨_, _, h⟩ := bind_eq_ok h
  obtain ⟨_, _, h⟩ := bind_eq_ok h
  obtain ⟨_, _, h⟩ := bind_eq_ok h
  cases h
  rfl

theorem pins_applyUpdates {args : CommitArgs} {updates : List JsonObj}
    (h : applyUpdates args k' updates db = .ok db') : db'.object? k = db.object? k := by
  induction updates generalizing db with
  | nil =>
    cases h
    rfl
  | cons update updates ih =>
    obtain ⟨⟨db₁, changed⟩, hupdate, h⟩ := bind_eq_ok h
    obtain ⟨_, _, h⟩ := bind_eq_ok h
    rw [ih h, pins_updateExternalKvShard hupdate]

end Writes

/-! ## What a committed call does to the pins -/

section Calls

variable {db db' : KvDb} {k : ObjKey}

theorem upsert_pins {args : UpsertArgs} (h : upsertExternalKvObject args db = .ok db') :
    db'.pins k = bump k (.upsert args) (db.pins k) := by
  obtain ⟨k', hkey, h⟩ := bind_eq_ok h
  obtain ⟨_, _, h⟩ := bind_eq_ok h
  obtain ⟨_, _, h⟩ := bind_eq_ok h
  obtain ⟨_, _, h⟩ := bind_eq_ok h
  cases h
  simp only [KvDb.pins, KvDb.object?, Table.find?_replace, bump, names_iff hkey,
    decide_eq_true_eq, @eq_comm _ k' k]
  split <;> rfl

theorem touch_pins {args : TouchArgs} (h : externalKvTouch args db = .ok db') :
    db'.pins k = db.pins k := by
  obtain ⟨k', _, h⟩ := bind_eq_ok h
  obtain ⟨row, _, h⟩ := bind_eq_ok h
  cases h
  rw [KvDb.pins, object?_touchShards]
  exact pins_updateObject (fun _ => rfl)

theorem lease_pins {args : LeaseArgs} (h : externalKvLease args db = .ok db') :
    db'.pins k = db.pins k := by
  obtain ⟨k', _, h⟩ := bind_eq_ok h
  obtain ⟨_, _, h⟩ := bind_eq_ok h
  obtain ⟨row, _, h⟩ := bind_eq_ok h
  dsimp only at h
  split at h
  · cases h
  · cases h
    rw [KvDb.pins, object?_touchShards]
    exact pins_updateObject (fun _ => rfl)

theorem transition_pins {args : TransitionArgs} (h : externalKvTransition args db = .ok db') :
    db'.pins k = db.pins k := by
  obtain ⟨k', _, h⟩ := bind_eq_ok h
  obtain ⟨row, _, h⟩ := bind_eq_ok h
  dsimp only at h
  split at h
  · cases h
    exact pins_updateObject (fun _ => rfl)
  · cases h
    rw [KvDb.pins, object?_updateShards]
    exact pins_updateObject (fun _ => rfl)

theorem pin_pins {args : PinArgs} (h : externalKvPin args db = .ok db') :
    db'.pins k = bump k (.pin args) (db.pins k) := by
  obtain ⟨k', hkey, h⟩ := bind_eq_ok h
  obtain ⟨row, hrow, h⟩ := bind_eq_ok h
  cases h
  rw [pins_setPins]
  simp only [bump, names_iff hkey, decide_eq_true_eq]
  split
  · rename_i hk
    subst hk
    simp only [KvDb.pins, required_ok hrow, Option.map_some]
  · rw [Option.map_id']

theorem evict_pins {args : EvictArgs} (h : externalKvEvict args db = .ok db') :
    db'.pins k = db.pins k := by
  obtain ⟨k', _, h⟩ := bind_eq_ok h
  split at h
  · cases h
    rfl
  · obtain ⟨_, _, h⟩ := bind_eq_ok h
    cases h
    rw [KvDb.pins, KvDb.markEvicted, object?_updateShards]
    exact pins_updateObject (fun _ => rfl)

theorem commit_pins {args : CommitArgs} (h : externalKvCommitShards args db = .ok db') :
    db'.pins k = db.pins k := by
  obtain ⟨k', _, h⟩ := bind_eq_ok h
  obtain ⟨row, _, h⟩ := bind_eq_ok h
  obtain ⟨db₂, hupdates, h⟩ := bind_eq_ok h
  cases h
  refine Eq.trans (pins_updateObject ?_) ?_
  · exact fun _ => rfl
  · rw [KvDb.pins, pins_applyUpdates hupdates]
    split <;> rfl

/-- A committed call changes the pins of an object as `bump` says. -/
theorem apply_pins {op : KvOp} (h : op.apply db = .ok db') : db'.pins k = bump k op (db.pins k) := by
  cases op with
  | upsert args => exact upsert_pins h
  | touch args => exact touch_pins h
  | lease args => exact lease_pins h
  | release leaseId =>
    cases h
    rfl
  | transition args => exact transition_pins h
  | pin args => exact pin_pins h
  | evict args => exact evict_pins h
  | commit args => exact commit_pins h

/-- In every run, the pin column is the fold over the calls that were committed. -/
theorem pins_kept (k : ObjKey) (ops : List KvOp) (db : KvDb) :
    (run KvOp.next ops db).pins k = pinsAlong k ops db (db.pins k) := by
  induction ops generalizing db with
  | nil => rfl
  | cons op ops ih =>
    rw [run_cons, ih, pinsAlong]
    congr 1
    unfold KvOp.next
    cases h : op.apply db with
    | error e => rfl
    | ok db' => exact apply_pins h

end Calls

/-! ## Eviction -/

section Evict

variable {db : KvDb} {k : ObjKey}

/-- What is stored of an object: its row and its shards. -/
structure Spared (k : ObjKey) (db db' : KvDb) : Prop where
  object : db'.object? k = db.object? k
  shards : db'.shardsOf k = db.shardsOf k

theorem shardsOf_updateShards_of_ne {k' : ObjKey} (hne : k' ≠ k) {p : KvShard → Bool}
    {g : KvShard → KvShard} {hg : ∀ r, (g r).key = r.key} :
    (db.updateShards k' p g hg).shardsOf k = db.shardsOf k := by
  simp only [KvDb.shardsOf, KvDb.updateShards, Table.select, Table.update]
  rw [List.filter_map]
  have hkey : (fun s : KvShard => decide (s.key.object = k)) ∘
      (fun r => if (decide (r.key.object = k') && p r) = true then g r else r) =
        fun s => decide (s.key.object = k) := by
    funext r
    simp only [Function.comp_apply]
    split
    · rw [hg r]
    · rfl
  rw [hkey]
  refine Eq.trans (List.map_congr_left (fun r hr => ?_)) (List.map_id _)
  have hobject : r.key.object = k := by simpa using (List.mem_filter.mp hr).2
  have hne' : ¬ k = k' := fun h => hne h.symm
  simp [hobject, hne']

/-- Marking another object evicted leaves `k` alone. -/
theorem markEvicted_spared {k' : ObjKey} (hne : k' ≠ k) (reason : String) (now : Time) :
    Spared k db (db.markEvicted k' reason now) where
  object := by
    rw [KvDb.markEvicted, object?_updateShards, object?_updateObject]
    cases db.object? k with
    | none => rfl
    | some r => rw [Option.map_some, if_neg hne]
  shards := by
    rw [KvDb.markEvicted, shardsOf_updateShards_of_ne hne]
    rfl

/-- An eviction of anything leaves an object with pins alone. -/
theorem evict_spared {n : Int} (hpins : db.pins k = some n) (hn : 0 < n) (args : EvictArgs) :
    Spared k db (KvOp.next (.evict args) db) := by
  unfold KvOp.next
  split
  · rename_i db' h
    obtain ⟨k', _, h⟩ := bind_eq_ok h
    split at h
    · cases h
      exact ⟨rfl, rfl⟩
    · rename_i row hrow
      obtain ⟨_, hfree, h⟩ := bind_eq_ok h
      cases h
      refine markEvicted_spared ?_ _ _
      -- the object itself has pins, so its eviction has raised
      rintro rfl
      rw [KvDb.pins, hrow, Option.map_some, Option.some.injEq] at hpins
      have := not_of_raiseIf hfree
      omega
  · exact ⟨rfl, rfl⟩

end Evict

section Leases

/-- The database with other leases. -/
def KvDb.withLeases (db : KvDb) (leases : Table KvLease KvLease.leaseId) : KvDb :=
  { db with leases := leases }

/-- Eviction neither reads nor writes a lease. -/
theorem evict_withLeases (args : EvictArgs) (db : KvDb) (leases : Table KvLease KvLease.leaseId) :
    KvOp.next (.evict args) (db.withLeases leases) =
      (KvOp.next (.evict args) db).withLeases leases := by
  simp only [KvOp.next, KvOp.apply, externalKvEvict]
  cases hkey : args.key.normalize with
  | error e => rfl
  | ok k =>
    simp only [bind, Except.bind]
    have hobject : (db.withLeases leases).object? k = db.object? k := rfl
    rw [hobject]
    cases db.object? k with
    | none => rfl
    | some row =>
      by_cases hpinned : row.pinCount > 0
      · simp only [Queue.raiseIf, if_pos hpinned]
      · simp only [Queue.raiseIf, if_neg hpinned]
        rfl

end Leases

/-- In every run from the empty tables: while the calls that were committed on an object leave it
pinned, no eviction changes its row or its shards. The leases play no part. -/
theorem evict_spares_pinned (k : ObjKey) (ops : List KvOp) {n : Int}
    (hpins : pinsAlong k ops KvDb.empty none = some n) (hn : 0 < n) (args : EvictArgs) :
    Spared k (run KvOp.next ops KvDb.empty) (run KvOp.next (ops ++ [.evict args]) KvDb.empty) ∧
      ∀ leases, KvOp.next (.evict args) ((run KvOp.next ops KvDb.empty).withLeases leases) =
        (run KvOp.next (ops ++ [.evict args]) KvDb.empty).withLeases leases := by
  rw [run_append]
  have hkept : (run KvOp.next ops KvDb.empty).pins k = some n := by
    rw [pins_kept, ← hpins]
    rfl
  exact ⟨evict_spared hkept hn args, fun leases => evict_withLeases args _ leases⟩

/-! An object `k` of a service `s`, declared with one shard. -/

def exampleKey : ObjKey := ⟨"default", "k", "s"⟩

def declare : KvOp :=
  .upsert {
    key := exampleKey, profileId := none, modelId := none, owner := none, contentHash := none
    totalBytes := 8, totalTokens := 1, state := "declared", pinCount := 0, priority := 100
    ttlS := none, metadata := [], shards := [[("node_id", .str "a")]], now := 0 }

theorem evict_spares_pinned_once :
    pinsAlong exampleKey [declare, .pin ⟨exampleKey, 1, 1⟩] KvDb.empty none = some 1 ∧
      Spared exampleKey (run KvOp.next [declare, .pin ⟨exampleKey, 1, 1⟩] KvDb.empty)
        (run KvOp.next ([declare, .pin ⟨exampleKey, 1, 1⟩] ++ [.evict ⟨exampleKey, "", 2⟩])
          KvDb.empty) := by
  have hpins : pinsAlong exampleKey [declare, .pin ⟨exampleKey, 1, 1⟩] KvDb.empty none = some 1 := by
    decide +kernel
  exact ⟨hpins, (evict_spares_pinned exampleKey _ hpins (by decide) ⟨exampleKey, "", 2⟩).1⟩

/-- A lease is open on the object. -/
def Leased (k : ObjKey) (now : Time) (db : KvDb) : Bool :=
  (db.leasesOf k).any (fun l => decide (now < l.expiresAt))

def KvDb.stateOf (db : KvDb) (k : ObjKey) : Option String := (db.object? k).map KvObject.state

/-- An object under an open lease is moved to `evicted`. -/
theorem leased_evicted : ¬ ∀ (k : ObjKey) (ops : List KvOp) (args : EvictArgs),
    Leased k args.now (run KvOp.next ops KvDb.empty) = true →
      (run KvOp.next ops KvDb.empty).stateOf k ≠ some "evicted" →
        (run KvOp.next (ops ++ [.evict args]) KvDb.empty).stateOf k ≠ some "evicted" := by
  intro h
  have hstate := h exampleKey [declare, .lease ⟨exampleKey, "kvlease-1", none, "read", 300, 1⟩]
    ⟨exampleKey, "", 2⟩ (by decide +kernel) (by decide +kernel)
  exact hstate (by decide +kernel)

end ExternalKv

end Ds4Spark
