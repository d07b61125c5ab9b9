import Ds4Spark.Queue.Effects
import Ds4Spark.Queue.System

/-!
# Ds4Spark.Queue.PrepareProgress

Whether `prepare_ready` makes a request ready. It reads as many queued rows as it may make ready, and only
then tries to reserve their KV: a row that does not fit is skipped, but the row behind the last one
read is never tried.

* `matchingRows`: the queued rows that meet the filters of a call, in its order; it reads the first
  `remaining` of them.
* `prepareLoop_makes_iff`: the loop makes a row ready exactly when one of its rows can be reserved.
* `prepareReady_progress_iff`: progress exactly where a row that was read can be reserved, when any can.
-/

namespace Ds4Spark
namespace Queue

/-- The queued rows that meet the filters, in `(priority, created_at, request_id)` order. -/
def Db.matchingRows (db : Db) (args : PrepareArgs) : List RequestRow :=
  (db.requests.select (fun r => r.state = .queued ∧
      (args.scope.nodeId = none ∨ r.selectedNodeId = none ∨ r.selectedNodeId = args.scope.nodeId) ∧
      (args.eligibleProfileIds = [] ∨ r.selectedProfileId ∈ args.eligibleProfileIds) ∧
      db.inScope args.scope r)).insertionSort (fun a b => queuedBefore a b)

/-- The KV of the row can be reserved in this state. -/
def Reservable (db : Db) (args : PrepareArgs) (row : RequestRow) : Prop :=
  db.reserveKv row (bindNodeId args row) args.kvCapacityBytes args.now (args.layout row) ≠ none

/-- The node of the call is below its depth. -/
def HasRoom (db : Db) (args : PrepareArgs) : Prop :=
  ∀ node, args.scope.nodeId = some node → 0 < args.maxNodeDepth →
    (db.nodeDepth node : Int) < args.maxNodeDepth

section Progress

variable {db db' : Db} {args : PrepareArgs} {row : RequestRow}

theorem remaining_pos (hlimit : 1 ≤ args.limit) (hroom : HasRoom db args) : 0 < db.remaining args := by
  unfold Db.remaining
  split
  · rename_i node hnode
    split
    · rename_i hdepth
      have := hroom node hnode hdepth
      omega
    · omega
  · omega

theorem queuedRows_eq_take (hpos : 0 < db.remaining args) :
    db.queuedRows args.scope args.eligibleProfileIds (db.remaining args) =
      (db.matchingRows args).take (db.remaining args).toNat := by
  have hmax : max 1 (db.remaining args) = db.remaining args := by omega
  rw [Db.queuedRows, hmax]
  rfl

theorem mem_matchingRows (h : row ∈ db.matchingRows args) :
    db.request? row.requestId = some row ∧ row.state = .queued := by
  rw [Db.matchingRows, List.mem_insertionSort, Table.mem_select] at h
  obtain ⟨hrow, hmatch⟩ := h
  exact ⟨Table.find?_of_mem hrow, (of_decide_eq_true hmatch).1⟩

/-! ## Only the KV tables decide -/

theorem shardEvictions_congr (h : db'.kvShardEntries = db.kvShardEntries) (service : String)
    (capacity : Int) (shards : List Shard) :
    db'.shardEvictions service capacity shards = db.shardEvictions service capacity shards := by
  induction shards with
  | nil => rfl
  | cons s ss ih => simp only [Db.shardEvictions, Db.kvShardVictims, h, ih]

theorem reserveKv_none_congr (hentries : db'.kvEntries = db.kvEntries)
    (hshards : db'.kvShardEntries = db.kvShardEntries) (nodeId : Option String) (capacity : Int)
    (now : Time) (layout : Option Layout) :
    db'.reserveKv row nodeId capacity now layout = none ↔
      db.reserveKv row nodeId capacity now layout = none := by
  simp only [Db.reserveKv, Db.reservePipelineKv, Db.reserveLegacyKv, Db.kvVictims, hentries,
    shardEvictions_congr hshards]
  split
  · simp
  · split
    · split
      · simp
      · split <;> simp
    · split
      · simp
      · split <;> simp

/-- A row that waits changes no KV table, so what could be reserved still can. -/
theorem capacityWait_reservable {other : RequestRow} :
    Reservable (db.capacityWait args other) args row ↔ Reservable db args row := by
  unfold Reservable
  rw [Ne, Ne, @reserveKv_none_congr db]
  · rfl
  · rfl

/-! ## The loop -/

/-- The loop makes a row ready exactly when one of its rows can be reserved at its start: the rows
before the first such one only wait. -/
theorem prepareLoop_makes_iff (rows : List RequestRow) (n : Nat)
    (hrows : ∀ r ∈ rows, db.request? r.requestId = some r ∧ r.state = .queued) :
    1 ≤ (prepareLoop args n rows db).2.length ↔ ∃ r ∈ rows, Reservable db args r := by
  induction rows generalizing n db with
  | nil => simp [prepareLoop]
  | cons row rows ih =>
    obtain ⟨hrow, hqueued⟩ := hrows row List.mem_cons_self
    cases hres : db.reserveKv row (bindNodeId args row) args.kvCapacityBytes args.now (args.layout row) with
    | some db₁ =>
      have hreservable : Reservable db args row := by
        rw [Reservable, hres]
        exact Option.some_ne_none _
      rw [prepareLoop, prepareRow_ready _ hrow hqueued hres]
      exact iff_of_true (by simp) ⟨row, List.mem_cons_self, hreservable⟩
    | none =>
      have hwaits : ¬ Reservable db args row := not_not.mpr hres
      have hrest : ∀ r ∈ rows, (db.capacityWait args row).request? r.requestId = some r ∧
          r.state = .queued := fun r hr => hrows r (List.mem_cons_of_mem _ hr)
      rw [prepareLoop, prepareRow_waits _ hres, List.exists_mem_cons_iff, or_iff_right hwaits]
      simp only [Bool.false_eq_true, if_false]
      rw [ih (n + 1) hrest]
      simp only [capacityWait_reservable]

/-- For a state with room and a limit of one at least: when some request that matches the call could have
its KV reserved, the call makes one ready, exactly if none can, or one of the first `remaining` requests
in the order of the call can. -/
theorem prepareReady_progress_iff (db : Db) (args : PrepareArgs) (hlimit : 1 ≤ args.limit)
    (hroom : HasRoom db args) :
    ((∃ row ∈ db.matchingRows args, Reservable db args row) → 1 ≤ (prepareReady args db).2) ↔
      (∀ row ∈ db.matchingRows args, ¬ Reservable db args row) ∨
        ∃ row ∈ (db.matchingRows args).take (db.remaining args).toNat, Reservable db args row := by
  have hpos := remaining_pos hlimit hroom
  have hmade : 1 ≤ (prepareReady args db).2 ↔
      ∃ row ∈ (db.matchingRows args).take (db.remaining args).toNat, Reservable db args row := by
    rw [← prepareLoop_makes_iff _ 0
      (fun r hr => mem_matchingRows (List.mem_of_mem_take hr)), ← queuedRows_eq_take hpos]
    simp only [prepareReady, if_neg (not_le.mpr hpos)]
  rw [hmade]
  constructor
  · intro h
    by_cases hany : ∃ row ∈ db.matchingRows args, Reservable db args row
    · exact Or.inr (h hany)
    · exact Or.inl (fun row hrow hres => hany ⟨row, hrow, hres⟩)
  · rintro (hnone | hread) hany
    · obtain ⟨row, hrow, hres⟩ := hany
      exact absurd hres (hnone row hrow)
    · exact hread

/-- `big` needs 20 bytes and comes first, `small` needs 4. -/
def bigFirst : Db :=
  run Op.next [modelCall "a" ["big"] (kvInput "k" 20) none 0, modelCall "b" ["small"] (kvInput "j" 4) none 1]
    Db.empty

/-- A call for node `n` with a capacity of 10 bytes. -/
def prepareUpTo (limit : Int) : PrepareArgs where
  scope := { nodeId := some "n", batchId := none, rowsNow := 2 }
  eligibleProfileIds := ["p"]
  limit := limit
  leasedBy := "w"
  kvCapacityBytes := 10
  uuid := fun n => toString n
  now := 2

theorem prepareUpTo_hasRoom (limit : Int) : HasRoom bigFirst (prepareUpTo limit) :=
  fun _ _ hdepth => absurd hdepth (lt_irrefl 0)

theorem prepareReady_progress_iff_two :
    ((∃ row ∈ bigFirst.matchingRows (prepareUpTo 2), Reservable bigFirst (prepareUpTo 2) row) →
        1 ≤ (prepareReady (prepareUpTo 2) bigFirst).2) ↔
      (∀ row ∈ bigFirst.matchingRows (prepareUpTo 2), ¬ Reservable bigFirst (prepareUpTo 2) row) ∨
        ∃ row ∈ (bigFirst.matchingRows (prepareUpTo 2)).take
          (bigFirst.remaining (prepareUpTo 2)).toNat, Reservable bigFirst (prepareUpTo 2) row :=
  prepareReady_progress_iff bigFirst (prepareUpTo 2) (by decide) (prepareUpTo_hasRoom 2)

/-- With a limit of one, only `big` is read: it waits, and `small` with it. -/
theorem small_starved : ¬ ∀ (db : Db) (args : PrepareArgs), 1 ≤ args.limit → HasRoom db args →
    (∃ row ∈ db.matchingRows args, Reservable db args row) → 1 ≤ (prepareReady args db).2 := by
  intro h
  have hsmall : ∃ row ∈ bigFirst.matchingRows (prepareUpTo 1), (bigFirst.reserveKv row
      (bindNodeId (prepareUpTo 1) row) 10 2 ((prepareUpTo 1).layout row)).isSome = true := by
    decide +kernel
  obtain ⟨row, hrow, hres⟩ := hsmall
  have hmade := h bigFirst (prepareUpTo 1) (by decide) (prepareUpTo_hasRoom 1)
    ⟨row, hrow, Option.isSome_iff_ne_none.mp hres⟩
  exact absurd hmade (by decide +kernel)

end Progress

end Queue
end Ds4Spark
