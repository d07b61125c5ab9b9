import Ds4Spark.Lib.Run
import Ds4Spark.Queue.Settle
import Ds4Spark.Queue.Submit

/-!
# Ds4Spark.Queue.System

The queue as a machine: one `Op` is one call of one operation, with its arguments and the clock,
taken as an atomic step. A call that raises leaves the database as it was.

* `Op.next`: the step; a run is `run Op.next ops Db.empty`.
* `Reachable`: the states of such runs.
-/

namespace Ds4Spark
namespace Queue

inductive Op where
  | submitRequests (args : SubmitArgs)
  | submitCpuRequests (args : SubmitCpuArgs)
  | prepareReady (args : PrepareArgs)
  | claimReadyBatch (args : ClaimArgs)
  | finishRequest (args : FinishArgs)
  | retryTransportFailure (args : RetryArgs)
  | cancel (args : CancelArgs)
  | requeueExpiredLeases (args : ReapArgs)
  | heartbeat (args : HeartbeatArgs)
  | streamDelta (args : DeltaArgs)
  | releasePrefilling (reason : String) (staleS now : Time)
  | status (batchId : String) (now : Time)

/-- What a transaction leaves: its result, or the database before it when it raises. -/
def committed {α : Type} (db : Db) : Except Error (Db × α) → Db
  | .ok (db', _) => db'
  | .error _ => db

def Op.next : Op → Db → Db
  | .submitRequests args, db => committed db (Queue.submitRequests args db)
  | .submitCpuRequests args, db => committed db (Queue.submitCpuRequests args db)
  | .prepareReady args, db => (Queue.prepareReady args db).1
  | .claimReadyBatch args, db => (Queue.claimReadyBatch args db).1
  | .finishRequest args, db => committed db (Queue.finishRequest args db)
  | .retryTransportFailure args, db => (Queue.retryTransportFailure args db).1
  | .cancel args, db => committed db (Queue.cancel args db)
  | .requeueExpiredLeases args, db => (Queue.requeueExpiredLeases args db).1
  | .heartbeat args, db => (Queue.heartbeat args db).1
  | .streamDelta args, db => Queue.streamDelta args db
  | .releasePrefilling reason staleS now, db => (Queue.releasePrefilling reason staleS now db).1
  | .status batchId now, db => db.refreshBatch now batchId

/-- The states the queue can get into. -/
def Reachable (db : Db) : Prop := ∃ ops : List Op, db = run Op.next ops Db.empty

theorem Reachable.next {db : Db} (h : Reachable db) (op : Op) : Reachable (op.next db) := by
  obtain ⟨ops, rfl⟩ := h
  exact ⟨ops ++ [op], by simp [run_append]⟩

/-- What holds at first and is kept by every operation holds of every reachable state. -/
theorem Reachable.invariant (I : Db → Prop) (hinit : I Db.empty)
    (hstep : ∀ db (op : Op), I db → I (op.next db)) {db : Db} (h : Reachable db) : I db := by
  obtain ⟨ops, rfl⟩ := h
  have hall : Along Op.next (fun _ _ => True) ops Db.empty :=
    along_of_forall (fun _ _ => trivial) Db.empty
  exact hall.invariant I (fun db op _ hI => hstep db op hI) hinit

/-! ## Small calls, for runs on fixed inputs -/

/-- A batch of CPU requests with the given ids. -/
def cpuCall (ids : List String) (now : Time) : Op :=
  .submitCpuRequests {
    service := "echo", items := ids.map (fun id => [("custom_id", .str id)]), uuid := "b", now := now }

/-- A batch of model requests with the given ids and input, all assigned alike. -/
def modelCall (batchId : String) (ids : List String) (input : JsonObj)
    (assignment : Option SparkAssignment) (now : Time) : Op :=
  .submitRequests {
    requests := ids.map (fun id => ⟨id, none, false, false, none, "batch", input, none, []⟩)
    env := {
      resolve := fun _ => .ok "p"
      topology := assignment.map (fun a => ⟨true, fun _ _ _ => .ok a⟩), sha256Hex := id }
    batchId := some batchId, uuid := "u", now := now }

/-- An input with a KV key and a byte estimate. -/
def kvInput (key : String) (bytes : Int) : JsonObj :=
  [("kv_cache_key", .str key), ("kv_bytes_estimate", .int bytes)]

/-- A `prepare_ready` for one node, with a KV capacity. -/
def prepareCall (node : Option String) (capacity : Int) (now : Time) : Op :=
  .prepareReady {
    scope := { nodeId := node, batchId := none, rowsNow := now }, eligibleProfileIds := ["p"]
    limit := 10, leasedBy := "w", kvCapacityBytes := capacity, uuid := fun n => toString n, now := now }

/-- A claim of up to `limit` requests for a worker, with a lease of ten seconds. -/
def claimArgs (leasedBy : String) (limit : Int) (now : Time) : ClaimArgs where
  scope := { nodeId := none, batchId := none, rowsNow := now }
  limit := limit
  leasedBy := leasedBy
  leaseTtlS := 10
  uuid := fun n => toString n
  computeUuid := "c"
  now := now

/-- The queue after two CPU requests, `r` and `s`, are submitted and claimed. -/
def twoRunning : Db :=
  run Op.next [cpuCall ["r", "s"] 0, .claimReadyBatch (claimArgs "w" 2 1)] Db.empty

example : (twoRunning.request? "s").map (fun r => (r.state, r.leaseId)) =
    some (.running, some "w:run:1") := by decide +kernel

end Queue
end Ds4Spark
