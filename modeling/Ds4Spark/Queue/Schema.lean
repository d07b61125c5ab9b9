import Ds4Spark.Json
import Ds4Spark.Lib.Table

/-!
# Ds4Spark.Queue.Schema

The tables of `queue.sqlite3` that the inference queue works on (`InferenceQueue._init_db`), and
the two writes every operation ends with: the event log (`_event`) and the batch counts
(`_refresh_batch`).

Times are Python floats read as exact rationals. A JSON text column holds the value it encodes.
-/

namespace Ds4Spark
namespace Queue

abbrev Time := Rat

/-- What an operation raises. -/
inductive Error where
  | valueError (message : String)
  | integrityError (column : String)
deriving DecidableEq

theorem bind_eq_ok {α β : Type} {x : Except Error α} {f : α → Except Error β} {b : β}
    (h : (x >>= f) = .ok b) : ∃ a, x = .ok a ∧ f a = .ok b := by
  cases x with
  | error e => cases h
  | ok a => exact ⟨a, rfl, h⟩

/-- `if c: raise ValueError(message)`. -/
def raiseIf (c : Prop) [Decidable c] (message : String) : Except Error Unit :=
  if c then .error (.valueError message) else .ok ()

theorem not_of_raiseIf {c : Prop} [Decidable c] {message : String} {u : Unit}
    (h : raiseIf c message = .ok u) : ¬ c := by
  intro hc
  rw [raiseIf, if_pos hc] at h
  cases h

/-- `int(x)`. -/
def asInt (x : Json) : Except Error Int :=
  match x.pyInt with
  | some i => .ok i
  | none => .error (.valueError "int() argument must be a number or the text of one")

inductive RequestState where
  | queued | prefilling | ready | running | completed | failed | cancelled
deriving DecidableEq, Repr

/-- `state in TERMINAL_STATES`. -/
def RequestState.isTerminal : RequestState → Bool
  | .completed | .failed | .cancelled => true
  | _ => false

def RequestState.name : RequestState → String
  | .queued => "queued" | .prefilling => "prefilling" | .ready => "ready" | .running => "running"
  | .completed => "completed" | .failed => "failed" | .cancelled => "cancelled"

inductive RequestKind where
  | model | cpu
deriving DecidableEq, Repr

/-- A row of `requests`; `selectedNodeIds` is `selected_node_ids_json`. -/
structure RequestRow where
  requestId : String
  batchId : String
  requestKind : RequestKind
  serviceName : Option String
  state : RequestState
  priority : Int
  immediate : Bool
  selectedProfileId : String
  selectedNodeId : Option String
  selectedServiceId : Option String
  selectedNodeIds : Option (List String)
  selectedComputeDomain : Option String
  computeLeaseId : Option String
  requestJson : JsonObj
  requestJsonHash : Option String
  resultJson : Option JsonObj
  error : Option String
  cancelRequested : Bool
  kvKey : Option String
  kvBytes : Nat
  kvShardCount : Nat
  kvShardBytes : Nat
  createdAt : Time
  updatedAt : Time
  readyAt : Option Time
  startedAt : Option Time
  completedAt : Option Time
  leaseId : Option String
  leasedBy : Option String
  leaseExpiresAt : Option Time
  heartbeatAt : Option Time
  attemptCount : Nat

inductive BatchState where
  | queued | prefilling | ready | running | completed | cancelled
  | completedWithFailures | completedWithCancelled
deriving DecidableEq, Repr

structure BatchRow where
  batchId : String
  state : BatchState
  requestCount : Nat
  queuedCount : Nat
  prefillingCount : Nat
  readyCount : Nat
  runningCount : Nat
  completedCount : Nat
  failedCount : Nat
  cancelledCount : Nat
  createdAt : Time
  updatedAt : Time

structure Event where
  eventId : Nat
  createdAt : Time
  requestId : String
  eventType : String
  state : RequestState
  payload : JsonObj

inductive KvState where
  | ready | idle
deriving DecidableEq, Repr

structure KvEntry where
  nodeId : String
  kvKey : String
  requestId : String
  bytes : Nat
  state : KvState
  lastUsedAt : Time
  createdAt : Time
  updatedAt : Time

structure KvShardEntry where
  serviceId : String
  nodeId : String
  kvKey : String
  requestId : String
  stageIndex : Int
  stageCount : Int
  layerStart : Option Int
  layerEnd : Option Int
  bytes : Nat
  state : KvState
  lastUsedAt : Time
  createdAt : Time
  updatedAt : Time

structure ComputeLease where
  computeDomain : String
  computeLeaseId : String
  serviceId : Option String
  leasedBy : String
  leaseExpiresAt : Time
  heartbeatAt : Time
  requestCount : Nat
  createdAt : Time
  updatedAt : Time

def KvEntry.key (e : KvEntry) : String × String := (e.nodeId, e.kvKey)

def KvShardEntry.key (e : KvShardEntry) : String × String × String := (e.serviceId, e.nodeId, e.kvKey)

structure Db where
  batches : Table BatchRow BatchRow.batchId
  requests : Table RequestRow RequestRow.requestId
  events : List Event
  kvEntries : Table KvEntry KvEntry.key
  kvShardEntries : Table KvShardEntry KvShardEntry.key
  computeLeases : Table ComputeLease ComputeLease.computeDomain

namespace Db

/-- The tables as `_init_db` creates them. -/
def empty : Db := ⟨.empty, .empty, [], .empty, .empty, .empty⟩

/-- `select * from requests where request_id=?`. -/
def request? (db : Db) (requestId : String) : Option RequestRow := db.requests.find? requestId

/-- `select * from requests where request_id=? and lease_id=? and state='running'`. -/
def running? (db : Db) (requestId leaseId : String) : Option RequestRow :=
  (db.request? requestId).filter (fun r => r.state = .running ∧ r.leaseId = some leaseId)

def updateRequests (db : Db) (p : RequestRow → Bool) (f : RequestRow → RequestRow)
    (hf : ∀ r, (f r).requestId = r.requestId) : Db :=
  { db with requests := db.requests.update p f hf }

/-- `_event`: the id is the next one of the autoincrement column. -/
def event (db : Db) (now : Time) (requestId eventType : String) (state : RequestState)
    (payload : JsonObj) : Db :=
  { db with
    events := db.events ++ [⟨db.events.length + 1, now, requestId, eventType, state, payload⟩] }

/-- `select count(*) from requests where batch_id=? and state=?`. -/
def stateCount (db : Db) (batchId : String) (state : RequestState) : Nat :=
  (db.requests.select (fun r => r.batchId = batchId ∧ r.state = state)).length

/-- The state `_refresh_batch` derives from the counts. -/
def batchState (db : Db) (batchId : String) : BatchState :=
  let count := db.stateCount batchId
  let terminal := count .completed + count .failed + count .cancelled
  let total := count .queued + count .prefilling + count .ready + count .running + terminal
  if total ≠ 0 ∧ count .completed = total then .completed
  else if total ≠ 0 ∧ count .cancelled = total then .cancelled
  else if total ≠ 0 ∧ terminal = total ∧ count .failed ≠ 0 then .completedWithFailures
  else if total ≠ 0 ∧ terminal = total then .completedWithCancelled
  else if count .running ≠ 0 then .running
  else if count .ready ≠ 0 then .ready
  else if count .prefilling ≠ 0 then .prefilling
  else .queued

def batchCounts (db : Db) (batchId : String) (now : Time) (b : BatchRow) : BatchRow :=
  let count := db.stateCount batchId
  { b with
    state := db.batchState batchId, updatedAt := now
    requestCount := count .queued + count .prefilling + count .ready + count .running
      + count .completed + count .failed + count .cancelled
    queuedCount := count .queued, prefillingCount := count .prefilling, readyCount := count .ready
    runningCount := count .running, completedCount := count .completed, failedCount := count .failed
    cancelledCount := count .cancelled }

/-- `_refresh_batch`. -/
def refreshBatch (db : Db) (now : Time) (batchId : String) : Db :=
  { db with
    batches := db.batches.update (fun b => b.batchId = batchId) (db.batchCounts batchId now)
      (fun _ => rfl) }

/-- `for bid in batch_ids: self._refresh_batch(conn, bid)`; the order does not matter. -/
def refreshBatches (db : Db) (now : Time) (batchIds : List String) : Db :=
  batchIds.foldl (fun db bid => db.refreshBatch now bid) db

end Db

/-! ## What the shared writes leave alone -/

section Frame

variable (db : Db) (now : Time)

@[simp] theorem refreshBatch_requests (b : String) : (db.refreshBatch now b).requests = db.requests := rfl
@[simp] theorem refreshBatch_events (b : String) : (db.refreshBatch now b).events = db.events := rfl
@[simp] theorem refreshBatch_kvEntries (b : String) : (db.refreshBatch now b).kvEntries = db.kvEntries := rfl
@[simp] theorem refreshBatch_kvShardEntries (b : String) :
    (db.refreshBatch now b).kvShardEntries = db.kvShardEntries := rfl
@[simp] theorem refreshBatch_computeLeases (b : String) :
    (db.refreshBatch now b).computeLeases = db.computeLeases := rfl

variable (bs : List String)

theorem refreshBatches_eq : ∃ b, db.refreshBatches now bs = { db with batches := b } := by
  induction bs generalizing db with
  | nil => exact ⟨db.batches, rfl⟩
  | cons b bs ih =>
    obtain ⟨bt, h⟩ := ih (db.refreshBatch now b)
    exact ⟨bt, h⟩

@[simp] theorem refreshBatches_requests : (db.refreshBatches now bs).requests = db.requests := by
  obtain ⟨b, h⟩ := refreshBatches_eq db now bs; rw [h]

@[simp] theorem refreshBatches_events : (db.refreshBatches now bs).events = db.events := by
  obtain ⟨b, h⟩ := refreshBatches_eq db now bs; rw [h]

@[simp] theorem refreshBatches_kvEntries : (db.refreshBatches now bs).kvEntries = db.kvEntries := by
  obtain ⟨b, h⟩ := refreshBatches_eq db now bs; rw [h]

@[simp] theorem refreshBatches_kvShardEntries :
    (db.refreshBatches now bs).kvShardEntries = db.kvShardEntries := by
  obtain ⟨b, h⟩ := refreshBatches_eq db now bs; rw [h]

@[simp] theorem refreshBatches_computeLeases :
    (db.refreshBatches now bs).computeLeases = db.computeLeases := by
  obtain ⟨b, h⟩ := refreshBatches_eq db now bs; rw [h]

end Frame

end Queue
end Ds4Spark
