import Ds4Spark.Json
import Ds4Spark.Lib.Modify
import Ds4Spark.Lib.Run

/-!
# Ds4Spark.Tools.CpuBatch

`CpuBatchService.run_batch`: the items of a batch on a pool of threads, with counters that all batches share.

A run is a list of actions: what a thread does between two points at which another one can go on, or time
passing. `next` leaves the state as it is when the action is not enabled.

* `runRow`, `timeoutRow`: the rows; `Batch.step`: what one action does to a batch.
* `State`, `next`: the service, its counters and its batches.
-/

namespace Ds4Spark
namespace Tools
namespace CpuBatch

/-! ## Rows -/

inductive Body where
  | response (response : JsonObj)
  | error (error : String)

structure Row where
  index : Nat
  customId : Option Json
  service : String
  ok : Bool
  body : Body
  elapsedS : Option Rat

/-- What a service does: a response, an `Exception` with its text, or an exception that is no `Exception`. -/
inductive Outcome where
  | returned (response : JsonObj)
  | raised (error : String)
  | fatal

def customIdOf (item : Json) : Json :=
  match item with
  | .obj item => (JsonObj.get? item "custom_id").getD .null
  | _ => .null

/-- What the service is given; `none` when `dict(..)` raises. -/
def requestOf (item : Json) : Option JsonObj :=
  match item with
  | .obj fields =>
    (Json.pyDict ((JsonObj.get? fields "request").getD (.obj fields))).map fun request =>
      JsonObj.erase (JsonObj.erase (JsonObj.erase request "custom_id") "metadata") "request"
  | _ => some []

/-- `bool(response.pop("_ok", True))`. -/
def okOf (response : JsonObj) : Bool := ((response.get? "_ok").getD (.bool true)).truthy

/-- The row of `_run_one`; without one it raises, since `result` is not bound. -/
def runRow (service : String) (index : Nat) (item : Json) (elapsedS : Rat) : Outcome → Option Row
  | .returned response => some ⟨index, some (customIdOf item), service, okOf response,
      .response (response.erase "_ok"), some elapsedS⟩
  | .raised error => some ⟨index, some (customIdOf item), service, false, .error error, some elapsedS⟩
  | .fatal => none

/-- Whether `self.failed` is counted up. -/
def Outcome.failed : Outcome → Bool
  | .returned response => !okOf response
  | .raised _ => true
  | .fatal => false

def timeoutRow (service : String) (index : Nat) : Row :=
  ⟨index, none, service, false, .error "CPU batch timeout", none⟩

/-- A row that belongs to item `index`: its own, or the one that says that its time is over. -/
def Row.For (row : Row) (service : String) (index : Nat) (item : Json) : Prop :=
  row.index = index ∧ row.service = service ∧
    (row.customId = some (customIdOf item) ∨ row = timeoutRow service index)

theorem runRow_for {service : String} {index : Nat} {item : Json} {elapsedS : Rat} {o : Outcome} {row : Row}
    (h : runRow service index item elapsedS o = some row) : row.For service index item := by
  cases o with
  | returned response =>
    cases h
    exact ⟨rfl, rfl, .inl rfl⟩
  | raised error =>
    cases h
    exact ⟨rfl, rfl, .inl rfl⟩
  | fatal => cases h

theorem timeoutRow_for (service : String) (index : Nat) (item : Json) :
    (timeoutRow service index).For service index item := ⟨rfl, rfl, .inr rfl⟩

/-! ## A batch -/

/-- `float(payload.get("timeout_s", 300))`. -/
inductive Timeout where
  | seconds (q : Rat)
  | infinity
  | minusInfinity
  | nan

/-- `end_time - time.monotonic() < 0`, where `end_time` was set at `since`. -/
def Timeout.passed (since now : Rat) : Timeout → Bool
  | .seconds q => decide (since + q - now < 0)
  | .minusInfinity => true
  | .infinity | .nan => false

/-- The wait is longer than a lock can wait for (`threading.TIMEOUT_MAX`): it raises an `OverflowError`. -/
def Timeout.overflows (timeoutMax since now : Rat) : Timeout → Bool
  | .seconds q => decide (timeoutMax < since + q - now)
  | .infinity => true
  | .minusInfinity | .nan => false

/-- What `normalize_batch` lets through. -/
structure Request where
  service : String
  items : List Json
  concurrency : Nat
  timeout : Timeout
  nonempty : items ≠ []
  positive : 1 ≤ concurrency

/-- Where an item's future stands, from the count of the pending items on. -/
inductive Stage where
  | counted
  | queued
  | acquiring
  | entered
  | running
  | released (o : Outcome)
  | left (o : Outcome)
  | done (row : Option Row)
  | cancelled
  | dropped

/-- `items[i]`, `futures[i]` and `results[i]`. -/
structure Slot where
  item : Json
  stage : Stage
  result : Option Row

/-- Where `run_batch` stands: at `futures[k]`, in `as_completed` since some time, at index `k` of the loop over the
futures after a timeout, with its cancelled future still counted, or at its end. -/
inductive Phase where
  | submitting (k : Nat)
  | collecting (since : Rat)
  | abandoning (k : Nat)
  | uncounting (k : Nat)
  | returned (rows : List Row)
  | raised (error : String)

structure Batch where
  request : Request
  slots : List Slot
  phase : Phase

/-- The items that `self.pending` counts. -/
def Stage.waiting : Stage → Bool
  | .counted | .queued | .acquiring | .entered | .cancelled => true
  | _ => false

/-- The items that `self.active` counts. -/
def Stage.working : Stage → Bool
  | .running | .released _ => true
  | _ => false

/-- The items that hold a thread of the pool. -/
def Stage.busy : Stage → Bool
  | .acquiring | .entered | .running | .released _ | .left _ => true
  | _ => false

/-- The items that hold the semaphore of their batch. -/
def Stage.holding : Stage → Bool
  | .entered | .running => true
  | _ => false

def Batch.count (b : Batch) (p : Stage → Bool) : Nat := (b.slots.map fun slot => (p slot.stage).toNat).sum

/-- `[result for result in results if result is not None]`. -/
def Batch.final (b : Batch) : List Row := b.slots.filterMap Slot.result

def Batch.setStage (b : Batch) (i : Nat) (slot : Slot) (stage : Stage) : Batch :=
  { b with slots := b.slots.set i { slot with stage := stage } }

def Batch.setResult (b : Batch) (i : Nat) (row : Row) : Batch :=
  { b with slots := b.slots.modify i fun slot => { slot with result := some row } }

inductive Act where
  | submit
  | begin_
  | collect (i : Nat)
  | finishLoop
  | timeout
  | overflow
  | abandon
  | uncount
  | conclude
  | take (i : Nat)
  | acquire (i : Nat)
  | count (i : Nat)
  | serve (i : Nat) (o : Outcome)
  | leave (i : Nat)
  | finish (i : Nat) (elapsedS : Rat)

/-- The thread of `run_batch` acts, not a thread of the pool. -/
def Act.own : Act → Bool
  | .submit | .begin_ | .collect _ | .finishLoop | .timeout | .overflow | .abandon | .uncount | .conclude => true
  | _ => false

/-- A thread of the pool moves the item of a slot on; `free` says that the pool has a thread for it. -/
def Batch.advance (b : Batch) (free : Bool) (i : Nat) (slot : Slot) : Act → Option Stage
  | .take _ =>
    match slot.stage with
    | .queued => if free then some .acquiring else none
    | _ => none
  | .acquire _ =>
    match slot.stage with
    | .acquiring => if b.count Stage.holding < b.request.concurrency then some .entered else none
    | _ => none
  | .count _ =>
    match slot.stage with
    | .entered => some .running
    | _ => none
  | .serve _ o =>
    match slot.stage with
    | .running => if (requestOf slot.item).isSome || o matches .raised _ then some (.released o) else none
    | _ => none
  | .leave _ =>
    match slot.stage with
    | .released o => some (.left o)
    | _ => none
  | .finish _ elapsedS =>
    match slot.stage with
    | .left o => some (.done (runRow b.request.service i slot.item elapsedS o))
    | _ => none
  | _ => none

/-- The item whose future a thread of the pool works on. -/
def Act.index : Act → Nat
  | .take i | .acquire i | .count i | .serve i _ | .leave i | .finish i _ => i
  | _ => 0

/-- What an action does to its batch. -/
def Batch.step (b : Batch) (timeoutMax now : Rat) (free : Bool) (a : Act) : Option Batch :=
  match a, b.phase with
  | .submit, .submitting k =>
    (b.slots[k]?).map fun slot => { b.setStage k slot .queued with phase := .submitting (k + 1) }
  | .begin_, .submitting k => if k = b.slots.length then some { b with phase := .collecting now } else none
  | .collect i, .collecting _ =>
    match b.slots[i]? with
    | some ⟨_, .done (some row), none⟩ => some (b.setResult row.index row)
    -- `future.result()` raises what `_run_one` raised
    | some ⟨_, .done none, none⟩ => some { b with phase := .raised "cannot access local variable 'result'" }
    | _ => none
  | .finishLoop, .collecting _ =>
    if b.slots.all (·.result.isSome) then some { b with phase := .returned b.final } else none
  | .timeout, .collecting since =>
    if b.slots.any (·.result.isNone) && b.request.timeout.passed since now then
      some { b with phase := .abandoning 0 }
    else none
  | .overflow, .collecting since =>
    -- it waits only when no future is done and not yet collected
    if b.slots.any (·.result.isNone) && b.slots.all (fun slot => !slot.stage matches .done _ || slot.result.isSome) &&
        b.request.timeout.overflows timeoutMax since now then
      some { b with phase := .raised "timeout value is too large" }
    else none
  | .abandon, .abandoning k =>
    match b.slots[k]? with
    | none => none
    | some slot =>
      if slot.result.isSome then some { b with phase := .abandoning (k + 1) }
      else
        match slot.stage with
        | .queued => some { b.setStage k slot .cancelled with phase := .uncounting k }
        | _ => some { b.setResult k (timeoutRow b.request.service k) with phase := .abandoning (k + 1) }
  | .uncount, .uncounting k =>
    (b.slots[k]?).map fun slot =>
      { (b.setStage k slot .dropped).setResult k (timeoutRow b.request.service k) with phase := .abandoning (k + 1) }
  | .conclude, .abandoning k => if k = b.slots.length then some { b with phase := .returned b.final } else none
  | a, _ => (b.slots[a.index]?).bind fun slot => (b.advance free a.index slot a).map (b.setStage a.index slot)

/-! ## The service -/

structure Counters where
  pending : Int
  active : Int
  completed : Int
  failed : Int

def Stage.failed : Stage → Bool
  | .released o => o.failed
  | _ => false

/-- What an action does to the counters, under the lock. -/
def Act.effect (b : Batch) (c : Counters) : Act → Counters
  | .count _ => { c with pending := c.pending - 1, active := c.active + 1 }
  | .leave i =>
    { c with
      active := c.active - 1
      completed := c.completed + 1
      failed := c.failed + (((b.slots[i]?).map fun slot => slot.stage.failed).getD false).toNat }
  | .uncount => { c with pending := max 0 (c.pending - 1) }
  | _ => c

structure Service where
  workers : Nat
  timeoutMax : Rat

structure State where
  counters : Counters
  now : Rat
  batches : List Batch

def State.start : State := ⟨⟨0, 0, 0, 0⟩, 0, []⟩

inductive Action where
  | runBatch (request : Request)
  | act (b : Nat) (a : Act)
  | tick (seconds : Rat)

/-- The items of all batches in such a stage. -/
def State.total (s : State) (p : Stage → Bool) : Nat := (s.batches.map (Batch.count · p)).sum

/-- `run_batch` has counted its items as pending. -/
def Batch.of (request : Request) : Batch := ⟨request, request.items.map (⟨·, .counted, none⟩), .submitting 0⟩

def next (service : Service) (a : Action) (s : State) : State :=
  match a with
  | .runBatch request =>
    { s with
      counters := { s.counters with pending := s.counters.pending + request.items.length }
      batches := s.batches ++ [Batch.of request] }
  | .act i a =>
    match s.batches[i]? with
    | none => s
    | some b =>
      match b.step service.timeoutMax s.now (s.total Stage.busy < service.workers) a with
      | none => s
      | some b' => { s with counters := a.effect b s.counters, batches := s.batches.set i b' }
  | .tick seconds => if 0 ≤ seconds then { s with now := s.now + seconds } else s

end CpuBatch
end Tools
end Ds4Spark
