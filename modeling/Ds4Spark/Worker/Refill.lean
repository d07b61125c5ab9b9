import Ds4Spark.Worker.Runner

/-!
# Ds4Spark.Worker.Refill

A cohort in which each claim has a thread and a call of the runner of its own
(`_run_refill_stream`, `_claim_refill`), and which claims more work when it runs low, together with the
dispatcher's call of it (`_dispatcher_run_rolling_refill_stream_claims`).

* `Refill`: the worker, its threads, and the queue, which other processes change at any time. A future
  is the number of its claim in `taken`.
* `raises`: an exception that leaves the loop, from the queue or from a lost lease.
* `log`: the calls of `_finish_pair`, and whether the queue settled the claim or reported it lost.
-/

namespace Ds4Spark
namespace Worker

open Queue (QueueClaim Db Op Time)

/-- The settings of one call. `_run_stream` is the same loop without `rolling`: it neither looks for
cancelled requests nor refills. A call that is not `dispatched` comes from `run_once`, which handles no
exception. -/
structure RefillCall where
  settings : Settings
  runner : Runner
  init : QueueClaim → runner.State
  claims : List QueueClaim
  concurrency : Nat
  refillLowWatermark : Int
  prepare : Queue.PrepareArgs
  claim : Queue.ClaimArgs
  rolling : Bool := true
  dispatched : Bool := true

inductive Thread (r : Runner) where
  | idle
  | running (job : Job r)
  | done (result : JsonObj)

namespace Thread

variable {r : Runner}

def result? : Thread r → Option JsonObj
  | .done result => some result
  | _ => none

end Thread

/-- What `_run_refill_one` makes of a call of the runner that is over: the last result given, or else
the one returned. -/
def Job.result? {r : Runner} (job : Job r) (claim : QueueClaim) : Option JsonObj :=
  match r.outcome job.state with
  | none => none
  | some (.error error) => some (failure claim error)
  | some (.ok batch) =>
    some (resultForClaim claim
      ((job.pushed.reverse.lookup claim.requestId).or (batch.lookup claim.requestId)))

/-- `_dispatcher_transport_failure`. -/
def dispatcherTransportFailure (claim : QueueClaim) (error : String) : JsonObj :=
  [("format", .str "ds4-inference-failure-v1"), ("request_id", .str claim.requestId),
    ("status", .str "transport_failed"), ("error", .str error)]

namespace Refill

/-- Where the worker is. -/
inductive Pc where
  | wait
  | settle (done : List (Nat × JsonObj))
  | check (rest : List Nat)
  | gather (rest terminal : List Nat)
  | sweep (rest : List Nat)
  | refill
  | claim
  | claimNew
  | heartbeat
  | beat (rest : List Nat) (count total : Nat) (lost : List String)
  | failed (error : String)
  | pairs (rest : List Nat) (error : String)
  | returned

def Pc.isReturned : Pc → Bool
  | .returned => true
  | _ => false

@[simp] theorem Pc.isReturned_iff {pc : Pc} : pc.isReturned = true ↔ pc = .returned := by
  cases pc <;> simp [Pc.isReturned]

/-- What the outside adds to a step of the worker: the clock, new ids, the order in which a set of
futures is gone through, and the exception that a call raises. -/
structure Turn where
  now : Time
  uuid : Nat → String := fun _ => ""
  computeUuid : String := ""
  order : List Nat := []
  fault : Option String := none

end Refill

open Refill (Pc Turn)

structure Refill (call : RefillCall) where
  db : Db
  taken : List QueueClaim
  threads : Nat → Thread call.runner
  pending : List Nat
  /-- Also `refill_cancelled`, which is set with it. -/
  event : Bool
  finished : List String
  computeLeaseId : Option String
  log : List (Nat × Bool)
  pc : Pc

namespace Refill

variable {call : RefillCall}

/-- An empty claim, for a number that is no future. -/
def noClaim : QueueClaim where
  requestId := ""
  batchId := ""
  requestKind := .model
  selectedProfileId := ""
  selectedNodeId := none
  leaseId := ""
  attemptCount := 0
  serviceName := none
  payload := []
  selectedServiceId := none
  selectedNodeIds := []
  selectedComputeDomain := none
  computeLeaseId := none

/-- `futures[future]`. -/
def claimOf (s : Refill call) (i : Nat) : QueueClaim := s.taken.getD i noClaim

/-- The row of the claim's request, while it is running under the claim's lease. -/
def row? (s : Refill call) (i : Nat) : Option Queue.RequestRow :=
  s.db.running? (s.claimOf i).requestId (s.claimOf i).leaseId

/-- A set of futures, in the order in which it is gone through. -/
def arrange (order xs : List Nat) : List Nat :=
  xs.insertionSort (fun a b => order.idxOf a ≤ order.idxOf b)

/-- `_finish_pair`, with a note of what the queue did. -/
def settle (now : Time) (i : Nat) (result : JsonObj) (s : Refill call) : Refill call :=
  { s with
    db := finishPair call.settings now (s.claimOf i) result s.db
    log := (i, (s.row? i).isSome) :: s.log }

def finish (now : Time) (i : Nat) (result : JsonObj) (s : Refill call) : Refill call :=
  { s.settle now i result with finished := (s.claimOf i).requestId :: s.finished }

/-- The end of a turn of the loop. -/
def beforeHeartbeat (s : Refill call) : Refill call :=
  { s with pc := if s.pending.isEmpty then .returned else .heartbeat }

/-! ## `_claim_refill` -/

def lowWatermark (call : RefillCall) : Int := max 1 (min call.refillLowWatermark call.concurrency)

/-- `fill`. -/
def room (s : Refill call) : Nat := call.concurrency - s.pending.length

def scope (call : RefillCall) (turn : Turn) (scope : Queue.Scope) : Queue.Scope :=
  { scope with
    selectedServiceId := call.claims.head?.bind QueueClaim.selectedServiceId, rowsNow := turn.now }

def prepareArgs (turn : Turn) (s : Refill call) : Queue.PrepareArgs :=
  { call.prepare with
    scope := scope call turn call.prepare.scope, limit := s.room, uuid := turn.uuid, now := turn.now }

def claimArgs (turn : Turn) (computeLeaseId : Option String) (s : Refill call) : Queue.ClaimArgs :=
  { call.claim with
    scope := scope call turn call.claim.scope, limit := s.room, leaseTtlS := call.settings.leaseTtlS
    batchLingerS := 0, computeLeaseId := computeLeaseId, uuid := turn.uuid
    computeUuid := turn.computeUuid, now := turn.now }

/-- `pool.submit` for the new claims. -/
def submit (claims : List QueueClaim) (s : Refill call) : Refill call :=
  { s with
    taken := s.taken ++ claims
    pending := s.pending ++ List.range' s.taken.length claims.length
    computeLeaseId := match claims with
      | [] => s.computeLeaseId
      | first :: _ => first.computeLeaseId }

/-- No claim, and a new compute lease may be taken. -/
def mayRenew (claims : List QueueClaim) (s : Refill call) : Bool :=
  claims.isEmpty && s.pending.isEmpty && s.computeLeaseId.isSome && !call.claim.scope.shareComputeDomain

/-! ## The loop -/

/-- The next step of the worker when nothing is raised. -/
def go (turn : Turn) (s : Refill call) : Refill call :=
  match s.pc with
  | .wait =>
    let all := arrange turn.order s.pending
    { s with
      pending := all.filter (fun i => (s.threads i).result?.isNone)
      pc := .settle (all.filterMap (fun i => (s.threads i).result?.map (fun result => (i, result)))) }
  | .settle [] => if call.rolling then { s with pc := .check s.pending } else s.beforeHeartbeat
  | .settle ((i, result) :: done) => { s.finish turn.now i result with pc := .settle done }
  | .check [] => { s with pc := .refill }
  | .check (i :: rest) =>
    if cancelledOrTerminal s.db (s.claimOf i) then { s with event := true, pc := .gather s.pending [] }
    else { s with pc := .check rest }
  | .gather [] terminal => { s with pc := .sweep terminal }
  | .gather (i :: rest) terminal =>
    { s with
      pc := .gather rest (if isTerminal s.db (s.claimOf i) then terminal ++ [i] else terminal) }
  | .sweep [] =>
    let pending := s.pending.filter (fun i => (s.claimOf i).requestId ∉ s.finished)
    { s with pending := pending, pc := if pending.isEmpty then .returned else .refill }
  | .sweep (i :: rest) =>
    if (s.claimOf i).requestId ∉ s.finished ∧ isTerminal s.db (s.claimOf i) then
      { s.finish turn.now i (cancelled (s.claimOf i)) with pc := .sweep rest }
    else { s with pc := .sweep rest }
  | .refill =>
    if !s.event ∧ (s.pending.length : Int) ≤ lowWatermark call ∧ 0 < s.room then
      { s with db := (Queue.prepareReady (s.prepareArgs turn) s.db).1, pc := .claim }
    else s.beforeHeartbeat
  | .claim =>
    let out := Queue.claimReadyBatch (s.claimArgs turn s.computeLeaseId) s.db
    if s.mayRenew out.2 then { s with db := out.1, pc := .claimNew }
    else (submit out.2 { s with db := out.1 }).beforeHeartbeat
  | .claimNew =>
    let out := Queue.claimReadyBatch (s.claimArgs turn none) s.db
    (submit out.2 { s with db := out.1 }).beforeHeartbeat
  | .heartbeat =>
    let active := s.pending.filter (fun i => (s.claimOf i).leaseId != "")
    let refreshed := Queue.heartbeat
      ⟨active.map (fun i => (s.claimOf i).leaseId), call.settings.leaseTtlS, turn.now⟩ s.db
    if active.isEmpty then { s with pc := .wait }
    else if refreshed.2 = active.length then { s with db := refreshed.1, pc := .wait }
    else { s with db := refreshed.1, pc := .beat active refreshed.2 active.length [] }
  | .beat [] _ _ _ => { s with pc := .wait }
  | .beat (i :: rest) count total lost =>
    let checked := recheck call.settings turn.now (s.claimOf i) s.db
    { s with db := checked.1, pc := .beat rest count total (lost ++ checked.2) }
  | .failed error =>
    -- the pool waits for its threads before the exception goes on
    if (List.range s.taken.length).all (fun i => (s.threads i).result?.isSome) then
      { s with pc := if call.dispatched then .pairs (List.range call.claims.length) error else .returned }
    else s
  | .pairs [] _ => { s with pc := .returned }
  | .pairs (i :: rest) error =>
    { s.settle turn.now i (dispatcherTransportFailure (s.claimOf i) error) with pc := .pairs rest error }
  | .returned => s

/-- The claims that the next step is handed. -/
def granted (turn : Turn) (s : Refill call) : List QueueClaim :=
  match s.pc with
  | .claim => (Queue.claimReadyBatch (s.claimArgs turn s.computeLeaseId) s.db).2
  | .claimNew => (Queue.claimReadyBatch (s.claimArgs turn none) s.db).2
  | _ => []

/-- The exception that leaves the loop at this step. -/
def raises (turn : Turn) (s : Refill call) : Option String :=
  match s.pc with
  | .failed _ | .pairs _ _ | .returned => none
  | .beat [] count total lost => if lost.isEmpty then turn.fault else some (lostMessage count total lost)
  | _ => turn.fault

def work (turn : Turn) (s : Refill call) : Refill call :=
  match s.raises turn with
  | some error => { s with pc := .failed error }
  | none => s.go turn

/-- A step of the thread of a claim (`_run_refill_one`); `fault` is what its read of the status
raises. -/
def thread (i : Nat) (fault : Option String) (s : Refill call) : Refill call :=
  if s.taken.length ≤ i then s
  else
    { s with threads := Function.update s.threads i (match s.threads i with
      | .idle =>
        if (s.claimOf i).requestKind ≠ .model then
          .done (failure (s.claimOf i) "worker cannot run CPU claim without CPU batch path")
        else match fault with
          | some error => .done (failure (s.claimOf i) error)
          | none =>
            if cancelledOrTerminal s.db (s.claimOf i) then .done (cancelled (s.claimOf i))
            else .running ⟨call.init (s.claimOf i), []⟩
      | .running job =>
        match job.result? (s.claimOf i) with
        | some result => .done result
        | none => .running (job.advance s.event)
      | .done result => .done result) }

/-- A step of a thread, of another process, or of the worker. -/
inductive Label where
  | thread (i : Nat) (fault : Option String)
  | other (op : Op)
  | work (turn : Turn)

def next (call : RefillCall) : Label → Refill call → Refill call
  | .thread i fault, s => s.thread i fault
  | .other op, s => { s with db := op.next s.db }
  | .work turn, s => s.work turn

/-- The worker when the first claims have been submitted to the pool. -/
def start (call : RefillCall) (db : Db) : Refill call where
  db := db
  taken := call.claims
  threads := fun _ => .idle
  pending := List.range call.claims.length
  event := false
  finished := []
  computeLeaseId := call.claims.head?.bind QueueClaim.computeLeaseId
  log := []
  pc := .wait

end Refill
end Worker
end Ds4Spark
