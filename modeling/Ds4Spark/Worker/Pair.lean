import Ds4Spark.Queue.Claims
import Ds4Spark.Queue.Exclusive
import Ds4Spark.Queue.Terminal

/-!
# Ds4Spark.Worker.Pair

How a worker (`BatchWorker`) settles a claim with the result its runner gave (`_finish_pair`), and how
it keeps its leases (`_heartbeat`).

* `finishPair`: one queue operation, chosen by the status of the result.
* `Holds`: the claim's request is running under its lease and nobody has asked to cancel it.
* `Recorded`: a completed result stands in the claim's row.
-/

namespace Ds4Spark
namespace Worker

open Queue (QueueClaim Db Op Time RequestState RequestRow)

/-- The settings of a worker. -/
structure Settings where
  transportMaxAttempts : Int
  leaseTtlS : Time
  loads : String → Option Json

/-! ## Results -/

/-- `result.get("status") == status`. -/
def statusIs (result : JsonObj) (status : String) : Bool :=
  Json.strOf? (result.get? "status") = some status

/-- `_failure`. -/
def failure (claim : QueueClaim) (error : String) : JsonObj := Queue.failure claim.requestId error

/-- `_cancelled`. -/
def cancelled (claim : QueueClaim) : JsonObj :=
  [("format", .str "ds4-inference-cancelled-v1"), ("request_id", .str claim.requestId),
    ("status", .str "cancelled"), ("reason", .str "cancelled before model dispatch")]

/-- `out["selected_node"]`. -/
def selectedNode (claim : QueueClaim) (nodeId : String) : Json :=
  .obj [("node_id", .str nodeId),
    ("node_ids", .arr ((if claim.selectedNodeIds.isEmpty then [nodeId] else
      claim.selectedNodeIds).map Json.str)),
    ("service_id", Json.ofStr? claim.selectedServiceId),
    ("compute_domain", Json.ofStr? claim.selectedComputeDomain)]

/-- `_result_for_claim`; an empty dict counts as no result. -/
def resultForClaim (claim : QueueClaim) (result : Option JsonObj) : JsonObj :=
  let out := match result with
    | some (field :: fields) => field :: fields
    | _ => failure claim "batch runner omitted request result"
  match claim.selectedNodeId.filter (fun n => n != "") with
  | some nodeId => out.set "selected_node" (selectedNode claim nodeId)
  | none => out

/-- The node a result is labelled with does not change its status. -/
theorem statusIs_resultForClaim {claim : QueueClaim} {result : JsonObj} {status : String}
    (h : statusIs result status = true) :
    statusIs (resultForClaim claim (some result)) status = true := by
  cases result with
  | nil => cases h
  | cons field fields =>
    unfold resultForClaim
    simp only
    split
    · unfold statusIs at h ⊢
      rw [JsonObj.get?_set_other _ _ (by decide)]
      exact h
    · exact h

/-! ## Status reads -/

/-- `status(request_id=..)["state"]`. -/
def stateName (db : Db) (claim : QueueClaim) : String :=
  ((db.request? claim.requestId).map (fun r => r.state.name)).getD "unknown"

/-- `state in _TERMINAL_STATES`. -/
def isTerminal (db : Db) (claim : QueueClaim) : Bool :=
  (db.request? claim.requestId).any (fun r => r.state.isTerminal)

/-- `_claim_cancelled_or_terminal`. -/
def cancelledOrTerminal (db : Db) (claim : QueueClaim) : Bool :=
  (db.request? claim.requestId).any (fun r => r.cancelRequested || r.state.isTerminal)

/-! ## `_finish_pair` -/

/-- The terminal state of a result that is not a transport failure. -/
def settleState (db : Db) (claim : QueueClaim) (result : JsonObj) : RequestState :=
  if (db.request? claim.requestId).any RequestRow.cancelRequested ∨ statusIs result "cancelled" then
    .cancelled
  else if statusIs result "completed" then .completed
  else .failed

/-- The operation that settles the claim. -/
def settleOp (w : Settings) (now : Time) (claim : QueueClaim) (result : JsonObj) (db : Db) : Op :=
  if statusIs result "transport_failed" then
    .retryTransportFailure {
      requestId := claim.requestId, leaseId := claim.leaseId, result := result
      maxAttempts := w.transportMaxAttempts, loads := w.loads, now := now }
  else
    .finishRequest {
      requestId := claim.requestId, leaseId := claim.leaseId
      state := settleState db claim result, result := result
      error := if settleState db claim result = .completed then none
        else some (((result.get? "status").map Json.pyStr).getD "failed")
      now := now }

/-- `_finish_pair`. Its read of `cancel_requested` and its write are one step: `finish_request` tests
the flag again. -/
def finishPair (w : Settings) (now : Time) (claim : QueueClaim) (result : JsonObj) (db : Db) : Db :=
  (settleOp w now claim result db).next db

section Pair

variable {w : Settings} {now : Time} {claim c : QueueClaim} {result : JsonObj} {db : Db}
  {row : RequestRow}

theorem settleState_terminal : (settleState db claim result).isTerminal = true := by
  unfold settleState
  split
  · rfl
  · split <;> rfl

/-- What settling does to the rows: the claim's row, if it is running under the claim's lease, gets a
row that is not running. -/
theorem finishPair_cases (w : Settings) (now : Time) (claim : QueueClaim) (result : JsonObj)
    (db : Db) :
    (db.running? claim.requestId claim.leaseId = none ∧ finishPair w now claim result db = db) ∨
    ∃ row row', db.running? claim.requestId claim.leaseId = some row ∧ row'.state ≠ .running ∧
      (finishPair w now claim result db).request? =
        Function.update db.request? claim.requestId (some row') := by
  cases hrun : db.running? claim.requestId claim.leaseId with
  | none =>
    refine .inl ⟨rfl, ?_⟩
    unfold finishPair settleOp
    split
    · simp only [Op.next, Queue.retryTransportFailure, hrun]
    · simp only [Op.next, Queue.finishRequest, settleState_terminal, hrun]
      rfl
  | some row =>
    refine .inr ⟨row, ?_⟩
    unfold finishPair settleOp
    split
    · simp only [Op.next, Queue.retryTransportFailure, hrun]
      exact ⟨_, trivial, Queue.settled_not_running _ row row, Queue.retry_request? (by exact hrun)⟩
    · simp only [Op.next, Queue.finishRequest, settleState_terminal, hrun, Bool.not_true,
        Bool.false_eq_true, if_false, Queue.committed]
      refine ⟨_, trivial, ?_, Queue.finish_request? (by exact hrun)⟩
      change Queue.FinishArgs.final _ row ≠ .running
      unfold Queue.FinishArgs.final
      split
      · intro h
        cases h
      · intro h
        have hterminal := @settleState_terminal claim result db
        simp only at h
        rw [h] at hterminal
        cases hterminal

theorem finishPair_other {rid : String} (h : rid ≠ claim.requestId) :
    (finishPair w now claim result db).request? rid = db.request? rid := by
  rcases finishPair_cases w now claim result db with ⟨_, hsame⟩ | ⟨_, _, _, _, hreq⟩
  · rw [hsame]
  · rw [hreq, Function.update_of_ne h]

/-- A settled claim is not running under its lease any more. -/
theorem finishPair_settles :
    (finishPair w now claim result db).running? claim.requestId claim.leaseId = none := by
  rcases finishPair_cases w now claim result db with ⟨hnone, hsame⟩ | ⟨_, row', _, hs, hreq⟩
  · rwa [hsame]
  · by_contra hsome
    obtain ⟨r, hr⟩ := Option.ne_none_iff_exists'.mp hsome
    obtain ⟨hrow, hrunning, _⟩ := Queue.running?_eq_some.mp hr
    rw [hreq, Function.update_self] at hrow
    cases hrow
    exact hs hrunning

/-- The claim's request is running under its lease and nobody has asked to cancel it. -/
def Holds (db : Db) (claim : QueueClaim) : Prop :=
  ∃ row, db.running? claim.requestId claim.leaseId = some row ∧ row.cancelRequested = false

instance (db : Db) (claim : QueueClaim) : Decidable (Holds db claim) :=
  decidable_of_iff ((db.running? claim.requestId claim.leaseId).any (fun r => !r.cancelRequested) = true)
    (by simp [Holds, Option.any_eq_true])

/-- A completed result stands in the claim's row. -/
def Recorded (db : Db) (claim : QueueClaim) (result : JsonObj) : Prop :=
  ∃ row, db.request? claim.requestId = some row ∧ row.state = .completed ∧
    row.resultJson = some result

theorem Holds.of_request (h : Holds db c) {db' : Db}
    (hreq : db'.request? c.requestId = db.request? c.requestId) : Holds db' c := by
  obtain ⟨row, hrun, hflag⟩ := h
  obtain ⟨hrow, hstate⟩ := Queue.running?_eq_some.mp hrun
  exact ⟨row, Queue.running?_eq_some.mpr ⟨hreq.trans hrow, hstate⟩, hflag⟩

theorem Holds.not_terminal (h : Holds db claim) : cancelledOrTerminal db claim = false := by
  obtain ⟨row, hrun, hflag⟩ := h
  obtain ⟨hrow, hstate, _⟩ := Queue.running?_eq_some.mp hrun
  simp [cancelledOrTerminal, hrow, hflag, hstate, RequestState.isTerminal]

theorem Holds.isTerminal (h : Holds db claim) : isTerminal db claim = false := by
  obtain ⟨row, hrun, _⟩ := h
  obtain ⟨hrow, hstate, _⟩ := Queue.running?_eq_some.mp hrun
  simp [Worker.isTerminal, hrow, hstate, RequestState.isTerminal]

theorem Holds.finishPair_other (h : Holds db c) (hne : c.requestId ≠ claim.requestId) :
    Holds (finishPair w now claim result db) c :=
  h.of_request (Worker.finishPair_other hne)

/-- A held claim with a completed result is recorded. -/
theorem Holds.recorded (h : Holds db claim) (hstatus : statusIs result "completed" = true) :
    Recorded (finishPair w now claim result db) claim result := by
  obtain ⟨row, hrun, hflag⟩ := h
  obtain ⟨hrow, hstate, _⟩ := Queue.running?_eq_some.mp hrun
  have hother : ∀ s, s ≠ "completed" → statusIs result s = false := by
    intro s hs
    simp only [statusIs, decide_eq_true_eq] at hstatus
    simp [statusIs, hstatus, Ne.symm hs]
  have hcompleted : settleState db claim result = .completed := by
    simp [settleState, hrow, hflag, hother "cancelled" (by decide), hstatus]
  have hop : settleOp w now claim result db = .finishRequest {
      requestId := claim.requestId, leaseId := claim.leaseId, state := .completed
      result := result, error := none, now := now } := by
    simp [settleOp, hother "transport_failed" (by decide), hcompleted]
  unfold finishPair
  rw [hop]
  simp only [Op.next, Queue.finishRequest, hrun, RequestState.isTerminal, Bool.not_true,
    Bool.false_eq_true, if_false, Queue.committed]
  refine ⟨_, by rw [Queue.finish_request? (by exact hrun), Function.update_self], ?_, ?_⟩
  · simp [RequestRow.finish, Queue.FinishArgs.final, hflag]
  · simp [RequestRow.finish, Queue.FinishArgs.finalResult, Queue.FinishArgs.final, hflag]

/-- A heartbeat leaves a held claim held. -/
theorem Holds.heartbeat (h : Holds db claim) (args : Queue.HeartbeatArgs) :
    Holds (Queue.heartbeat args db).1 claim := by
  obtain ⟨row, hrun, hflag⟩ := h
  obtain ⟨hrow, hstate, hlease⟩ := Queue.running?_eq_some.mp hrun
  refine ⟨if args.meets row then row.beat args.now args.leaseTtlS else row, ?_, ?_⟩
  · refine Queue.running?_eq_some.mpr ⟨?_, ?_, ?_⟩
    · rw [Queue.heartbeat_request?, hrow, Option.map_some]
    · split <;> exact hstate
    · split <;> exact hlease
  · split <;> exact hflag

/-- A recorded result stays, whatever the queue does. -/
theorem Recorded.next (h : Recorded db claim result) (hpre : Queue.NoPrefilling db) (op : Op) :
    Recorded (op.next db) claim result := by
  obtain ⟨row, hrow, hstate, hresult⟩ := h
  have hterminal : row.state.isTerminal = true := by
    rw [hstate]
    rfl
  exact ⟨row, Queue.next_terminal hpre hrow hterminal, hstate, hresult⟩

theorem finishPair_noPrefilling (hpre : Queue.NoPrefilling db) :
    Queue.NoPrefilling (finishPair w now claim result db) :=
  Queue.next_noPrefilling hpre _

end Pair

/-! ## The claims of one call -/

section Claims

variable {args : Queue.ClaimArgs} {db : Db}

theorem claimLoop_ids (computeLease : Option String) (rows : List RequestRow) :
    ∀ (n : Nat) (db : Db),
      ((Queue.claimLoop args computeLease n rows db).2.map QueueClaim.requestId).Sublist
        (rows.map RequestRow.requestId) := by
  induction rows with
  | nil => intro n db; exact List.Sublist.refl _
  | cons row rows ih =>
    intro n db
    simp only [Queue.claimLoop, Queue.claimRow, List.map_append, List.map_cons]
    by_cases hready : (db.request? row.requestId).any (fun r => r.state = .ready) = true
    · rw [if_pos hready]
      exact (ih (n + 1) _).cons_cons row.requestId
    · rw [if_neg hready]
      exact (ih (n + 1) db).cons row.requestId

/-- The claims of one call are of different requests. -/
theorem claims_nodup (args : Queue.ClaimArgs) (db : Db) :
    ((Queue.claimReadyBatch args db).2.map QueueClaim.requestId).Nodup := by
  rcases Queue.claimReadyBatch_claims args db with hnone | ⟨computeLease, db', heq⟩
  · rw [hnone]
    exact List.nodup_nil
  · rw [heq]
    exact (claimLoop_ids computeLease _ 0 db').nodup (Queue.claimRows_current db args).nodup

end Claims

end Worker
end Ds4Spark
