import Ds4Spark.Queue.Settle
import Mathlib.Logic.Function.Basic

/-!
# Ds4Spark.Queue.Effects

What one turn of each operation does to the requests and to the event log.

* `Db.request?` is read as a function of the id: a turn on a row changes it at that row's id only,
  which `Function.update` says.
* `Db.log`: the types and states of a request's events, oldest first; a turn appends to it.
-/

namespace Ds4Spark
namespace Queue

/-- The events of a request, oldest first. -/
def Db.log (db : Db) (requestId : String) : List (String × RequestState) :=
  (db.events.filter (fun e => e.requestId = requestId)).map (fun e => (e.eventType, e.state))

section Frame

variable (db : Db) (now : Time) (rid : String)

@[simp] theorem request?_event (id type : String) (s : RequestState) (p : JsonObj) :
    (db.event now id type s p).request? = db.request? := rfl

@[simp] theorem request?_refreshBatch (b : String) : (db.refreshBatch now b).request? = db.request? := rfl

@[simp] theorem request?_refreshBatches (bs : List String) :
    (db.refreshBatches now bs).request? = db.request? := by
  funext k
  simp only [Db.request?, refreshBatches_requests]

@[simp] theorem request?_release (id : Option String) :
    (db.releaseUnusedComputeLease id).request? = db.request? := by
  funext k
  simp only [Db.request?, release_requests]

@[simp] theorem request?_deleteRequestKv : (db.deleteRequestKv rid).request? = db.request? := rfl

@[simp] theorem request?_idleRequestKv : (db.idleRequestKv rid now).request? = db.request? := rfl

@[simp] theorem request?_dropUnusedExpiredLeases :
    (db.dropUnusedExpiredLeases now).request? = db.request? := rfl

@[simp] theorem log_event (id type : String) (s : RequestState) (p : JsonObj) :
    (db.event now id type s p).log rid = db.log rid ++ if id = rid then [(type, s)] else [] := by
  by_cases h : id = rid <;> simp [Db.log, Db.event, List.filter_append, h]

@[simp] theorem log_refreshBatch (b : String) : (db.refreshBatch now b).log rid = db.log rid := rfl

@[simp] theorem log_refreshBatches (bs : List String) :
    (db.refreshBatches now bs).log rid = db.log rid := by
  simp only [Db.log, refreshBatches_events]

@[simp] theorem log_release (id : Option String) :
    (db.releaseUnusedComputeLease id).log rid = db.log rid := by
  simp only [Db.log, release_events]

@[simp] theorem log_deleteRequestKv (id : String) : (db.deleteRequestKv id).log rid = db.log rid := rfl

@[simp] theorem log_idleRequestKv (id : String) : (db.idleRequestKv id now).log rid = db.log rid := rfl

@[simp] theorem log_updateRequests (p : RequestRow → Bool) (f : RequestRow → RequestRow)
    (hf : ∀ r, (f r).requestId = r.requestId) : (db.updateRequests p f hf).log rid = db.log rid := rfl

end Frame

section Own

variable {db : Db} {row : RequestRow}

theorem request?_requestId {rid : String} (h : db.request? rid = some row) : row.requestId = rid :=
  (Table.find?_some h).2

theorem running?_eq_some {rid lease : String} : db.running? rid lease = some row ↔
    db.request? rid = some row ∧ row.state = .running ∧ row.leaseId = some lease := by
  simp [Db.running?, Option.filter_eq_some_iff]

/-- An update that meets the row of one id only, and does meet it. -/
theorem request?_update_own {p : RequestRow → Bool} {f : RequestRow → RequestRow}
    {hf : ∀ r, (f r).requestId = r.requestId} {rid : String} (hrow : db.request? rid = some row)
    (hp : p row = true) (hown : ∀ r, p r = true → r.requestId = rid) :
    (db.updateRequests p f hf).request? = Function.update db.request? rid (some (f row)) := by
  funext k
  by_cases hk : k = rid
  · subst hk
    have h : (db.updateRequests p f hf).request? k = _ := Table.find?_update db.requests p f hf k
    rw [h, Function.update_self]
    rw [Db.request?] at hrow
    simp [hrow, hp]
  · rw [Function.update_of_ne hk]
    exact Table.find?_update_of_ne hf hown hk

/-- `where request_id=?`. -/
theorem request?_update_id {f : RequestRow → RequestRow} {hf : ∀ r, (f r).requestId = r.requestId}
    {rid : String} (hrow : db.request? rid = some row) :
    (db.updateRequests (fun r => r.requestId = rid) f hf).request? =
      Function.update db.request? rid (some (f row)) :=
  request?_update_own hrow (by simpa using request?_requestId hrow) (by simp)

/-- `where request_id=? and state=?`. -/
theorem request?_update_state {f : RequestRow → RequestRow} {hf : ∀ r, (f r).requestId = r.requestId}
    {rid : String} {s : RequestState} (hrow : db.request? rid = some row) (hs : row.state = s) :
    (db.updateRequests (fun r => r.requestId = rid ∧ r.state = s) f hf).request? =
      Function.update db.request? rid (some (f row)) :=
  request?_update_own hrow (by simpa using ⟨request?_requestId hrow, hs⟩)
    (fun r hr => by simp at hr; exact hr.1)

/-- `where request_id=? and lease_id=? and state='running'`. -/
theorem request?_update_lease {f : RequestRow → RequestRow} {hf : ∀ r, (f r).requestId = r.requestId}
    {rid lease : String} (hrow : db.running? rid lease = some row) :
    (db.updateRequests (holdsLease rid lease) f hf).request? =
      Function.update db.request? rid (some (f row)) := by
  obtain ⟨hr, hs, hl⟩ := running?_eq_some.mp hrow
  refine request?_update_own hr ?_ ?_
  · simpa [holdsLease] using ⟨request?_requestId hr, hl, hs⟩
  · intro r h
    simp [holdsLease] at h
    exact h.1

/-- A stale lease: the update meets no row. -/
theorem request?_update_lost {f : RequestRow → RequestRow} {hf : ∀ r, (f r).requestId = r.requestId}
    {rid lease : String} (h : db.running? rid lease = none) :
    (db.updateRequests (holdsLease rid lease) f hf).request? = db.request? := by
  funext k
  have hu : (db.updateRequests (holdsLease rid lease) f hf).request? k = _ :=
    Table.find?_update db.requests (holdsLease rid lease) f hf k
  rw [hu]
  change (db.request? k).map _ = db.request? k
  cases hk : db.request? k with
  | none => rfl
  | some r =>
    have hp : holdsLease rid lease r = false := by
      by_contra hc
      simp only [Bool.not_eq_false, holdsLease, decide_eq_true_eq] at hc
      obtain ⟨hid, hl, hs⟩ := hc
      have : db.running? rid lease = some r :=
        running?_eq_some.mpr ⟨by rw [← hid, request?_requestId hk]; exact hk, hs, hl⟩
      simp [h] at this
    simp [hp]

end Own

/-! ## `prepare_ready` -/

/-- A reservation touches the shard columns of its own request, and nothing else of the requests. -/
theorem reserveKv_request? {db db' : Db} {row : RequestRow} {node : Option String} {capacity : Int}
    {now : Time} {layout : Option Layout} (hrow : db.request? row.requestId = some row)
    (h : db.reserveKv row node capacity now layout = some db') :
    ∃ n b, db'.request? = Function.update db.request? row.requestId
      (some (row.withShards n b)) := by
  have hsame : db.request? = Function.update db.request? row.requestId
      (some (row.withShards row.kvShardCount row.kvShardBytes)) := by
    rw [RequestRow.withShards, ← hrow, Function.update_eq_self]
  cases reserveKv_cases h with
  | unneeded _ => exact ⟨_, _, hsame⟩
  | noShards _ _ => exact ⟨_, _, hsame⟩
  | pipeline _ _ _ _ => exact ⟨_, _, request?_update_id (by exact hrow)⟩
  | legacy _ _ _ _ _ _ => exact ⟨_, _, hsame⟩

theorem reserveKv_frame {db db' : Db} {row : RequestRow} {node : Option String} {capacity : Int}
    {now : Time} {layout : Option Layout}
    (h : db.reserveKv row node capacity now layout = some db') :
    db'.events = db.events ∧ db'.computeLeases = db.computeLeases := by
  cases reserveKv_cases h <;> exact ⟨rfl, rfl⟩

section Prepare

variable {db db₁ : Db} {args : PrepareArgs} {row : RequestRow} (uuid : String)

theorem prepareRow_waits
    (h : db.reserveKv row (bindNodeId args row) args.kvCapacityBytes args.now (args.layout row) = none) :
    prepareRow args uuid row db = (db.capacityWait args row, false) := by
  simp [prepareRow, h]

theorem prepareRow_ready (hrow : db.request? row.requestId = some row) (hs : row.state = .queued)
    (h : db.reserveKv row (bindNodeId args row) args.kvCapacityBytes args.now (args.layout row) =
      some db₁) : prepareRow args uuid row db = (db₁.prefilled args uuid row, true) := by
  obtain ⟨n, b, hreq⟩ := reserveKv_request? hrow h
  have hstill : (db₁.request? row.requestId).any (fun r => r.state = .queued) = true := by
    rw [hreq, Function.update_self]
    simpa [RequestRow.withShards] using hs
  simp [prepareRow, h, hstill]

theorem prefilled_request? (hrow : db.request? row.requestId = some row) (hs : row.state = .queued)
    (h : db.reserveKv row (bindNodeId args row) args.kvCapacityBytes args.now (args.layout row) =
      some db₁) :
    ∃ n b, (db₁.prefilled args uuid row).request? = Function.update db.request? row.requestId
      (some (RequestRow.makeReady (bindNodeId args row)
        (row.selectedNodeIds.or ((bindNodeId args row).map (fun n => [n]))) args.now
        (row.withShards n b))) := by
  obtain ⟨n, b, hreq⟩ := reserveKv_request? hrow h
  refine ⟨n, b, ?_⟩
  have hself : db₁.request? row.requestId =
      some (row.withShards n b) := by
    rw [hreq, Function.update_self]
  simp only [Db.prefilled, request?_event]
  rw [request?_update_state hself hs, hreq, Function.update_idem]

theorem prefilled_log (rid : String)
    (h : db.reserveKv row (bindNodeId args row) args.kvCapacityBytes args.now (args.layout row) =
      some db₁) :
    (db₁.prefilled args uuid row).log rid =
      db.log rid ++ if row.requestId = rid then [("prefilled", .ready)] else [] := by
  have hlog : db₁.log rid = db.log rid := by
    simp only [Db.log, (reserveKv_frame h).1]
  simp only [Db.prefilled, log_event, log_updateRequests, hlog]

end Prepare

/-! ## `claim_ready_batch` -/

section Claim

variable {db : Db} {row : RequestRow} (args : ClaimArgs) (lease : String) (computeLease : Option String)

theorem claimRow_ready (hrow : db.request? row.requestId = some row) (hs : row.state = .ready) :
    claimRow args lease computeLease row db =
      (db.started args lease computeLease row, some (claimOf row lease computeLease)) := by
  simp [claimRow, hrow, hs]

theorem started_request? (hrow : db.request? row.requestId = some row) (hs : row.state = .ready) :
    (db.started args lease computeLease row).request? =
      Function.update db.request? row.requestId (some (row.claim lease computeLease args)) := by
  simp only [Db.started, request?_event]
  exact request?_update_state hrow hs

theorem started_log (rid : String) :
    (db.started args lease computeLease row).log rid =
      db.log rid ++ if row.requestId = rid then [("started", .running)] else [] := by
  simp only [Db.started, log_event, log_updateRequests]

end Claim

theorem heartbeat_request? {db : Db} (args : HeartbeatArgs) (rid : String) :
    (heartbeat args db).1.request? rid = (db.request? rid).map
      (fun r => if args.meets r then r.beat args.now args.leaseTtlS else r) :=
  Table.find?_update _ _ _ (RequestRow.beat_requestId _ _) _

/-! ## `finish_request` and `retry_transport_failure` -/

section Settle

variable {db : Db} {row : RequestRow}

/-- The actions decided on `row`, as it was read, run on the row `now`. -/
theorem finish_request? {args : FinishArgs} {now : RequestRow}
    (h : db.running? args.requestId args.leaseId = some now) :
    (execAll (finishActions args row) db).request? = Function.update db.request? args.requestId
      (some (now.finish (args.final row) (args.finalResult row) (args.finalError row) args.now)) := by
  simp only [finishActions, execAll_exec, execAll_nil, request?_refreshBatch, request?_event,
    request?_release]
  split
  · rw [request?_idleRequestKv]
    exact request?_update_lease h
  · exact request?_update_lease h

theorem finish_log (args : FinishArgs) (rid : String) :
    (execAll (finishActions args row) db).log rid = db.log rid ++
      if args.requestId = rid then [((args.final row).name, args.final row)] else [] := by
  simp only [finishActions, execAll_exec, execAll_nil]
  split <;> simp only [log_refreshBatch, log_event, log_release, log_idleRequestKv, log_updateRequests]

/-- The row `retry_transport_failure` leaves of `now`, after it has read `row`. -/
def RetryArgs.settled (args : RetryArgs) (row now : RequestRow) : RequestRow :=
  match args.outcome row with
  | .cancelled => now.finish .cancelled (ignoredResult args.result) (some "cancelled") args.now
  | .requeued => now.requeue args.error args.now
  | _ => now.finish .failed args.result (some args.error) args.now

/-- The event `retry_transport_failure` leaves. -/
def RetryArgs.logged (args : RetryArgs) (row : RequestRow) : String × RequestState :=
  match args.outcome row with
  | .cancelled => ("cancelled", .cancelled)
  | .requeued => ("transport_requeued", .queued)
  | _ => ("failed", .failed)

theorem retry_request? {args : RetryArgs} {now : RequestRow}
    (h : db.running? args.requestId args.leaseId = some now) :
    (execAll (retryActions args row) db).request? =
      Function.update db.request? args.requestId (some (args.settled row now)) := by
  unfold retryActions RetryArgs.settled
  have h' : (db.deleteRequestKv args.requestId).running? args.requestId args.leaseId = some now := h
  cases args.outcome row with
  | cancelled =>
    simp only [retryCancelledActions, execAll_exec, execAll_notice, execAll_nil,
      request?_refreshBatch, request?_event, request?_release, request?_deleteRequestKv]
    exact request?_update_lease h
  | requeued =>
    simp only [retryRequeuedActions, execAll_exec, execAll_nil, request?_refreshBatch,
      request?_event, request?_release]
    exact request?_update_lease h'
  | failed | lost =>
    simp only [retryFailedActions, execAll_exec, execAll_nil, request?_refreshBatch,
      request?_event, request?_release, request?_deleteRequestKv]
    exact request?_update_lease h

theorem retry_log (args : RetryArgs) (rid : String) :
    (execAll (retryActions args row) db).log rid = db.log rid ++
      if args.requestId = rid then [args.logged row] else [] := by
  unfold retryActions RetryArgs.logged
  cases args.outcome row with
  | cancelled =>
    simp only [retryCancelledActions, execAll_exec, execAll_notice, execAll_nil, log_refreshBatch,
      log_event, log_release, log_deleteRequestKv, log_updateRequests]
  | requeued =>
    simp only [retryRequeuedActions, execAll_exec, execAll_nil, log_refreshBatch, log_event,
      log_release, log_deleteRequestKv, log_updateRequests]
  | failed | lost =>
    simp only [retryFailedActions, execAll_exec, execAll_nil, log_refreshBatch, log_event,
      log_release, log_deleteRequestKv, log_updateRequests]

end Settle

/-! ## `cancel` -/

section Cancel

variable {db : Db} {row : RequestRow} (args : CancelArgs)

/-- The row a turn of `cancel` leaves of `now`, after it has read `row`. -/
def CancelArgs.turned (row now : RequestRow) : RequestRow :=
  match args.choice row with
  | .skip => now
  | .mark => now.mark args.now
  | .force => now.cancelForced (cancelledResult row args.reason true) args.reason args.now
  | .cancel => now.cancelIdle (cancelledResult row args.reason false) args.reason args.now

/-- The events a turn of `cancel` leaves. -/
def CancelArgs.logged (row : RequestRow) : List (String × RequestState) :=
  match args.choice row with
  | .skip | .mark => []
  | .force | .cancel => [("cancelled", .cancelled)]

theorem cancel_request? {now : RequestRow} (hrow : db.request? row.requestId = some now) :
    (execAll (cancelTurn args row) db).request? =
      Function.update db.request? row.requestId (some (args.turned row now)) := by
  unfold cancelTurn CancelArgs.turned
  cases args.choice row with
  | skip =>
    simp only [execAll_nil]
    rw [← hrow, Function.update_eq_self]
  | mark =>
    simp only [execAll_exec, execAll_nil]
    exact request?_update_id hrow
  | force | cancel =>
    simp only [cancelRowActions, execAll_exec, execAll_notice, execAll_nil, request?_event,
      request?_release, request?_deleteRequestKv]
    exact request?_update_id hrow

theorem cancel_log (rid : String) :
    (execAll (cancelTurn args row) db).log rid =
      db.log rid ++ if row.requestId = rid then args.logged row else [] := by
  unfold cancelTurn CancelArgs.logged
  cases args.choice row with
  | skip => simp
  | mark => simp
  | force | cancel =>
    simp only [cancelRowActions, execAll_exec, execAll_notice, execAll_nil, log_event, log_release,
      log_deleteRequestKv, log_updateRequests]

end Cancel

/-! ## `requeue_expired_leases` -/

section Reap

variable {db : Db} {row : RequestRow} (args : ReapArgs)

/-- The row a turn of the reaper leaves. -/
def ReapArgs.turned (row : RequestRow) : RequestRow :=
  if args.fails row then row.finish .failed (expiredResult row) (some "lease_expired") args.now
  else row.reapRequeue args.now

theorem reap_request? (hrow : db.request? row.requestId = some row) :
    (execAll (reapTurn args row) db).request? =
      Function.update db.request? row.requestId (some (args.turned row)) := by
  unfold reapTurn reapUpdate ReapArgs.turned
  split
  · simp only [List.cons_append, List.nil_append, execAll_exec, execAll_notice, execAll_nil,
      request?_refreshBatch, request?_event, request?_release]
    exact request?_update_id hrow
  · have hrow' : (db.deleteRequestKv row.requestId).request? row.requestId = some row := hrow
    simp only [List.cons_append, List.nil_append, execAll_exec, execAll_nil, request?_refreshBatch,
      request?_event, request?_release]
    exact request?_update_id hrow'

theorem reap_log (rid : String) :
    (execAll (reapTurn args row) db).log rid = db.log rid ++ if row.requestId = rid then
      [("lease_expired", if args.fails row then .failed else .queued)] else [] := by
  unfold reapTurn reapUpdate
  split
  · simp only [List.cons_append, List.nil_append, execAll_exec, execAll_notice, execAll_nil,
      log_refreshBatch, log_event, log_release, log_updateRequests]
  · simp only [List.cons_append, List.nil_append, execAll_exec, execAll_nil, log_refreshBatch,
      log_event, log_release, log_deleteRequestKv, log_updateRequests]

end Reap

end Queue
end Ds4Spark
