import Ds4Spark.Queue.KvPool
import Ds4Spark.Queue.LifeCycle

/-!
# Ds4Spark.Queue.Tenancy

The requests that rely on KV, over the pool they rely on.

* `Db.tenant`: the slots a ready or running request relies on, given the layout it was prepared with.
* `KvStep`: nothing; or a request becomes ready and its slots are reserved; or a tenancy ends, and
  what the request owned is freed; or the reaper fails a request, and what it owned stays.
* `Block.kvStep`: every block is one of these.
-/

namespace Ds4Spark
namespace Queue

/-- The node a request is bound to; an empty id is no node. -/
def RequestRow.boundNode (row : RequestRow) : Option String :=
  row.selectedNodeId.filter (fun n => n != "")

def RequestRow.serving (row : RequestRow) : Bool := row.state = .ready ∨ row.state = .running

def RequestRow.tenancy (row : RequestRow) : Option (Option Layout → List Slot) :=
  if row.serving && row.needsKv then some (row.slots row.boundNode) else none

def Db.tenant (db : Db) (rid : String) : Option (Option Layout → List Slot) :=
  (db.request? rid).bind RequestRow.tenancy

/-- The call takes the request out of `ready` or `running`, or ends it before. -/
def Op.settles (db : Db) (rid : String) : Op → Prop
  | .finishRequest args => args.requestId = rid ∧ args.state.isTerminal = true ∧
      (db.running? rid args.leaseId).isSome
  | .retryTransportFailure args => args.requestId = rid ∧ (db.running? rid args.leaseId).isSome
  | .cancel args => ∃ target, args.target = .ok target ∧ ∃ row ∈ db.cancelRows target,
      row.requestId = rid ∧ (args.choice row = .force ∨ args.choice row = .cancel)
  | .requeueExpiredLeases args => ∃ row ∈ db.expiredRows args.now, row.requestId = rid
  | _ => False

/-- The call is the reaper's, and fails the request. -/
def Op.expires (db : Db) (rid : String) : Op → Prop
  | .requeueExpiredLeases args => ∃ row ∈ db.expiredRows args.now,
      row.requestId = rid ∧ args.fails row = true
  | _ => False

theorem Op.expires.settles {op : Op} {db : Db} {rid : String} (h : op.expires db rid) :
    op.settles db rid := by
  cases op with
  | requeueExpiredLeases args =>
    obtain ⟨row, hrow, hid, _⟩ := h
    exact ⟨row, hrow, hid⟩
  | _ => cases h

inductive KvStep (op : Op) (db₀ db db' : Db) : Prop where
  | quiet (ht : db'.tenant = db.tenant) (hp : db'.pool = db.pool)
  | reserved (args : PrepareArgs) (row : RequestRow) (relied : Option (Option Layout → List Slot))
      (slots : List Slot) (hop : op = .prepareReady args)
      (h₀ : db₀.request? row.requestId = some row) (hs : row.state = .queued)
      (hfree : db.tenant row.requestId = none)
      (ht : db'.tenant = Function.update db.tenant row.requestId relied)
      (hlive : ∀ s ∈ slots, relied.isSome = true)
      (hslots : ∀ f ∈ relied, ∀ s ∈ f (args.layout row), s ∈ slots)
      (hp : Pool.Reserves db.pool db'.pool slots row.requestId)
  | freed (rid : String) (hset : op.settles db₀ rid) (hexp : ¬ op.expires db₀ rid)
      (ht : db'.tenant = Function.update db.tenant rid none)
      (hp : db'.pool = db.pool.drop rid ∨ db'.pool = db.pool.rest rid)
  | left (rid : String) (hexp : op.expires db₀ rid)
      (ht : db'.tenant = Function.update db.tenant rid none) (hp : db'.pool = db.pool)

/-! ## What a row relies on -/

section Rows

variable {row : RequestRow}

theorem tenancy_none (h : row.serving = false) : row.tenancy = none := by
  simp [RequestRow.tenancy, h]

theorem tenancy_some (h : row.serving = true) (hn : row.needsKv = true) :
    row.tenancy = some (row.slots row.boundNode) := by
  simp [RequestRow.tenancy, h, hn]

theorem not_serving_of_terminal (h : row.state.isTerminal = true) : row.serving = false := by
  unfold RequestRow.serving
  cases hs : row.state <;> simp [hs, RequestState.isTerminal] at h ⊢

theorem claim_tenancy (args : ClaimArgs) (lease : String) (computeLease : Option String)
    (hs : row.state = .ready) : (row.claim lease computeLease args).tenancy = row.tenancy := by
  have hserv : row.serving = true := by simp [RequestRow.serving, hs]
  unfold RequestRow.tenancy
  rw [hserv]
  rfl

theorem settled_not_serving (args : RetryArgs) {now : RequestRow} : (args.settled row now).serving = false := by
  unfold RetryArgs.settled
  cases args.outcome row <;> rfl

theorem turned_not_serving (args : ReapArgs) : (args.turned row).serving = false := by
  unfold ReapArgs.turned
  split <;> rfl

/-- Only the node list decides whether a request is pipelined: a fallback is one node. -/
theorem pipelined_iff (node : Option String) : pipelined row node = true ↔
    strOr row.selectedServiceId ≠ "" ∧
      1 < ((row.selectedNodeIds.getD []).filter (fun n => n != "")).length := by
  unfold pipelined rowNodeIds
  simp only [decide_eq_true_eq]
  refine and_congr_right (fun _ => ?_)
  split
  · rename_i hnil
    rw [List.isEmpty_iff] at hnil
    rw [hnil]
    split
    · cases node <;> simp
    · simp
  · rfl

theorem rowNodeIds_of_pipelined {node : Option String} (h : pipelined row node = true) :
    rowNodeIds row node = (row.selectedNodeIds.getD []).filter (fun n => n != "") := by
  have hlen := ((pipelined_iff node).mp h).2
  unfold rowNodeIds
  rw [if_neg]
  rw [List.isEmpty_iff]
  intro hnil
  rw [hnil] at hlen
  simp at hlen

/-- The slots of a pipelined request depend on the layout and the node list, not on the bytes. -/
theorem shardSlots_pipelineShards {row' : RequestRow} {nodeIds : List String} (service key : String)
    (need : Nat) (layout : Option Layout) (hid : row'.requestId = row.requestId) :
    shardSlots service key (pipelineShards row' nodeIds key need layout) =
      shardSlots service key (pipelineShards row nodeIds key need layout) := by
  unfold pipelineShards
  cases layout with
  | some f => rw [hid]
  | none => exact List.ext_getElem (by simp [shardSlots]) (by simp [shardSlots])

variable {args : PrepareArgs}

/-- The row `prepare_ready` leaves. -/
def PrepareArgs.ready (args : PrepareArgs) (row : RequestRow) (n b : Nat) : RequestRow :=
  RequestRow.makeReady (bindNodeId args row)
    (row.selectedNodeIds.or ((bindNodeId args row).map (fun n => [n]))) args.now (row.withShards n b)

theorem ready_needsKv (n b : Nat) : (args.ready row n b).needsKv = row.needsKv := rfl

theorem ready_boundNode (n b : Nat) :
    (args.ready row n b).boundNode = none ∨ (args.ready row n b).boundNode = bindNodeId args row := by
  have hnode : (args.ready row n b).selectedNodeId = row.selectedNodeId.or (bindNodeId args row) := rfl
  unfold RequestRow.boundNode
  rw [hnode]
  unfold bindNodeId pyOr
  cases row.selectedNodeId with
  | none => simp [Option.filter_filter]
  | some x =>
    by_cases hx : x = ""
    · simp [hx]
    · have ht : pyTrue (some x) = true := pyTrue_some.mpr hx
      simp [hx, ht]

theorem ready_pipelined (n b : Nat) (node : Option String) :
    pipelined (args.ready row n b) node = pipelined row (bindNodeId args row) := by
  rw [Bool.eq_iff_iff, pipelined_iff, pipelined_iff]
  have hids : (args.ready row n b).selectedNodeIds =
      row.selectedNodeIds.or (row.selectedNodeIds.or ((bindNodeId args row).map (fun n => [n]))) := rfl
  refine and_congr Iff.rfl ?_
  rw [hids]
  cases row.selectedNodeIds with
  | some ids => simp
  | none =>
    cases bindNodeId args row with
    | none => simp
    | some x => by_cases hx : x = "" <;> simp [hx]

theorem ready_nodeIds_of_pipelined (n b : Nat) (hp : pipelined row (bindNodeId args row) = true) :
    ((args.ready row n b).selectedNodeIds.getD []).filter (fun n => n != "") =
      (row.selectedNodeIds.getD []).filter (fun n => n != "") := by
  have hids : (args.ready row n b).selectedNodeIds =
      row.selectedNodeIds.or (row.selectedNodeIds.or ((bindNodeId args row).map (fun n => [n]))) := rfl
  have hlen := ((pipelined_iff _).mp hp).2
  rw [hids]
  cases hsel : row.selectedNodeIds with
  | some ids => rfl
  | none =>
    rw [hsel] at hlen
    simp at hlen

/-- A request that becomes ready relies on the slots that were reserved for it, and no others. -/
theorem ready_slots (n b : Nat) (layout : Option Layout) :
    ∀ s ∈ (args.ready row n b).slots (args.ready row n b).boundNode layout,
      s ∈ row.slots (bindNodeId args row) layout := by
  intro s hs
  unfold RequestRow.slots at hs ⊢
  rw [ready_needsKv, ready_pipelined] at hs
  split at hs
  · simp at hs
  · rename_i hn
    rw [if_neg hn]
    split at hs
    · rename_i hp
      rw [if_pos hp]
      have hp' : pipelined (args.ready row n b) (args.ready row n b).boundNode = true := by
        rw [ready_pipelined]
        exact hp
      have hids : rowNodeIds (args.ready row n b) (args.ready row n b).boundNode =
          rowNodeIds row (bindNodeId args row) := by
        rw [rowNodeIds_of_pipelined hp', rowNodeIds_of_pipelined hp]
        exact ready_nodeIds_of_pipelined n b hp
      have hshards := @shardSlots_pipelineShards row (args.ready row n b)
        (rowNodeIds row (bindNodeId args row)) (strOr row.selectedServiceId) (strOr row.kvKey)
        row.kvBytes layout rfl
      rw [rowShards, hids] at hs
      rw [rowShards, ← hshards]
      exact hs
    · rename_i hp
      rw [if_neg hp]
      rcases @ready_boundNode row args n b with hb | hb
      · rw [hb] at hs
        simp at hs
      · rw [hb] at hs
        exact hs

end Rows

/-! ## Blocks -/

section Blocks

variable {op : Op} {db₀ db db' : Db} {row : RequestRow} {rid : String}

theorem tenant_of_request? (h : db.request? rid = some row) : db.tenant rid = row.tenancy := by
  simp [Db.tenant, h]

theorem tenant_congr (h : db'.request? = db.request?) : db'.tenant = db.tenant := by
  funext k
  simp only [Db.tenant, h]

theorem tenant_update {row' : RequestRow}
    (h : db'.request? = Function.update db.request? rid (some row')) :
    db'.tenant = Function.update db.tenant rid row'.tenancy := by
  funext k
  by_cases hk : k = rid
  · subst hk
    simp [Db.tenant, h]
  · simp [Db.tenant, h, Function.update_of_ne hk]

/-- A turn that leaves its row's tenancy alone leaves them all alone. -/
theorem tenant_same {row' : RequestRow} (hrow : db.request? rid = some row)
    (h : db'.request? = Function.update db.request? rid (some row'))
    (ht : row'.tenancy = row.tenancy) : db'.tenant = db.tenant := by
  rw [tenant_update h, ht, ← tenant_of_request? hrow, Function.update_eq_self]

theorem tenant_ended {row' : RequestRow}
    (h : db'.request? = Function.update db.request? rid (some row')) (hs : row'.serving = false) :
    db'.tenant = Function.update db.tenant rid none := by
  rw [tenant_update h, tenancy_none hs]

theorem submitted_tenancy (h : Submitted row) : row.tenancy = none := by
  cases hk : row.requestKind with
  | model =>
    have hs : row.state = .queued := by
      rw [h.start, hk]
      rfl
    exact tenancy_none (by simp [RequestRow.serving, hs])
  | cpu => simp [RequestRow.tenancy, RequestRow.needsKv, h.cpuKv hk]

theorem heartbeat_tenant (args : HeartbeatArgs) : (heartbeat args db).1.tenant = db.tenant := by
  funext k
  unfold Db.tenant
  rw [heartbeat_request?]
  cases db.request? k with
  | none => rfl
  | some r =>
    simp only [Option.map_some, Option.bind_some]
    split <;> rfl

theorem cancel_kvStep {args : CancelArgs} {target : CancelTarget} (hop : op = .cancel args)
    (ht : args.target = .ok target) (h₀ : row ∈ db₀.cancelRows target)
    (hrow : db.request? row.requestId = some row) :
    KvStep op db₀ db (execAll (cancelTurn args row) db) := by
  have hreq := cancel_request? args hrow
  have hpool := @cancel_pool db row args
  unfold CancelArgs.turned at hreq
  cases hc : args.choice row with
  | skip =>
    rw [hc] at hreq hpool
    exact .quiet (tenant_same hrow hreq rfl) hpool
  | mark =>
    rw [hc] at hreq hpool
    exact .quiet (tenant_same hrow hreq rfl) hpool
  | force | cancel =>
    rw [hc] at hreq hpool
    subst hop
    exact .freed row.requestId ⟨target, ht, row, h₀, rfl, by simp [hc]⟩ id
      (tenant_ended hreq rfl) (.inl hpool)

theorem reap_kvStep {args : ReapArgs} (hop : op = .requeueExpiredLeases args)
    (h₀ : row ∈ db₀.expiredRows args.now) (hrow : db.request? row.requestId = some row) :
    KvStep op db₀ db (execAll (reapTurn args row) db) := by
  subst hop
  have ht := tenant_ended (reap_request? args hrow) (turned_not_serving args)
  have hpool := @reap_pool db row args
  cases hf : args.fails row with
  | true =>
    rw [hf, if_pos rfl] at hpool
    exact .left row.requestId ⟨row, h₀, rfl, hf⟩ ht hpool
  | false =>
    rw [hf, if_neg Bool.false_ne_true] at hpool
    refine .freed row.requestId ⟨row, h₀, rfl⟩ ?_ ht (.inl hpool)
    rintro ⟨r, hr, hid, hfail⟩
    have hsame : r = row :=
      Table.eq_of_key ((expiredRows_subperm _ _).subset hr) ((expiredRows_subperm _ _).subset h₀) hid
    rw [hsame, hf] at hfail
    cases hfail

theorem finish_kvStep {args : FinishArgs} (hop : op = .finishRequest args)
    (ht : args.state.isTerminal = true) (h : db₀.running? args.requestId args.leaseId = some row) :
    KvStep op db₀ db₀ (execAll (finishActions args row) db₀) := by
  subst hop
  have hterm : (args.final row).isTerminal = true := by
    unfold FinishArgs.final
    split
    · rfl
    · exact ht
  have hend := tenant_ended (finish_request? h) (not_serving_of_terminal hterm)
  have hpool := @finish_pool db₀ row args
  cases hk : pyTrue row.kvKey with
  | true =>
    rw [hk, if_pos rfl] at hpool
    exact .freed args.requestId ⟨rfl, ht, by simp [h]⟩ id hend (.inr hpool)
  | false =>
    rw [hk, if_neg Bool.false_ne_true] at hpool
    -- without a key the request relied on nothing
    have hnone : db₀.tenant args.requestId = none := by
      rw [tenant_of_request? (running?_eq_some.mp h).1]
      simp [RequestRow.tenancy, RequestRow.needsKv, hk]
    refine .quiet ?_ hpool
    rw [hend, ← hnone, Function.update_eq_self]

theorem prefilled_kvStep {db₁ : Db} {args : PrepareArgs} (uuid : String)
    (hop : op = .prepareReady args) (h₀ : db₀.request? row.requestId = some row)
    (hrow : db.request? row.requestId = some row) (hs : row.state = .queued)
    (h : db.reserveKv row (bindNodeId args row) args.kvCapacityBytes args.now (args.layout row) =
      some db₁) : KvStep op db₀ db (db₁.prefilled args uuid row) := by
  obtain ⟨n, b, hreq⟩ := prefilled_request? uuid hrow hs h
  have ht : (db₁.prefilled args uuid row).tenant =
      Function.update db.tenant row.requestId (args.ready row n b).tenancy := tenant_update hreq
  have hpool : (db₁.prefilled args uuid row).pool = db₁.pool := by
    simp only [Db.prefilled, pool_event, pool_updateRequests]
  have hres := reserveKv_reserves h
  rw [← hpool] at hres
  have hfree : db.tenant row.requestId = none := by
    rw [tenant_of_request? hrow, tenancy_none (by simp [RequestRow.serving, hs])]
  refine .reserved args row _ _ hop h₀ hs hfree ht ?_ ?_ hres
  · intro s hslot
    cases hn : row.needsKv with
    | false => simp [RequestRow.slots, hn] at hslot
    | true =>
      have hready := @tenancy_some (args.ready row n b) rfl hn
      rw [hready]
      rfl
  · intro f hf s hslot
    cases hn : row.needsKv with
    | false => simp [RequestRow.tenancy, ready_needsKv, hn] at hf
    | true =>
      have hready := @tenancy_some (args.ready row n b) rfl hn
      rw [hready] at hf
      cases hf
      exact ready_slots n b _ s hslot

theorem Block.kvStep (h : Block op db₀ db db') : KvStep op db₀ db db' := by
  cases h with
  | batches b => exact .quiet rfl rfl
  | submit row hrow h =>
    obtain ⟨hfresh, hreq, _⟩ := insertRequest_request? h
    have ht : db'.tenant = db.tenant := by
      have hnone : db.tenant row.requestId = none := by simp [Db.tenant, hfresh]
      rw [tenant_update hreq, submitted_tenancy hrow, ← hnone, Function.update_eq_self]
    refine .quiet ht ?_
    unfold Db.insertRequest at h
    split at h
    · cases h
    · cases h
      exact pool_congr rfl rfl
  | capacityWait args row hop hrow hs => exact .quiet rfl (pool_event _ _ _ _ _ _)
  | prefilled args row uuid hop h₀ hrow hs h => exact prefilled_kvStep uuid hop h₀ hrow hs h
  | lease args first count hop hreach =>
    obtain ⟨_, _, hk, hks⟩ := @claimLease_frame db₀ args first count
    exact .quiet (tenant_congr (claimLease_request? args first count)) (pool_congr hk hks)
  | started args row lease computeLease hop hrow hs hl =>
    refine .quiet (tenant_same hrow (started_request? args lease computeLease hrow hs)
      (claim_tenancy args lease computeLease hs)) ?_
    simp only [Db.started, pool_event, pool_updateRequests]
  | finish args row hop ht h => exact finish_kvStep hop ht h
  | retry args row hop h =>
    subst hop
    exact .freed args.requestId ⟨rfl, by simp [h]⟩ id
      (tenant_ended (retry_request? h) (settled_not_serving args)) (.inl (retry_pool args))
  | cancel args target row hop ht h₀ hrow => exact cancel_kvStep hop ht h₀ hrow
  | dropExpired args hop => exact .quiet rfl rfl
  | reap args row hop h₀ hrow hs => exact reap_kvStep hop h₀ hrow
  | heartbeat args hop => exact .quiet (heartbeat_tenant args) rfl
  | delta args hop =>
    unfold Queue.streamDelta
    split
    · exact .quiet rfl rfl
    · exact .quiet rfl (pool_event _ _ _ _ _ _)

end Blocks

end Queue
end Ds4Spark
