import Ds4Spark.Queue.Loop
import Ds4Spark.Queue.System

/-!
# Ds4Spark.Queue.Block

Every operation as a sequence of small steps, `Block`, each of which touches one request at most.

* `Block op db₀`: the steps operation `op` takes when it starts in `db₀`, with what the operation
  knows at that point about the row it works on.
* `next_blocks`: the operation is a sequence of its blocks.

No request is ever in state `prefilling` (`NoPrefilling`): the state is read, never written.
-/

namespace Ds4Spark
namespace Queue

/-- The state a request of a kind is submitted in. -/
def RequestKind.start : RequestKind → RequestState
  | .model => .queued
  | .cpu => .ready

/-- A row as submission inserts it. -/
structure Submitted (row : RequestRow) : Prop where
  start : row.state = row.requestKind.start
  unflagged : row.cancelRequested = false
  unclaimed : row.attemptCount = 0
  cpuKv : row.requestKind = .cpu → row.kvKey = none
  domain : row.selectedServiceId = none → row.selectedComputeDomain = none

/-- The compute lease a row is claimed under: that of its domain, and of its service. -/
def Leased (db : Db) (args : ClaimArgs) (row : RequestRow) (computeLeaseId : Option String) : Prop :=
  args.scope.shareComputeDomain = true ∨ strOr row.selectedComputeDomain = "" ∨
    ∃ l, db.computeLeases.find? (strOr row.selectedComputeDomain) = some l ∧
      computeLeaseId = some l.computeLeaseId ∧ strOr l.serviceId = strOr row.selectedServiceId

/-- A claim that gets as far as its compute lease, for a cohort that starts with `first`. -/
def Db.claimReaches (db : Db) (args : ClaimArgs) (first : RequestRow) : Prop :=
  ∃ rest, db.claimRows args = first :: rest ∧ db.claimWaits args first (first :: rest) = false

inductive Block (op : Op) (db₀ : Db) : Db → Db → Prop where
  | batches (db : Db) (b : Table BatchRow BatchRow.batchId) : Block op db₀ db { db with batches := b }
  | submit {db db' : Db} (row : RequestRow) {payload : JsonObj} {now : Time} (hrow : Submitted row)
      (h : db.insertRequest row payload now = .ok db') : Block op db₀ db db'
  | capacityWait {db : Db} (args : PrepareArgs) (row : RequestRow) (hop : op = .prepareReady args)
      (hrow : db.request? row.requestId = some row) (hs : row.state = .queued) :
      Block op db₀ db (db.capacityWait args row)
  | prefilled {db db₁ : Db} (args : PrepareArgs) (row : RequestRow) (uuid : String)
      (hop : op = .prepareReady args) (h₀ : db₀.request? row.requestId = some row)
      (hrow : db.request? row.requestId = some row) (hs : row.state = .queued)
      (h : db.reserveKv row (bindNodeId args row) args.kvCapacityBytes args.now (args.layout row) =
        some db₁) : Block op db₀ db (db₁.prefilled args uuid row)
  | lease (args : ClaimArgs) (first : RequestRow) (count : Nat) (hop : op = .claimReadyBatch args)
      (hreach : db₀.claimReaches args first) :
      Block op db₀ db₀ (db₀.claimLease args first count).1
  | started {db : Db} (args : ClaimArgs) (row : RequestRow) (lease : String)
      (computeLease : Option String) (hop : op = .claimReadyBatch args)
      (hrow : db.request? row.requestId = some row) (hs : row.state = .ready)
      (hl : Leased db args row computeLease) :
      Block op db₀ db (db.started args lease computeLease row)
  | finish (args : FinishArgs) (row : RequestRow) (hop : op = .finishRequest args)
      (ht : args.state.isTerminal = true) (h : db₀.running? args.requestId args.leaseId = some row) :
      Block op db₀ db₀ (execAll (finishActions args row) db₀)
  | retry (args : RetryArgs) (row : RequestRow) (hop : op = .retryTransportFailure args)
      (h : db₀.running? args.requestId args.leaseId = some row) :
      Block op db₀ db₀ (execAll (retryActions args row) db₀)
  | cancel {db : Db} (args : CancelArgs) (target : CancelTarget) (row : RequestRow)
      (hop : op = .cancel args) (ht : args.target = .ok target) (h₀ : row ∈ db₀.cancelRows target)
      (hrow : db.request? row.requestId = some row) :
      Block op db₀ db (execAll (cancelTurn args row) db)
  | dropExpired (args : ReapArgs) (hop : op = .requeueExpiredLeases args) :
      Block op db₀ db₀ (db₀.dropUnusedExpiredLeases args.now)
  | reap {db : Db} (args : ReapArgs) (row : RequestRow) (hop : op = .requeueExpiredLeases args)
      (h₀ : row ∈ db₀.expiredRows args.now) (hrow : db.request? row.requestId = some row)
      (hs : row.state = .running) : Block op db₀ db (execAll (reapTurn args row) db)
  | heartbeat (args : HeartbeatArgs) (hop : op = .heartbeat args) :
      Block op db₀ db₀ (Queue.heartbeat args db₀).1
  | delta (args : DeltaArgs) (hop : op = .streamDelta args) :
      Block op db₀ db₀ (Queue.streamDelta args db₀)

/-- No request is in state `prefilling`. -/
def NoPrefilling (db : Db) : Prop := ∀ row ∈ db.requests.rows, row.state ≠ .prefilling

section Blocks

open Relation (ReflTransGen)

variable {op : Op} {db₀ db db' : Db}

theorem Block.refreshBatches (now : Time) (bs : List String) :
    ReflTransGen (Block op db₀) db (db.refreshBatches now bs) := by
  obtain ⟨b, hb⟩ := refreshBatches_eq db now bs
  rw [hb]
  exact .single (.batches db b)

/-! ## Submission -/

theorem modelRow_submitted (env : SubmitEnv) (req : InferenceRequest) (batchId profileId : String)
    (priority : Int) (assignment : Option SparkAssignment) (now : Time) :
    Submitted (modelRow env req batchId profileId priority assignment now) := by
  cases assignment with
  | none => exact ⟨rfl, rfl, rfl, nofun, fun _ => rfl⟩
  | some a => exact ⟨rfl, rfl, rfl, nofun, a.domainOfService⟩

theorem cpuRow_submitted (args : SubmitCpuArgs) (batchId : String) (priority : Int) (n : Nat)
    (item : JsonObj) : Submitted (cpuRow args batchId priority n item) :=
  ⟨rfl, rfl, rfl, fun _ => rfl, fun _ => rfl⟩

/-- The row of a turn of the submission loop that goes through. -/
theorem submitRow_eq {args : SubmitArgs} {batchId : String} {load load' : List (String × Nat)}
    {req : InferenceRequest} {row : RequestRow}
    (h : submitRow args batchId load req = .ok (row, load')) :
    ∃ profileId priority assignment, requestPriority req args.priority = .ok priority ∧
      row = modelRow args.env req batchId profileId priority assignment args.now := by
  obtain ⟨_, _, h⟩ := bind_eq_ok h
  obtain ⟨profileId, _, h⟩ := bind_eq_ok h
  obtain ⟨priority, hpriority, h⟩ := bind_eq_ok h
  obtain ⟨assignment, _, h⟩ := bind_eq_ok h
  cases h
  exact ⟨profileId, priority, _, hpriority, rfl⟩

theorem submitLoop_blocks (args : SubmitArgs) (batchId : String) (reqs : List InferenceRequest)
    {load : List (String × Nat)} {rows : List RequestRow}
    (h : submitLoop args batchId load reqs db = .ok (db', rows)) :
    ReflTransGen (Block op db₀) db db' := by
  induction reqs generalizing load db rows with
  | nil =>
    cases h
    exact .refl
  | cons req reqs ih =>
    obtain ⟨⟨row, load'⟩, hrow, h⟩ := bind_eq_ok h
    obtain ⟨db₁, hins, h⟩ := bind_eq_ok h
    obtain ⟨⟨db₂, rows'⟩, hrest, h⟩ := bind_eq_ok h
    cases h
    obtain ⟨profileId, priority, assignment, _, rfl⟩ := submitRow_eq hrow
    exact (ih hrest).head (.submit _ (modelRow_submitted _ _ _ _ _ _ _) hins)

theorem submitCpuLoop_blocks (args : SubmitCpuArgs) (batchId : String) (priority : Int)
    (items : List JsonObj) {n : Nat} {rows : List RequestRow}
    (h : submitCpuLoop args batchId priority n items db = .ok (db', rows)) :
    ReflTransGen (Block op db₀) db db' := by
  induction items generalizing n db rows with
  | nil =>
    cases h
    exact .refl
  | cons item items ih =>
    obtain ⟨db₁, hins, h⟩ := bind_eq_ok h
    obtain ⟨⟨db₂, rows'⟩, hrest, h⟩ := bind_eq_ok h
    cases h
    exact (ih hrest).head (.submit _ (cpuRow_submitted _ _ _ _ _) hins)

theorem insertBatch_eq {batchId : String} {now : Time} (h : db.insertBatch batchId now = .ok db') :
    ∃ b, db' = { db with batches := b } := by
  unfold Db.insertBatch at h
  split at h
  · cases h
  · cases h
    exact ⟨_, rfl⟩

/-- The batch id a call works under. -/
def SubmitArgs.bid (args : SubmitArgs) : String :=
  if pyTrue args.batchId then strOr args.batchId else "batch-" ++ args.uuid

/-- The two ways `submit_requests` can go through: the batch is there already, or it is inserted. -/
theorem submitRequests_ok {args : SubmitArgs} {r : SubmitResult}
    (h : submitRequests args db = .ok (db', r)) :
    (db.existingSubmission args args.bid = .ok (some r) ∧ db' = db) ∨
    (db.existingSubmission args args.bid = .ok none ∧ ∃ db₁ db₂ rows,
      db.insertBatch args.bid args.now = .ok db₁ ∧
      submitLoop args args.bid [] args.requests db₁ = .ok (db₂, rows) ∧
      db' = db₂.refreshBatch args.now args.bid ∧ r = submitResult args.bid rows) := by
  unfold submitRequests at h
  split at h
  · cases h
  · obtain ⟨existing, hex, h⟩ := bind_eq_ok h
    cases existing with
    | some e =>
      cases h
      exact .inl ⟨hex, rfl⟩
    | none =>
      obtain ⟨db₁, hb, h⟩ := bind_eq_ok h
      obtain ⟨⟨db₂, rows⟩, hloop, h⟩ := bind_eq_ok h
      cases h
      exact .inr ⟨hex, db₁, db₂, rows, hb, hloop, rfl, rfl⟩

theorem submitRequests_blocks (args : SubmitArgs) (db : Db) :
    ReflTransGen (Block op db₀) db (committed db (submitRequests args db)) := by
  cases h : submitRequests args db with
  | error e => exact .refl
  | ok res =>
    obtain ⟨db', r⟩ := res
    simp only [committed]
    rcases submitRequests_ok h with ⟨_, rfl⟩ | ⟨_, db₁, db₂, rows, hb, hloop, rfl, _⟩
    · exact .refl
    · obtain ⟨b, rfl⟩ := insertBatch_eq hb
      refine ReflTransGen.head (.batches db b) ?_
      exact (submitLoop_blocks args _ _ hloop).tail (.batches db₂ _)

/-- The one way `submit_cpu_requests` can go through. -/
theorem submitCpuRequests_ok {args : SubmitCpuArgs} {r : SubmitResult}
    (h : submitCpuRequests args db = .ok (db', r)) : ∃ bid priority db₁ db₂ rows,
      db.insertBatch bid args.now = .ok db₁ ∧
      submitCpuLoop args bid priority 0 args.items db₁ = .ok (db₂, rows) ∧
      db' = db₂.refreshBatch args.now bid := by
  obtain ⟨priority, _, h⟩ := bind_eq_ok h
  split at h
  · cases h
  · unfold submitCpuItems at h
    obtain ⟨db₁, hb, h⟩ := bind_eq_ok h
    obtain ⟨⟨db₂, rows⟩, hloop, h⟩ := bind_eq_ok h
    cases h
    exact ⟨_, priority, db₁, db₂, rows, hb, hloop, rfl⟩

theorem submitCpuRequests_blocks (args : SubmitCpuArgs) (db : Db) :
    ReflTransGen (Block op db₀) db (committed db (submitCpuRequests args db)) := by
  cases h : submitCpuRequests args db with
  | error e => exact .refl
  | ok res =>
    obtain ⟨db', r⟩ := res
    simp only [committed]
    obtain ⟨bid, priority, db₁, db₂, rows, hb, hloop, rfl⟩ := submitCpuRequests_ok h
    obtain ⟨b, rfl⟩ := insertBatch_eq hb
    refine ReflTransGen.head (.batches db b) ?_
    exact (submitCpuLoop_blocks args _ _ _ hloop).tail (.batches db₂ _)

/-! ## `prepare_ready` -/

theorem prepareLoop_blocks {args : PrepareArgs} (hop : op = .prepareReady args)
    (rows : List RequestRow) {n : Nat} (hcur : Current rows db)
    (hrows : ∀ row ∈ rows, row.state = .queued ∧ db₀.request? row.requestId = some row) :
    ReflTransGen (Block op db₀) db (prepareLoop args n rows db).1 := by
  induction rows generalizing n db with
  | nil => exact .refl
  | cons row rows ih =>
    obtain ⟨hs, h₀⟩ := hrows row (by simp)
    have hrest := fun r hr => hrows r (List.mem_cons_of_mem row hr)
    simp only [prepareLoop]
    cases h : db.reserveKv row (bindNodeId args row) args.kvCapacityBytes args.now (args.layout row) with
    | none =>
      rw [prepareRow_waits (args.uuid n) h]
      have hcur' : Current rows (db.capacityWait args row) := hcur.tail (fun k _ => rfl)
      exact (ih hcur' hrest).head (.capacityWait args row hop hcur.head hs)
    | some db₁ =>
      rw [prepareRow_ready (args.uuid n) hcur.head hs h]
      have hcur' : Current rows (db₁.prefilled args (args.uuid n) row) := by
        obtain ⟨_, _, hreq⟩ := prefilled_request? (args.uuid n) hcur.head hs h
        refine hcur.tail (fun k hk => ?_)
        rw [hreq, Function.update_of_ne hk]
      exact (ih hcur' hrest).head (.prefilled args row (args.uuid n) hop h₀ hcur.head hs h)

theorem prepareReady_blocks {args : PrepareArgs} (hop : op = .prepareReady args) :
    ReflTransGen (Block op db) db (prepareReady args db).1 := by
  unfold prepareReady
  simp only
  split
  · exact .refl
  · refine ReflTransGen.trans (prepareLoop_blocks hop _ (queuedRows_current _ _ _ _) ?_)
      (Block.refreshBatches args.now _)
    intro row hrow
    exact ⟨queuedRows_queued hrow, (queuedRows_current _ _ _ _).stored row hrow⟩

/-! ## `claim_ready_batch` -/

theorem find?_renewLeases (p : ComputeLease → Bool) (now ttl : Time) (added : Nat) (d : String) :
    (db.renewLeases p now ttl added).computeLeases.find? d =
      (db.computeLeases.find? d).map (fun l => if p l then l.renew now ttl added else l) :=
  Table.find?_update _ _ _ (ComputeLease.renew_domain now ttl added) _

/-- The lease step of a claim: shared, extended or acquired. -/
theorem claimLease_cases (args : ClaimArgs) (first : RequestRow) (count : Nat) :
    (args.scope.shareComputeDomain = true ∧ db.claimLease args first count = (db, .noDomain)) ∨
    (pyTrue args.computeLeaseId = true ∧ ExtendOutcome db first (strOr args.computeLeaseId)
      args.leaseTtlS args.now (db.claimLease args first count)) ∨
    (pyTrue args.computeLeaseId = false ∧ AcquireOutcome db first args.leasedBy args.computeUuid
      args.leaseTtlS args.now (db.claimLease args first count)) := by
  unfold Db.claimLease
  split
  · rename_i hshare
    exact .inl ⟨hshare, rfl⟩
  · split
    · rename_i hid
      exact .inr (.inl ⟨hid, extendComputeLease_cases _ _ _ _ _ _ _ _⟩)
    · rename_i hid
      exact .inr (.inr ⟨Bool.eq_false_iff.mpr hid, acquireComputeLease_cases _ _ _ _ _ _ _ _⟩)

/-- The lease a claim acquires or extends is that of its first row's domain and service. -/
theorem claimLease_leased {args : ClaimArgs} {first : RequestRow} {count : Nat}
    (h : (db.claimLease args first count).2 ≠ .refused) :
    Leased (db.claimLease args first count).1 args first (db.claimLease args first count).2.id? := by
  have hcases := @claimLease_cases db args first count
  generalize db.claimLease args first count = out at h hcases
  rcases hcases with ⟨hshare, _⟩ | ⟨_, hout⟩ | ⟨_, hout⟩
  · exact .inl hshare
  · cases hout with
    | noDomain hd => exact .inr (.inl hd)
    | refused => exact absurd rfl h
    | renewed n l hl hlid hd hs =>
      refine .inr (.inr ⟨l.renew args.now args.leaseTtlS n, ?_, congrArg some hlid.symm, hs⟩)
      have hf : db.computeLeases.find? (strOr first.selectedComputeDomain) = some l :=
        hd ▸ Table.find?_of_mem hl
      rw [find?_renewLeases, hf]
      simp [hlid]
  · cases hout with
    | noDomain hd => exact .inr (.inl hd)
    | refused hd => exact absurd rfl h
    | renewed n l hd hl hs =>
      refine .inr (.inr ⟨l.renew args.now args.leaseTtlS n, ?_, rfl, ?_⟩)
      · rw [find?_renewLeases, hl]
        simp [(Table.find?_some hl).2]
      · rw [← strOr_serviceOrNone first.selectedServiceId, ← hs, strOr_serviceOrNone]
        rfl
    | fresh n hd hl =>
      refine .inr (.inr ⟨_, (Table.find?_replace _ _ _).trans (if_pos rfl), rfl, ?_⟩)
      exact strOr_serviceOrNone _

theorem claimLease_frame (args : ClaimArgs) (first : RequestRow) (count : Nat) :
    (db.claimLease args first count).1.requests = db.requests ∧
    (db.claimLease args first count).1.events = db.events ∧
    (db.claimLease args first count).1.kvEntries = db.kvEntries ∧
    (db.claimLease args first count).1.kvShardEntries = db.kvShardEntries := by
  have hcases := @claimLease_cases db args first count
  generalize db.claimLease args first count = out at hcases
  rcases hcases with ⟨_, rfl⟩ | ⟨_, hout⟩ | ⟨_, hout⟩
  · exact ⟨rfl, rfl, rfl, rfl⟩
  · cases hout <;> exact ⟨rfl, rfl, rfl, rfl⟩
  · cases hout <;> exact ⟨rfl, rfl, rfl, rfl⟩

theorem claimLease_request? (args : ClaimArgs) (first : RequestRow) (count : Nat) :
    (db.claimLease args first count).1.request? = db.request? := by
  funext k
  rw [Db.request?, (claimLease_frame args first count).1]
  rfl

/-- A claim loop over current rows claims them all, one block each. -/
theorem claimLoop_blocks {args : ClaimArgs} (hop : op = .claimReadyBatch args)
    {computeLease : Option String} (rows : List RequestRow) (n : Nat) (hcur : Current rows db)
    (hrows : ∀ row ∈ rows, row.state = .ready ∧ Leased db args row computeLease) :
    ReflTransGen (Block op db₀) db (claimLoop args computeLease n rows db).1 ∧
      (claimLoop args computeLease n rows db).2.map QueueClaim.requestId =
        rows.map RequestRow.requestId := by
  induction rows generalizing n db with
  | nil => exact ⟨.refl, rfl⟩
  | cons row rows ih =>
    obtain ⟨hs, hl⟩ := hrows row (by simp)
    simp only [claimLoop]
    rw [claimRow_ready args _ computeLease hcur.head hs]
    have hcur' : Current rows
        (db.started args (args.leasedBy ++ ":run:" ++ args.uuid n) computeLease row) := by
      refine hcur.tail (fun k hk => ?_)
      rw [started_request? args _ computeLease hcur.head hs, Function.update_of_ne hk]
    obtain ⟨hsteps, hids⟩ := ih (n + 1) hcur'
      (fun r hr => hrows r (List.mem_cons_of_mem row hr))
    refine ⟨hsteps.head (.started args row _ _ hop hcur.head hs hl), ?_⟩
    simp [hids, claimOf]

/-- The ways `claim_ready_batch` can go: it waits, it gets no lease, or it claims all its rows. -/
inductive ClaimOutcome (args : ClaimArgs) (db : Db) : Db × List QueueClaim → Prop where
  | waits : ClaimOutcome args db (db, [])
  | refused (first : RequestRow) (count : Nat) (hreach : db.claimReaches args first) :
      ClaimOutcome args db ((db.claimLease args first count).1, [])
  | claimed (first : RequestRow) (count : Nat) (id : Option String) (batchIds : List String)
      (hreach : db.claimReaches args first)
      (hcur : Current (db.claimRows args) (db.claimLease args first count).1)
      (hrows : ∀ row ∈ db.claimRows args, row.state = .ready ∧
        Leased (db.claimLease args first count).1 args row id) :
      ClaimOutcome args db
        ((claimLoop args id 0 (db.claimRows args) (db.claimLease args first count).1).1.refreshBatches
            args.now batchIds,
          (claimLoop args id 0 (db.claimRows args) (db.claimLease args first count).1).2)

theorem claimReadyBatch_cases (args : ClaimArgs) (db : Db) :
    ClaimOutcome args db (claimReadyBatch args db) := by
  unfold claimReadyBatch
  cases hrows : db.claimRows args with
  | nil => exact .waits
  | cons first rest =>
    simp only
    split
    · exact .waits
    rename_i hwait
    have hreach : db.claimReaches args first := ⟨rest, hrows, Bool.eq_false_iff.mpr hwait⟩
    have hleased := @claimLease_leased db args first (first :: rest).length
    split
    · exact .refused first _ hreach
    rename_i hacq
    have hcur : Current (db.claimRows args) (db.claimLease args first (first :: rest).length).1 := by
      have hc := claimRows_current db args
      exact ⟨hc.nodup, fun r hr => by rw [claimLease_request?]; exact hc.stored r hr⟩
    obtain ⟨service, domain, _, hspec⟩ := claimRows_spec db args
    have hfirst := hspec first (by simp [hrows])
    have hall : ∀ row ∈ db.claimRows args, row.state = .ready ∧
        Leased (db.claimLease args first (first :: rest).length).1 args row
          (db.claimLease args first (first :: rest).length).2.id? := by
      intro row hrow
      obtain ⟨hs, hsv, hd⟩ := hspec row hrow
      refine ⟨hs, ?_⟩
      have hl := hleased (fun he => hacq he)
      unfold Leased at hl ⊢
      rw [hsv, hd, ← hfirst.2.1, ← hfirst.2.2]
      exact hl
    have hids := (@claimLoop_blocks (.claimReadyBatch args) db _ args rfl _ _ 0 hcur hall).2
    have hout := ClaimOutcome.claimed first _ _ ((claimLoop args
      (db.claimLease args first (first :: rest).length).2.id? 0 (db.claimRows args)
      (db.claimLease args first (first :: rest).length).1).2.map QueueClaim.batchId).dedup hreach hcur hall
    rw [hrows] at hids hout
    -- every row was claimed, the first one among them, so the lease stays
    have hsome : (claimLoop args (db.claimLease args first (first :: rest).length).2.id? 0
        (first :: rest) (db.claimLease args first (first :: rest).length).1).2.isEmpty = false := by
      rw [List.isEmpty_eq_false_iff]
      intro hnil
      rw [hnil] at hids
      cases hids
    simp only [hsome, Bool.false_eq_true, false_and, if_false]
    exact hout

theorem claimReadyBatch_blocks {args : ClaimArgs} (hop : op = .claimReadyBatch args) :
    ReflTransGen (Block op db) db (claimReadyBatch args db).1 := by
  have hcases := claimReadyBatch_cases args db
  generalize claimReadyBatch args db = out at hcases
  cases hcases with
  | waits => exact .refl
  | refused first count hreach => exact .single (.lease args first count hop hreach)
  | claimed first count id batchIds hreach hcur hrows =>
    have hsteps := (@claimLoop_blocks op db _ args hop id _ 0 hcur hrows).1
    exact (hsteps.head (.lease args first count hop hreach)).trans (Block.refreshBatches args.now batchIds)

/-! ## The other operations -/

theorem cancel_blocks {args : CancelArgs} (hop : op = .cancel args) :
    ReflTransGen (Block op db) db (committed db (cancel args db)) := by
  cases h : cancel args db with
  | error e => exact .refl
  | ok res =>
    obtain ⟨target, ht, h⟩ := bind_eq_ok h
    cases h
    simp only [committed]
    obtain ⟨db', hsteps, heq⟩ := @cancelled_steps db args target (Block op db)
      (fun row hr db hc => .cancel args target row hop ht hr hc)
    change ReflTransGen (Block op db) db (db.cancelled args target)
    rw [heq]
    exact hsteps.trans (Block.refreshBatches args.now _)

theorem expired_running (hpre : NoPrefilling db) {now : Time} {row : RequestRow}
    (h : row ∈ db.expiredRows now) : row.state = .running := by
  obtain ⟨hm, hs, _⟩ := mem_expiredRows.mp h
  exact hs.resolve_left (hpre row hm)

theorem reap_blocks (hpre : NoPrefilling db) {args : ReapArgs}
    (hop : op = .requeueExpiredLeases args) :
    ReflTransGen (Block op db) db (requeueExpiredLeases args db).1 := by
  have hsteps := @reaped_steps db args (Block op db)
    (fun row hr db' hc => .reap args row hop hr hc (expired_running hpre hr))
  exact hsteps.head (.dropExpired args hop)

/-- Without a `prefilling` request the release after a restart does nothing. -/
theorem releasePrefilling_eq (hpre : NoPrefilling db) (reason : String) (staleS now : Time) :
    (releasePrefilling reason staleS now db).1 = db := by
  have hrows : db.prefillingRows staleS now = [] := by
    have hsel : db.requests.select (fun r => r.state = .prefilling ∧
        (staleS ≤ 0 ∨ r.updatedAt ≤ now - staleS)) = [] := by
      rw [Table.select, List.filter_eq_nil_iff]
      intro r hr
      simp [hpre r hr]
    rw [Db.prefillingRows, hsel, List.insertionSort_nil]
  have hdedup : ([] : List String).dedup = [] := rfl
  unfold releasePrefilling
  simp [hrows, hdedup, Db.refreshBatches, Db.updateRequests, Table.update]

theorem next_blocks (hpre : NoPrefilling db) (op : Op) :
    ReflTransGen (Block op db) db (op.next db) := by
  cases op with
  | submitRequests args => exact submitRequests_blocks args db
  | submitCpuRequests args => exact submitCpuRequests_blocks args db
  | prepareReady args => exact prepareReady_blocks rfl
  | claimReadyBatch args => exact claimReadyBatch_blocks rfl
  | finishRequest args =>
    simp only [Op.next, finishRequest]
    split
    · exact .refl
    · rename_i ht
      split
      · exact .refl
      · rename_i row h
        exact .single (.finish args row rfl (by simpa using ht) h)
  | retryTransportFailure args =>
    simp only [Op.next, retryTransportFailure]
    split
    · exact .refl
    · rename_i row h
      exact .single (.retry args row rfl h)
  | cancel args => exact cancel_blocks rfl
  | requeueExpiredLeases args => exact reap_blocks hpre rfl
  | heartbeat args => exact .single (.heartbeat args rfl)
  | streamDelta args => exact .single (.delta args rfl)
  | releasePrefilling reason staleS now =>
    rw [Op.next, releasePrefilling_eq hpre]
  | status batchId now => exact .single (.batches db _)

end Blocks

end Queue
end Ds4Spark
