import Ds4Spark.Queue.Conc
import Mathlib.Data.List.Perm.Subperm

/-!
# Ds4Spark.Queue.Quiet

How the requests on a node get there. `prepare_ready` is the only operation that puts a request on a
node and into `ready`; everything else leaves the depth of a node as it is or lowers it, whatever was
read earlier.

* `onNode`: what `_node_depth` counts; `nodeDepth_le`, `nodeDepth_le_succ` compare two counts by id.
* `Onward`: how a request's node goes on from a row that was read earlier.
* `Quiet`: a step that moves every request onward and puts none on the node.
-/

namespace Ds4Spark
namespace Queue

/-- What `_node_depth` counts. -/
def onNode (node : String) (r : RequestRow) : Bool :=
  r.requestKind = .model ∧ (r.state = .prefilling ∨ r.state = .ready ∨ r.state = .running) ∧
    r.selectedNodeId = some node

theorem nodeDepth_eq (db : Db) (node : String) :
    db.nodeDepth node = (db.requests.select (onNode node)).length := rfl

def Db.counts (db : Db) (node rid : String) : Bool := (db.request? rid).any (onNode node)

section Counting

variable {db db' : Db} {node : String}

theorem mem_counted {rid : String} :
    rid ∈ (db.requests.select (onNode node)).map RequestRow.requestId ↔
      db.counts node rid = true := by
  constructor
  · intro h
    obtain ⟨r, hr, rfl⟩ := List.mem_map.mp h
    obtain ⟨hm, hon⟩ := Table.mem_select.mp hr
    rw [Db.counts, mem_rows_request? hm]
    exact hon
  · intro h
    cases hr : db.request? rid with
    | none => simp [Db.counts, hr] at h
    | some r =>
      obtain ⟨hm, rfl⟩ := Table.find?_some hr
      refine List.mem_map.mpr ⟨r, Table.mem_select.mpr ⟨hm, ?_⟩, rfl⟩
      simpa [Db.counts, hr] using h

theorem nodeDepth_le_of_subset {ids : List String}
    (h : ∀ rid, db'.counts node rid = true → rid ∈ ids) : db'.nodeDepth node ≤ ids.length := by
  have hnodup : ((db'.requests.select (onNode node)).map RequestRow.requestId).Nodup :=
    (List.filter_sublist.map _).nodup db'.requests.nodup
  have hsub := List.subperm_of_subset hnodup (fun rid hrid => h rid (mem_counted.mp hrid))
  rw [nodeDepth_eq]
  simpa using hsub.length_le

theorem nodeDepth_le (h : ∀ rid, db'.counts node rid = true → db.counts node rid = true) :
    db'.nodeDepth node ≤ db.nodeDepth node := by
  have hle := nodeDepth_le_of_subset (fun rid hrid => mem_counted.mpr (h rid hrid))
  simpa [nodeDepth_eq] using hle

/-- One request may have come onto the node. -/
theorem nodeDepth_le_succ {own : String}
    (h : ∀ rid, rid ≠ own → db'.counts node rid = true → db.counts node rid = true) :
    db'.nodeDepth node ≤ db.nodeDepth node + 1 := by
  have hsub : ∀ rid, db'.counts node rid = true →
      rid ∈ own :: (db.requests.select (onNode node)).map RequestRow.requestId := by
    intro rid hrid
    by_cases he : rid = own
    · simp [he]
    · exact List.mem_cons_of_mem _ (mem_counted.mpr (h rid he hrid))
  have hle := nodeDepth_le_of_subset hsub
  simpa [nodeDepth_eq] using hle

end Counting

/-! ## One request -/

/-- A request bound to a service is bound to a node. -/
def RequestRow.Placed (r : RequestRow) : Prop := r.selectedServiceId ≠ none → r.selectedNodeId ≠ none

/-- How a request goes on from an earlier row of it: a service keeps its node; without one the node
it has while queued is the one it was submitted with, or none after a requeue. -/
structure Onward (r r' : RequestRow) : Prop where
  service : r'.selectedServiceId = r.selectedServiceId
  kept : r.selectedServiceId ≠ none → r'.selectedNodeId = r.selectedNodeId
  unbound : r.selectedServiceId = none → r'.state = .queued →
    r'.selectedNodeId = none ∨ (r.state = .queued ∧ r'.selectedNodeId = r.selectedNodeId)

section Rows

variable {r r₁ r' : RequestRow}

theorem Onward.refl (r : RequestRow) : Onward r r := ⟨rfl, fun _ => rfl, fun _ hs => .inr ⟨hs, rfl⟩⟩

theorem Onward.trans (h : Onward r r₁) (h' : Onward r₁ r') : Onward r r' where
  service := h'.service.trans h.service
  kept := fun hs => (h'.kept (h.service ▸ hs)).trans (h.kept hs)
  unbound := by
    intro hs hq
    rcases h'.unbound (h.service.trans hs) hq with hnone | ⟨hq₁, hnode⟩
    · exact .inl hnone
    · rcases h.unbound hs hq₁ with hnone | ⟨hq₀, hnode₀⟩
      · exact .inl (hnode.trans hnone)
      · exact .inr ⟨hq₀, hnode.trans hnode₀⟩

theorem Onward.placed (h : Onward r r') (hp : r.Placed) : r'.Placed := by
  intro hs
  rw [h.service] at hs
  rw [h.kept hs]
  exact hp hs

/-- A request while it is queued: where it was bound when it was read, or nowhere. -/
theorem Onward.queued (h : Onward r r') (hs : r'.state = .queued) :
    r'.selectedNodeId = none ∨ r'.selectedNodeId = r.selectedNodeId := by
  by_cases hservice : r.selectedServiceId = none
  · rcases h.unbound hservice hs with hnone | ⟨_, hnode⟩
    · exact .inl hnone
    · exact .inr hnode
  · exact .inr (h.kept hservice)

/-- A turn on one request that does not put it on the node. -/
structure QuietRow (node : String) (r r' : RequestRow) : Prop where
  onward : Onward r r'
  counted : onNode node r' = true → onNode node r = true

theorem QuietRow.refl (node : String) (r : RequestRow) : QuietRow node r r := ⟨.refl r, id⟩

/-- A turn that leaves the binding alone and leads into no counted state. -/
theorem quietRow_of_ended {node : String} (hservice : r'.selectedServiceId = r.selectedServiceId)
    (hnode : r'.selectedNodeId = r.selectedNodeId) (hs : r'.state.isTerminal = true) :
    QuietRow node r r' where
  onward := by
    refine ⟨hservice, fun _ => hnode, fun _ hq => ?_⟩
    rw [hq] at hs
    cases hs
  counted := by
    intro hon
    simp only [onNode, decide_eq_true_eq] at hon
    rcases hon.2.1 with h | h | h <;> (rw [h] at hs; cases hs)

/-- A turn that leaves the binding, the kind and the state alone. -/
theorem quietRow_of_same {node : String} (hservice : r'.selectedServiceId = r.selectedServiceId)
    (hnode : r'.selectedNodeId = r.selectedNodeId) (hkind : r'.requestKind = r.requestKind)
    (hs : r'.state = r.state) : QuietRow node r r' where
  onward := ⟨hservice, fun _ => hnode, fun _ hq => .inr ⟨hs ▸ hq, hnode⟩⟩
  counted := by
    intro hon
    simp only [onNode, hnode, hkind, hs] at hon ⊢
    exact hon

/-- A turn that sends the request back. -/
theorem quietRow_of_unbind {node : String} (hservice : r'.selectedServiceId = r.unbind.selectedServiceId)
    (hnode : r'.selectedNodeId = r.unbind.selectedNodeId) (hs : r'.state = .queued) :
    QuietRow node r r' where
  onward := by
    unfold RequestRow.unbind at hservice hnode
    split at hservice
    · rename_i hnone
      rw [if_pos hnone] at hnode
      exact ⟨hservice, fun h => absurd hnone h, fun _ _ => .inl hnode⟩
    · rename_i hsome
      rw [if_neg hsome] at hnode
      exact ⟨hservice, fun _ => hnode, fun h => absurd h hsome⟩
  counted := by
    intro hon
    simp [onNode, hs] at hon

theorem quietRow_claim {node : String} (lease : String) (computeLease : Option String)
    (args : ClaimArgs) (hs : r.state = .ready) : QuietRow node r (r.claim lease computeLease args) where
  onward := ⟨rfl, fun _ => rfl, fun _ hq => by cases hq⟩
  counted := by
    intro hon
    simp only [onNode, RequestRow.claim, decide_eq_true_eq, hs] at hon ⊢
    exact ⟨hon.1, .inr (.inl trivial), hon.2.2⟩

/-- A request that becomes ready goes on from where it was, and onto the node only if it was bound to
it or is bound to it now. -/
theorem onward_makeReady (bind : Option String) (nodeIds : Option (List String)) (now : Time)
    (hp : r.Placed) : Onward r (r.makeReady bind nodeIds now) where
  service := rfl
  kept := by
    intro hs
    obtain ⟨node, hnode⟩ := Option.ne_none_iff_exists'.mp (hp hs)
    simp only [RequestRow.makeReady, hnode, Option.some_or]
  unbound := fun _ hq => by cases hq

theorem onNode_makeReady {node : String} {bind : Option String} {nodeIds : Option (List String)}
    {now : Time} (hbind : bind ≠ some node) (hnode : r.selectedNodeId ≠ some node) :
    onNode node (r.makeReady bind nodeIds now) = false := by
  have hne : r.selectedNodeId.or bind ≠ some node := by
    cases h : r.selectedNodeId with
    | none => exact hbind
    | some m => rw [h] at hnode; exact hnode
  simp [onNode, RequestRow.makeReady, hne]

end Rows

/-! ## One step -/

/-- A step that moves every request onward and puts none on the node; new requests are not on it. -/
structure Quiet (node : String) (db db' : Db) : Prop where
  row : ∀ k r, db.request? k = some r → ∃ r', db'.request? k = some r' ∧ QuietRow node r r'
  fresh : ∀ k r, db.request? k = none → db'.request? k = some r → r.Placed ∧ onNode node r = false

section Steps

variable {node : String} {db db₁ db' : Db}

namespace Quiet

theorem same (h : db'.request? = db.request?) : Quiet node db db' where
  row k r hr := ⟨r, by rw [h]; exact hr, .refl node r⟩
  fresh k r hn hr := by
    rw [h, hn] at hr
    cases hr

theorem refl (db : Db) : Quiet node db db := same rfl

theorem trans (h : Quiet node db db₁) (h' : Quiet node db₁ db') : Quiet node db db' where
  row := by
    intro k r hr
    obtain ⟨r₁, hr₁, hq⟩ := h.row k r hr
    obtain ⟨r', hr', hq'⟩ := h'.row k r₁ hr₁
    exact ⟨r', hr', hq.onward.trans hq'.onward, fun hon => hq.counted (hq'.counted hon)⟩
  fresh := by
    intro k r' hn hr'
    cases hr₁ : db₁.request? k with
    | none => exact h'.fresh k r' hr₁ hr'
    | some r₁ =>
      obtain ⟨hp, hon⟩ := h.fresh k r₁ hn hr₁
      obtain ⟨r₂, hr₂, hq⟩ := h'.row k r₁ hr₁
      rw [hr'] at hr₂
      cases hr₂
      refine ⟨hq.onward.placed hp, ?_⟩
      by_contra hc
      rw [hq.counted (by simpa using hc)] at hon
      cases hon

theorem update {p : RequestRow → Bool} {f : RequestRow → RequestRow}
    {hf : ∀ r, (f r).requestId = r.requestId} (h : ∀ r, p r = true → QuietRow node r (f r)) :
    Quiet node db (db.updateRequests p f hf) where
  row := by
    intro k r hr
    have hup : (db.updateRequests p f hf).request? k = _ := Table.find?_update db.requests p f hf k
    refine ⟨if p r then f r else r, ?_, ?_⟩
    · rw [hup]
      exact congrArg (Option.map _) hr
    · split
      · rename_i hp
        exact h r hp
      · exact .refl node r
  fresh := by
    intro k r hn hr
    have hup : (db.updateRequests p f hf).request? k = _ := Table.find?_update db.requests p f hf k
    rw [hup, show db.requests.find? k = none from hn] at hr
    cases hr

theorem event (h : Quiet node db db') {now : Time} {rid type : String} {s : RequestState}
    {payload : JsonObj} : Quiet node db (db'.event now rid type s payload) := h.trans (same rfl)

theorem release (h : Quiet node db db') {id : Option String} :
    Quiet node db (db'.releaseUnusedComputeLease id) := h.trans (same (request?_release db' id))

theorem refresh (h : Quiet node db db') {now : Time} {bid : String} :
    Quiet node db (db'.refreshBatch now bid) := h.trans (same rfl)

theorem fold {turn : RequestRow → Db → Db} (h : ∀ row db, Quiet node db (turn row db))
    (rows : List RequestRow) (db : Db) :
    Quiet node db (rows.foldl (fun db row => turn row db) db) := by
  induction rows generalizing db with
  | nil => exact .refl db
  | cons row rows ih => exact (h row db).trans (ih (turn row db))

/-- It brings no request into the count. -/
theorem counts (h : Quiet node db db') {rid : String} (hc : db'.counts node rid = true) :
    db.counts node rid = true := by
  cases hr : db.request? rid with
  | none =>
    cases hr' : db'.request? rid with
    | none => simp [Db.counts, hr'] at hc
    | some r' => simp [Db.counts, hr', (h.fresh rid r' hr hr').2] at hc
  | some r =>
    obtain ⟨r', hr', hq⟩ := h.row rid r hr
    simp only [Db.counts, hr, hr', Option.any_some] at hc ⊢
    exact hq.counted hc

theorem nodeDepth (h : Quiet node db db') : db'.nodeDepth node ≤ db.nodeDepth node :=
  nodeDepth_le (fun _ hc => h.counts hc)

end Quiet

/-! ## The operations -/

theorem finishActions_quiet (args : FinishArgs) (row : RequestRow)
    (ht : args.state.isTerminal = true) (db : Db) :
    Quiet node db (execAll (finishActions args row) db) := by
  have hfinal : (args.final row).isTerminal = true := by
    unfold FinishArgs.final
    split
    · rfl
    · exact ht
  have hfinish : Quiet node db (db.updateRequests (holdsLease args.requestId args.leaseId)
      (RequestRow.finish (args.final row) (args.finalResult row) (args.finalError row) args.now)
      (RequestRow.finish_requestId _ _ _ _)) :=
    .update fun r _ => quietRow_of_ended rfl rfl hfinal
  simp only [finishActions, execAll_exec, execAll_nil]
  refine Quiet.refresh (Quiet.event (Quiet.release ?_))
  split
  · exact hfinish.trans (.same rfl)
  · exact hfinish

theorem retryActions_quiet (args : RetryArgs) (row : RequestRow) (db : Db) :
    Quiet node db (execAll (retryActions args row) db) := by
  have hkv : ∀ db : Db, Quiet node db (db.deleteRequestKv args.requestId) := fun _ => .same rfl
  unfold retryActions
  cases args.outcome row with
  | cancelled =>
    simp only [retryCancelledActions, execAll_exec, execAll_notice, execAll_nil]
    refine Quiet.refresh (Quiet.event (Quiet.release (Quiet.trans (.update fun r _ => ?_) (hkv _))))
    exact quietRow_of_ended rfl rfl rfl
  | requeued =>
    simp only [retryRequeuedActions, execAll_exec, execAll_nil]
    refine Quiet.refresh (Quiet.event (Quiet.release ((hkv db).trans (.update fun r _ => ?_))))
    exact quietRow_of_unbind rfl rfl rfl
  | failed | lost =>
    simp only [retryFailedActions, execAll_exec, execAll_nil]
    refine Quiet.refresh (Quiet.event (Quiet.release (Quiet.trans (.update fun r _ => ?_) (hkv _))))
    exact quietRow_of_ended rfl rfl rfl

theorem cancelTurn_quiet (args : CancelArgs) (row : RequestRow) (db : Db) :
    Quiet node db (execAll (cancelTurn args row) db) := by
  have hkv : ∀ db : Db, Quiet node db (db.deleteRequestKv row.requestId) := fun _ => .same rfl
  unfold cancelTurn
  cases args.choice row with
  | skip => exact .refl db
  | mark => exact .update fun r _ => quietRow_of_same rfl rfl rfl rfl
  | force | cancel =>
    simp only [cancelRowActions, execAll_exec, execAll_notice, execAll_nil]
    refine Quiet.event (Quiet.release (Quiet.trans (.update fun r _ => ?_) (hkv _)))
    exact quietRow_of_ended rfl rfl rfl

theorem cancelActions_quiet (args : CancelArgs) (rows : List RequestRow) (db : Db) :
    Quiet node db (execAll (cancelActions args rows) db) := by
  rw [cancelActions, execAll_append, execAll_flatMap]
  exact (Quiet.fold (cancelTurn_quiet args) rows db).trans (.same (request?_refreshBatches _ _ _))

theorem reapTurn_quiet (args : ReapArgs) (row : RequestRow) (db : Db) :
    Quiet node db (execAll (reapTurn args row) db) := by
  unfold reapTurn reapUpdate
  split
  · simp only [List.cons_append, List.nil_append, execAll_exec, execAll_notice, execAll_nil]
    refine Quiet.refresh (Quiet.event (Quiet.release (.update fun r _ => ?_)))
    exact quietRow_of_ended rfl rfl rfl
  · simp only [List.cons_append, List.nil_append, execAll_exec, execAll_nil]
    have hkv : Quiet node db (db.deleteRequestKv row.requestId) := .same rfl
    refine Quiet.refresh (Quiet.event (Quiet.release (hkv.trans (.update fun r _ => ?_))))
    exact quietRow_of_unbind rfl rfl rfl

theorem releasePrefilling_quiet (reason : String) (staleS now : Time) (db : Db) :
    Quiet node db (releasePrefilling reason staleS now db).1 := by
  have hturn : ∀ (row : RequestRow) (db : Db), Quiet node db
      ((db.event now row.requestId "jit_kv_recovered" .queued [("batch_id", .str row.batchId),
        ("reason", .str reason)]).releaseUnusedComputeLease row.computeLeaseId) :=
    fun row db => (Quiet.refl db).event.release
  unfold releasePrefilling
  refine Quiet.trans ?_ (.same (request?_refreshBatches _ _ _))
  refine Quiet.trans ?_ (Quiet.fold hturn _ _)
  exact .update fun r _ => quietRow_of_unbind rfl rfl rfl

theorem heartbeat_quiet (args : HeartbeatArgs) (db : Db) : Quiet node db (heartbeat args db).1 := by
  have hbeat : Quiet node db (db.updateRequests args.meets (RequestRow.beat args.now args.leaseTtlS)
      (RequestRow.beat_requestId args.now args.leaseTtlS)) :=
    .update fun r _ => quietRow_of_same rfl rfl rfl rfl
  exact hbeat.trans (.same rfl)

/-- A row as submission inserts it: bound to a service it is bound to a node, and it is not on one in a
counted state. -/
theorem insertRequest_quiet {row : RequestRow} {payload : JsonObj} {now : Time} (hp : row.Placed)
    (hon : onNode node row = false) (h : db.insertRequest row payload now = .ok db') :
    Quiet node db db' := by
  unfold Db.insertRequest at h
  split at h
  · cases h
  rename_i requests hreq
  cases h
  have hfind : ∀ k, ({ db with requests := requests } : Db).request? k =
      if k = row.requestId then some row else db.request? k := Table.find?_insert hreq
  have hfree : db.request? row.requestId = none := Table.insert?_fresh hreq
  refine Quiet.event ⟨?_, ?_⟩
  · intro k r hr
    have hne : k ≠ row.requestId := by
      rintro rfl
      rw [hfree] at hr
      cases hr
    exact ⟨r, by rw [hfind, if_neg hne]; exact hr, .refl node r⟩
  · intro k r hn hr
    rw [hfind] at hr
    split at hr
    · cases hr
      exact ⟨hp, hon⟩
    · rw [hn] at hr
      cases hr

theorem submitLoop_quiet (args : SubmitArgs) (bid : String) (reqs : List InferenceRequest) :
    ∀ {load : List (String × Nat)} {rows : List RequestRow} {db db' : Db},
      submitLoop args bid load reqs db = .ok (db', rows) → Quiet node db db' := by
  induction reqs with
  | nil =>
    intro load rows db db' h
    cases h
    exact .refl _
  | cons req reqs ih =>
    intro load rows db db' h
    obtain ⟨⟨row, load'⟩, hrow, h⟩ := bind_eq_ok h
    obtain ⟨db₁, hins, h⟩ := bind_eq_ok h
    obtain ⟨⟨db₂, rest⟩, hrest, h⟩ := bind_eq_ok h
    cases h
    obtain ⟨profileId, priority, assignment, _, rfl⟩ := submitRow_eq hrow
    refine (insertRequest_quiet ?_ ?_ hins).trans (ih hrest)
    · cases assignment with
      | none => exact fun hs => absurd rfl hs
      | some a => exact fun _ => nofun
    · cases assignment <;> simp [onNode, modelRow, blankRow, RequestRow.bind]

theorem submitCpuLoop_quiet (args : SubmitCpuArgs) (bid : String) (priority : Int)
    (items : List JsonObj) : ∀ {n : Nat} {rows : List RequestRow} {db db' : Db},
      submitCpuLoop args bid priority n items db = .ok (db', rows) → Quiet node db db' := by
  induction items with
  | nil =>
    intro n rows db db' h
    cases h
    exact .refl _
  | cons item items ih =>
    intro n rows db db' h
    obtain ⟨db₁, hins, h⟩ := bind_eq_ok h
    obtain ⟨⟨db₂, rest⟩, hrest, h⟩ := bind_eq_ok h
    cases h
    refine (insertRequest_quiet ?_ ?_ hins).trans (ih hrest)
    · exact fun hs => absurd rfl hs
    · simp [onNode, cpuRow, blankRow]

theorem insertBatch_quiet {bid : String} {now : Time} (h : db.insertBatch bid now = .ok db') :
    Quiet node db db' := by
  obtain ⟨b, rfl⟩ := insertBatch_eq h
  exact .same rfl

theorem submitRequests_quiet (args : SubmitArgs) (db : Db) :
    Quiet node db (committed db (submitRequests args db)) := by
  cases h : submitRequests args db with
  | error e => exact .refl db
  | ok res =>
    obtain ⟨db', r⟩ := res
    rcases submitRequests_ok h with ⟨_, rfl⟩ | ⟨_, db₁, db₂, rows, hb, hloop, rfl, _⟩
    · exact .refl _
    · exact ((insertBatch_quiet hb).trans (submitLoop_quiet args _ _ hloop)).refresh

theorem submitCpuRequests_quiet (args : SubmitCpuArgs) (db : Db) :
    Quiet node db (committed db (submitCpuRequests args db)) := by
  cases h : submitCpuRequests args db with
  | error e => exact .refl db
  | ok res =>
    obtain ⟨db', r⟩ := res
    obtain ⟨bid, priority, db₁, db₂, rows, hb, hloop, rfl⟩ := submitCpuRequests_ok h
    exact ((insertBatch_quiet hb).trans (submitCpuLoop_quiet args _ _ _ hloop)).refresh

/-! ## `claim_ready_batch`, from rows that were read earlier -/

/-- What `claim_ready_batch` does from the lease on. -/
def claimWrite (args : ClaimArgs) (first : RequestRow) (rows : List RequestRow) (db : Db) :
    Db × List QueueClaim :=
  let leased := db.claimLease args first rows.length
  match leased.2 with
  | .refused => (leased.1, [])
  | acquired =>
    let done := claimLoop args acquired.id? 0 rows leased.1
    let db := if done.2.isEmpty ∧ args.computeLeaseId = none ∧ acquired.id?.isSome then
        { done.1 with
          computeLeases := done.1.computeLeases.delete
            (fun l => acquired.id? = some l.computeLeaseId) }
      else done.1
    (db.refreshBatches args.now (done.2.map QueueClaim.batchId).dedup, done.2)

/-- The operation is its reads and then its writes. -/
theorem claimReadyBatch_eq (args : ClaimArgs) (db : Db) : claimReadyBatch args db =
    match db.claimRows args with
    | [] => (db, [])
    | first :: rest =>
      if db.claimWaits args first (first :: rest) then (db, [])
      else claimWrite args first (first :: rest) db := rfl

theorem started_quiet (args : ClaimArgs) (lease : String) (computeLease : Option String)
    (row : RequestRow) (db : Db) : Quiet node db (db.started args lease computeLease row) := by
  refine Quiet.event (.update fun r hp => quietRow_claim lease computeLease args ?_)
  simp only [decide_eq_true_eq] at hp
  exact hp.2

theorem claimLoop_quiet (args : ClaimArgs) (computeLease : Option String) (rows : List RequestRow) :
    ∀ (n : Nat) (db : Db), Quiet node db (claimLoop args computeLease n rows db).1 := by
  induction rows with
  | nil => intro n db; exact .refl db
  | cons row rows ih =>
    intro n db
    simp only [claimLoop]
    refine Quiet.trans ?_ (ih (n + 1) _)
    unfold claimRow
    split
    · exact started_quiet args _ computeLease row db
    · exact .refl db

theorem claimWrite_quiet (args : ClaimArgs) (first : RequestRow) (rows : List RequestRow) (db : Db) :
    Quiet node db (claimWrite args first rows db).1 := by
  have hlease : Quiet node db (db.claimLease args first rows.length).1 :=
    .same (claimLease_request? args first rows.length)
  unfold claimWrite
  simp only
  split
  · exact hlease
  · refine Quiet.trans ?_ (.same (request?_refreshBatches _ _ _))
    have hloop := hlease.trans (claimLoop_quiet args
      (db.claimLease args first rows.length).2.id? rows 0 _)
    split
    · exact hloop.trans (.same rfl)
    · exact hloop

/-! ## `prepare_ready`, from rows that were read earlier -/

/-- A step that moves every request onward. -/
structure Onwards (db db' : Db) : Prop where
  row : ∀ k r, db.request? k = some r → ∃ r', db'.request? k = some r' ∧ Onward r r'
  fresh : ∀ k r, db.request? k = none → db'.request? k = some r → r.Placed

def AllPlaced (db : Db) : Prop := ∀ k r, db.request? k = some r → r.Placed

theorem Quiet.onwards (h : Quiet node db db') : Onwards db db' where
  row := by
    intro k r hr
    obtain ⟨r', hr', hq⟩ := h.row k r hr
    exact ⟨r', hr', hq.onward⟩
  fresh := fun k r hn hr => (h.fresh k r hn hr).1

namespace Onwards

theorem refl (db : Db) : Onwards db db := (@Quiet.refl "" db).onwards

theorem placed (h : Onwards db db') (hp : AllPlaced db) : AllPlaced db' := by
  intro k r' hr'
  cases hr : db.request? k with
  | none => exact h.fresh k r' hr hr'
  | some r =>
    obtain ⟨r₁, hr₁, hon⟩ := h.row k r hr
    rw [hr'] at hr₁
    cases hr₁
    exact hon.placed (hp k r hr)

theorem trans (h : Onwards db db₁) (h' : Onwards db₁ db') : Onwards db db' where
  row := by
    intro k r hr
    obtain ⟨r₁, hr₁, hon⟩ := h.row k r hr
    obtain ⟨r', hr', hon'⟩ := h'.row k r₁ hr₁
    exact ⟨r', hr', hon.trans hon'⟩
  fresh := by
    intro k r' hn hr'
    cases hr₁ : db₁.request? k with
    | none => exact h'.fresh k r' hr₁ hr'
    | some r₁ =>
      obtain ⟨r₂, hr₂, hon⟩ := h'.row k r₁ hr₁
      rw [hr'] at hr₂
      cases hr₂
      exact hon.placed (h.fresh k r₁ hn hr₁)

end Onwards

def Db.isQueued (db : Db) (rid : String) : Bool := (db.request? rid).any (fun r => r.state = .queued)

/-- The row that was read has gone on to the one in the table. -/
def Tracked (db : Db) (row : RequestRow) : Prop :=
  ∃ r, db.request? row.requestId = some r ∧ Onward row r

theorem Tracked.onwards {row : RequestRow} (h : Tracked db row) (ho : Onwards db db') :
    Tracked db' row := by
  obtain ⟨r, hr, hon⟩ := h
  obtain ⟨r', hr', hon'⟩ := ho.row _ r hr
  exact ⟨r', hr', hon.trans hon'⟩

/-- A call that would not put the row on the node. -/
structure Elsewhere (node : String) (args : PrepareArgs) (row : RequestRow) : Prop where
  bind : bindNodeId args row ≠ some node
  row : row.selectedNodeId ≠ some node

theorem reserveKv_quiet {row : RequestRow} {n : Option String} {capacity : Int} {now : Time}
    {layout : Option Layout} (h : db.reserveKv row n capacity now layout = some db') :
    Quiet node db db' := by
  cases reserveKv_cases h with
  | unneeded _ => exact .refl _
  | noShards _ _ => exact .refl _
  | pipeline _ _ _ _ =>
    unfold Db.reserveShards
    refine Quiet.trans ?_ (.update fun r _ => quietRow_of_same rfl rfl rfl rfl)
    exact .same rfl
  | legacy _ _ _ _ _ _ => exact .same rfl

end Steps

end Queue
end Ds4Spark
