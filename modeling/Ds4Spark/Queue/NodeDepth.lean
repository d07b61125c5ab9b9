import Ds4Spark.Queue.Quiet

/-!
# Ds4Spark.Queue.NodeDepth

The cap on the depth of a node, with several processes. `prepare_ready` counts the depth of its node,
then selects its candidate rows, and only then writes: three steps, and other processes may write
between them.

* `Fleet`: the database and what each process has read in the call it is in.
* `StillRoom`: when a `prepare_ready` starts to write, the depth is not above its count, or there is
  room for its candidates all the same.
* `Capped`: the invariant; `node_depth_capped`: no more requests on the node than the cap.
-/

namespace Ds4Spark
namespace Queue

section Rows

variable {node : String} {db db₁ db' : Db} {args : PrepareArgs} {row : RequestRow}

theorem isQueued_iff {rid : String} :
    db.isQueued rid = true ↔ ∃ r, db.request? rid = some r ∧ r.state = .queued := by
  simp [Db.isQueued, Option.any_eq_true]

theorem reserveKv_isQueued {n : Option String} {capacity : Int} {now : Time}
    {layout : Option Layout} (h : db.reserveKv row n capacity now layout = some db') (rid : String) :
    db'.isQueued rid = db.isQueued rid := by
  cases reserveKv_cases h with
  | unneeded _ => rfl
  | noShards _ _ => rfl
  | legacy _ _ _ _ _ _ => rfl
  | pipeline _ _ _ _ =>
    have hup := Table.find?_update db.requests (fun r => r.requestId = row.requestId)
      (RequestRow.withShards _ _) (RequestRow.withShards_requestId (max 1
        (rowShards row n layout).length) (((rowShards row n layout).map Shard.size).foldl max 0)) rid
    unfold Db.isQueued
    rw [show (db.reserveShards _ _ _ _ _ _).request? rid = _ from hup, Option.any_map]
    cases hr : db.request? rid with
    | none =>
      rw [show db.requests.find? rid = none from hr]
      rfl
    | some r =>
      rw [show db.requests.find? rid = some r from hr]
      simp only [Option.any_some]
      split <;> rfl

/-- Whom the update of `prepare_ready` meets: its own row, while that is queued. -/
theorem prefilled_find? (args : PrepareArgs) (uuid : String) (row : RequestRow) (rid : String) :
    (db.prefilled args uuid row).request? rid = (db.request? rid).map (fun r =>
      if r.requestId = row.requestId ∧ r.state = .queued then
        r.makeReady (bindNodeId args row)
          (row.selectedNodeIds.or ((bindNodeId args row).map (fun n => [n]))) args.now
      else r) := by
  have hup := Table.find?_update db.requests
    (fun r => r.requestId = row.requestId ∧ r.state = .queued) (RequestRow.makeReady _ _ args.now)
    (RequestRow.makeReady_requestId (bindNodeId args row)
      (row.selectedNodeIds.or ((bindNodeId args row).map (fun n => [n]))) args.now) rid
  simp only [decide_eq_true_eq] at hup
  exact hup

theorem prefilled_other {uuid : String} {rid : String} (h : rid ≠ row.requestId) :
    (db.prefilled args uuid row).request? rid = db.request? rid := by
  rw [prefilled_find?]
  cases hr : db.request? rid with
  | none => rfl
  | some r =>
    have hne : r.requestId ≠ row.requestId := by
      rw [request?_requestId hr]
      exact h
    simp [hne]

theorem prefilled_onwards {uuid : String} (hp : AllPlaced db) :
    Onwards db (db.prefilled args uuid row) where
  row := by
    intro k r hr
    rw [prefilled_find?, hr, Option.map_some]
    refine ⟨_, rfl, ?_⟩
    split
    · exact onward_makeReady _ _ _ (hp k r hr)
    · exact .refl r
  fresh := by
    intro k r hn hr
    rw [prefilled_find?, hn] at hr
    cases hr

theorem prefilled_isQueued {uuid : String} {rid : String}
    (h : (db.prefilled args uuid row).isQueued rid = true) : db.isQueued rid = true := by
  obtain ⟨r', hr', hs⟩ := isQueued_iff.mp h
  rw [prefilled_find?] at hr'
  obtain ⟨r, hr, rfl⟩ := Option.map_eq_some_iff.mp hr'
  split at hs
  · cases hs
  · exact isQueued_iff.mpr ⟨r, hr, hs⟩

/-- A call for another node, on a row that has gone on since it was read. -/
theorem prefilled_counts {uuid : String} {rid : String} (he : Elsewhere node args row)
    (ht : Tracked db row) (hc : (db.prefilled args uuid row).counts node rid = true) :
    db.counts node rid = true := by
  unfold Db.counts at hc ⊢
  rw [prefilled_find?, Option.any_map] at hc
  obtain ⟨r, hr, hon⟩ := (Option.any_eq_true _ _).mp hc
  split at hon
  · rename_i hown
    obtain ⟨now, hnow, hward⟩ := ht
    have hkey : rid = row.requestId := (request?_requestId hr).symm.trans hown.1
    rw [← hkey, hr] at hnow
    cases hnow
    have hnode : r.selectedNodeId ≠ some node := by
      rcases hward.queued hown.2 with hnone | hsame
      · rw [hnone]
        exact nofun
      · rw [hsame]
        exact he.row
    rw [onNode_makeReady he.bind hnode] at hon
    cases hon
  · rw [hr]
    exact hon

/-! ## The loop -/

/-- What one turn of the loop can do, on a row that may be out of date. -/
theorem prepareRow_cases (args : PrepareArgs) (uuid : String) (row : RequestRow) (db : Db) :
    ((prepareRow args uuid row db).1.request? = db.request?) ∨
    ∃ db₁, Quiet node db db₁ ∧ (∀ rid, db₁.isQueued rid = db.isQueued rid) ∧
      ((prepareRow args uuid row db).1 = db₁ ∨
        (db.isQueued row.requestId = true ∧
          (prepareRow args uuid row db).1 = db₁.prefilled args uuid row)) := by
  unfold prepareRow
  cases h : db.reserveKv row (bindNodeId args row) args.kvCapacityBytes args.now (args.layout row) with
  | none => exact .inl rfl
  | some db₁ =>
    refine .inr ⟨db₁, reserveKv_quiet h, reserveKv_isQueued h, ?_⟩
    simp only
    split
    · rename_i hq
      exact .inr ⟨(reserveKv_isQueued h row.requestId).symm.trans hq, rfl⟩
    · exact .inl rfl

theorem prepareRow_onwards (uuid : String) (hp : AllPlaced db) :
    Onwards db (prepareRow args uuid row db).1 := by
  rcases @prepareRow_cases "" args uuid row db with hsame | ⟨db₁, hq, _, heq | ⟨_, heq⟩⟩
  · exact (@Quiet.same "" _ _ hsame).onwards
  · rw [heq]
    exact hq.onwards
  · rw [heq]
    exact hq.onwards.trans (prefilled_onwards (hq.onwards.placed hp))

theorem prepareRow_isQueued {uuid : String} {rid : String}
    (h : (prepareRow args uuid row db).1.isQueued rid = true) : db.isQueued rid = true := by
  rcases @prepareRow_cases "" args uuid row db with hsame | ⟨db₁, _, hqd, heq | ⟨_, heq⟩⟩
  · rwa [Db.isQueued, hsame] at h
  · rwa [heq, hqd] at h
  · rw [heq] at h
    rw [← hqd]
    exact prefilled_isQueued h

/-- One row more on the node, and only if it is still queued. -/
theorem prepareRow_nodeDepth (uuid : String) :
    (prepareRow args uuid row db).1.nodeDepth node ≤
      db.nodeDepth node + if db.isQueued row.requestId then 1 else 0 := by
  rcases @prepareRow_cases node args uuid row db with hsame | ⟨db₁, hq, _, heq | ⟨hown, heq⟩⟩
  · exact (Quiet.same hsame).nodeDepth.trans (Nat.le_add_right _ _)
  · rw [heq]
    exact hq.nodeDepth.trans (Nat.le_add_right _ _)
  · rw [heq, if_pos hown]
    refine @nodeDepth_le_succ _ _ node row.requestId (fun rid hne hc => hq.counts ?_)
    rwa [Db.counts, prefilled_other hne] at hc

theorem prepareRow_elsewhere (uuid : String) (he : Elsewhere node args row) (ht : Tracked db row) :
    (prepareRow args uuid row db).1.nodeDepth node ≤ db.nodeDepth node := by
  rcases @prepareRow_cases node args uuid row db with hsame | ⟨db₁, hq, _, heq | ⟨_, heq⟩⟩
  · exact (Quiet.same hsame).nodeDepth
  · rw [heq]
    exact hq.nodeDepth
  · rw [heq]
    exact nodeDepth_le (fun rid hc =>
      hq.counts (prefilled_counts he (ht.onwards hq.onwards) hc))

theorem prepareLoop_onwards (rows : List RequestRow) : ∀ (n : Nat) {db : Db}, AllPlaced db →
    Onwards db (prepareLoop args n rows db).1 := by
  induction rows with
  | nil => intro n db _; exact .refl db
  | cons row rows ih =>
    intro n db hp
    have hrow := @prepareRow_onwards db args row (args.uuid n) hp
    exact hrow.trans (ih (n + 1) (hrow.placed hp))

/-- The candidates of a call that are still queued. -/
def Db.stillQueued (db : Db) (rows : List RequestRow) : List RequestRow :=
  rows.filter (fun row => db.isQueued row.requestId)

theorem prepareLoop_nodeDepth (rows : List RequestRow) : ∀ (n : Nat) (db : Db),
    (prepareLoop args n rows db).1.nodeDepth node ≤
      db.nodeDepth node + (db.stillQueued rows).length := by
  induction rows with
  | nil => intro n db; exact le_rfl
  | cons row rows ih =>
    intro n db
    simp only [prepareLoop]
    have hrow := @prepareRow_nodeDepth node db args row (args.uuid n)
    have hrest := ih (n + 1) (prepareRow args (args.uuid n) row db).1
    have hfewer : ((prepareRow args (args.uuid n) row db).1.stillQueued rows).length ≤
        (db.stillQueued rows).length := by
      simp only [Db.stillQueued, ← List.countP_eq_length_filter]
      exact List.countP_mono_left (fun r _ hr => prepareRow_isQueued hr)
    have hcons : (db.stillQueued (row :: rows)).length =
        (if db.isQueued row.requestId then 1 else 0) + (db.stillQueued rows).length := by
      simp only [Db.stillQueued, List.filter_cons]
      split
      · rw [List.length_cons, Nat.add_comm]
      · rw [Nat.zero_add]
    omega

theorem prepareLoop_elsewhere (rows : List RequestRow) : ∀ (n : Nat) {db : Db}, AllPlaced db →
    (∀ row ∈ rows, Tracked db row ∧ Elsewhere node args row) →
    (prepareLoop args n rows db).1.nodeDepth node ≤ db.nodeDepth node := by
  induction rows with
  | nil => intro n db _ _; exact le_rfl
  | cons row rows ih =>
    intro n db hp h
    simp only [prepareLoop]
    have hon := @prepareRow_onwards db args row (args.uuid n) hp
    obtain ⟨ht, he⟩ := h row (by simp)
    refine (ih (n + 1) (hon.placed hp) (fun r hr => ?_)).trans (prepareRow_elsewhere _ he ht)
    obtain ⟨htr, her⟩ := h r (by simp [hr])
    exact ⟨htr.onwards hon, her⟩

end Rows

/-! ## The operations of one process -/

/-- What `prepare_ready` does once it has its candidate rows. -/
def prepareWrite (args : PrepareArgs) (rows : List RequestRow) (db : Db) : Db × Nat :=
  let done := prepareLoop args 0 rows db
  (done.1.refreshBatches args.now (done.2.map RequestRow.batchId).dedup, done.2.length)

/-- The operation is its count, its selection and then its writes. -/
theorem prepareReady_eq (args : PrepareArgs) (db : Db) : prepareReady args db =
    if db.remaining args ≤ 0 then (db, 0)
    else prepareWrite args
      (db.queuedRows args.scope args.eligibleProfileIds (db.remaining args)) db := rfl

/-- The depth a call counts: that of its node. -/
def Db.depthFor (db : Db) (args : PrepareArgs) : Nat := (args.scope.nodeId.map db.nodeDepth).getD 0

/-- Where a process is in its call: what it has read so far. -/
inductive Stage where
  | settling (p : Pending)
  | counted (args : PrepareArgs) (depth : Nat) (remaining : Int)
  | preparing (args : PrepareArgs) (depth : Nat) (rows : List RequestRow)
  | claiming (args : ClaimArgs) (first : RequestRow) (rows : List RequestRow)

inductive FleetCall where
  | settle (call : Call)
  | prepare (args : PrepareArgs)
  | claim (args : ClaimArgs)

/-- The first read; `none` when the call returns or raises right after it. -/
def FleetCall.read (db : Db) : FleetCall → Option Stage
  | .settle call => (call.read db).map .settling
  | .prepare args =>
    if db.remaining args ≤ 0 then none else some (.counted args (db.depthFor args) (db.remaining args))
  | .claim args =>
    match db.claimRows args with
    | [] => none
    | first :: rest =>
      if db.claimWaits args first (first :: rest) then none
      else some (.claiming args first (first :: rest))

/-- The next step of a call: `prepare_ready` selects its rows; the others write and are done. -/
def Stage.advance (db : Db) : Stage → Db × Option Stage
  | .settling p => (execAll p.actions db, none)
  | .counted args depth remaining =>
    (db, some (.preparing args depth (db.queuedRows args.scope args.eligibleProfileIds remaining)))
  | .preparing args _ rows => ((prepareWrite args rows db).1, none)
  | .claiming args first rows => ((claimWrite args first rows db).1, none)

/-- The operations taken as one step: their first statement writes, or what they read does not
matter to the depth of a node. -/
def Op.isWhole : Op → Bool
  | .prepareReady _ | .claimReadyBatch _ | .finishRequest _ | .retryTransportFailure _
  | .cancel _ => false
  | _ => true

/-- A call without a node selects no request of the node. -/
def Stage.spares (node : String) (db : Db) : Stage → Bool
  | .counted args _ remaining => args.scope.nodeId ≠ none ∨
      ∀ row ∈ db.queuedRows args.scope args.eligibleProfileIds remaining,
        row.selectedNodeId ≠ some node
  | _ => true

/-- A call for the node that is about to write: the depth is not above the one it counted, or its
candidates that are still queued fit all the same. -/
def Stage.hasRoom (node : String) (cap : Int) (db : Db) : Stage → Bool
  | .preparing args depth rows => args.scope.nodeId ≠ some node ∨ db.nodeDepth node ≤ depth ∨
      (db.nodeDepth node : Int) + (db.stillQueued rows).length ≤ cap
  | _ => true

structure Fleet where
  db : Db
  stage : Nat → Option Stage

namespace Fleet

def start : Fleet := ⟨Db.empty, fun _ => none⟩

inductive Label where
  | call (pid : Nat) (call : FleetCall)
  | advance (pid : Nat)
  | whole (op : Op) (h : op.isWhole = true)

/-- A process that calls again has given up its last call. -/
def next : Label → Fleet → Fleet
  | .call pid call, s => { s with stage := Function.update s.stage pid (call.read s.db) }
  | .advance pid, s =>
    match s.stage pid with
    | none => s
    | some st =>
      ⟨(st.advance s.db).1, Function.update s.stage pid (st.advance s.db).2⟩
  | .whole op _, s => { s with db := op.next s.db }

theorem next_idle {s : Fleet} {pid : Nat} (h : s.stage pid = none) : next (.advance pid) s = s := by
  simp only [next, h]

theorem next_advance {s : Fleet} {pid : Nat} {st : Stage} (h : s.stage pid = some st) :
    next (.advance pid) s =
      ⟨(st.advance s.db).1, Function.update s.stage pid (st.advance s.db).2⟩ := by
  simp only [next, h]

/-- Every `prepare_ready` for the node passes the same cap, and no call without a node selects a
request of the node. -/
def Agreed (node : String) (cap : Int) (s : Fleet) : Label → Prop
  | .call _ (.prepare args) => args.scope.nodeId = some node → args.maxNodeDepth = cap
  | .advance pid => (s.stage pid).all (Stage.spares node s.db) = true
  | _ => True

/-- When a `prepare_ready` of the node starts to write, there is still room. -/
def StillRoom (node : String) (cap : Int) (s : Fleet) : Label → Prop
  | .advance pid => (s.stage pid).all (Stage.hasRoom node cap s.db) = true
  | _ => True

end Fleet

/-! ## The invariant -/

section Steps

variable {node : String} {cap : Int} {db db' : Db}

theorem pending_quiet (p : Pending) (db : Db) : Quiet node db (execAll p.actions db) := by
  cases p with
  | finish args row ht => exact finishActions_quiet args row ht db
  | retry args row => exact retryActions_quiet args row db
  | cancel args rows _ => exact cancelActions_quiet args rows db

theorem whole_quiet {op : Op} (h : op.isWhole = true) (db : Db) : Quiet node db (op.next db) := by
  cases op with
  | submitRequests args => exact submitRequests_quiet args db
  | submitCpuRequests args => exact submitCpuRequests_quiet args db
  | requeueExpiredLeases args =>
    rw [Op.next, reaped_eq]
    have hdrop : Quiet node db (db.dropUnusedExpiredLeases args.now) := .same rfl
    exact hdrop.trans (Quiet.fold (reapTurn_quiet args) _ _)
  | heartbeat args => exact heartbeat_quiet args db
  | streamDelta args =>
    simp only [Op.next, streamDelta]
    split
    · exact .refl db
    · exact (Quiet.refl db).event
  | releasePrefilling reason staleS now => exact releasePrefilling_quiet reason staleS now db
  | status batchId now => exact (Quiet.refl db).refresh
  | prepareReady _ | claimReadyBatch _ | finishRequest _ | retryTransportFailure _ | cancel _ => cases h

/-- A selected row is in the table, and not bound to another node than the call's. -/
theorem queuedRows_spec {scope : Scope} {eligible : List String} {limit : Int} {row : RequestRow}
    (h : row ∈ db.queuedRows scope eligible limit) :
    db.request? row.requestId = some row ∧
      (scope.nodeId = none ∨ row.selectedNodeId = none ∨ row.selectedNodeId = scope.nodeId) := by
  have hm := List.mem_of_mem_take h
  rw [List.mem_insertionSort, Table.mem_select] at hm
  simp only [decide_eq_true_eq] at hm
  exact ⟨mem_rows_request? hm.1, hm.2.2.1⟩

theorem queuedRows_length {scope : Scope} {eligible : List String} {limit : Int} (h : 0 < limit) :
    ((db.queuedRows scope eligible limit).length : Int) ≤ limit := by
  have hle := List.length_take_le (max 1 limit).toNat ((db.requests.select (fun r =>
    r.state = .queued ∧ (scope.nodeId = none ∨ r.selectedNodeId = none ∨
      r.selectedNodeId = scope.nodeId) ∧ (eligible = [] ∨ r.selectedProfileId ∈ eligible) ∧
        db.inScope scope r)).insertionSort (fun a b => queuedBefore a b))
  unfold Db.queuedRows
  omega

theorem bindNodeId_elsewhere {args : PrepareArgs} {row : RequestRow}
    (hnode : args.scope.nodeId ≠ some node) (hrow : row.selectedNodeId ≠ some node) :
    Elsewhere node args row where
  bind := by
    unfold bindNodeId pyOr
    intro h
    obtain ⟨h, _⟩ := Option.filter_eq_some_iff.mp h
    split at h
    · exact hrow h
    · exact hnode h
  row := hrow

/-- What a call has read still bounds what it will do to the node. -/
def Stage.Fits (node : String) (cap : Int) (db : Db) : Stage → Prop
  | .settling _ | .claiming _ _ _ => True
  | .counted args depth remaining =>
    args.scope.nodeId = some node → 0 < remaining ∧ remaining ≤ cap - depth
  | .preparing args depth rows =>
    (args.scope.nodeId = some node → (rows.length : Int) ≤ cap - depth) ∧
      (args.scope.nodeId ≠ some node → ∀ row ∈ rows, Tracked db row ∧ Elsewhere node args row)

theorem Stage.Fits.onwards {st : Stage} (h : st.Fits node cap db) (ho : Onwards db db') :
    st.Fits node cap db' := by
  cases st with
  | settling p => trivial
  | claiming args first rows => trivial
  | counted args depth remaining => exact h
  | preparing args depth rows =>
    refine ⟨h.1, fun hne row hrow => ?_⟩
    obtain ⟨ht, he⟩ := h.2 hne row hrow
    exact ⟨ht.onwards ho, he⟩

end Steps

namespace Fleet

variable {node : String} {cap : Int}

/-- No more than the cap on the node, and every call under way fits. -/
structure Capped (node : String) (cap : Int) (s : Fleet) : Prop where
  depth : (s.db.nodeDepth node : Int) ≤ cap
  placed : AllPlaced s.db
  fits : ∀ pid st, s.stage pid = some st → st.Fits node cap s.db

/-- A call that has counted the node's depth fits. -/
theorem read_fits {s : Fleet} {pid : Nat} {call : FleetCall} {st : Stage} (hcap : 0 < cap)
    (hagreed : Agreed node cap s (.call pid call)) (h : call.read s.db = some st) :
    st.Fits node cap s.db := by
  cases call with
  | settle c =>
    obtain ⟨p, _, rfl⟩ := Option.map_eq_some_iff.mp h
    trivial
  | claim args =>
    simp only [FleetCall.read] at h
    split at h
    · cases h
    · split at h <;> cases h
      trivial
  | prepare args =>
    simp only [FleetCall.read] at h
    split at h
    · cases h
    · rename_i hpos
      cases h
      intro hnode
      refine ⟨not_le.mp hpos, ?_⟩
      have hmax : args.maxNodeDepth = cap := hagreed hnode
      simp only [Db.remaining, Db.depthFor, hnode, hmax, if_pos hcap, Option.map_some,
        Option.getD_some] at hpos ⊢
      omega

/-- The candidates of a call fit, once they are selected. -/
theorem selected_fits {s : Fleet} {pid : Nat} {args : PrepareArgs} {depth : Nat} {remaining : Int}
    (hagreed : Agreed node cap s (.advance pid))
    (hst : s.stage pid = some (.counted args depth remaining))
    (hfits : (Stage.counted args depth remaining).Fits node cap s.db) :
    (Stage.preparing args depth
      (s.db.queuedRows args.scope args.eligibleProfileIds remaining)).Fits node cap s.db := by
  constructor
  · intro hnode
    obtain ⟨hpos, hle⟩ := hfits hnode
    exact (queuedRows_length hpos).trans hle
  · intro hne row hrow
    obtain ⟨hstored, hscope⟩ := queuedRows_spec hrow
    refine ⟨⟨row, hstored, .refl row⟩, bindNodeId_elsewhere hne ?_⟩
    rcases hscope with hnone | hnone | hsame
    · have hspares : args.scope.nodeId ≠ none ∨ ∀ row ∈ s.db.queuedRows args.scope
          args.eligibleProfileIds remaining, row.selectedNodeId ≠ some node := by
        simpa [Agreed, hst, Stage.spares] using hagreed
      exact hspares.resolve_left (by simp [hnone]) row hrow
    · rw [hnone]
      exact nofun
    · rw [hsame]
      exact hne

/-- The writes of a call that fits: every request goes on, and the node keeps to the cap. -/
theorem advance_capped {s : Fleet} {pid : Nat} {st : Stage} (hs : Capped node cap s)
    (hst : s.stage pid = some st) (hroom : StillRoom node cap s (.advance pid)) :
    Onwards s.db (st.advance s.db).1 ∧ ((st.advance s.db).1.nodeDepth node : Int) ≤ cap := by
  have hquiet : ∀ {db'}, Quiet node s.db db' → Onwards s.db db' ∧ (db'.nodeDepth node : Int) ≤ cap :=
    fun hq => ⟨hq.onwards, (Int.ofNat_le.mpr hq.nodeDepth).trans hs.depth⟩
  have hfits := hs.fits pid st hst
  cases st with
  | settling p => exact hquiet (pending_quiet p s.db)
  | counted args depth remaining => exact hquiet (.refl s.db)
  | claiming args first rows => exact hquiet (claimWrite_quiet args first rows s.db)
  | preparing args depth rows =>
    have hfresh : ∀ {db : Db} {bids : List String},
        (db.refreshBatches args.now bids).nodeDepth node = db.nodeDepth node := by
      intro db bids
      have hreq : (db.refreshBatches args.now bids).request? = db.request? :=
        request?_refreshBatches _ _ _
      exact le_antisymm (Quiet.same hreq).nodeDepth (Quiet.same hreq.symm).nodeDepth
    refine ⟨(prepareLoop_onwards rows 0 hs.placed).trans
      (@Quiet.same node _ _ (request?_refreshBatches _ _ _)).onwards, ?_⟩
    simp only [Stage.advance, prepareWrite, hfresh]
    by_cases hnode : args.scope.nodeId = some node
    · have hloop := @prepareLoop_nodeDepth node args rows 0 s.db
      have hlen : (s.db.stillQueued rows).length ≤ rows.length := List.length_filter_le _ _
      have hcount := hfits.1 hnode
      have hroom' : s.db.nodeDepth node ≤ depth ∨
          (s.db.nodeDepth node : Int) + (s.db.stillQueued rows).length ≤ cap := by
        simpa [StillRoom, hst, Stage.hasRoom, hnode] using hroom
      -- an up-to-date count leaves room for every candidate
      rcases hroom' with hcurrent | hfit <;> omega
    · have hloop := prepareLoop_elsewhere rows 0 hs.placed (hfits.2 hnode)
      exact (Int.ofNat_le.mpr hloop).trans hs.depth

theorem next_capped {s : Fleet} {l : Label} (hcap : 0 < cap) (hagreed : Agreed node cap s l)
    (hroom : StillRoom node cap s l) (hs : Capped node cap s) : Capped node cap (next l s) := by
  have hstage : ∀ {db' : Db} {pid : Nat} {st? : Option Stage}, Onwards s.db db' →
      (∀ st, st? = some st → st.Fits node cap db') → ∀ k st,
      Function.update s.stage pid st? k = some st → st.Fits node cap db' := by
    intro db' pid st? ho hown k st hk
    by_cases he : k = pid
    · rw [he, Function.update_self] at hk
      exact hown st hk
    · rw [Function.update_of_ne he] at hk
      exact (hs.fits k st hk).onwards ho
  cases l with
  | call pid call =>
    have hown : ∀ st, call.read s.db = some st → st.Fits node cap s.db :=
      fun st h => read_fits hcap hagreed h
    exact ⟨hs.depth, hs.placed, hstage (.refl s.db) hown⟩
  | whole op hop =>
    have hq : Quiet node s.db (op.next s.db) := whole_quiet hop s.db
    refine ⟨(Int.ofNat_le.mpr hq.nodeDepth).trans hs.depth, hq.onwards.placed hs.placed, ?_⟩
    exact fun k st hk => (hs.fits k st hk).onwards hq.onwards
  | advance pid =>
    cases hst : s.stage pid with
    | none =>
      rw [next_idle hst]
      exact hs
    | some st =>
      rw [next_advance hst]
      obtain ⟨hon, hdepth⟩ := advance_capped hs hst hroom
      refine ⟨hdepth, hon.placed hs.placed, hstage hon (fun st' h => ?_)⟩
      cases st with
      | settling _ | preparing _ _ _ | claiming _ _ _ => cases h
      | counted args depth remaining =>
        cases h
        have hfits : (Stage.preparing args depth
            (s.db.queuedRows args.scope args.eligibleProfileIds remaining)).Fits node cap s.db :=
          selected_fits hagreed hst (hs.fits pid _ hst)
        exact hfits

theorem start_capped (hcap : 0 < cap) : Capped node cap start := by
  refine ⟨hcap.le, fun k r hr => ?_, fun pid st h => ?_⟩
  · cases hr
  · cases h

/-- A `prepare_ready` that nothing interrupts is the atomic operation. -/
theorem run_prepare (s : Fleet) (pid : Nat) (args : PrepareArgs) :
    (run next [.call pid (.prepare args), .advance pid, .advance pid] s).db =
      (prepareReady args s.db).1 := by
  rw [prepareReady_eq]
  by_cases h : s.db.remaining args ≤ 0
  · simp [next, FleetCall.read, h]
  · simp [next, FleetCall.read, h, Stage.advance]

/-- Such a call has room: what it counted is the depth it writes at. -/
theorem prepare_stillRoom (s : Fleet) (pid : Nat) (args : PrepareArgs) :
    Along next (StillRoom node cap) [.call pid (.prepare args), .advance pid, .advance pid] s := by
  have hcounted : ∀ {n : String}, args.scope.nodeId = some n →
      s.db.depthFor args = s.db.nodeDepth n := by
    intro n hn
    simp [Db.depthFor, hn]
  refine ⟨trivial, ?_, ?_, trivial⟩
  · by_cases h : s.db.remaining args ≤ 0 <;> simp [StillRoom, next, FleetCall.read, h, Stage.hasRoom]
  · by_cases h : s.db.remaining args ≤ 0
    · simp [StillRoom, next, FleetCall.read, h]
    · by_cases hn : args.scope.nodeId = some node
      · simp [StillRoom, next, FleetCall.read, h, Stage.advance, Stage.hasRoom, hcounted hn]
      · simp [StillRoom, next, FleetCall.read, h, Stage.advance, Stage.hasRoom, hn]

end Fleet

/-- The model requests bound to a node that are ready or running. -/
def Db.bound (db : Db) (node : String) : Nat :=
  (db.requests.select (fun r => r.requestKind = .model ∧ (r.state = .ready ∨ r.state = .running) ∧
    r.selectedNodeId = some node)).length

theorem bound_le_nodeDepth (db : Db) (node : String) : db.bound node ≤ db.nodeDepth node := by
  simp only [Db.bound, Db.nodeDepth, Table.select, ← List.countP_eq_length_filter]
  refine List.countP_mono_left (fun r _ h => ?_)
  simp only [decide_eq_true_eq] at h ⊢
  exact ⟨h.1, .inr h.2.1, h.2.2⟩

/-- The cap holds in every state of a run in which no `prepare_ready` of the node writes on a count
that is out of date without room for its candidates. -/
theorem node_depth_capped {node : String} {cap : Int} (hcap : 0 < cap) {ls : List Fleet.Label}
    (h : Along Fleet.next (fun s l => Fleet.Agreed node cap s l ∧ Fleet.StillRoom node cap s l) ls
      Fleet.start) :
    ∀ before, before <+: ls → ((run Fleet.next before Fleet.start).db.bound node : Int) ≤ cap := by
  rintro before ⟨after, rfl⟩
  have hcapped := (along_append.mp h).1.invariant (Fleet.Capped node cap)
    (fun s l hl hs => Fleet.next_capped hcap hl.1 hl.2 hs) (Fleet.start_capped hcap)
  exact (Int.ofNat_le.mpr (bound_le_nodeDepth _ node)).trans hcapped.depth

/-- Two batches of one request each, queued and bound to no node. -/
def twoQueued : List Fleet.Label :=
  [.whole (modelCall "A" ["r"] [] none 0) rfl, .whole (modelCall "B" ["s"] [] none 0) rfl]

/-- A `prepare_ready` of one batch for the node `n`, with the cap 1. -/
def prepareFor (batch : String) : FleetCall :=
  .prepare {
    scope := { nodeId := some "n", batchId := some batch, rowsNow := 1 }, eligibleProfileIds := ["p"]
    limit := 10, leasedBy := "w", maxNodeDepth := 1, uuid := fun n => toString n, now := 1 }

/-- The second call waits for the first: it finds the node full. -/
def oneAfterAnother : List Fleet.Label :=
  twoQueued ++ [.call 0 (prepareFor "A"), .advance 0, .advance 0, .call 1 (prepareFor "B"), .advance 1]

theorem node_depth_capped_full :
    ((run Fleet.next oneAfterAnother Fleet.start).db.bound "n" : Int) ≤ 1 := by
  refine @node_depth_capped "n" 1 (by decide) oneAfterAnother ?_ _ List.prefix_rfl
  refine ⟨⟨trivial, trivial⟩, ⟨trivial, trivial⟩, ⟨fun _ => rfl, trivial⟩, ?_, ?_,
    ⟨fun _ => rfl, trivial⟩, ?_, trivial⟩
  all_goals
    unfold Fleet.Agreed Fleet.StillRoom
    decide +kernel

/-- Both calls count the empty node before either of them writes. -/
def bothCountFirst : List Fleet.Label :=
  twoQueued ++ [.call 0 (prepareFor "A"), .call 1 (prepareFor "B"), .advance 0, .advance 1,
    .advance 0, .advance 1]

/-- Without the condition the cap fails, though both calls pass it and name the node. -/
theorem node_depth_overrun : ¬ ∀ (node : String) (cap : Int) (ls : List Fleet.Label), 0 < cap →
    Along Fleet.next (Fleet.Agreed node cap) ls Fleet.start →
    ((run Fleet.next ls Fleet.start).db.bound node : Int) ≤ cap := by
  intro h
  have hagreed : Along Fleet.next (Fleet.Agreed "n" 1) bothCountFirst Fleet.start := by
    refine ⟨trivial, trivial, fun _ => rfl, fun _ => rfl, ?_, ?_, ?_, ?_, trivial⟩
    all_goals
      unfold Fleet.Agreed
      decide +kernel
  have htwo : (run Fleet.next bothCountFirst Fleet.start).db.bound "n" = 2 := by decide +kernel
  have hle := h "n" 1 bothCountFirst (by decide) hagreed
  rw [htwo] at hle
  omega

end Queue
end Ds4Spark
