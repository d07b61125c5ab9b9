import Ds4Spark.Queue.Block
import Mathlib.Data.List.Dedup

/-!
# Ds4Spark.Queue.Batches

The counts of a batch row are those of the request rows. Between its first write and its commit an
operation has moved requests whose batch it has not refreshed yet, so the counts are tracked up to
a set of batches.

* `Fresh`: the row is what `_refresh_batch` would write.
* `StaleIn S`: the rows of all other batches are fresh. A write to a request of batch `b` adds `b`,
  `_refresh_batch` of `b` takes it off.
* `Moves S`: a write that leaves the batch rows, and the counts outside `S`. `Retains S`: one that
  also keeps what was submitted, which every write but an insert does.
* `Steady`: what an operation other than a submission does in the end.
-/

namespace Ds4Spark
namespace Queue

/-- The row is what `_refresh_batch` would write. -/
def Fresh (db : Db) (b : BatchRow) : Prop := db.batchCounts b.batchId b.updatedAt b = b

/-- The batches of a list. -/
def among (bids : List String) : Set String := {b | b ∈ bids}

@[simp] theorem mem_among {bids : List String} {b : String} : b ∈ among bids ↔ b ∈ bids := Iff.rfl

def StaleIn (S : Set String) (db : Db) : Prop := ∀ b ∈ db.batches.rows, b.batchId ∉ S → Fresh db b

structure Moves (S : Set String) (db db' : Db) : Prop where
  batches : db'.batches = db.batches
  counts : ∀ b, b ∉ S → db'.stateCount b = db.stateCount b

/-- What submission fixes of a request for good. -/
structure Submission where
  requestId : String
  batchId : String
  priority : Int
  requestJson : JsonObj
  requestJsonHash : Option String

def RequestRow.submission (r : RequestRow) : Submission :=
  ⟨r.requestId, r.batchId, r.priority, r.requestJson, r.requestJsonHash⟩

def Db.submissions (db : Db) : List Submission := db.requests.rows.map RequestRow.submission

structure Retains (S : Set String) (db db' : Db) : Prop extends Moves S db db' where
  submissions : db'.submissions = db.submissions

/-- An operation other than a submission, seen from the outside. -/
structure Steady (db db' : Db) : Prop where
  fresh : StaleIn ∅ db → StaleIn ∅ db'
  submissions : db'.submissions = db.submissions
  batchIds : db'.batches.rows.map BatchRow.batchId = db.batches.rows.map BatchRow.batchId

section Writes

variable {S T : Set String} {db db₁ db' : Db}

theorem stateCount_of_requests (h : db'.requests = db.requests) (b : String) :
    db'.stateCount b = db.stateCount b := by
  funext s
  simp only [Db.stateCount, h]

/-- An update of rows that keep their batch, and outside `S` their state, keeps the counts there. -/
theorem stateCount_update {p : RequestRow → Bool} {f : RequestRow → RequestRow}
    {hf : ∀ r, (f r).requestId = r.requestId} {b : String}
    (hb : ∀ r, (f r).batchId = r.batchId)
    (hs : ∀ r ∈ db.requests.rows, p r = true → r.batchId = b → (f r).state = r.state) :
    (db.updateRequests p f hf).stateCount b = db.stateCount b := by
  funext s
  simp only [Db.stateCount, Db.updateRequests, Table.select, Table.update, List.filter_map,
    List.length_map]
  refine congrArg List.length (List.filter_congr fun r hr => ?_)
  simp only [Function.comp_apply, decide_eq_decide]
  split
  · rename_i hp
    rw [hb]
    exact and_congr_right fun h => by rw [hs r hr hp h]
  · rfl

theorem stateCount_insert {requests : Table RequestRow RequestRow.requestId} {row : RequestRow}
    (h : db.requests.insert? row = some requests) {b : String} (hb : row.batchId ≠ b) :
    ({ db with requests := requests } : Db).stateCount b = db.stateCount b := by
  funext s
  unfold Table.insert? at h
  split at h
  · cases h
  · cases h
    simp [Db.stateCount, Table.select, List.filter_append, hb]

namespace Moves

theorem refl (S : Set String) (db : Db) : Moves S db db := ⟨rfl, fun _ _ => rfl⟩

theorem trans (h : Moves S db db₁) (h' : Moves S db₁ db') : Moves S db db' :=
  ⟨h'.batches.trans h.batches, fun b hb => (h'.counts b hb).trans (h.counts b hb)⟩

theorem stale (h : Moves T db db') (hs : StaleIn S db) : StaleIn (S ∪ T) db' := by
  intro b hb hn
  rw [h.batches] at hb
  have hf := hs b hb (fun hS => hn (.inl hS))
  have hc := h.counts b.batchId (fun hT => hn (.inr hT))
  simp only [Fresh, Db.batchCounts, Db.batchState, hc] at hf ⊢
  exact hf

end Moves

namespace Retains

theorem refl (S : Set String) (db : Db) : Retains S db db := ⟨.refl S db, rfl⟩

theorem trans (h : Retains S db db₁) (h' : Retains S db₁ db') : Retains S db db' :=
  ⟨h.toMoves.trans h'.toMoves, h'.submissions.trans h.submissions⟩

theorem mono (h : Retains S db db') (hST : S ⊆ T) : Retains T db db' :=
  ⟨⟨h.batches, fun b hb => h.counts b (fun hs => hb (hST hs))⟩, h.submissions⟩

theorem of_eq (hb : db'.batches = db.batches) (hr : db'.requests = db.requests) : Retains S db db' :=
  ⟨⟨hb, fun b _ => stateCount_of_requests hr b⟩, by rw [Db.submissions, hr]; rfl⟩

theorem update {p : RequestRow → Bool} {f : RequestRow → RequestRow}
    {hf : ∀ r, (f r).requestId = r.requestId} (hk : ∀ r, (f r).submission = r.submission)
    (hs : ∀ r ∈ db.requests.rows, p r = true → r.batchId ∉ S → (f r).state = r.state) :
    Retains S db (db.updateRequests p f hf) := by
  have hb : ∀ r, (f r).batchId = r.batchId := fun r => congrArg Submission.batchId (hk r)
  refine ⟨⟨rfl, fun _ hn => stateCount_update hb fun r hr hp he => hs r hr hp (he ▸ hn)⟩, ?_⟩
  simp only [Db.submissions, Db.updateRequests, Table.update, List.map_map]
  refine List.map_congr_left fun r _ => ?_
  simp only [Function.comp_apply]
  split
  · exact hk r
  · rfl

/-- An update of the row of one id, which the operation knows the batch of. -/
theorem update_own {p : RequestRow → Bool} {f : RequestRow → RequestRow}
    {hf : ∀ r, (f r).requestId = r.requestId} {row : RequestRow} {rid : String}
    (hk : ∀ r, (f r).submission = r.submission) (hp : ∀ r, p r = true → r.requestId = rid)
    (hrow : db.request? rid = some row) : Retains {row.batchId} db (db.updateRequests p f hf) := by
  refine .update hk fun r hr hpr hn => absurd ?_ hn
  have hrid := Table.find?_of_mem hr
  rw [hp r hpr] at hrid
  rw [Db.request?, hrid] at hrow
  cases hrow
  rfl

theorem event {now : Time} {id type : String} {s : RequestState} {payload : JsonObj}
    (h : Retains S db db') : Retains S db (db'.event now id type s payload) := h.trans (.of_eq rfl rfl)

theorem release {id : Option String} (h : Retains S db db') :
    Retains S db (db'.releaseUnusedComputeLease id) := by
  refine h.trans (.of_eq ?_ (release_requests db' id))
  unfold Db.releaseUnusedComputeLease
  split <;> rfl

end Retains

/-- `_refresh_batch` makes the row of its batch fresh and leaves the others. -/
theorem StaleIn.refreshBatch (h : StaleIn S db) (now : Time) (bid : String) :
    StaleIn (S \ {bid}) (db.refreshBatch now bid) := by
  intro b hb hn
  have hup : ∃ b₀ ∈ db.batches.rows,
      (if decide (b₀.batchId = bid) = true then db.batchCounts bid now b₀ else b₀) = b :=
    by simpa [Db.refreshBatch, Table.update] using hb
  obtain ⟨b₀, hb₀, rfl⟩ := hup
  by_cases hbid : b₀.batchId = bid
  · subst hbid
    simp only [decide_true, if_true]
    rfl
  · simp only [hbid, decide_false, Bool.false_eq_true, if_false] at hn ⊢
    have hf := h b₀ hb₀ (fun hS => hn ⟨hS, hbid⟩)
    exact hf

theorem StaleIn.refreshBatches (now : Time) (bids : List String) :
    ∀ {S : Set String} {db : Db}, StaleIn S db →
      StaleIn (S \ among bids) (db.refreshBatches now bids) := by
  induction bids with
  | nil => intro S db h b hb hn; exact h b hb (fun hS => hn ⟨hS, by simp⟩)
  | cons bid bids ih =>
    intro S db h
    have hrest := ih (h.refreshBatch now bid)
    intro b hb hn
    refine hrest b hb fun hmem => hn ⟨hmem.1.1, fun hin => ?_⟩
    rcases List.mem_cons.mp hin with rfl | hin
    · exact hmem.1.2 rfl
    · exact hmem.2 hin

theorem StaleIn.refreshed_singleton {bid : String} (h : StaleIn ({bid} ∪ {bid}) db) (now : Time) :
    StaleIn ∅ (db.refreshBatch now bid) := by
  simpa using h.refreshBatch now bid

/-- Once every stale batch is refreshed, every row is fresh. -/
theorem StaleIn.settled {bids : List String} (h : StaleIn S db) (now : Time)
    (hS : ∀ b ∈ S, b ∈ bids) : StaleIn ∅ (db.refreshBatches now bids) := by
  intro b hb _
  exact h.refreshBatches now bids b hb fun hn => hn.2 (hS b.batchId hn.1)

theorem batchIds_refreshBatches (db : Db) (now : Time) (bids : List String) :
    (db.refreshBatches now bids).batches.rows.map BatchRow.batchId =
      db.batches.rows.map BatchRow.batchId := by
  induction bids generalizing db with
  | nil => rfl
  | cons bid bids ih =>
    have hrest := ih (db.refreshBatch now bid)
    refine hrest.trans ?_
    simp only [Db.refreshBatch, Table.update, List.map_map]
    refine List.map_congr_left fun b _ => ?_
    simp only [Function.comp_apply]
    split <;> rfl

theorem Steady.refl (db : Db) : Steady db db := ⟨fun h => h, rfl, rfl⟩

theorem Steady.trans (h : Steady db db₁) (h' : Steady db₁ db') : Steady db db' :=
  ⟨fun hs => h'.fresh (h.fresh hs), h'.submissions.trans h.submissions, h'.batchIds.trans h.batchIds⟩

/-- Once every batch that was moved is refreshed, the operation is over. -/
theorem Retains.steady {bids : List String} (h : Retains S db db') (now : Time)
    (hS : ∀ b ∈ S, b ∈ bids) : Steady db (db'.refreshBatches now bids) where
  fresh := by
    intro hs
    refine (h.stale hs).settled now fun b hb => hS b ?_
    simpa using hb
  submissions := by
    rw [Db.submissions, refreshBatches_requests]
    exact h.submissions
  batchIds := by rw [batchIds_refreshBatches, h.batches]

/-- An operation that writes to one batch. -/
theorem Retains.refreshed {bid : String} (h : Retains {bid} db db') (now : Time) :
    Steady db (db'.refreshBatch now bid) :=
  @Retains.steady _ _ _ [bid] h now (fun b hb => by simpa using hb)

/-- An operation that writes to no batch. -/
theorem Retains.unrefreshed (h : Retains ∅ db db') : Steady db db' :=
  @Retains.steady _ _ _ [] h 0 (fun b hb => absurd hb (Set.notMem_empty b))

end Writes

/-! ## Submission -/

section Submission

variable {db db' : Db}

theorem insertRequest_moves {row : RequestRow} {payload : JsonObj} {now : Time}
    (h : db.insertRequest row payload now = .ok db') : Moves {row.batchId} db db' := by
  unfold Db.insertRequest at h
  split at h
  · cases h
  · rename_i requests hreq
    cases h
    exact ⟨rfl, fun b hb => stateCount_insert hreq (fun he => hb he.symm)⟩

theorem insertBatch_stale {bid : String} {now : Time} (h : db.insertBatch bid now = .ok db')
    (hs : StaleIn ∅ db) : StaleIn {bid} db' := by
  unfold Db.insertBatch at h
  split at h
  · cases h
  · rename_i batches hb
    cases h
    intro b hmem hn
    rcases (Table.mem_insert hb).mp hmem with hold | rfl
    · exact hs b hold (fun he => he)
    · exact absurd rfl hn

theorem modelRow_batchId (env : SubmitEnv) (req : InferenceRequest) (bid profileId : String)
    (priority : Int) (assignment : Option SparkAssignment) (now : Time) :
    (modelRow env req bid profileId priority assignment now).batchId = bid := by
  cases assignment <;> rfl

theorem submitLoop_moves (args : SubmitArgs) (bid : String) (reqs : List InferenceRequest) :
    ∀ {load : List (String × Nat)} {rows : List RequestRow} {db db' : Db},
      submitLoop args bid load reqs db = .ok (db', rows) → Moves {bid} db db' := by
  induction reqs with
  | nil =>
    intro load rows db db' h
    cases h
    exact .refl _ _
  | cons req reqs ih =>
    intro load rows db db' h
    obtain ⟨⟨row, load'⟩, hrow, h⟩ := bind_eq_ok h
    obtain ⟨db₁, hins, h⟩ := bind_eq_ok h
    obtain ⟨⟨db₂, rest⟩, hrest, h⟩ := bind_eq_ok h
    cases h
    obtain ⟨profileId, priority, assignment, _, rfl⟩ := submitRow_eq hrow
    have hmoves := insertRequest_moves hins
    rw [modelRow_batchId] at hmoves
    exact hmoves.trans (ih hrest)

theorem submitCpuLoop_moves (args : SubmitCpuArgs) (bid : String) (priority : Int)
    (items : List JsonObj) : ∀ {n : Nat} {rows : List RequestRow} {db db' : Db},
      submitCpuLoop args bid priority n items db = .ok (db', rows) → Moves {bid} db db' := by
  induction items with
  | nil =>
    intro n rows db db' h
    cases h
    exact .refl _ _
  | cons item items ih =>
    intro n rows db db' h
    obtain ⟨db₁, hins, h⟩ := bind_eq_ok h
    obtain ⟨⟨db₂, rest⟩, hrest, h⟩ := bind_eq_ok h
    cases h
    exact (insertRequest_moves hins).trans (ih hrest)

end Submission

/-! ## From `queued` to `running` -/

section Dispatch

variable {db db' : Db} {row : RequestRow}

theorem reserveKv_retains {node : Option String} {capacity : Int} {now : Time} {layout : Option Layout}
    (h : db.reserveKv row node capacity now layout = some db') : Retains ∅ db db' := by
  cases reserveKv_cases h with
  | unneeded _ => exact .refl _ _
  | noShards _ _ => exact .refl _ _
  | pipeline _ _ _ _ =>
    have hpools : ∀ sid evs key count shards,
        Retains ∅ db ((db.dropShards sid evs).putShards row sid key now count shards) :=
      fun _ _ _ _ _ => .of_eq rfl rfl
    unfold Db.reserveShards
    exact (hpools _ _ _ _ _).trans (.update (fun _ => rfl) (fun _ _ _ _ => rfl))
  | legacy _ _ _ _ _ _ => exact .of_eq rfl rfl

theorem prepareLoop_retains {args : PrepareArgs} (rows : List RequestRow) :
    ∀ {n : Nat} {db : Db}, Current rows db → (∀ row ∈ rows, row.state = .queued) →
      Retains (among ((prepareLoop args n rows db).2.map RequestRow.batchId)) db
        (prepareLoop args n rows db).1 := by
  induction rows with
  | nil => intro n db _ _; exact .refl _ _
  | cons row rows ih =>
    intro n db hcur hq
    have hs : row.state = .queued := hq row (by simp)
    have hrest : ∀ r ∈ rows, r.state = .queued := fun r hr => hq r (List.mem_cons_of_mem row hr)
    simp only [prepareLoop]
    cases h : db.reserveKv row (bindNodeId args row) args.kvCapacityBytes args.now (args.layout row) with
    | none =>
      rw [prepareRow_waits (args.uuid n) h]
      have hcur' : Current rows (db.capacityWait args row) := hcur.tail (fun k _ => rfl)
      exact Retains.trans (Retains.refl _ db).event (ih hcur' hrest)
    | some db₁ =>
      rw [prepareRow_ready (args.uuid n) hcur.head hs h]
      have hcur' : Current rows (db₁.prefilled args (args.uuid n) row) := by
        obtain ⟨_, _, hreq⟩ := prefilled_request? (args.uuid n) hcur.head hs h
        refine hcur.tail (fun k hk => ?_)
        rw [hreq, Function.update_of_ne hk]
      obtain ⟨count, bytes, hreq⟩ := reserveKv_request? hcur.head h
      have hrow₁ : db₁.request? row.requestId = some (row.withShards count bytes) := by
        rw [hreq, Function.update_self]
      have hready : Retains {row.batchId} db₁ (db₁.prefilled args (args.uuid n) row) := by
        change Retains {(row.withShards count bytes).batchId} db₁ _
        refine Retains.event (.update_own (fun _ => rfl) ?_ hrow₁)
        intro r hr
        simp only [decide_eq_true_eq] at hr
        exact hr.1
      have hfirst := ((reserveKv_retains h).mono (Set.empty_subset _)).trans hready
      refine Retains.trans (hfirst.mono ?_) ((ih hcur' hrest).mono ?_)
      · rintro b rfl
        simp
      · intro b hb
        simpa using Or.inr hb

theorem prepareReady_steady (args : PrepareArgs) : Steady db (prepareReady args db).1 := by
  unfold prepareReady
  simp only
  split
  · exact .refl db
  · have hretains := @prepareLoop_retains args _ 0 _
      (queuedRows_current db args.scope args.eligibleProfileIds (db.remaining args))
      (fun _ => queuedRows_queued)
    exact hretains.steady args.now fun b hb => by simpa using hb

theorem claimLoop_retains {args : ClaimArgs} {id : Option String} (rows : List RequestRow) :
    ∀ {n : Nat} {db : Db}, Current rows db → (∀ row ∈ rows, row.state = .ready) →
      Retains (among ((claimLoop args id n rows db).2.map QueueClaim.batchId)) db
        (claimLoop args id n rows db).1 := by
  induction rows with
  | nil => intro n db _ _; exact .refl _ _
  | cons row rows ih =>
    intro n db hcur hready
    have hs : row.state = .ready := hready row (by simp)
    have hrest : ∀ r ∈ rows, r.state = .ready := fun r hr => hready r (List.mem_cons_of_mem row hr)
    simp only [claimLoop]
    rw [claimRow_ready args _ id hcur.head hs]
    have hcur' : Current rows (db.started args (args.leasedBy ++ ":run:" ++ args.uuid n) id row) := by
      refine hcur.tail (fun k hk => ?_)
      rw [started_request? args _ id hcur.head hs, Function.update_of_ne hk]
    have hstarted : Retains {row.batchId} db
        (db.started args (args.leasedBy ++ ":run:" ++ args.uuid n) id row) := by
      refine Retains.event (.update_own (fun _ => rfl) ?_ hcur.head)
      intro r hr
      simp only [decide_eq_true_eq] at hr
      exact hr.1
    refine Retains.trans (hstarted.mono ?_) ((ih hcur' hrest).mono ?_)
    · rintro b rfl
      simp [claimOf]
    · intro b hb
      simpa using Or.inr hb

theorem claimLease_retains (args : ClaimArgs) (first : RequestRow) (count : Nat) :
    Retains ∅ db (db.claimLease args first count).1 := by
  refine .of_eq ?_ (claimLease_frame args first count).1
  have hcases := @claimLease_cases db args first count
  generalize db.claimLease args first count = out at hcases
  rcases hcases with ⟨_, rfl⟩ | ⟨_, hout⟩ | ⟨_, hout⟩
  · rfl
  · cases hout <;> rfl
  · cases hout <;> rfl

theorem claimReadyBatch_steady (args : ClaimArgs) : Steady db (claimReadyBatch args db).1 := by
  unfold claimReadyBatch
  split
  · exact .refl db
  · rename_i first rest hrows
    simp only
    split
    · exact .refl db
    have hleased := @claimLease_retains db args first (first :: rest).length
    split
    · exact hleased.unrefreshed
    · have hready : ∀ row ∈ first :: rest, row.state = .ready := by
        obtain ⟨_, _, _, hspec⟩ := claimRows_spec db args
        rw [hrows] at hspec
        exact fun row hrow => (hspec row hrow).1
      have hcur : Current (first :: rest) (db.claimLease args first (first :: rest).length).1 := by
        have hc := claimRows_current db args
        rw [hrows] at hc
        exact ⟨hc.nodup, fun r hr => by rw [claimLease_request?]; exact hc.stored r hr⟩
      have hloop := @claimLoop_retains args
        (db.claimLease args first (first :: rest).length).2.id? _ 0 _ hcur hready
      have hall := (hleased.mono (Set.empty_subset _)).trans hloop
      refine Retains.steady (hall.trans (.of_eq ?_ ?_)) args.now fun b hb => by simpa using hb
      · split <;> rfl
      · split <;> rfl

end Dispatch

/-! ## The ends of a request -/

section Settle

variable {db : Db} {row : RequestRow}

theorem holdsLease_requestId {rid lease : String} {r : RequestRow} (h : holdsLease rid lease r = true) :
    r.requestId = rid := by
  simp only [holdsLease, decide_eq_true_eq] at h
  exact h.1

theorem finish_steady (args : FinishArgs) (hrow : db.request? args.requestId = some row) :
    Steady db (execAll (finishActions args row) db) := by
  simp only [finishActions, execAll_exec, execAll_nil]
  refine Retains.refreshed (Retains.event (Retains.release ?_)) _
  have hfinish : Retains {row.batchId} db (db.updateRequests (holdsLease args.requestId args.leaseId)
      (RequestRow.finish (args.final row) (args.finalResult row) (args.finalError row) args.now)
      (RequestRow.finish_requestId _ _ _ _)) :=
    .update_own (fun _ => rfl) (fun _ => holdsLease_requestId) hrow
  split
  · exact hfinish.trans (.of_eq rfl rfl)
  · exact hfinish

theorem requeue_submission (error : String) (now : Time) (r : RequestRow) :
    (r.requeue error now).submission = r.submission := by
  unfold RequestRow.requeue RequestRow.dropLease RequestRow.unbind
  split <;> rfl

theorem retry_steady (args : RetryArgs) (hrow : db.request? args.requestId = some row) :
    Steady db (execAll (retryActions args row) db) := by
  have hkv : ∀ db : Db, Retains {row.batchId} db (db.deleteRequestKv args.requestId) :=
    fun _ => .of_eq rfl rfl
  unfold retryActions
  cases args.outcome row with
  | cancelled =>
    simp only [retryCancelledActions, execAll_exec, execAll_notice, execAll_nil]
    refine Retains.refreshed (Retains.event (Retains.release (Retains.trans ?_ (hkv _)))) _
    exact .update_own (fun _ => rfl) (fun _ => holdsLease_requestId) hrow
  | requeued =>
    simp only [retryRequeuedActions, execAll_exec, execAll_nil]
    refine Retains.refreshed (Retains.event (Retains.release ((hkv db).trans ?_))) _
    exact .update_own (requeue_submission _ _) (fun _ => holdsLease_requestId) hrow
  | failed | lost =>
    simp only [retryFailedActions, execAll_exec, execAll_nil]
    refine Retains.refreshed (Retains.event (Retains.release (Retains.trans ?_ (hkv _)))) _
    exact .update_own (fun _ => rfl) (fun _ => holdsLease_requestId) hrow

theorem cancelTurn_retains (args : CancelArgs) (hrow : db.request? row.requestId = some row) :
    Retains {row.batchId} db (execAll (cancelTurn args row) db) := by
  have hkv : ∀ db : Db, Retains {row.batchId} db (db.deleteRequestKv row.requestId) :=
    fun _ => .of_eq rfl rfl
  unfold cancelTurn
  cases args.choice row with
  | skip => exact .refl _ _
  | mark => exact .update_own (fun _ => rfl) (fun r hr => by simpa using hr) hrow
  | force | cancel =>
    simp only [cancelRowActions, execAll_exec, execAll_notice, execAll_nil]
    refine Retains.event (Retains.release (Retains.trans ?_ (hkv _)))
    exact .update_own (fun _ => rfl) (fun r hr => by simpa using hr) hrow

theorem cancelled_steady (args : CancelArgs) (target : CancelTarget) :
    Steady db (db.cancelled args target) := by
  obtain ⟨db', hsteps, heq⟩ := @cancelled_steps db args target
    (Retains (among ((db.cancelRows target).map RequestRow.batchId))) (fun row hr db' hc => by
      refine (cancelTurn_retains args hc).mono ?_
      rintro b rfl
      exact List.mem_map.mpr ⟨row, hr, rfl⟩)
  have hall := invariant_of_steps (Retains _ db) (fun _ _ hm hI => hI.trans hm) hsteps (.refl _ _)
  rw [heq]
  exact hall.steady args.now fun b hb => by simpa using hb

theorem reapRequeue_submission (now : Time) (r : RequestRow) :
    (r.reapRequeue now).submission = r.submission := by
  unfold RequestRow.reapRequeue RequestRow.dropLease RequestRow.unbind
  split <;> rfl

theorem reapTurn_steady (args : ReapArgs) (hrow : db.request? row.requestId = some row) :
    Steady db (execAll (reapTurn args row) db) := by
  unfold reapTurn reapUpdate
  split
  · simp only [List.cons_append, List.nil_append, execAll_exec, execAll_notice, execAll_nil]
    refine Retains.refreshed (Retains.event (Retains.release ?_)) _
    exact .update_own (fun _ => rfl) (fun r hr => by simpa using hr) hrow
  · simp only [List.cons_append, List.nil_append, execAll_exec, execAll_nil]
    have hkv : Retains {row.batchId} db (db.deleteRequestKv row.requestId) := .of_eq rfl rfl
    refine Retains.refreshed (Retains.event (Retains.release (hkv.trans ?_))) _
    exact .update_own (reapRequeue_submission _) (fun r hr => by simpa using hr) hrow

theorem requeueExpiredLeases_steady (args : ReapArgs) :
    Steady db (requeueExpiredLeases args db).1 := by
  have hsteps := @reaped_steps db args Steady (fun row _ db hc => reapTurn_steady args hc)
  have hdrop : Retains ∅ db (db.dropUnusedExpiredLeases args.now) := .of_eq rfl rfl
  exact invariant_of_steps (Steady db) (fun _ _ hstep h => h.trans hstep) hsteps hdrop.unrefreshed

theorem releasePrefilling_submission (now : Time) (r : RequestRow) :
    (r.releasePrefilling now).submission = r.submission := by
  unfold RequestRow.releasePrefilling RequestRow.unbind
  split <;> rfl

theorem prefillingRows_subperm (staleS now : Time) :
    (db.prefillingRows staleS now).Subperm db.requests.rows :=
  (List.perm_insertionSort _ _).subperm.trans List.filter_sublist.subperm

theorem releasePrefilling_steady (reason : String) (staleS now : Time) :
    Steady db (releasePrefilling reason staleS now db).1 := by
  unfold releasePrefilling
  simp only
  generalize hrows : db.prefillingRows staleS now = rows
  have hcur : Current rows db := .of_subperm (hrows ▸ prefillingRows_subperm staleS now)
  have hupdate : Retains (among (rows.map RequestRow.batchId)) db
      (db.updateRequests (fun r => r.requestId ∈ rows.map RequestRow.requestId)
        (RequestRow.releasePrefilling now) (RequestRow.releasePrefilling_requestId now)) := by
    refine .update (releasePrefilling_submission now) fun r hr hp hn => absurd ?_ hn
    simp only [decide_eq_true_eq, List.mem_map] at hp
    obtain ⟨row, hrow, hid⟩ := hp
    -- the row that was read under this id is the one in the table
    have hstored := hcur.stored row hrow
    rw [hid, mem_rows_request? hr] at hstored
    cases hstored
    exact List.mem_map.mpr ⟨r, hrow, rfl⟩
  refine @Retains.steady (among (rows.map RequestRow.batchId)) _ _ _ ?_ now
    (fun b hb => by simpa using hb)
  generalize db.updateRequests _ _ _ = db₁ at hupdate
  have hlog : ∀ (l : List RequestRow) (db₁ : Db),
      Retains (among (rows.map RequestRow.batchId)) db db₁ →
      Retains (among (rows.map RequestRow.batchId)) db (l.foldl (fun db row =>
        (db.event now row.requestId "jit_kv_recovered" .queued
          [("batch_id", .str row.batchId), ("reason", .str reason)]).releaseUnusedComputeLease
            row.computeLeaseId) db₁) := by
    intro l
    induction l with
    | nil => intro db₁ hm; exact hm
    | cons row l ih => intro db₁ hm; exact ih _ hm.event.release
  exact hlog rows db₁ hupdate

end Settle

/-! ## Every operation -/

theorem heartbeat_retains (args : HeartbeatArgs) (db : Db) : Retains ∅ db (heartbeat args db).1 := by
  have hbeat : Retains ∅ db (db.updateRequests args.meets (RequestRow.beat args.now args.leaseTtlS)
      (RequestRow.beat_requestId args.now args.leaseTtlS)) :=
    .update (fun _ => rfl) (fun _ _ _ _ => rfl)
  exact hbeat.trans (.of_eq rfl rfl)

theorem submitRequests_stale (args : SubmitArgs) {db : Db} (h : StaleIn ∅ db) :
    StaleIn ∅ (committed db (submitRequests args db)) := by
  cases hsub : submitRequests args db with
  | error e => exact h
  | ok res =>
    obtain ⟨db', r⟩ := res
    simp only [committed]
    rcases submitRequests_ok hsub with ⟨_, rfl⟩ | ⟨_, db₁, db₂, rows, hb, hloop, rfl, _⟩
    · exact h
    · have hstale := (submitLoop_moves args _ _ hloop).stale (insertBatch_stale hb h)
      exact hstale.refreshed_singleton args.now

theorem submitCpuRequests_stale (args : SubmitCpuArgs) {db : Db} (h : StaleIn ∅ db) :
    StaleIn ∅ (committed db (submitCpuRequests args db)) := by
  cases hsub : submitCpuRequests args db with
  | error e => exact h
  | ok res =>
    obtain ⟨db', r⟩ := res
    simp only [committed]
    obtain ⟨bid, priority, db₁, db₂, rows, hb, hloop, rfl⟩ := submitCpuRequests_ok hsub
    have hstale := (submitCpuLoop_moves args _ _ _ hloop).stale (insertBatch_stale hb h)
    exact hstale.refreshed_singleton args.now

/-- Whether the call can insert requests. -/
def Op.submits : Op → Bool
  | .submitRequests _ | .submitCpuRequests _ => true
  | _ => false

theorem next_steady (op : Op) (db : Db) (hop : op.submits = false) : Steady db (op.next db) := by
  cases op with
  | submitRequests args => cases hop
  | submitCpuRequests args => cases hop
  | prepareReady args => exact prepareReady_steady args
  | claimReadyBatch args => exact claimReadyBatch_steady args
  | finishRequest args =>
    simp only [Op.next, finishRequest]
    split
    · exact .refl db
    · split
      · exact .refl db
      · rename_i row hrow
        exact finish_steady args (running?_eq_some.mp hrow).1
  | retryTransportFailure args =>
    simp only [Op.next, retryTransportFailure]
    split
    · exact .refl db
    · rename_i row hrow
      exact retry_steady args (running?_eq_some.mp hrow).1
  | cancel args =>
    simp only [Op.next]
    cases hcancel : Queue.cancel args db with
    | error e => exact .refl db
    | ok res =>
      obtain ⟨target, ht, hres⟩ := bind_eq_ok hcancel
      cases hres
      exact cancelled_steady args target
  | requeueExpiredLeases args => exact requeueExpiredLeases_steady args
  | heartbeat args => exact (heartbeat_retains args db).unrefreshed
  | streamDelta args =>
    simp only [Op.next, streamDelta]
    split
    · exact .refl db
    · exact (Retains.refl ∅ db).event.unrefreshed
  | releasePrefilling reason staleS now => exact releasePrefilling_steady reason staleS now
  | status batchId now => exact ((Retains.refl ∅ db).mono (Set.empty_subset _)).refreshed now

/-- The step: an operation leaves every batch row fresh. -/
theorem next_fresh (op : Op) {db : Db} (h : StaleIn ∅ db) : StaleIn ∅ (op.next db) := by
  by_cases hop : op.submits = false
  · exact (next_steady op db hop).fresh h
  · cases op with
    | submitRequests args => exact submitRequests_stale args h
    | submitCpuRequests args => exact submitCpuRequests_stale args h
    | _ => exact absurd rfl hop

/-! ## What a client sees -/

/-- The columns `_batch_status` shows; `job_id` is the batch id again. -/
structure BatchStatus where
  batchId : String
  state : BatchState
  requestCount : Nat
  queuedCount : Nat
  prefillingCount : Nat
  readyCount : Nat
  runningCount : Nat
  completedCount : Nat
  failedCount : Nat
  cancelledCount : Nat
deriving DecidableEq

/-- `_batch_status`. -/
def batchStatus (b : BatchRow) : BatchStatus :=
  ⟨b.batchId, b.state, b.requestCount, b.queuedCount, b.prefillingCount, b.readyCount,
    b.runningCount, b.completedCount, b.failedCount, b.cancelledCount⟩

/-- `status(batch_id=.., refresh=..)`: the database and the answer; `none` for an unknown batch. -/
def Db.status (db : Db) (batchId : String) (refresh : Bool) (now : Time) : Db × Option BatchStatus :=
  let db := if refresh then db.refreshBatch now batchId else db
  (db, (db.batches.find? batchId).map batchStatus)

/-- The count column of a state. -/
def BatchRow.count (b : BatchRow) : RequestState → Nat
  | .queued => b.queuedCount
  | .prefilling => b.prefillingCount
  | .ready => b.readyCount
  | .running => b.runningCount
  | .completed => b.completedCount
  | .failed => b.failedCount
  | .cancelled => b.cancelledCount

/-- The aggregation rule, on the counts as the row has them. -/
def BatchRow.aggregate (b : BatchRow) : BatchState :=
  let terminal := b.completedCount + b.failedCount + b.cancelledCount
  let total := b.requestCount
  if total ≠ 0 ∧ b.completedCount = total then .completed
  else if total ≠ 0 ∧ b.cancelledCount = total then .cancelled
  else if total ≠ 0 ∧ terminal = total ∧ b.failedCount ≠ 0 then .completedWithFailures
  else if total ≠ 0 ∧ terminal = total then .completedWithCancelled
  else if b.runningCount ≠ 0 then .running
  else if b.readyCount ≠ 0 then .ready
  else if b.prefillingCount ≠ 0 then .prefilling
  else .queued

/-- The row tells the truth about the requests of its batch. -/
structure Aggregated (db : Db) (b : BatchRow) : Prop where
  requestCount : b.requestCount = (db.requests.select (fun r => r.batchId = b.batchId)).length
  counts : ∀ s, b.count s =
    (db.requests.select (fun r => r.batchId = b.batchId ∧ r.state = s)).length
  sum : b.queuedCount + b.prefillingCount + b.readyCount + b.runningCount + b.completedCount
    + b.failedCount + b.cancelledCount = b.requestCount
  state : b.state = b.aggregate

section Aggregate

variable {db : Db} {b : BatchRow}

/-- Every request is in one of the seven states. -/
theorem stateCount_sum (db : Db) (bid : String) :
    db.stateCount bid .queued + db.stateCount bid .prefilling + db.stateCount bid .ready
      + db.stateCount bid .running + db.stateCount bid .completed + db.stateCount bid .failed
      + db.stateCount bid .cancelled =
    (db.requests.select (fun r => r.batchId = bid)).length := by
  simp only [Db.stateCount, Table.select]
  induction db.requests.rows with
  | nil => rfl
  | cons r rows ih =>
    by_cases hb : r.batchId = bid
    · cases hs : r.state <;> simp [hb, hs] at ih ⊢ <;> omega
    · simpa [hb] using ih

theorem Fresh.aggregated (h : Fresh db b) : Aggregated db b where
  requestCount := by
    rw [← stateCount_sum, ← h]
    simp only [Db.batchCounts, Nat.add_assoc]
  counts := by
    intro s
    rw [← h]
    cases s <;> rfl
  sum := by
    rw [← h]
    simp only [Db.batchCounts]
  state := by
    rw [← h]
    simp only [Db.batchCounts, BatchRow.aggregate, Db.batchState, Nat.add_assoc]

theorem status_refresh (h : StaleIn ∅ db) (batchId : String) (now : Time) :
    (db.status batchId false now).2 = (db.status batchId true now).2 := by
  have hfind : (db.refreshBatch now batchId).batches.find? batchId = _ :=
    Table.find?_update db.batches (fun b => b.batchId = batchId) (db.batchCounts batchId now)
      (fun _ => rfl) batchId
  simp only [Db.status, Bool.false_eq_true, if_false, if_true, hfind]
  cases hb : db.batches.find? batchId with
  | none => rfl
  | some b =>
    obtain ⟨hmem, rfl⟩ := Table.find?_some hb
    have hf : Fresh db b := h b hmem (fun he => he)
    simp only [Option.map_some, decide_true, if_true, Option.some.injEq]
    -- a refresh changes the time of the row, which the answer does not show
    calc batchStatus b = batchStatus (db.batchCounts b.batchId b.updatedAt b) := by rw [hf]
      _ = batchStatus (db.batchCounts b.batchId now b) := rfl

end Aggregate

/-- After any run, every batch row agrees with its requests, and a status without a refresh is a
status with one. -/
theorem batches_agree (ops : List Op) :
    (∀ b ∈ (run Op.next ops Db.empty).batches.rows, Aggregated (run Op.next ops Db.empty) b) ∧
    ∀ batchId now, ((run Op.next ops Db.empty).status batchId false now).2 =
      ((run Op.next ops Db.empty).status batchId true now).2 := by
  have hfresh : StaleIn ∅ (run Op.next ops Db.empty) :=
    Reachable.invariant (StaleIn ∅) (fun _ hb => by cases hb) (fun _ op h => next_fresh op h) ⟨ops, rfl⟩
  exact ⟨fun b hb => (hfresh b hb (fun he => he)).aggregated, status_refresh hfresh⟩

/-- A batch of two requests, one of which has been cancelled while the other runs. -/
def halfCancelled : List Op :=
  [cpuCall ["r", "s"] 0, .claimReadyBatch (claimArgs "w" 1 1),
    .cancel { requestId := some "s", now := 2 }]

theorem batches_agree_halfCancelled :
    ((run Op.next halfCancelled Db.empty).status "cpu-b" false 3).2 =
      some ⟨"cpu-b", .running, 2, 0, 0, 0, 1, 0, 0, 1⟩ ∧
    ((run Op.next halfCancelled Db.empty).status "cpu-b" true 3).2 =
      some ⟨"cpu-b", .running, 2, 0, 0, 0, 1, 0, 0, 1⟩ := by
  rw [← (batches_agree halfCancelled).2 "cpu-b" 3]
  decide +kernel

end Queue
end Ds4Spark
